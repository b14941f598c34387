import EraOne.LicenseLease

set_option autoImplicit false

/- What `EvaluateLease` says of one lease at two times. The offline limit is looked at before the
grace end, and `applyDegradation` starts from two refusals. -/
namespace EraOne.License

open GoTime

/-- Worse is larger. -/
def LeaseStatus.rank : LeaseStatus → Nat
  | .valid => 0
  | .grace => 1
  | .expired => 2
  | .mismatch => 3

/-- While degraded, what the list names is refused and nothing else. -/
def LeaseEvaluation.RefusesListed (ev : LeaseEvaluation) (modes : List Str) : Prop :=
  ev.degraded = true →
    (ev.allowNewOnboarding = false ↔ degradeNoNewNodes ∈ modes) ∧
      (ev.allowUpdates = false ↔ degradeNoUpdates ∈ modes)

/-- The policy of a lease, for an evaluation and a later one. -/
structure FollowsPolicy (modes : List Str) (before later : LeaseEvaluation) : Prop where
  notBetter : before.status.rank ≤ later.status.rank
  onboarding : later.allowNewOnboarding = true → before.allowNewOnboarding = true
  updates : later.allowUpdates = true → before.allowUpdates = true
  refusesBefore : before.RefusesListed modes
  refusesLater : later.RefusesListed modes

theorem after_mono (t u limit : Time) (order : t.nanos ≤ u.nanos) (passed : t.after limit = true) :
    u.after limit = true := by
  rw [after_iff] at passed ⊢
  omega

theorem offlineTooLong_mono (c : LeaseClaims) (lastRenew t u : Time) (order : t.nanos ≤ u.nanos)
    (passed : c.offlineTooLong t lastRenew = true) : c.offlineTooLong u lastRenew = true := by
  unfold LeaseClaims.offlineTooLong at passed ⊢
  simp only [Bool.and_eq_true] at passed ⊢
  exact ⟨passed.1, after_mono t u _ order passed.2⟩

theorem limitPassed_mono (c : LeaseClaims) (lastRenew t u : Time) (order : t.nanos ≤ u.nanos)
    (passed : c.limitPassed lastRenew t = true) : c.limitPassed lastRenew u = true := by
  unfold LeaseClaims.limitPassed at passed ⊢
  rw [Bool.or_eq_true] at passed ⊢
  cases passed with
  | inl offline => exact Or.inl (offlineTooLong_mono c lastRenew t u order offline)
  | inr late => exact Or.inr (after_mono t u _ order late)

/-- Modes can only take away, and there is nothing left to take. -/
theorem applyDegradation_refused (modes : List Str) :
    applyDegradation modes false false = (false, false) := by
  unfold applyDegradation
  induction modes with
  | nil => rfl
  | cons m modes ih =>
      rw [List.foldl_cons]
      split
      · exact ih
      · split
        · exact ih
        · exact ih

section Evaluation

variable (libs : Libs) (c : LeaseClaims) (baseLicenseID deploymentID : Str) (lastRenew : Time)

/-- Past the limits of a lease everything is refused. -/
theorem evaluateLease_passed (now : Time) (fits : c.fits baseLicenseID deploymentID = true)
    (passed : c.limitPassed lastRenew now = true) :
    let ev := c.evaluateLease libs now baseLicenseID deploymentID lastRenew
    ev.degraded = true ∧ ev.allowNewOnboarding = false ∧ ev.allowUpdates = false ∧
      ev.status = if c.offlineTooLong now lastRenew then .grace else .expired := by
  have ids := of_decide_eq_true fits
  intro ev
  have same : ev = c.evaluateLease libs now baseLicenseID deploymentID lastRenew := rfl
  rw [LeaseClaims.evaluateLease, if_neg ids.1, if_neg ids.2, applyDegradation_refused] at same
  unfold LeaseClaims.limitPassed at passed
  cases offline : c.offlineTooLong now lastRenew with
  | true =>
      rw [offline, if_pos rfl] at same
      rw [same]
      exact ⟨rfl, rfl, rfl, rfl⟩
  | false =>
      rw [offline, Bool.false_or] at passed
      rw [offline, if_neg (by decide), if_pos passed] at same
      rw [same]
      exact ⟨rfl, rfl, rfl, rfl⟩

/-- Within the limits of a lease everything is allowed. -/
theorem evaluateLease_within (now : Time) (fits : c.fits baseLicenseID deploymentID = true)
    (within : c.limitPassed lastRenew now = false) :
    let ev := c.evaluateLease libs now baseLicenseID deploymentID lastRenew
    ev.degraded = false ∧ ev.allowNewOnboarding = true ∧ ev.allowUpdates = true ∧
      ev.status = if now.after (unix c.expiresAt) then .grace else .valid := by
  have ids := of_decide_eq_true fits
  unfold LeaseClaims.limitPassed at within
  rw [Bool.or_eq_false_iff] at within
  intro ev
  have same : ev = c.evaluateLease libs now baseLicenseID deploymentID lastRenew := rfl
  rw [LeaseClaims.evaluateLease, if_neg ids.1, if_neg ids.2, within.1, within.2, if_neg (by decide),
    if_neg (by decide)] at same
  rw [same]
  cases now.after (unix c.expiresAt) with
  | true => exact ⟨rfl, rfl, rfl, rfl⟩
  | false => exact ⟨rfl, rfl, rfl, rfl⟩

theorem refusesListed_iff (now : Time) (fits : c.fits baseLicenseID deploymentID = true) :
    (c.evaluateLease libs now baseLicenseID deploymentID lastRenew).RefusesListed
    c.degradationMode ↔
      (c.limitPassed lastRenew now = true →
        degradeNoNewNodes ∈ c.degradationMode ∧ degradeNoUpdates ∈ c.degradationMode) := by
  unfold LeaseEvaluation.RefusesListed
  cases limit : c.limitPassed lastRenew now with
  | true =>
      have facts := evaluateLease_passed libs c baseLicenseID deploymentID lastRenew now fits limit
      rw [facts.1, facts.2.1, facts.2.2.1]
      simp
  | false =>
      have facts := evaluateLease_within libs c baseLicenseID deploymentID lastRenew now fits limit
      rw [facts.1]
      simp

/-- What is allowed later was allowed before. -/
theorem allowed_before (fits : c.fits baseLicenseID deploymentID = true) (t u : Time)
    (order : t.nanos ≤ u.nanos) :
    let before := c.evaluateLease libs t baseLicenseID deploymentID lastRenew
    let later := c.evaluateLease libs u baseLicenseID deploymentID lastRenew
    (later.allowNewOnboarding = true → before.allowNewOnboarding = true) ∧
      (later.allowUpdates = true → before.allowUpdates = true) := by
  intro before later
  cases limit : c.limitPassed lastRenew t with
  | false =>
      have first := evaluateLease_within libs c baseLicenseID deploymentID lastRenew t fits limit
      exact ⟨fun _ => first.2.1, fun _ => first.2.2.1⟩
  | true =>
      have second := evaluateLease_passed libs c baseLicenseID deploymentID lastRenew u fits
        (limitPassed_mono c lastRenew t u order limit)
      constructor
      · intro allowed
        rw [second.2.1] at allowed
        cases allowed
      · intro allowed
        rw [second.2.2.1] at allowed
        cases allowed

/-- The status gets better exactly where the offline limit takes over from the grace end. -/
theorem status_notBetter_iff (fits : c.fits baseLicenseID deploymentID = true) (t u : Time)
    (order : t.nanos ≤ u.nanos) :
    (c.evaluateLease libs t baseLicenseID deploymentID lastRenew).status.rank ≤
        (c.evaluateLease libs u baseLicenseID deploymentID lastRenew).status.rank ↔
      ¬(t.after (graceEnd c.expiresAt c.graceDays) = true ∧ c.offlineTooLong t lastRenew = false ∧
        c.offlineTooLong u lastRenew = true) := by
  have offlineMono := offlineTooLong_mono c lastRenew t u order
  have expiredMono := after_mono t u (unix c.expiresAt) order
  have limit : c.limitPassed lastRenew t =
      (c.offlineTooLong t lastRenew || t.after (graceEnd c.expiresAt c.graceDays)) := rfl
  have limitLater : c.limitPassed lastRenew u =
      (c.offlineTooLong u lastRenew || u.after (graceEnd c.expiresAt c.graceDays)) := rfl
  cases before : c.limitPassed lastRenew t with
  | true =>
      have first := evaluateLease_passed libs c baseLicenseID deploymentID lastRenew t fits before
      have second := evaluateLease_passed libs c baseLicenseID deploymentID lastRenew u fits
        (limitPassed_mono c lastRenew t u order before)
      rw [first.2.2.2, second.2.2.2]
      cases offline : c.offlineTooLong t lastRenew with
      | true => simp [offlineMono offline]
      | false =>
          rw [before, offline, Bool.false_or] at limit
          rw [← limit]
          cases c.offlineTooLong u lastRenew <;> decide
  | false =>
      have first := evaluateLease_within libs c baseLicenseID deploymentID lastRenew t fits before
      rw [before] at limit
      have none := Bool.or_eq_false_iff.mp limit.symm
      rw [first.2.2.2, none.2]
      cases later : c.limitPassed lastRenew u with
      | true =>
          have second :=
            evaluateLease_passed libs c baseLicenseID deploymentID lastRenew u fits later
          rw [second.2.2.2]
          cases t.after (unix c.expiresAt) <;> cases c.offlineTooLong u lastRenew
            <;> simp [LeaseStatus.rank]
      | false =>
          have second :=
            evaluateLease_within libs c baseLicenseID deploymentID lastRenew u fits later
          rw [second.2.2.2]
          cases expired : t.after (unix c.expiresAt) with
          | true => simp [expiredMono expired]
          | false => simp [LeaseStatus.rank]

/-- A lease follows its policy between two times exactly if both modes are listed once it is past a
limit, and it does not pass its offline limit only after its grace end. -/
theorem followsPolicy_iff (fits : c.fits baseLicenseID deploymentID = true) (t u : Time)
    (order : t.nanos ≤ u.nanos) :
    FollowsPolicy c.degradationMode (c.evaluateLease libs t baseLicenseID deploymentID lastRenew)
        (c.evaluateLease libs u baseLicenseID deploymentID lastRenew) ↔
      (c.limitPassed lastRenew u = true →
        degradeNoNewNodes ∈ c.degradationMode ∧ degradeNoUpdates ∈ c.degradationMode) ∧
      ¬(t.after (graceEnd c.expiresAt c.graceDays) = true ∧ c.offlineTooLong t lastRenew = false ∧
        c.offlineTooLong u lastRenew = true) := by
  have refusesBefore := refusesListed_iff libs c baseLicenseID deploymentID lastRenew t fits
  have refusesLater := refusesListed_iff libs c baseLicenseID deploymentID lastRenew u fits
  have notBetter := status_notBetter_iff libs c baseLicenseID deploymentID lastRenew fits t u order
  have allowed := allowed_before libs c baseLicenseID deploymentID lastRenew fits t u order
  constructor
  · intro follows
    exact ⟨refusesLater.mp follows.refusesLater, notBetter.mp follows.notBetter⟩
  · intro condition
    refine ⟨notBetter.mpr condition.2, allowed.1, allowed.2, ?_, refusesLater.mpr condition.1⟩
    apply refusesBefore.mpr
    intro passed
    exact condition.1 (limitPassed_mono c lastRenew t u order passed)

end Evaluation

/-- Everything is listed and there is no offline limit. -/
def strictLease : LeaseClaims :=
  { sampleLease with degradationMode := [degradeNoNewNodes, degradeNoUpdates] }

theorem strictLease_followsPolicy :
    FollowsPolicy strictLease.degradationMode
      (strictLease.evaluateLease (sampleLibs 500 0 issuedBody) (unix 900) "L1".toList [] (unix 500))
      (strictLease.evaluateLease (sampleLibs 500 0 issuedBody) (unix 1100) "L1".toList []
        (unix 500)) :=
  (followsPolicy_iff (sampleLibs 500 0 issuedBody) strictLease "L1".toList [] (unix 500) (by decide)
    (unix 900) (unix 1100) (by decide +kernel)).mpr ⟨fun _ => by decide, by decide +kernel⟩

/-- No mode is listed, and a day without renewal is allowed. -/
def offlineLease : LeaseClaims := { sampleLease with offlineMaxDays := 1 }

/-- Expired a little after its end, in grace again two days later, and everything refused although
nothing is listed. -/
theorem offlineLease_breaksPolicy :
    let before :=
      offlineLease.evaluateLease (sampleLibs 500 0 issuedBody) (unix 1100) "L1".toList [] (unix 500)
    let later := offlineLease.evaluateLease (sampleLibs 500 0 issuedBody) (unix 200000) "L1".toList
      [] (unix 500)
    before.status = .expired ∧ later.status = .grace ∧ later.allowUpdates = false ∧
      ¬FollowsPolicy offlineLease.degradationMode before later := by
  intro before later
  have expired : before.status = .expired := by decide +kernel
  have grace : later.status = .grace := by decide +kernel
  refine ⟨expired, grace, by decide +kernel, ?_⟩
  intro follows
  have rank := follows.notBetter
  rw [expired, grace] at rank
  exact absurd rank (by decide)

end EraOne.License
