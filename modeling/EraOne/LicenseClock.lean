import EraOne.License
import EraOne.Literals

set_option autoImplicit false

/- The sealed clock and the checks of the validator (`clock.go`, `validate.go`). A store returns the
bytes that were last saved. -/
namespace EraOne.License

open GoTime Scan

structure SealedState where
  highWater : Int64
  mac : Str
  deriving DecidableEq

/-- The hex HMAC of a high-water mark under the install secret, and JSON as the clock relies on
it. -/
structure SealedClock where
  skew : Duration
  mac : Int64 → Str
  marshal : SealedState → Bytes
  unmarshal : Bytes → Option SealedState
  marshal_ne_nil : ∀ s, marshal s ≠ []
  unmarshal_marshal : ∀ hw, unmarshal (marshal ⟨hw, mac hw⟩) = some ⟨hw, mac hw⟩

/-- `load`: the high-water mark, and whether the state was tampered with. -/
def SealedClock.load (clock : SealedClock) (data : Bytes) : Int64 × Bool :=
  if data = [] then (0, false)
  else
    match clock.unmarshal data with
    | none => (0, true)
    | some s => if s.mac ≠ clock.mac s.highWater then (0, true) else (s.highWater, false)

def SealedClock.save (clock : SealedClock) (hw : Int64) : Bytes := clock.marshal ⟨hw, clock.mac hw⟩

def SealedClock.observe (clock : SealedClock) (t : Time) (data : Bytes) : Bytes :=
  let (hw, tampered) := clock.load data
  let hw := if tampered then 0 else hw
  if hw < t.toUnix then clock.save t.toUnix else data

/-- The later of the local clock and the mark. -/
def SealedClock.effective (clock : SealedClock) (localNow : Time) (data : Bytes) : Time :=
  let hwTime := unix (clock.load data).1
  if hwTime.after localNow then hwTime else localNow

/-- The state was tampered with, or the local clock is behind the mark by more than the skew. -/
def SealedClock.rollback (clock : SealedClock) (localNow : Time) (data : Bytes) : Bool :=
  (clock.load data).2 || (localNow.add clock.skew).before (unix (clock.load data).1)

/-- The effective time, whether the clock was set back, and what the store holds then. -/
def SealedClock.effectiveNow (clock : SealedClock) (localNow : Time) (data : Bytes) :
    (Time × Bool) × Bytes :=
  let eff := clock.effective localNow data
  ((eff, clock.rollback localNow data),
    if (clock.load data).1 < eff.toUnix then clock.save eff.toUnix else data)

structure Validator where
  pub : Bytes
  clock : Option SealedClock
  crl : Option CRL
  deployment : Str

@[irreducible]
def Text.revoked : Str := "лицензия отозвана (CRL)".toList

@[irreducible]
def Text.clockSetBack : Str :=
  "обнаружен откат системных часов (anti-rollback); режим деградации".toList

def revokedEvaluation : Evaluation :=
  { status := .expired, message := Text.revoked, degraded := true }

def rollbackEvaluation : Evaluation :=
  { status := .expired,
    message := Text.clockSetBack,
    degraded := true }

def Validator.revokes (v : Validator) (lid : Str) : Bool := v.crl.any (·.isRevoked lid)

/-- `Check`, with the bytes of the clock's store. -/
def Validator.check (libs : Libs) (v : Validator) (token : Str) (localNow : Time)
    (activeNodes : Int64) (data : Bytes) : Except Str (Evaluation × Claims) × Bytes :=
  match verify libs token v.pub with
  | .error err => (.error err, data)
  | .ok claims =>
      if v.revokes claims.licenseID then (.ok (revokedEvaluation, claims), data)
      else
        match v.clock with
        | none => (.ok (claims.evaluate libs localNow v.deployment activeNodes, claims), data)
        | some clock =>
            let data := clock.observe (unix claims.issuedAt) data
            let asked := clock.effectiveNow localNow data
            if asked.1.2 then (.ok (rollbackEvaluation, claims), asked.2)
            else (.ok (claims.evaluate libs asked.1.1 v.deployment activeNodes, claims), asked.2)

namespace SealedClock

variable (clock : SealedClock)

@[simp]
theorem load_save (hw : Int64) : clock.load (clock.save hw) = (hw, false) := by
  unfold load save
  rw [if_neg (clock.marshal_ne_nil _), clock.unmarshal_marshal]
  simp only [ne_eq, not_true_eq_false, if_false]

/-- A state that was tampered with has the high-water mark zero. -/
theorem load_tampered (data : Bytes) (tampered : (clock.load data).2 = true) :
    (clock.load data).1 = 0 := by
  unfold load at tampered ⊢
  split
  · rfl
  · rename_i present
    rw [if_neg present] at tampered
    split
    · rfl
    · rename_i s read
      rw [read] at tampered
      split
      · rfl
      · rename_i good
        simp only [if_neg good, Bool.false_eq_true] at tampered

/-- The high-water mark as a number. -/
def mark (data : Bytes) : Int := (clock.load data).1.toInt

@[simp]
theorem mark_save (hw : Int64) : clock.mark (clock.save hw) = hw.toInt := by
  rw [mark, load_save]

/-- Saving what lies beyond the mark moves the mark there. -/
theorem mark_advance (hw : Int64) (data : Bytes) :
    clock.mark (if (clock.load data).1 < hw then clock.save hw else data) =
      max (clock.mark data) hw.toInt := by
  split
  · rename_i later
    rw [mark_save]
    exact (max_eq_right (le_of_lt (Int64.lt_iff_toInt_lt.mp later))).symm
  · rename_i later
    rw [Int64.lt_iff_toInt_lt, not_lt] at later
    exact (max_eq_left later).symm

/-- The trusted time moves the mark forward, never back. -/
theorem mark_observe (t : Time) (data : Bytes) :
    clock.mark (clock.observe t data) = max (clock.mark data) t.toUnix.toInt := by
  have known :
      (if (clock.load data).2 = true then 0 else (clock.load data).1) = (clock.load data).1 := by
    split
    · rename_i tampered
      exact (clock.load_tampered data tampered).symm
    · rfl
  simp only [observe, known]
  exact clock.mark_advance t.toUnix data

theorem effective_nanos (localNow : Time) (data : Bytes) :
    (clock.effective localNow data).nanos = max
    (unix (clock.load data).1).nanos localNow.nanos := by
  simp only [effective]
  split
  · rename_i ahead
    exact (max_eq_left (le_of_lt ((after_iff _ _).mp ahead))).symm
  · rename_i behind
    exact (max_eq_right (not_lt.mp fun ahead => behind ((after_iff _ _).mpr ahead))).symm

theorem mark_effectiveNow (localNow : Time) (data : Bytes) :
    clock.mark (clock.effectiveNow localNow data).2 =
      max (clock.mark data) (clock.effective localNow data).toUnix.toInt := by
  rw [effectiveNow]
  exact clock.mark_advance (clock.effective localNow data).toUnix data

/-- While the mark is the second of an instant, so is the effective time, which is no earlier. -/
theorem effective_after_mark (localNow : Time) (data : Bytes)
    (fits : (clock.load data).1 ≤ lastUnix) :
    let eff := clock.effective localNow data
    eff.toUnix.toInt = eff.sec.toInt - 62135596800 ∧ clock.mark data ≤ eff.toUnix.toInt ∧
      eff.toUnix ≤ lastUnix := by
  intro eff
  have seconds := unix_sec_of_le (clock.load data).1 fits
  have later : (unix (clock.load data).1).nanos ≤ eff.nanos := by
    rw [clock.effective_nanos localNow data]
    exact le_max_left _ _
  have low := (clock.load data).1.le_toInt
  have small := eff.small
  have order : (clock.load data).1.toInt + 62135596800 ≤ eff.sec.toInt := by
    simp only [Time.nanos, seconds, show (unix (clock.load data).1).nsec = 0 from rfl] at later
    omega
  have back := toUnix_of_ge eff (by omega)
  have high := eff.sec.toInt_lt
  refine ⟨back, ?_, ?_⟩
  · rw [back, mark]
    omega
  · rw [Int64.le_iff_toInt_le, lastUnix_toInt, back]
    omega

end SealedClock

/-- A call of `Check`. -/
structure Call where
  token : Str
  localNow : Time
  activeNodes : Int64

/-- The effective time that a check goes by, when it comes to ask the clock. -/
def Validator.used (libs : Libs) (v : Validator) (call : Call) (data : Bytes) : Option Time :=
  match verify libs call.token v.pub with
  | .error _ => none
  | .ok claims =>
      if v.revokes claims.licenseID then none
      else v.clock.map fun clock =>
        clock.effective call.localNow (clock.observe (unix claims.issuedAt) data)

structure Report where
  token : Str
  used : Option Time
  result : Except Str (Evaluation × Claims)

/-- What a sequence of checks reports, from the bytes in the store. -/
def Validator.reports (libs : Libs) (v : Validator) : Bytes → List Call → List Report
  | _, [] => []
  | data, call :: rest =>
      let (result, next) := v.check libs call.token call.localNow call.activeNodes data
      ⟨call.token, v.used libs call data, result⟩ :: v.reports libs next rest

section Run

variable (libs : Libs) (v : Validator) (clock : SealedClock)

/-- The validator with a sealed clock. -/
def Validator.sealedBy (v : Validator) (clock : SealedClock) : Validator :=
  { v with clock := some clock }

/-- What a check asks the clock, and what it leaves in the store. -/
theorem check_clock (call : Call) (data : Bytes) (c : Claims)
    (good : verify libs call.token v.pub = .ok c) (live : v.revokes c.licenseID = false) :
    let seen := clock.observe (unix c.issuedAt) data
    (v.sealedBy clock).used libs call data = some (clock.effective call.localNow seen) ∧
      (v.sealedBy clock).check libs call.token call.localNow call.activeNodes data =
        (.ok (if clock.rollback call.localNow seen then rollbackEvaluation
          else c.evaluate libs (clock.effective call.localNow seen) v.deployment call.activeNodes,
            c),
          (clock.effectiveNow call.localNow seen).2) := by
  intro seen
  have same : (v.sealedBy clock).revokes c.licenseID = false := live
  unfold Validator.used Validator.check
  rw [show (v.sealedBy clock).pub = v.pub from rfl, good]
  dsimp only
  rw [if_neg (by rw [same]; decide), if_neg (by rw [same]; decide),
    show (v.sealedBy clock).clock = some clock from rfl, Option.map_some]
  refine ⟨rfl, ?_⟩
  dsimp only
  split
  · rename_i back
    have same : clock.rollback call.localNow seen = true := back
    rw [if_pos same]
  · rename_i forth
    have same : ¬clock.rollback call.localNow seen = true := forth
    rw [if_neg same]
    rfl

theorem reports_known (token : Str) (localNow : Time) (activeNodes : Int64) (rest : List Call)
    (data : Bytes) (c : Claims) (good : verify libs token v.pub = .ok c)
    (live : v.revokes c.licenseID = false) :
    let seen := clock.observe (unix c.issuedAt) data
    (v.sealedBy clock).reports libs data (⟨token, localNow, activeNodes⟩ :: rest) =
      ⟨token, some (clock.effective localNow seen),
        .ok (if clock.rollback localNow seen then rollbackEvaluation
        else c.evaluate libs (clock.effective localNow seen) v.deployment activeNodes, c)⟩ ::
        (v.sealedBy clock).reports libs (clock.effectiveNow localNow seen).2 rest := by
  intro seen
  obtain ⟨used, checked⟩ := check_clock libs v clock ⟨token, localNow, activeNodes⟩ data c good live
  rw [Validator.reports, used, checked]

/-- The check of a revoked licence. -/
theorem check_revoked (call : Call) (data : Bytes) (c : Claims)
    (good : verify libs call.token v.pub = .ok c) (revoked : v.revokes c.licenseID = true) :
    (v.sealedBy clock).check libs call.token call.localNow call.activeNodes data =
      (.ok (revokedEvaluation, c), data) := by
  have same : (v.sealedBy clock).revokes c.licenseID = true := revoked
  unfold Validator.check
  rw [show (v.sealedBy clock).pub = v.pub from rfl, good]
  dsimp only
  rw [if_pos same]

/-- A check that does not ask the clock leaves its store alone. -/
theorem check_quiet (call : Call) (data : Bytes)
    (quiet : ∀ c, verify libs call.token v.pub = .ok c → v.revokes c.licenseID = true) :
    (v.sealedBy clock).used libs call data = none ∧
      ((v.sealedBy clock).check libs call.token call.localNow call.activeNodes data).2 = data := by
  unfold Validator.used Validator.check
  cases good : verify libs call.token (v.sealedBy clock).pub with
  | error err => exact ⟨rfl, rfl⟩
  | ok c =>
      have revoked : (v.sealedBy clock).revokes c.licenseID = true := quiet c good
      simp only [revoked, if_true, and_self]

/-- A call either leaves the store alone without asking the clock, or asks it about good claims that
are not revoked. -/
theorem used_cases (call : Call) (data : Bytes) :
    (v.sealedBy clock).used libs call data = none ∧
        ((v.sealedBy clock).check libs call.token call.localNow call.activeNodes data).2 = data ∨
      ∃ c, verify libs call.token v.pub = .ok c ∧ v.revokes c.licenseID = false := by
  by_cases quiet : ∀ c, verify libs call.token v.pub = .ok c → v.revokes c.licenseID = true
  · exact Or.inl (check_quiet libs v clock call data quiet)
  · right
    push Not at quiet
    obtain ⟨c, good, live⟩ := quiet
    exact ⟨c, good, Bool.eq_false_iff.mpr live⟩

/-- A check moves the mark to the effective time it goes by, which is no earlier than the mark. -/
theorem check_mark (call : Call) (data : Bytes) (fits : (clock.load data).1 ≤ lastUnix)
    (issued : ∀ c, verify libs call.token v.pub = .ok c → c.issuedAt ≤ lastUnix) (eff : Time)
    (asked : (v.sealedBy clock).used libs call data = some eff) :
    let next := ((v.sealedBy clock).check libs call.token call.localNow call.activeNodes data).2
    clock.mark data ≤ eff.toUnix.toInt ∧ clock.mark next = eff.toUnix.toInt ∧
      eff.toUnix ≤ lastUnix ∧
      eff.toUnix.toInt = eff.sec.toInt - 62135596800 := by
  intro next
  rcases used_cases libs v clock call data with ⟨quiet, -⟩ | ⟨c, good, live⟩
  · rw [asked] at quiet
    cases quiet
  · obtain ⟨used, checked⟩ := check_clock libs v clock call data c good live
    rw [asked, Option.some.injEq] at used
    have left :
        next = (clock.effectiveNow call.localNow (clock.observe (unix c.issuedAt) data)).2 :=
      congrArg Prod.snd checked
    have seen := clock.mark_observe (unix c.issuedAt) data
    rw [toUnix_unix] at seen
    have still : (clock.load (clock.observe (unix c.issuedAt) data)).1 ≤ lastUnix := by
      have first := issued c good
      rw [Int64.le_iff_toInt_le] at fits first ⊢
      have known : (clock.load (clock.observe (unix c.issuedAt) data)).1.toInt =
          max (clock.load data).1.toInt c.issuedAt.toInt := seen
      omega
    obtain ⟨whole, later, last⟩ := clock.effective_after_mark call.localNow _ still
    rw [← used] at whole later last
    have moved := clock.mark_effectiveNow call.localNow (clock.observe (unix c.issuedAt) data)
    rw [← left, ← used] at moved
    refine ⟨by omega, ?_, last, whole⟩
    rw [moved, max_eq_right later]

/-- The check of a token whose grace period ended before the mark. -/
theorem check_past (call : Call) (data : Bytes) (fits : (clock.load data).1 ≤ lastUnix)
    (issued : ∀ c, verify libs call.token v.pub = .ok c → c.issuedAt ≤ lastUnix) (c : Claims)
    (good : verify libs call.token v.pub = .ok c)
    (past : (graceEnd c.expiresAt c.graceDays).nanos < (clock.mark data + 62135596800) *
      1000000000) :
    ∃ ev, ((v.sealedBy clock).check libs call.token call.localNow call.activeNodes data).1 = .ok
      (ev, c) ∧
      (ev.status = .expired ∨ ev.status = .notYetValid ∧
        ∃ now, (v.sealedBy clock).used libs call data = some now ∧
          now.before (unix c.notBefore) = true) := by
  cases revoked : v.revokes c.licenseID with
  | true =>
      rw [check_revoked libs v clock call data c good revoked]
      exact ⟨revokedEvaluation, rfl, Or.inl rfl⟩
  | false =>
      obtain ⟨used, checked⟩ := check_clock libs v clock call data c good revoked
      obtain ⟨later, -, -, whole⟩ := check_mark libs v clock call data fits issued _ used
      rw [checked, used]
      cases back : clock.rollback call.localNow (clock.observe (unix c.issuedAt) data) with
      | true => exact ⟨rollbackEvaluation, rfl, Or.inl rfl⟩
      | false =>
          refine ⟨_, rfl, ?_⟩
          simp only [Bool.false_eq_true, if_false]
          have after : (graceEnd c.expiresAt c.graceDays).nanos <
              (clock.effective call.localNow (clock.observe (unix c.issuedAt) data)).nanos := by
            refine lt_of_lt_of_le past ?_
            unfold Time.nanos
            omega
          rcases evaluate_past libs c _ v.deployment call.activeNodes
              after with ended | ⟨early, before⟩
          · exact Or.inl ended
          · exact Or.inr ⟨early, _, rfl, (before_iff _ _).mpr before⟩

/-- The report speaks of claims that are over, or whose first day is still to come. -/
def Report.Over (c : Claims) (report : Report) : Prop :=
  ∃ ev, report.result = .ok (ev, c) ∧ (ev.status = .expired ∨
    ev.status = .notYetValid ∧ ∃ now, report.used = some now ∧ now.before (unix c.notBefore) = true)

/-- The tokens of the calls have an issue date that a `time.Time` can hold. -/
def IssuedInRange (libs : Libs) (v : Validator) (calls : List Call) : Prop :=
  ∀ call ∈ calls, ∀ c, verify libs call.token v.pub = .ok c → c.issuedAt ≤ lastUnix

theorem IssuedInRange.tail {libs : Libs} {v : Validator} {call : Call} {rest : List Call}
    (all : IssuedInRange libs v (call :: rest)) : IssuedInRange libs v rest :=
  fun later member => all later (List.mem_cons_of_mem call member)

/-- A check keeps the mark in range and moves it forward. -/
theorem check_forward (call : Call) (data : Bytes) (fits : (clock.load data).1 ≤ lastUnix)
    (issued : ∀ c, verify libs call.token v.pub = .ok c → c.issuedAt ≤ lastUnix) :
    let next := ((v.sealedBy clock).check libs call.token call.localNow call.activeNodes data).2
    clock.mark data ≤ clock.mark next ∧ (clock.load next).1 ≤ lastUnix := by
  intro next
  rcases used_cases libs v clock call data with ⟨-, still⟩ | ⟨c, good, live⟩
  · rw [show next = data from still]
    exact ⟨le_refl _, fits⟩
  · obtain ⟨used, -⟩ := check_clock libs v clock call data c good live
    obtain ⟨later, moved, last, -⟩ := check_mark libs v clock call data fits issued _ used
    have same : clock.mark next = _ := moved
    refine ⟨by omega, ?_⟩
    rw [Int64.le_iff_toInt_le] at last ⊢
    exact same.le.trans last

/-- No check of a run goes by a time before the mark, and none of a token that ended before the mark
reports anything but that it is over. -/
theorem reports_after_mark (calls : List Call) (data : Bytes)
    (fits : (clock.load data).1 ≤ lastUnix) (issued : IssuedInRange libs v calls) (floor : Int)
    (reached : floor ≤ clock.mark data) :
    ∀ report ∈ (v.sealedBy clock).reports libs data calls,
      (∀ eff, report.used = some eff → floor ≤ eff.toUnix.toInt) ∧
      ∀ c, verify libs report.token v.pub = .ok c →
        (graceEnd c.expiresAt c.graceDays).nanos < (floor + 62135596800) * 1000000000 →
        report.Over c := by
  induction calls generalizing data with
  | nil =>
      intro report member
      cases member
  | cons call rest ih =>
      have first := issued call List.mem_cons_self
      obtain ⟨forward, within⟩ := check_forward libs v clock call data fits first
      intro report member
      rcases List.mem_cons.mp member with here | later
      · subst here
        refine ⟨?_, ?_⟩
        · intro eff asked
          obtain ⟨order, -⟩ := check_mark libs v clock call data fits first eff asked
          exact reached.trans order
        · intro c good past
          exact check_past libs v clock call data fits first c good (by omega)
      · exact ih _ within issued.tail (reached.trans forward) report later

/-- The effective time, in whole seconds, does not go back, and a token that was over by a second at
one check is over at every later one. -/
theorem expired_stays_expired (data : Bytes) (calls : List Call)
    (fits : (clock.load data).1 ≤ lastUnix) (issued : IssuedInRange libs v calls) :
    ((v.sealedBy clock).reports libs data calls).Pairwise fun before later =>
      ∀ eff, before.used = some eff →
        (∀ next, later.used = some next → eff.toUnix ≤ next.toUnix) ∧
        ∀ c, verify libs later.token v.pub = .ok c →
          (graceEnd c.expiresAt c.graceDays).nanos + 1000000000 ≤ eff.nanos → later.Over c := by
  induction calls generalizing data with
  | nil => exact List.Pairwise.nil
  | cons call rest ih =>
      have first := issued call List.mem_cons_self
      obtain ⟨-, within⟩ := check_forward libs v clock call data fits first
      refine List.Pairwise.cons ?_ (ih _ within issued.tail)
      intro later member eff asked
      obtain ⟨-, moved, -, whole⟩ := check_mark libs v clock call data fits first eff asked
      obtain ⟨times, ended⟩ :=
        reports_after_mark libs v clock rest _ within issued.tail _ moved.ge later member
      refine ⟨?_, ?_⟩
      · intro next used
        exact Int64.le_iff_toInt_le.mpr (times next used)
      · intro c good past
        refine ended c good ?_
        have small := eff.small
        unfold Time.nanos at past ⊢
        omega

/-- The bytes hold a state with the MAC of its mark. -/
def SealedClock.Authentic (clock : SealedClock) (data : Bytes) : Prop :=
  ∃ s, clock.unmarshal data = some s ∧ s.mac = clock.mac s.highWater

theorem SealedClock.load_of_not_authentic (data : Bytes) (present : data ≠ [])
    (forged : ¬clock.Authentic data) : clock.load data = (0, true) := by
  unfold load
  rw [if_neg present]
  split
  · rfl
  · rename_i s read
    rw [if_pos fun good => forged ⟨s, read, good⟩]

/-- A check of a state that was tampered with finds it sealed again, if the licence was issued after
1970, and tampered with otherwise. -/
theorem check_forged (call : Call) (data : Bytes) (present : data ≠ [])
    (forged : ¬clock.Authentic data) (c : Claims) (good : verify libs call.token v.pub = .ok c)
    (live : v.revokes c.licenseID = false) :
    ((v.sealedBy clock).check libs call.token call.localNow call.activeNodes data).1 =
      .ok (if 0 < c.issuedAt ∧ (call.localNow.add clock.skew).before (unix c.issuedAt) = false then
          c.evaluate libs (clock.effective call.localNow (clock.save c.issuedAt)) v.deployment
            call.activeNodes
        else rollbackEvaluation, c) := by
  obtain ⟨-, checked⟩ := check_clock libs v clock call data c good live
  have tampered := clock.load_of_not_authentic data present forged
  rw [checked]
  by_cases issued : 0 < c.issuedAt
  · have seen : clock.observe (unix c.issuedAt) data = clock.save c.issuedAt := by
      simp only [SealedClock.observe, tampered, if_true, toUnix_unix, if_pos issued]
    rw [seen]
    have asked : clock.rollback call.localNow (clock.save c.issuedAt) =
        (call.localNow.add clock.skew).before (unix c.issuedAt) := by
      rw [SealedClock.rollback, SealedClock.load_save, Bool.false_or]
    rw [asked]
    cases back : (call.localNow.add clock.skew).before (unix c.issuedAt) with
    | true => rw [if_pos rfl, if_neg (by simp)]
    | false => rw [if_neg (by simp), if_pos ⟨issued, rfl⟩]
  · have seen : clock.observe (unix c.issuedAt) data = data := by
      simp only [SealedClock.observe, tampered, if_true, toUnix_unix, if_neg issued]
    rw [seen]
    have asked : clock.rollback call.localNow data = true := by
      rw [SealedClock.rollback, tampered, Bool.true_or]
    rw [if_pos asked, if_neg fun both => issued both.1]

theorem revoked_ne_rollback : revokedEvaluation ≠ rollbackEvaluation := by
  intro same
  have texts : Text.revoked = Text.clockSetBack := congrArg Evaluation.message same
  unfold Text.revoked Text.clockSetBack at texts
  exact literal_ne _ _ (by decide) texts

/-- The texts of an evaluation that is expired. -/
theorem evaluate_expired_message (c : Claims) (now : Time) (deployment : Str) (activeNodes : Int64)
    (expired : (c.evaluate libs now deployment activeNodes).status = .expired) :
    (c.evaluate libs now deployment activeNodes).message = Text.boundElsewhere ∨
      (c.evaluate libs now deployment activeNodes).message = Text.termOver := by
  by_cases bound : c.deployment ≠ [] ∧ deployment ≠ [] ∧ c.deployment ≠ deployment
  · left
    rw [Claims.evaluate, if_pos bound]
  · right
    cases early : now.before (unix c.notBefore) with
    | true =>
        simp only [Claims.evaluate, if_neg bound, early, if_true, reduceCtorEq] at expired
    | false =>
        cases late : now.after (graceEnd c.expiresAt c.graceDays) with
        | true =>
            simp only [Claims.evaluate, if_neg bound, early, late, if_true, if_false,
              Bool.false_eq_true]
        | false =>
            simp only [Claims.evaluate, if_neg bound, early, late, if_false,
              Bool.false_eq_true] at expired
            split at expired
            · cases expired
            split at expired <;> cases expired

/-- No evaluation of a term reads like the report of a rollback. -/
theorem evaluate_ne_rollback (c : Claims) (now : Time) (deployment : Str) (activeNodes : Int64) :
    c.evaluate libs now deployment activeNodes ≠ rollbackEvaluation := by
  intro same
  have expired : (c.evaluate libs now deployment activeNodes).status = .expired := by
    rw [same, rollbackEvaluation]
  have text : (c.evaluate libs now deployment activeNodes).message = Text.clockSetBack := by
    rw [same, rollbackEvaluation]
  rcases evaluate_expired_message libs c now deployment activeNodes expired with other | other
  · rw [text] at other
    unfold Text.clockSetBack Text.boundElsewhere at other
    exact literal_ne _ _ (by decide) other
  · rw [text] at other
    unfold Text.clockSetBack Text.termOver at other
    exact literal_ne _ _ (by decide) other

/-- A state that was tampered with is reported exactly if the licence is not revoked and its issue
date does not seal the clock again: it lies before 1970, or beyond the local time and the skew. -/
theorem tampering_noticed_iff (call : Call) (data : Bytes) (present : data ≠ [])
    (forged : ¬clock.Authentic data) (c : Claims) (good : verify libs call.token v.pub = .ok c) :
    ((v.sealedBy clock).check libs call.token call.localNow call.activeNodes data).1 =
        .ok (rollbackEvaluation, c) ↔
      v.revokes c.licenseID = false ∧
        (c.issuedAt ≤ 0 ∨ (call.localNow.add clock.skew).before (unix c.issuedAt) = true) := by
  cases live : v.revokes c.licenseID with
  | true =>
      rw [check_revoked libs v clock call data c good live]
      simp only [Except.ok.injEq, Prod.mk.injEq, and_true, revoked_ne_rollback, Bool.true_eq_false,
        false_and]
  | false =>
      rw [check_forged libs v clock call data present forged c good live]
      simp only [Except.ok.injEq, Prod.mk.injEq, and_true, true_and]
      constructor
      · intro reported
        by_contra quiet
        push Not at quiet
        obtain ⟨issued, ahead⟩ := quiet
        have later : 0 < c.issuedAt := by
          rw [Int64.lt_iff_toInt_lt]
          rw [Int64.le_iff_toInt_le] at issued
          omega
        rw [if_pos ⟨later, Bool.eq_false_iff.mpr ahead⟩] at reported
        exact evaluate_ne_rollback libs c _ v.deployment call.activeNodes reported
      · intro noticed
        apply if_neg
        intro ⟨issued, level⟩
        rcases noticed with early | ahead
        · exact absurd issued (Int64.not_lt.mpr early)
        · rw [level] at ahead
          cases ahead

end Run

/-- ASCII text as bytes, and back. -/
def bytesOf (text : Str) : Bytes := text.map fun c => c.toNat.toUInt8

def textOf (data : Bytes) : Str := data.map fun b => Char.ofNat b.toNat

theorem textOf_bytesOf (text : Str) (ascii : ∀ c ∈ text, c.toNat < 128) : textOf
    (bytesOf text) = text := by
  unfold textOf bytesOf
  rw [List.map_map]
  conv_rhs => rw [← List.map_id text]
  apply List.map_congr_left
  intro c member
  have small := ascii c member
  have same : c.toNat.toUInt8.toNat = c.toNat := by
    rw [Nat.toUInt8, UInt8.toNat_ofNat', Nat.mod_eq_of_lt (by omega)]
  rw [Function.comp_apply, same, Char.ofNat_toNat]
  rfl

/-- `%d`. -/
def decimal (n : Int64) : Str :=
  if n.toInt < 0 then '-' :: Nat.toDigits 10 n.toInt.natAbs else Nat.toDigits 10 n.toInt.natAbs

def readDecimal (text : Str) : Option Int64 :=
  match text with
  | '-' :: rest => (parseDigits rest).map fun n : Nat => Int64.ofInt (-n)
  | _ => (parseDigits text).map fun n : Nat => Int64.ofInt n

theorem readDecimal_decimal (n : Int64) : readDecimal (decimal n) = some n := by
  unfold decimal
  split
  · rename_i negative
    have same : -((n.toInt.natAbs : Nat) : Int) = n.toInt := by omega
    simp only [readDecimal, parseDigits_toDigits, Option.map_some, same, Int64.ofInt_toInt]
  · rename_i positive
    have same : ((n.toInt.natAbs : Nat) : Int) = n.toInt := by omega
    unfold readDecimal
    split
    · rename_i rest shape
      have first : '-' ∈ Nat.toDigits 10 n.toInt.natAbs := by
        rw [shape]
        exact List.mem_cons_self
      have digit := Nat.isDigit_of_mem_toDigits (by decide) (by decide) first
      exact absurd digit (by decide)
    · rw [parseDigits_toDigits, Option.map_some, same, Int64.ofInt_toInt]

theorem mem_decimal (n : Int64) (c : Char) (member : c ∈ decimal n) :
    c = '-' ∨ c.isDigit = true := by
  unfold decimal at member
  split at member
  · rcases List.mem_cons.mp member with here | later
    · exact Or.inl here
    · exact Or.inr (Nat.isDigit_of_mem_toDigits (by decide) (by decide) later)
  · exact Or.inr (Nat.isDigit_of_mem_toDigits (by decide) (by decide) member)

theorem decimal_ascii (n : Int64) (c : Char) (member : c ∈ decimal n) : c.toNat < 128 := by
  rcases mem_decimal n c member with rfl | digit
  · decide
  · have high := (Char.isDigit_iff_toNat.mp digit).2
    have nine : '9'.toNat = 57 := rfl
    omega

theorem not_mem_decimal (n : Int64) (c : Char) (dash : c ≠ '-') (digit : c.isDigit = false) :
    c ∉ decimal n := by
  intro member
  rcases mem_decimal n c member with here | there
  · exact dash here
  · rw [digit] at there
    cases there

def stateHead : Str := ['\x7b', '"', 'h', 'w', '"', ':']

def stateMiddle : Str := [',', '"', 'm', 'a', 'c', '"', ':', '"']

def stateTail : Str := ['"', '\x7d']

/-- The JSON text of a state. -/
def stateText (s : SealedState) : Str :=
  stateHead ++ (decimal s.highWater ++ (stateMiddle ++ (s.mac ++ (stateTail ++ []))))

def readState (data : Bytes) : Option SealedState := do
  let rest ← strip stateHead (textOf data)
  let (hw, rest) ← splitOnce stateMiddle rest
  let (mac, rest) ← splitOnce stateTail rest
  let hw ← readDecimal hw
  if rest = [] then some ⟨hw, mac⟩ else none

/-- A MAC that spells the mark out. -/
def plainMac (hw : Int64) : Str := 'm' :: decimal hw

theorem readState_stateText (hw : Int64) :
    readState (bytesOf (stateText ⟨hw, plainMac hw⟩)) = some ⟨hw, plainMac hw⟩ := by
  have text : textOf (bytesOf (stateText ⟨hw, plainMac hw⟩)) = stateText ⟨hw, plainMac hw⟩ := by
    apply textOf_bytesOf
    intro c member
    have fixed : (stateHead ++ stateMiddle ++ stateTail ++ ['m']).all (·.toNat < 128) = true := rfl
    simp only [List.all_eq_true, decide_eq_true_eq] at fixed
    simp only [stateText, plainMac, List.mem_append, List.mem_cons, List.not_mem_nil,
      or_false] at member fixed
    rcases member with here | mark | here | (here | mark) | here
    · exact fixed c (Or.inl (Or.inl (Or.inl here)))
    · exact decimal_ascii hw c mark
    · exact fixed c (Or.inl (Or.inl (Or.inr here)))
    · exact fixed c (Or.inr here)
    · exact decimal_ascii hw c mark
    · exact fixed c (Or.inl (Or.inr here))
  have comma : Quiet stateMiddle (decimal hw) :=
    quiet_of_not_mem ',' _ _ (not_mem_decimal hw ',' (by decide) (by decide))
  have quote : Quiet stateTail (plainMac hw) := by
    apply quiet_of_not_mem '"'
    intro member
    rcases List.mem_cons.mp member with here | later
    · exact absurd here (by decide)
    · exact not_mem_decimal hw '"' (by decide) (by decide) later
  have head : strip stateHead (stateText ⟨hw, plainMac hw⟩) =
      some (decimal hw ++ (stateMiddle ++ (plainMac hw ++ (stateTail ++ [])))) := by
    unfold strip stateText
    rw [if_pos (List.isPrefixOf_iff_prefix.mpr (List.prefix_append _ _)), List.drop_left]
  unfold readState
  rw [text, head]
  simp only [Option.bind_eq_bind, Option.bind_some, splitOnce_quiet_match _ _ _ (by decide) comma,
    splitOnce_quiet_match _ _ _ (by decide) quote, readDecimal_decimal, if_true]

/-- The clock of an installation whose MAC spells the mark out. -/
def plainClock : SealedClock where
  skew := 5 * minute
  mac := plainMac
  marshal s := bytesOf (stateText s)
  unmarshal := readState
  marshal_ne_nil s := by simp [bytesOf, stateText, stateHead]
  unmarshal_marshal := readState_stateText

/-- The libraries at one licence, its JSON payload and the base64 text of it, signed with zeros. -/
def oneToken (c : Claims) (payload : Bytes) (body : Str) : Libs where
  sign _ _ := List.replicate 64 0
  verify _ msg sig := msg = payload ∧ sig = List.replicate 64 0
  encode data := if data = payload then body else List.replicate 86 'A'
  decode text :=
    if text = body then .ok payload
    else if text = List.replicate 86 'A' then .ok (List.replicate 64 0)
    else .error "illegal base64 data at input byte 0".toList
  print _ := payload
  unmarshal data := if data = payload then .ok c else .error "unexpected end of JSON input".toList
  daysLeft exp now := (exp.nanos - now.nanos).tdiv 86400000000000
  day _ := "1970-01-01".toList

/-- The token of that licence. -/
def tokenOf (body : Str) : Str := List.intercalate ['.'] [format, body, List.replicate 86 'A']

def zeroKey : Bytes := List.replicate 32 0

theorem unmarshal_oneToken (c : Claims) (payload : Bytes) (body : Str) :
    (oneToken c payload body).unmarshal payload = .ok c := if_pos rfl

theorem verify_oneToken (c : Claims) (payload : Bytes) (body : Str) (plain : '.' ∉ body)
    (other : List.replicate 86 'A' ≠ body) (known : c.version = claimsVersion) :
    verify (oneToken c payload body) (tokenOf body) zeroKey = .ok c := by
  have absent : '.' ∉ List.replicate 86 'A' :=
    fun member => absurd (List.eq_of_mem_replicate member) (by decide)
  have body_ : (oneToken c payload body).decode body = .ok payload := if_pos rfl
  have tail :
      (oneToken c payload body).decode (List.replicate 86 'A') = .ok (List.replicate 64 0) :=
    (if_neg other).trans (if_pos rfl)
  have signed : (oneToken c payload body).verify zeroKey payload (List.replicate 64 0) = true :=
    decide_eq_true ⟨rfl, rfl⟩
  exact verify_token _ _ _ _ _ _ c List.length_replicate plain absent body_ tail signed
    (unmarshal_oneToken c payload body) known

/-- A licence of a term that ends before it begins, and one issued after the last instant. -/
def sampleClaims (issuedAt notBefore : Int64) : Claims where
  version := 1
  licenseID := "L1".toList
  customer := "Bank".toList
  tenantID := "t1".toList
  edition := "core".toList
  modules := some ["vm".toList]
  maxNodes := 10
  deployment := []
  issuedAt := issuedAt
  notBefore := notBefore
  expiresAt := 1000
  graceDays := 0

/-- The JSON text of sample claims, up to their issue date. -/
def sampleHead : Str :=
  ("\x7b\"v\":1,\"lid\":\"L1\",\"cust\":\"Bank\",\"tenant\":\"t1\",\"edition\":\"core\",\"modules\":[\"vm\"]," ++
    "\"max_nodes\":10,\"iat\":").toList

def samplePayload (issuedAt notBefore : Int64) : Bytes :=
  bytesOf (sampleHead ++ decimal issuedAt ++ ",\"nbf\":".toList ++ decimal notBefore ++
    ",\"exp\":1000,\"grace_days\":0\x7d".toList)

/-- The first characters of the base64 text of the sample claims. -/
def sampleBody : Str :=
  ("eyJ2IjoxLCJsaWQiOiJMMSIsImN1c3QiOiJCYW5rIiwidGVuYW50IjoidDEiLCJlZGl0aW9uIjoiY29yZSIsIm1vZHVsZXMi" ++
    "Olsidm0iXSwibWF4X25vZGVzIjoxMCwiaWF0Ijo").toList

def endsFirstBody : Str :=
  sampleBody ++ "wLCJuYmYiOjIwMDAsImV4cCI6MTAwMCwiZ3JhY2VfZGF5cyI6MH0".toList

def issuedLateBody : Str :=
  sampleBody ++ "5MjIzMzcyMDM2ODU0Nzc1ODA3LCJuYmYiOjAsImV4cCI6MTAwMCwiZ3JhY2VfZGF5cyI6MH0".toList

def issuedBody : Str := sampleBody ++ "1MDAsIm5iZiI6MCwiZXhwIjoxMDAwLCJncmFjZV9kYXlzIjowfQ".toList

def sampleLibs (issuedAt notBefore : Int64) (body : Str) : Libs :=
  oneToken (sampleClaims issuedAt notBefore) (samplePayload issuedAt notBefore) body

def sampleValidator : Validator := ⟨zeroKey, none, none, []⟩

theorem sampleBody_plain : '.' ∉ sampleBody := by
  have spelled : sampleBody = _ := spell_append String.toList_ofList
  rw [spelled]
  decide

theorem sampleBody_other (tail : Str) : List.replicate 86 'A' ≠ sampleBody ++ tail := by
  have spelled : sampleBody = _ := spell_append String.toList_ofList
  rw [spelled]
  exact fun same => absurd (List.cons.inj same).1 (by decide)

theorem verify_sample (issuedAt notBefore : Int64) (tail : Str) (plain : '.' ∉ tail) :
    verify (sampleLibs issuedAt notBefore (sampleBody ++ tail))
      (tokenOf (sampleBody ++ tail)) sampleValidator.pub =
        .ok (sampleClaims issuedAt notBefore) :=
  verify_oneToken _ _ _ (fun member => (List.mem_append.mp member).elim sampleBody_plain plain)
    (sampleBody_other tail) rfl

/-- A licence that ends before it begins is over by a second and still reported as not yet valid,
and one issued after the last instant lets the effective time go back. -/
theorem over_but_not_yet_valid :
    (((sampleValidator.sealedBy plainClock).reports (sampleLibs 0 2000 endsFirstBody) []
          [⟨tokenOf endsFirstBody, unix 1500, 1⟩, ⟨tokenOf endsFirstBody, unix 1500, 1⟩]).map
            fun report =>
        (report.used, report.result.toOption.map (·.1.status))) =
      [(some (unix 1500), some .notYetValid), (some (unix 1500), some .notYetValid)] ∧
    (graceEnd 1000 0).nanos + 1000000000 ≤ (unix 1500).nanos ∧
    ((sampleValidator.sealedBy plainClock).reports (sampleLibs 9223372036854775807 0 issuedLateBody)
      []
        [⟨tokenOf issuedLateBody, unix 2000, 1⟩, ⟨tokenOf issuedLateBody, unix 10, 1⟩]).map
          (·.used) =
      [some (unix 2000), some (unix 10)] := by
  have endsFirst :
      verify (sampleLibs 0 2000 endsFirstBody) (tokenOf endsFirstBody) sampleValidator.pub =
        .ok (sampleClaims 0 2000) := verify_sample 0 2000 _ (not_mem_literal _ _ (by decide))
  have issuedLate :
      verify (sampleLibs 9223372036854775807 0 issuedLateBody) (tokenOf issuedLateBody)
      sampleValidator.pub = .ok (sampleClaims 9223372036854775807 0) :=
    verify_sample 9223372036854775807 0 _ (not_mem_literal _ _ (by decide))
  refine ⟨?_, by decide +kernel, ?_⟩
  · rw [reports_known _ _ _ _ _ _ _ _ _ endsFirst rfl,
      reports_known _ _ _ _ _ _ _ _ _ endsFirst rfl]
    decide +kernel
  · rw [reports_known _ _ _ _ _ _ _ _ _ issuedLate rfl,
      reports_known _ _ _ _ _ _ _ _ _ issuedLate rfl]
    decide +kernel

theorem verify_issued :
    verify (sampleLibs 500 0 issuedBody) (tokenOf issuedBody) sampleValidator.pub = .ok
      (sampleClaims 500 0) :=
  verify_sample 500 0 _ (not_mem_literal _ _ (by decide))

/-- A licence that is over stays so when the clock goes back. -/
theorem expired_stays_expired_sample :
    ((sampleValidator.sealedBy plainClock).reports (sampleLibs 500 0 issuedBody) []
        [⟨tokenOf issuedBody, unix 1500, 1⟩, ⟨tokenOf issuedBody, unix 600, 1⟩]).Pairwise fun before
          later =>
      ∀ eff, before.used = some eff →
        (∀ next, later.used = some next → eff.toUnix ≤ next.toUnix) ∧
        ∀ c, verify (sampleLibs 500 0 issuedBody) later.token sampleValidator.pub = .ok c →
          (graceEnd c.expiresAt c.graceDays).nanos + 1000000000 ≤ eff.nanos → later.Over c := by
  apply expired_stays_expired
  · decide +kernel
  · intro call member c good
    have token : call.token = tokenOf issuedBody := by
      rcases List.mem_cons.mp member with here | later
      · rw [here]
      · rw [List.mem_singleton.mp later]
    rw [token, verify_issued, Except.ok.injEq] at good
    rw [← good]
    decide +kernel

/-- The state of the test that writes a made-up mark. -/
def forgedState : Bytes := bytesOf "\x7b\"hw\":9999999999,\"mac\":\"deadbeef\"\x7d".toList

theorem forgedState_not_authentic : ¬plainClock.Authentic forgedState := by
  intro ⟨s, read, good⟩
  have known : readState forgedState = some ⟨9999999999, "deadbeef".toList⟩ := by decide
  have same : s = ⟨9999999999, "deadbeef".toList⟩ := Option.some.inj (read.symm.trans known)
  rw [same] at good
  revert good
  decide

/-- A licence issued after 1970 seals a state that was tampered with again, and is found valid. -/
theorem tampering_unnoticed :
    forgedState ≠ [] ∧ plainClock.load forgedState = (0, true) ∧
      ((sampleValidator.sealedBy plainClock).check (sampleLibs 500 0 issuedBody)
        (tokenOf issuedBody)
        (unix 900) 1 forgedState).1.toOption.map (·.1.status) = some .valid := by
  have present : forgedState ≠ [] := by decide
  have checked := check_forged (sampleLibs 500 0 issuedBody) sampleValidator plainClock
    ⟨tokenOf issuedBody, unix 900, 1⟩
    forgedState present forgedState_not_authentic (sampleClaims 500 0) verify_issued rfl
  dsimp only at checked
  refine ⟨present, plainClock.load_of_not_authentic forgedState present forgedState_not_authentic,
    ?_⟩
  rw [checked]
  decide +kernel

/-- Tampering is reported while the local clock is behind the issue date. -/
theorem tampering_noticed_sample :
    ((sampleValidator.sealedBy plainClock).check (sampleLibs 500 0 issuedBody) (tokenOf issuedBody)
        (unix 100) 1 forgedState).1 = .ok (rollbackEvaluation, sampleClaims 500 0) :=
  (tampering_noticed_iff (sampleLibs 500 0 issuedBody) sampleValidator plainClock
    ⟨tokenOf issuedBody, unix 100, 1⟩ forgedState (by decide) forgedState_not_authentic
    (sampleClaims 500 0) verify_issued).mpr (by decide +kernel)

end EraOne.License
