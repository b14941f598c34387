import EraOne.LicenseClock

set_option autoImplicit false

/- Leases of connected installations (`lease.go`, `CheckWithLease` of `validate.go`). -/
namespace EraOne.License

open GoTime Scan

structure LeaseClaims where
  version : Int64
  licenseID : Str
  deploymentID : Str
  tenantID : Str
  modules : Option (List Module)
  issuedAt : Int64
  expiresAt : Int64
  graceDays : Int64
  offlineMaxDays : Int64
  renewalIntervalHours : Int64
  degradationMode : List Str
  deriving DecidableEq

def leaseFormat : Str := "ERAL1".toList

def leaseClaimsVersion : Int64 := 1

inductive LeaseStatus where
  | valid
  | grace
  | expired
  | mismatch
  deriving DecidableEq

def LeaseStatus.text : LeaseStatus → Str
  | .valid => "VALID".toList
  | .grace => "GRACE".toList
  | .expired => "EXPIRED".toList
  | .mismatch => "MISMATCH".toList

structure LeaseEvaluation where
  status : LeaseStatus
  message : Str
  daysLeft : Int := 0
  degraded : Bool := false
  allowNewOnboarding : Bool := false
  allowUpdates : Bool := false
  deriving DecidableEq

namespace Text

@[irreducible]
def otherLicense : Str := "lease не соответствует license_id".toList

@[irreducible]
def otherDeployment : Str := "lease привязан к другому развёртыванию".toList

/-- `offline max %d дней без renew; режим деградации`. -/
@[irreducible]
def offline (days : Int64) : Str :=
  "offline max ".toList ++ (toString days.toInt).toList ++
    " дней без renew; режим деградации".toList

@[irreducible]
def leaseOver : Str := "lease истёк (включая grace); режим деградации".toList

@[irreducible]
def leaseInGrace : Str := "lease в grace до ".toList

@[irreducible]
def leaseActive : Str := "lease действителен".toList

@[irreducible]
def leaseNotNeeded : Str := "air-gap: lease не требуется".toList

end Text

def degradeNoNewNodes : Str := "no_new_nodes".toList

def degradeNoUpdates : Str := "no_updates".toList

/-- `applyDegradation`: what is allowed, nodes and updates, once the modes are applied. -/
def applyDegradation (modes : List Str) (allowNodes allowUpdates : Bool) : Bool × Bool :=
  modes.foldl
    (fun allowed m =>
      if m = degradeNoNewNodes then (false, allowed.2)
      else if m = degradeNoUpdates then (allowed.1, false)
      else allowed)
    (allowNodes, allowUpdates)

/-- Whether the last renewal lies back too far. A zero time stands for none. -/
def LeaseClaims.offlineTooLong (c : LeaseClaims) (now lastRenew : Time) : Bool :=
  0 < c.offlineMaxDays && !lastRenew.isZero && now.after (lastRenew.add (days c.offlineMaxDays))

def LeaseClaims.evaluateLease (libs : Libs) (c : LeaseClaims) (now : Time)
    (baseLicenseID deploymentID : Str) (lastRenew : Time) : LeaseEvaluation :=
  if baseLicenseID ≠ [] ∧ c.licenseID ≠ baseLicenseID then
    { status := .mismatch, message := Text.otherLicense, degraded := true }
  else if deploymentID ≠ [] ∧ c.deploymentID ≠ [] ∧ c.deploymentID ≠ deploymentID then
    { status := .mismatch, message := Text.otherDeployment, degraded := true }
  else if c.offlineTooLong now lastRenew then
    { status := .grace
      message := Text.offline c.offlineMaxDays
      daysLeft := libs.daysLeft (unix c.expiresAt) now
      degraded := true
      allowNewOnboarding := (applyDegradation c.degradationMode false false).1
      allowUpdates := (applyDegradation c.degradationMode false false).2 }
  else if now.after (graceEnd c.expiresAt c.graceDays) then
    { status := .expired
      message := Text.leaseOver
      daysLeft := libs.daysLeft (unix c.expiresAt) now
      degraded := true
      allowNewOnboarding := (applyDegradation c.degradationMode false false).1
      allowUpdates := (applyDegradation c.degradationMode false false).2 }
  else if now.after (unix c.expiresAt) then
    { status := .grace
      message := Text.leaseInGrace ++ libs.day (graceEnd c.expiresAt c.graceDays)
      daysLeft := libs.daysLeft (unix c.expiresAt) now
      allowNewOnboarding := true
      allowUpdates := true }
  else
    { status := .valid
      message := Text.leaseActive
      daysLeft := libs.daysLeft (unix c.expiresAt) now
      allowNewOnboarding := true
      allowUpdates := true }

/-- `json.Unmarshal` of lease claims. -/
structure LeaseLibs extends Libs where
  unmarshalLease : Bytes → Except Str LeaseClaims

def verifyLease (libs : LeaseLibs) (token : Str) (pub : Bytes) : Except Str LeaseClaims :=
  if pub.length ≠ 32 then .error "lease: некорректный размер публичного ключа".toList
  else
    match splitAll ['.'] token with
    | [head, body, tail] =>
        if head ≠ leaseFormat then .error "lease: неверный формат токена".toList
        else
          match libs.decode body with
          | .error err => .error ("lease: decode payload: ".toList ++ err)
          | .ok payload =>
              match libs.decode tail with
              | .error err => .error ("lease: decode signature: ".toList ++ err)
              | .ok sig =>
                  if !libs.verify pub payload sig then
                    .error "lease: подпись недействительна".toList
                  else
                    match libs.unmarshalLease payload with
                    | .error err => .error ("lease: unmarshal claims: ".toList ++ err)
                    | .ok c =>
                        if c.version ≠ leaseClaimsVersion then
                          .error ("lease: неподдерживаемая версия claims: ".toList ++
                            (toString c.version.toInt).toList)
                        else .ok c
    | _ => .error "lease: неверный формат токена".toList

theorem verifyLease_token (libs : LeaseLibs) (pub : Bytes) (body tail : Str) (payload sig : Bytes)
    (c : LeaseClaims) (key : pub.length = 32) (second : '.' ∉ body) (third : '.' ∉ tail)
    (decoded : libs.decode body = .ok payload) (signature : libs.decode tail = .ok sig)
    (good : libs.verify pub payload sig = true) (read : libs.unmarshalLease payload = .ok c)
    (known : c.version = leaseClaimsVersion) :
    verifyLease libs (List.intercalate ['.'] [leaseFormat, body, tail]) pub = .ok c := by
  have first : '.' ∉ leaseFormat := not_mem_literal _ _ (by decide)
  unfold verifyLease
  rw [if_neg (by simpa using key), split_token _ _ _ first second third]
  simp only [ne_eq, not_true_eq_false, if_false, decoded, signature, good, read, known,
    Bool.not_true, Bool.false_eq_true]

def checkLease (libs : LeaseLibs) (token : Str) (pub : Bytes) (baseLicenseID deploymentID : Str)
    (localNow lastRenew : Time) : Except Str (LeaseEvaluation × LeaseClaims) :=
  match verifyLease libs token pub with
  | .error err => .error err
  | .ok claims =>
      .ok (claims.evaluateLease libs.toLibs localNow baseLicenseID deploymentID lastRenew, claims)

/-- What `CheckWithLease` returns: the evaluation of the licence with its claims, that of the lease
with its claims, and an error. -/
structure Answer where
  license : Option (Evaluation × Claims) := none
  lease : Option LeaseEvaluation := none
  leaseClaims : Option LeaseClaims := none
  error : Option Str := none

/-- `CheckWithLease`, with the bytes of the clock's store. -/
def Validator.checkWithLease (libs : LeaseLibs) (v : Validator) (token leaseToken : Str)
    (localNow lastLeaseRenew : Time) (activeNodes : Int64) (data : Bytes) : Answer × Bytes :=
  let checked := v.check libs.toLibs token localNow activeNodes data
  match checked.1 with
  | .error err => ({ error := some err }, checked.2)
  | .ok (ev, claims) =>
      if leaseToken = [] then
        ({ license := some (ev, claims)
           lease := some { status := .valid, message := Text.leaseNotNeeded } }, checked.2)
      else
        match checkLease libs leaseToken v.pub claims.licenseID v.deployment localNow
          lastLeaseRenew with
        | .error err => ({ license := some (ev, claims), error := some err }, checked.2)
        | .ok (lev, lclaims) =>
            ({ license := some (ev, claims), lease := some lev, leaseClaims := some lclaims },
              checked.2)

/-- What calls with one licence, one lease and one renewal report, each at its local time and number
of nodes, from the bytes in the clock's store. -/
def Validator.leaseReports (libs : LeaseLibs) (v : Validator) (token leaseToken : Str)
    (lastLeaseRenew : Time) :
    Bytes → List (Time × Int64) → List Answer
  | _, [] => []
  | data, call :: rest =>
      let answered := v.checkWithLease libs token leaseToken call.1 lastLeaseRenew call.2 data
      answered.1 :: v.leaseReports libs token leaseToken lastLeaseRenew answered.2 rest

/-- A lease that was reported expired or degraded is not reported valid or undegraded later. -/
def NotRevived (answers : List Answer) : Prop :=
  answers.Pairwise fun before later => ∀ old new, before.lease = some old → later.lease = some new →
    (old.status = .expired ∨ old.degraded = true) → new.status ≠ .valid ∧ new.degraded = true

/-- The lease is for this licence and this installation. -/
def LeaseClaims.fits (c : LeaseClaims) (baseLicenseID deploymentID : Str) : Bool :=
  ¬(baseLicenseID ≠ [] ∧ c.licenseID ≠ baseLicenseID) ∧
    ¬(deploymentID ≠ [] ∧ c.deploymentID ≠ [] ∧ c.deploymentID ≠ deploymentID)

/-- The time is past the grace end of the lease, or the last renewal lies back too far. -/
def LeaseClaims.limitPassed (c : LeaseClaims) (lastRenew now : Time) : Bool :=
  c.offlineTooLong now lastRenew || now.after (graceEnd c.expiresAt c.graceDays)

section Run

variable (libs : LeaseLibs) (v : Validator)

theorem evaluateLease_of_not_fits (c : LeaseClaims) (now : Time) (baseLicenseID deploymentID : Str)
    (lastRenew : Time) (other : c.fits baseLicenseID deploymentID = false) :
    (c.evaluateLease libs.toLibs now baseLicenseID deploymentID lastRenew).status = .mismatch ∧
      (c.evaluateLease libs.toLibs now baseLicenseID deploymentID lastRenew).degraded = true := by
  unfold LeaseClaims.evaluateLease
  by_cases license : baseLicenseID ≠ [] ∧ c.licenseID ≠ baseLicenseID
  · rw [if_pos license]
    exact ⟨rfl, rfl⟩
  · by_cases place : deploymentID ≠ [] ∧ c.deploymentID ≠ [] ∧ c.deploymentID ≠ deploymentID
    · rw [if_neg license, if_pos place]
      exact ⟨rfl, rfl⟩
    · have fits : c.fits baseLicenseID deploymentID = true := decide_eq_true ⟨license, place⟩
      rw [fits] at other
      cases other

/-- A lease that fits is degraded exactly past its limit, and expired or not valid only there. -/
theorem evaluateLease_of_fits (c : LeaseClaims) (now : Time) (baseLicenseID deploymentID : Str)
    (lastRenew : Time) (fits : c.fits baseLicenseID deploymentID = true) :
    let ev := c.evaluateLease libs.toLibs now baseLicenseID deploymentID lastRenew
    ev.degraded = c.limitPassed lastRenew now ∧
      (ev.status = .expired → c.limitPassed lastRenew now = true) ∧
      (ev.status = .valid → c.limitPassed lastRenew now = false) := by
  obtain ⟨license, place⟩ := of_decide_eq_true fits
  intro ev
  have same : ev = c.evaluateLease libs.toLibs now baseLicenseID deploymentID lastRenew := rfl
  rw [LeaseClaims.evaluateLease, if_neg license, if_neg place] at same
  rw [same]
  unfold LeaseClaims.limitPassed
  cases offline : c.offlineTooLong now lastRenew with
  | true => simp
  | false =>
      cases late : now.after (graceEnd c.expiresAt c.graceDays) with
      | true => simp
      | false =>
          simp only [Bool.false_eq_true, if_false, Bool.or_false]
          split <;> simp

/-- The claims of a check are those of the token. -/
theorem check_claims (token : Str) (localNow : Time) (activeNodes : Int64) (data : Bytes) :
    match verify libs.toLibs token v.pub with
    | .error err => (v.check libs.toLibs token localNow activeNodes data).1 = .error err
    | .ok c => ∃ ev, (v.check libs.toLibs token localNow activeNodes data).1 = .ok (ev, c) := by
  unfold Validator.check
  cases verify libs.toLibs token v.pub with
  | error err => rfl
  | ok c =>
      dsimp only
      split
      · exact ⟨_, rfl⟩
      · split
        · exact ⟨_, rfl⟩
        · split <;> exact ⟨_, rfl⟩

/-- What a call says of the lease depends on its local time alone. -/
def Validator.leaseAt (token leaseToken : Str) (lastRenew localNow : Time) :
    Option LeaseEvaluation :=
  match verify libs.toLibs token v.pub with
  | .error _ => none
  | .ok c =>
      if leaseToken = [] then some { status := .valid, message := Text.leaseNotNeeded }
      else (checkLease libs leaseToken v.pub c.licenseID v.deployment localNow
        lastRenew).toOption.map (·.1)

theorem checkWithLease_lease (token leaseToken : Str) (localNow lastRenew : Time)
    (activeNodes : Int64) (data : Bytes) :
    (v.checkWithLease libs token leaseToken localNow lastRenew activeNodes data).1.lease =
      v.leaseAt libs token leaseToken lastRenew localNow := by
  have claims := check_claims libs v token localNow activeNodes data
  unfold Validator.checkWithLease Validator.leaseAt
  cases good : verify libs.toLibs token v.pub with
  | error err =>
      rw [good] at claims
      dsimp only at claims ⊢
      rw [claims]
  | ok c =>
      rw [good] at claims
      obtain ⟨ev, checked⟩ := claims
      dsimp only
      rw [checked]
      dsimp only
      split
      · rfl
      · cases checkLease libs leaseToken v.pub c.licenseID v.deployment localNow lastRenew <;> rfl

theorem leaseReports_lease (token leaseToken : Str) (lastRenew : Time) (data : Bytes)
    (calls : List (Time × Int64)) :
    (v.leaseReports libs token leaseToken lastRenew data calls).map (·.lease) =
      calls.map fun call => v.leaseAt libs token leaseToken lastRenew call.1 := by
  induction calls generalizing data with
  | nil => rfl
  | cons call rest ih =>
      simp only [Validator.leaseReports, List.map_cons, checkWithLease_lease, ih]

theorem leaseAt_known (token leaseToken : Str) (lastRenew now : Time) (c : Claims) (l : LeaseClaims)
    (good : verify libs.toLibs token v.pub = .ok c) (some_ : leaseToken ≠ [])
    (read : verifyLease libs leaseToken v.pub = .ok l) :
    v.leaseAt libs token leaseToken lastRenew now =
      some (l.evaluateLease libs.toLibs now c.licenseID v.deployment lastRenew) := by
  simp [Validator.leaseAt, good, some_, checkLease, read, Except.toOption]

/-- A run does not revive its lease exactly if, for tokens that are good and a lease that fits, the
local clock is not set back from past the limit of the lease. -/
theorem lease_not_revived_iff (token leaseToken : Str) (lastRenew : Time) (data : Bytes)
    (calls : List (Time × Int64)) :
    NotRevived (v.leaseReports libs token leaseToken lastRenew data calls) ↔
      ∀ c l, verify libs.toLibs token v.pub = .ok c → leaseToken ≠ [] →
        verifyLease libs leaseToken v.pub = .ok l → l.fits c.licenseID v.deployment = true →
        calls.Pairwise fun before later =>
          l.limitPassed lastRenew before.1 = true → l.limitPassed lastRenew later.1 = true := by
  have onLeases : NotRevived (v.leaseReports libs token leaseToken lastRenew data calls) ↔
      calls.Pairwise fun before later => ∀ old new,
        v.leaseAt libs token leaseToken lastRenew before.1 = some old →
        v.leaseAt libs token leaseToken lastRenew later.1 = some new →
        (old.status = .expired ∨ old.degraded = true) → new.status ≠ .valid ∧
          new.degraded = true := by
    rw [← List.pairwise_map (f :=
      fun call : Time × Int64 => v.leaseAt libs token leaseToken lastRenew call.1)
      (R := fun a b => ∀ old new, a = some old → b = some new →
        (old.status = .expired ∨ old.degraded = true) → new.status ≠ .valid ∧ new.degraded = true),
      ← leaseReports_lease libs v token leaseToken lastRenew data calls, List.pairwise_map]
    rfl
  rw [onLeases]
  cases good : verify libs.toLibs token v.pub with
  | error err =>
      refine iff_of_true (List.pairwise_of_forall ?_) ?_
      · intro before later old new reported
        simp [Validator.leaseAt, good] at reported
      · intro c l read
        cases read
  | ok c =>
      by_cases empty : leaseToken = []
      · refine iff_of_true (List.pairwise_of_forall ?_) (fun _ _ _ present => absurd empty present)
        intro before later old new reported _ over_
        simp only [Validator.leaseAt, good, empty, if_true, Option.some.injEq] at reported
        rw [← reported] at over_
        simp at over_
      cases read : verifyLease libs leaseToken v.pub with
      | error err =>
          refine iff_of_true (List.pairwise_of_forall ?_) ?_
          · intro before later old new reported
            simp [Validator.leaseAt, good, empty, checkLease, read, Except.toOption] at reported
          · intro c l _ _ other
            cases other
      | ok l =>
          have reads (now : Time) :=
            leaseAt_known libs v token leaseToken lastRenew now c l good empty read
          cases fits : l.fits c.licenseID v.deployment with
          | false =>
              refine iff_of_true (List.pairwise_of_forall ?_) ?_
              · intro before later old new _ reported _
                rw [reads, Option.some.injEq] at reported
                obtain ⟨status, degraded⟩ :=
                  evaluateLease_of_not_fits libs l later.1 c.licenseID v.deployment lastRenew fits
                rw [reported] at status degraded
                rw [status]
                exact ⟨by decide, degraded⟩
              · intro c' l' sameClaims _ sameLease other
                rw [← Except.ok.inj sameClaims, ← Except.ok.inj sameLease, fits] at other
                cases other
          | true =>
              have pointwise (before later : Time × Int64) :
                  (∀ old new, v.leaseAt libs token leaseToken lastRenew before.1 = some old →
                    v.leaseAt libs token leaseToken lastRenew later.1 = some new →
                    (old.status = .expired ∨ old.degraded = true) → new.status ≠ .valid ∧
                      new.degraded = true) ↔
                  (l.limitPassed lastRenew before.1 = true →
                    l.limitPassed lastRenew later.1 = true) := by
                obtain ⟨degraded, expired, -⟩ :=
                  evaluateLease_of_fits libs l before.1 c.licenseID v.deployment lastRenew fits
                obtain ⟨next, -, valid⟩ :=
                  evaluateLease_of_fits libs l later.1 c.licenseID v.deployment lastRenew fits
                rw [reads, reads]
                constructor
                · intro kept passed
                  rw [← next]
                  exact (kept _ _ rfl rfl (Or.inr (degraded.trans passed))).2
                · intro kept old new first second reported
                  rw [← Option.some.inj first] at reported
                  rw [← Option.some.inj second, next]
                  have passed : l.limitPassed lastRenew before.1 = true := by
                    rcases reported with over_ | low
                    · exact expired over_
                    · exact degraded.symm.trans low
                  refine ⟨?_, kept passed⟩
                  intro active
                  rw [valid active] at kept
                  exact absurd (kept passed) (by decide)
              simp only [pointwise]
              constructor
              · intro held c' l' _ _ sameLease _
                rw [← Except.ok.inj sameLease]
                exact held
              · intro held
                exact held c l rfl empty rfl fits

end Run

def sampleLease : LeaseClaims where
  version := 1
  licenseID := "L1".toList
  deploymentID := []
  tenantID := "t1".toList
  modules := none
  issuedAt := 500
  expiresAt := 1000
  graceDays := 0
  offlineMaxDays := 0
  renewalIntervalHours := 24
  degradationMode := []

def leasePayload : Bytes :=
  bytesOf ("\x7b\"v\":1,\"lid\":\"L1\",\"deployment\":\"\",\"tenant\":\"t1\",\"iat\":500,\"exp\":1000," ++
    "\"grace_days\":0,\"offline_max_days\":0,\"renewal_interval_h\":24\x7d").toList

def leaseBody : Str :=
  ("eyJ2IjoxLCJsaWQiOiJMMSIsImRlcGxveW1lbnQiOiIiLCJ0ZW5hbnQiOiJ0MSIsImlhdCI6NTAwLCJleHAiOjEwMDAsImdyYWNl" ++
    "X2RheXMiOjAsIm9mZmxpbmVfbWF4X2RheXMiOjAsInJlbmV3YWxfaW50ZXJ2YWxfaCI6MjR9").toList

/-- The libraries at the sample licence and the sample lease. -/
def leaseLibs : LeaseLibs :=
  { sampleLibs 500 0 issuedBody with
    verify := fun _ msg sig =>
      (msg = samplePayload 500 0 ∨ msg = leasePayload) ∧ sig = List.replicate 64 0
    decode := fun text =>
      if text = leaseBody then .ok leasePayload else (sampleLibs 500 0 issuedBody).decode text
    unmarshalLease := fun data =>
      if data = leasePayload then .ok sampleLease
        else .error "unexpected end of JSON input".toList }

theorem leaseBody_plain : '.' ∉ leaseBody := by
  have spelled : leaseBody = _ := spell_append String.toList_ofList
  rw [spelled]
  decide

theorem leaseBody_other : List.replicate 86 'A' ≠ leaseBody := by
  have spelled : leaseBody = _ := spell_append String.toList_ofList
  rw [spelled]
  exact fun same => absurd (List.cons.inj same).1 (by decide)

theorem issuedBody_ne_leaseBody : issuedBody ≠ leaseBody := by
  have spelled : leaseBody = _ := spell_append String.toList_ofList
  have front : sampleBody = _ := spell_append String.toList_ofList
  unfold issuedBody
  rw [spelled, front]
  exact fun same => absurd (congrArg (List.take 30) same) (by decide)

theorem leaseLibs_decode (text : Str) : leaseLibs.decode text =
    if text = leaseBody then .ok leasePayload
    else if text = issuedBody then .ok (samplePayload 500 0)
    else if text = List.replicate 86 'A' then .ok (List.replicate 64 0)
    else .error "illegal base64 data at input byte 0".toList :=
  rfl

theorem leaseLibs_unmarshalLease (data : Bytes) : leaseLibs.unmarshalLease data =
    if data = leasePayload then .ok sampleLease else .error "unexpected end of JSON input".toList :=
  rfl

theorem leaseLibs_verify (msg : Bytes) (known : msg = samplePayload 500 0 ∨ msg = leasePayload) :
    leaseLibs.verify sampleValidator.pub msg (List.replicate 64 0) = true := by
  have rule : leaseLibs.verify sampleValidator.pub msg (List.replicate 64 0) =
      decide ((msg = samplePayload 500 0 ∨ msg = leasePayload) ∧
        List.replicate 64 (0 : UInt8) = List.replicate 64 0) := rfl
  rw [rule]
  exact decide_eq_true ⟨known, rfl⟩

theorem leaseLibs_decode_tail :
    leaseLibs.decode (List.replicate 86 'A') = .ok (List.replicate 64 0) := by
  have other : List.replicate 86 'A' ≠ issuedBody := sampleBody_other _
  rw [leaseLibs_decode, if_neg leaseBody_other, if_neg other, if_pos rfl]

theorem tail_plain : '.' ∉ List.replicate 86 'A' :=
  fun member => absurd (List.eq_of_mem_replicate member) (by decide)

theorem verify_leaseLibs :
    verify leaseLibs.toLibs (tokenOf issuedBody) sampleValidator.pub = .ok
      (sampleClaims 500 0) := by
  have plain : '.' ∉ issuedBody :=
    fun member => (List.mem_append.mp member).elim sampleBody_plain
      (not_mem_literal _ _ (by decide))
  have decoded : leaseLibs.decode issuedBody = .ok (samplePayload 500 0) := by
    rw [leaseLibs_decode, if_neg issuedBody_ne_leaseBody, if_pos rfl]
  exact verify_token leaseLibs.toLibs _ _ _ _ _ _ List.length_replicate plain tail_plain decoded
    leaseLibs_decode_tail (leaseLibs_verify _ (Or.inl rfl))
    (unmarshal_oneToken (sampleClaims 500 0) (samplePayload 500 0) issuedBody) rfl

theorem verifyLease_leaseLibs :
    verifyLease leaseLibs (List.intercalate ['.'] [leaseFormat, leaseBody, List.replicate 86 'A'])
      sampleValidator.pub = .ok sampleLease := by
  have decoded : leaseLibs.decode leaseBody = .ok leasePayload := by
    rw [leaseLibs_decode, if_pos rfl]
  have read : leaseLibs.unmarshalLease leasePayload = .ok sampleLease := by
    rw [leaseLibs_unmarshalLease, if_pos rfl]
  exact verifyLease_token leaseLibs _ _ _ _ _ _ List.length_replicate leaseBody_plain tail_plain
    decoded
    leaseLibs_decode_tail (leaseLibs_verify _ (Or.inr rfl)) read rfl

/-- A lease that was expired is valid again once the local clock is set back by 400 seconds. -/
theorem lease_revived :
    ((sampleValidator.sealedBy plainClock).leaseReports leaseLibs (tokenOf issuedBody)
        (List.intercalate ['.'] [leaseFormat, leaseBody, List.replicate 86 'A']) (unix 500) []
        [(unix 1100, 1), (unix 700, 1)]).map
          (fun answer => answer.lease.map fun ev => (ev.status, ev.degraded)) =
      [some (.expired, true), some (.valid, false)] := by
  have answers :=
    congrArg (List.map (Option.map fun ev : LeaseEvaluation => (ev.status, ev.degraded)))
      (leaseReports_lease leaseLibs (sampleValidator.sealedBy plainClock) (tokenOf issuedBody)
        (List.intercalate ['.'] [leaseFormat, leaseBody, List.replicate 86 'A']) (unix 500) []
          [(unix 1100, 1), (unix 700, 1)])
  have known (now : Time) :=
    leaseAt_known leaseLibs (sampleValidator.sealedBy plainClock) (tokenOf issuedBody)
      (List.intercalate ['.'] [leaseFormat, leaseBody, List.replicate 86 'A'])
        (unix 500) now _ _ verify_leaseLibs
      (by simp [List.intercalate, leaseFormat]) verifyLease_leaseLibs
  rw [List.map_map] at answers
  simp only [List.map_cons, List.map_nil, known] at answers
  refine answers.trans ?_
  decide +kernel

end EraOne.License
