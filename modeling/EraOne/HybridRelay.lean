import EraOne.LicenseLease
import EraOne.Runs

set_option autoImplicit false

/- The hybrid relay of the control plane (`internal/hybrid`, `relay.go`, `relay_bundle.go` and
`bundle_apply.go`) on the in-memory store, and the check of content bundles that the update service
has (`bundle.go`). HTTP answers, clock readings, the health report and the JSON of answers are
given. -/
namespace EraOne.Hybrid

open GoTime Scan
open License (Bytes LeaseLibs LeaseClaims CRL verifyLease)

structure HybridPolicy where
  portalURL : Str
  updateURL : Str
  healthLevel : Str
  deploymentID : Str
  licenseID : Str
  deriving DecidableEq

structure HybridRuntime where
  lastSyncAt : Time
  lastLeaseRenew : Time
  leaseStatus : Str
  leaseMessage : Str
  lastCRLIssuedAt : Time
  lastBundleID : Str
  lastError : Str
  deriving DecidableEq

structure PolicyBundle where
  version : Str
  rules : StrMap Str

structure AuditEntry where
  action : Str
  actor : Str
  target : Str
  detail : Str
  deriving DecidableEq

structure Store where
  hybridPolicy : HybridPolicy
  runtime : HybridRuntime
  leaseToken : Str
  leaseRenew : Time
  policy : PolicyBundle
  audit : List AuditEntry

def Store.recordAudit (st : Store) (action actor target detail : Str) : Store :=
  { st with audit := st.audit ++ [⟨action, actor, target, detail⟩] }

/-- `SetLeaseCache`, with the clock it reads for a zero time. -/
def Store.setLeaseCache (st : Store) (token : Str) (lastRenew now : Time) : Store :=
  { st with leaseToken := token, leaseRenew := if lastRenew.isZero then now else lastRenew }

/-! ### Bundles -/

/-- The claims as `bundle.Verify` of the update service reads them. -/
structure Claims where
  version : Int64
  bundleID : Str
  kind : Str
  issuedAt : Int64
  fileCount : Int64
  manifestHash : Str
  deriving DecidableEq

/-- The part of the claims that the relay reads. -/
structure BundleClaims where
  bundleID : Str
  kind : Str
  deriving DecidableEq

/-- The two readings of a payload, of the CRL and of an answer `{"token": …}`. -/
structure Libs extends LeaseLibs where
  unmarshalCRL : Bytes → Except Str CRL
  unmarshalClaims : Bytes → Except Str Claims
  unmarshalBundle : Bytes → Except Str BundleClaims
  responseToken : Bytes → Except Str Str

def kindSigmaCorpus : Str := "sigma-corpus".toList

def kindCVEFeed : Str := "cve-feed".toList

def kindConnector : Str := "connector".toList

def kindAIPack : Str := "ai-pack".toList

def kindAtlasPack : Str := "atlas-pack".toList

def validKind (kind : Str) : Bool :=
  kind = kindSigmaCorpus || kind = kindCVEFeed || kind = kindConnector || kind = kindAIPack ||
    kind = kindAtlasPack

def claimsVersion : Int64 := 1

def bundleFormat : Str := "ERABNDL1".toList

/-- What both checks of a bundle do before they read its payload. -/
def signedPayload (libs : Libs) (token : Str) (pub : Bytes) : Except Str Bytes :=
  match splitAll ['.'] token with
  | [head, body, tail] =>
      if head ≠ bundleFormat then .error "bundle: неверный формат".toList
      else
        match libs.decode body with
        | .error err => .error ("bundle: decode payload: ".toList ++ err)
        | .ok payload =>
            match libs.decode tail with
            | .error err => .error ("bundle: decode sig: ".toList ++ err)
            | .ok sig =>
                if !libs.verify pub payload sig then .error "bundle: подпись недействительна".toList
                else .ok payload
  | _ => .error "bundle: неверный формат".toList

/-- `bundle.Verify`. -/
def verify (libs : Libs) (token : Str) (pub : Bytes) : Except Str Claims :=
  match signedPayload libs token pub with
  | .error err => .error err
  | .ok payload =>
      match libs.unmarshalClaims payload with
      | .error err => .error err
      | .ok c =>
          if c.version ≠ claimsVersion then
            .error ("bundle: unsupported version ".toList ++ (toString c.version.toInt).toList)
          else .ok c

def minimalBundleVerify (libs : Libs) (token : Str) (pub : Bytes) : Except Str BundleClaims :=
  match signedPayload libs token pub with
  | .error err => .error err
  | .ok payload => libs.unmarshalBundle payload

/-- The text `%d` prints. -/
def printInt (n : Int) : Str :=
  if n < 0 then '-' :: Nat.toDigits 10 n.natAbs else Nat.toDigits 10 n.natAbs

/-- The sign `%d` accepts, and what follows it. -/
def scanSign : Str → Int × Str
  | '+' :: rest => (1, rest)
  | '-' :: rest => (-1, rest)
  | s => (1, s)

/-- `fmt.Sscanf(s, "%d", &n)` with its error dropped: `n` stays zero unless a number that fits is
read. Blanks are passed over, a line end is not, and what follows the number is left. -/
def sscanfInt (s : Str) : Int64 :=
  let signed := scanSign (s.dropWhile fun c => c != '\n' && isWhitespace c)
  match parseDigits (signed.2.takeWhile Char.isDigit) with
  | some n =>
      let value := signed.1 * n
      if -2 ^ 63 ≤ value ∧ value < 2 ^ 63 then Int64.ofInt value else 0
  | none => 0

/-- The version up to the first plus sign. -/
def versionBase (cur : Str) : Str := cur.takeWhile (· ≠ '+')

def bumpPolicyVersion (cur bundleID : Str) : Str :=
  if cur = [] then "1.0.0+".toList ++ bundleID
  else
    match splitAll ['.'] (versionBase cur) with
    | [major, minor, patch] =>
        major ++ '.' :: minor ++ '.' :: printInt (sscanfInt patch + 1).toInt ++ '+' :: bundleID
    | _ => versionBase cur ++ '+' :: bundleID

/-- The rule that a bundle of this kind sets. -/
def ruleKey (kind : Str) : Str := if kind = kindSigmaCorpus then "sigma".toList else kind

def applyBundleToPolicy (st : Store) (bundle : BundleClaims) : Store :=
  { st with
    policy :=
      { version := bumpPolicyVersion st.policy.version bundle.bundleID
        rules :=
          st.policy.rules.insert (ruleKey bundle.kind) ("bundle:".toList ++ bundle.bundleID) } }

/-! ### One synchronisation -/

/-- What the process was started with: the overrides of the environment and the vendor's key. -/
structure Process where
  portalURL : Str
  updateURL : Str
  pub : Option Bytes

structure Config where
  portalURL : Str
  updateURL : Str
  healthLevel : Str
  deploymentID : Str
  licenseID : Str

def loadConfig (process : Process) (st : Store) : Config where
  portalURL := if process.portalURL ≠ [] then process.portalURL else st.hybridPolicy.portalURL
  updateURL := if process.updateURL ≠ [] then process.updateURL else st.hybridPolicy.updateURL
  healthLevel := if st.hybridPolicy.healthLevel = [] then "A".toList
    else st.hybridPolicy.healthLevel
  deploymentID := st.hybridPolicy.deploymentID
  licenseID := st.hybridPolicy.licenseID

/-- What is answered during one synchronisation, the health reports included, and the readings of
the clock in the order they are taken. -/
structure Upstream where
  get : Str → Except Str Bytes
  health : Str → Store → HybridRuntime → Except Str Unit
  evaluatedAt : Time
  renewedAt : Time
  cachedAt : Time
  crlPulledAt : Time
  syncedAt : Time

def joinURL (base path : Str) : Str := trimEndMatches '/' base ++ path

def urlQuery (s : Str) : Str := replaceAll [' '] "%20".toList s

def leaseURL (cfg : Config) : Str :=
  joinURL cfg.portalURL
    ("/api/v1/hybrid/lease/renew?deployment_id=".toList ++ urlQuery cfg.deploymentID ++
    "&license_id=".toList ++ urlQuery cfg.licenseID)

def crlURL (cfg : Config) : Str := joinURL cfg.portalURL "/api/v1/hybrid/crl".toList

def bundleURL (cfg : Config) : Str := joinURL cfg.updateURL "/api/v1/bundles/latest".toList

def crlFormat : Str := "ERACRL1".toList

/-- `VerifyCRL`. -/
def verifyCRL (libs : Libs) (token : Str) (pub : Bytes) : Except Str CRL :=
  if pub.length ≠ 32 then .error "crl: некорректный размер публичного ключа".toList
  else
    match splitAll ['.'] token with
    | [head, body, tail] =>
        if head ≠ crlFormat then .error "crl: неверный формат токена".toList
        else
          match libs.decode body with
          | .error err => .error ("crl: decode payload: ".toList ++ err)
          | .ok payload =>
              match libs.decode tail with
              | .error err => .error ("crl: decode signature: ".toList ++ err)
              | .ok sig =>
                  if !libs.verify pub payload sig then .error "crl: подпись недействительна".toList
                  else
                    match libs.unmarshalCRL payload with
                    | .error err => .error ("crl: unmarshal: ".toList ++ err)
                    | .ok c => .ok c
    | _ => .error "crl: неверный формат токена".toList

/-- The token an upstream serves. -/
def pullToken (libs : Libs) (u : Upstream) (url : Str) : Except Str Str :=
  match u.get url with
  | .error err => .error err
  | .ok raw => libs.responseToken raw

/-- The lease that a pull gets, with its token. -/
def leasePulled (libs : Libs) (cfg : Config) (pub : Bytes) (u : Upstream) :
    Except Str (Str × LeaseClaims) :=
  match pullToken libs u (leaseURL cfg) with
  | .error err => .error err
  | .ok token =>
      match verifyLease libs.toLeaseLibs token pub with
      | .error err => .error err
      | .ok claims =>
          if cfg.deploymentID ≠ [] ∧ claims.deploymentID ≠ cfg.deploymentID then
            .error "lease deployment mismatch".toList
          else .ok (token, claims)

/-- What a pull changes: the store, the caller's copy of the runtime, and the error, empty for
none. -/
structure Pulled where
  store : Store
  rt : HybridRuntime
  error : Option Str

/-- The lease is judged by the renewal that was cached before this one. -/
def pullLease (libs : Libs) (cfg : Config) (pub : Bytes) (u : Upstream) (st : Store)
    (rt : HybridRuntime) :
    Pulled :=
  match leasePulled libs cfg pub u with
  | .error err => ⟨st, rt, some err⟩
  | .ok pulled =>
      let ev := pulled.2.evaluateLease libs.toLibs u.evaluatedAt cfg.licenseID cfg.deploymentID
        st.leaseRenew
      ⟨(st.setLeaseCache pulled.1 u.renewedAt u.cachedAt).recordAudit "hybrid.lease_renew".toList
        "relay".toList
          cfg.deploymentID ev.status.text,
        { rt with
          leaseStatus := ev.status.text, leaseMessage := ev.message,
          lastLeaseRenew := u.renewedAt },
        none⟩

def crlPulled (libs : Libs) (cfg : Config) (pub : Bytes) (u : Upstream) : Except Str CRL :=
  match pullToken libs u (crlURL cfg) with
  | .error err => .error err
  | .ok token => verifyCRL libs token pub

/-- The time of the pull goes into the store's own runtime, not into the caller's copy. -/
def pullCRL (libs : Libs) (cfg : Config) (pub : Bytes) (u : Upstream) (st : Store) :
    Store × Option Str :=
  match crlPulled libs cfg pub u with
  | .error err => (st, some err)
  | .ok _ =>
      (({ st with
          runtime := { st.runtime with lastCRLIssuedAt := u.crlPulledAt } } : Store).recordAudit
        "hybrid.crl_pull".toList "relay".toList cfg.deploymentID "ok".toList, none)

def bundlePulled (libs : Libs) (cfg : Config) (pub : Bytes) (u : Upstream) :
    Except Str (Str × BundleClaims) :=
  match pullToken libs u (bundleURL cfg) with
  | .error err => .error err
  | .ok token =>
      match minimalBundleVerify libs token pub with
      | .error err => .error err
      | .ok bundle => .ok (token, bundle)

def pullBundle (libs : Libs) (cfg : Config) (pub : Bytes) (u : Upstream) (st : Store)
    (rt : HybridRuntime) :
    Pulled :=
  match bundlePulled libs cfg pub u with
  | .error err => ⟨st, rt, some err⟩
  | .ok pulled =>
      let applied := applyBundleToPolicy st pulled.2
      let rt := { rt with lastBundleID := pulled.2.bundleID }
      ⟨({ applied with runtime := rt } : Store).recordAudit "hybrid.bundle_apply".toList
        "relay".toList
          pulled.2.bundleID pulled.2.kind, rt, none⟩

/-- The first error is kept. -/
def keepFirst (lastErr : Str) : Option Str → Str
  | some err => if lastErr = [] then err else lastErr
  | none => lastErr

/-- The report on health of the level configured, if that level has one. -/
def pushHealth (cfg : Config) (u : Upstream) (st : Store) (rt : HybridRuntime) : Option Str :=
  if cfg.healthLevel = "A".toList ∨ cfg.healthLevel = "B".toList ∨ cfg.healthLevel = "C".toList then
    match u.health cfg.healthLevel st rt with
    | .error err => some err
    | .ok _ => none
  else none

/-- The pulls from the portal. -/
def syncPortal (libs : Libs) (cfg : Config) (pub : Bytes) (u : Upstream) (st : Store)
    (rt : HybridRuntime) :
    Store × HybridRuntime × Str :=
  let lease := pullLease libs cfg pub u st rt
  let crl := pullCRL libs cfg pub u lease.store
  let lastErr := keepFirst (lease.error.getD []) crl.2
  (crl.1, lease.rt, keepFirst lastErr (pushHealth cfg u crl.1 lease.rt))

/-- The pull from the update service. -/
def syncUpdate (libs : Libs) (cfg : Config) (pub : Bytes) (u : Upstream) (st : Store)
    (rt : HybridRuntime) (lastErr : Str) : Store × HybridRuntime × Str :=
  let bundle := pullBundle libs cfg pub u st rt
  (bundle.store, bundle.rt, keepFirst lastErr bundle.error)

def syncOnce (libs : Libs) (process : Process) (st : Store) (u : Upstream) : Store :=
  let cfg := loadConfig process st
  let portal := match process.pub with
    | some pub =>
        if cfg.portalURL ≠ [] then syncPortal libs cfg pub u st st.runtime else (st, st.runtime, [])
    | none => (st, st.runtime, [])
  let update := match process.pub with
    | some pub =>
        if cfg.updateURL ≠ [] then syncUpdate libs cfg pub u portal.1 portal.2.1 portal.2.2
          else portal
    | none => portal
  { update.1 with runtime := { update.2.1 with lastSyncAt := u.syncedAt, lastError := update.2.2 } }

/-- The bundle a synchronisation applies, if it applies one. -/
def bundleApplied (libs : Libs) (process : Process) (st : Store) (u : Upstream) :
    Option (Str × BundleClaims) :=
  match process.pub with
  | none => none
  | some pub =>
      if (loadConfig process st).updateURL ≠ [] then
        (bundlePulled libs (loadConfig process st) pub u).toOption
      else none

theorem pullLease_frame (libs : Libs) (cfg : Config) (pub : Bytes) (u : Upstream) (st : Store)
    (rt : HybridRuntime) :
    (pullLease libs cfg pub u st rt).store.policy = st.policy ∧
      (pullLease libs cfg pub u st rt).store.hybridPolicy = st.hybridPolicy := by
  unfold pullLease
  split <;> exact ⟨rfl, rfl⟩

theorem pullCRL_frame (libs : Libs) (cfg : Config) (pub : Bytes) (u : Upstream) (st : Store) :
    (pullCRL libs cfg pub u st).1.policy = st.policy ∧
      (pullCRL libs cfg pub u st).1.hybridPolicy = st.hybridPolicy := by
  unfold pullCRL
  split <;> exact ⟨rfl, rfl⟩

theorem syncPortal_frame (libs : Libs) (cfg : Config) (pub : Bytes) (u : Upstream) (st : Store)
    (rt : HybridRuntime) :
    (syncPortal libs cfg pub u st rt).1.policy = st.policy ∧
      (syncPortal libs cfg pub u st rt).1.hybridPolicy = st.hybridPolicy := by
  have lease := pullLease_frame libs cfg pub u st rt
  have crl := pullCRL_frame libs cfg pub u (pullLease libs cfg pub u st rt).store
  exact ⟨crl.1.trans lease.1, crl.2.trans lease.2⟩

/-- A synchronisation changes the policy by the bundle it applies only. -/
theorem policy_syncOnce (libs : Libs) (process : Process) (st : Store) (u : Upstream) :
    (syncOnce libs process st u).policy =
        (match bundleApplied libs process st u with
          | some pulled => (applyBundleToPolicy st pulled.2).policy
          | none => st.policy) ∧
      (syncOnce libs process st u).hybridPolicy = st.hybridPolicy := by
  unfold syncOnce bundleApplied
  cases process.pub with
  | none => exact ⟨rfl, rfl⟩
  | some pub =>
      dsimp only
      generalize portal : (if (loadConfig process st).portalURL ≠ [] then
        syncPortal libs (loadConfig process st) pub u st st.runtime
          else (st, st.runtime, [])) = before
      have frame : before.1.policy = st.policy ∧ before.1.hybridPolicy = st.hybridPolicy := by
        rw [← portal]
        split
        · exact syncPortal_frame libs _ pub u st st.runtime
        · exact ⟨rfl, rfl⟩
      by_cases asked : (loadConfig process st).updateURL ≠ []
      · rw [if_pos asked, if_pos asked]
        unfold syncUpdate pullBundle
        dsimp only
        cases bundlePulled libs (loadConfig process st) pub u with
        | error err => exact frame
        | ok pulled =>
            refine ⟨?_, frame.2⟩
            change (applyBundleToPolicy before.1 pulled.2).policy =
              (applyBundleToPolicy st pulled.2).policy
            unfold applyBundleToPolicy
            rw [frame.1]
      · rw [if_neg asked, if_neg asked]
        exact frame

/-! ### The channel of bundles -/

/-- The store with the bundles applied so far, each with its token. -/
structure Channel where
  store : Store
  applied : List (Str × BundleClaims) := []

def Channel.sync (libs : Libs) (process : Process) (c : Channel) (u : Upstream) : Channel where
  store := syncOnce libs process c.store u
  applied := c.applied ++ (bundleApplied libs process c.store u).toList

/-- Where it is of the same kind, the earlier bundle was issued no later. -/
def NotOlder (libs : Libs) (pub : Bytes) (earlier entry : Str × BundleClaims) (claims : Claims) :
    Prop :=
  earlier.2.kind = entry.2.kind → ∀ old, verify libs earlier.1 pub = .ok old →
    old.issuedAt ≤ claims.issuedAt

/-- A bundle that may be applied after the ones before it: `Verify` accepts it, its kind is known,
and none of its kind was issued later. -/
def MayFollow (libs : Libs) (process : Process) (before : List (Str × BundleClaims))
    (entry : Str × BundleClaims) : Prop :=
  ∃ pub ∈ process.pub, ∃ claims, verify libs entry.1 pub = .ok claims ∧
    validKind entry.2.kind = true ∧
    ∀ earlier ∈ before, NotOlder libs pub earlier entry claims

/-- The token served, where it is signed and names an id and a kind, has claims of the known
version, a known kind, and none of that kind issued later was applied. -/
def ServedFresh (libs : Libs) (process : Process) (c : Channel) (u : Upstream) : Prop :=
  ∀ pub ∈ process.pub, (loadConfig process c.store).updateURL ≠ [] →
    ∀ token, pullToken libs u (bundleURL (loadConfig process c.store)) = .ok token →
    ∀ payload, signedPayload libs token pub = .ok payload →
    ∀ bundle, libs.unmarshalBundle payload = .ok bundle →
    ∃ claims, libs.unmarshalClaims payload = .ok claims ∧ claims.version = claimsVersion ∧
      validKind bundle.kind = true ∧ ∀ earlier ∈ c.applied,
        NotOlder libs pub earlier (token, bundle) claims

theorem verify_eq (libs : Libs) (token : Str) (pub payload : Bytes) (claims : Claims)
    (signed : signedPayload libs token pub = .ok payload) :
    verify libs token pub = .ok claims ↔
      libs.unmarshalClaims payload = .ok claims ∧ claims.version = claimsVersion := by
  unfold verify
  rw [signed]
  dsimp only
  cases libs.unmarshalClaims payload with
  | error err => simp
  | ok c =>
      dsimp only
      constructor
      · intro accepted
        split at accepted
        · cases accepted
        · rename_i known
          rw [Except.ok.injEq] at accepted
          subst accepted
          exact ⟨rfl, Decidable.not_not.mp known⟩
      · intro ⟨read, known⟩
        rw [Except.ok.injEq] at read
        subst read
        rw [if_neg (not_not_intro known)]

theorem bundlePulled_iff (libs : Libs) (cfg : Config) (pub : Bytes) (u : Upstream) (token : Str)
    (bundle : BundleClaims) :
    bundlePulled libs cfg pub u = .ok (token, bundle) ↔
      pullToken libs u (bundleURL cfg) = .ok token ∧
        ∃ payload, signedPayload libs token pub = .ok payload ∧
          libs.unmarshalBundle payload = .ok bundle := by
  unfold bundlePulled minimalBundleVerify
  cases pullToken libs u (bundleURL cfg) with
  | error err => simp
  | ok served =>
      dsimp only
      cases signed : signedPayload libs served pub with
      | error err =>
          constructor
          · intro pulled
            cases pulled
          · intro ⟨same, payload, other, _⟩
            rw [Except.ok.injEq] at same
            rw [← same, signed] at other
            cases other
      | ok payload =>
          dsimp only
          cases read : libs.unmarshalBundle payload with
          | error err =>
              constructor
              · intro pulled
                cases pulled
              · intro ⟨same, other, signed', read'⟩
                rw [Except.ok.injEq] at same
                rw [← same, signed, Except.ok.injEq] at signed'
                rw [← signed', read] at read'
                cases read'
          | ok found =>
              dsimp only
              rw [Except.ok.injEq, Prod.mk.injEq]
              constructor
              · rintro ⟨rfl, rfl⟩
                exact ⟨rfl, payload, signed, read⟩
              · intro ⟨same, other, signed', read'⟩
                rw [Except.ok.injEq] at same
                rw [← same, signed, Except.ok.injEq] at signed'
                rw [← signed', read, Except.ok.injEq] at read'
                exact ⟨same, read'⟩

theorem bundleApplied_iff (libs : Libs) (process : Process) (st : Store) (u : Upstream)
    (entry : Str × BundleClaims) :
    entry ∈ bundleApplied libs process st u ↔
      ∃ pub ∈ process.pub, (loadConfig process st).updateURL ≠ [] ∧
        bundlePulled libs (loadConfig process st) pub u = .ok entry := by
  unfold bundleApplied
  cases process.pub with
  | none => simp
  | some pub =>
      dsimp only
      by_cases asked : (loadConfig process st).updateURL ≠ []
      · rw [if_pos asked]
        cases answer : bundlePulled libs (loadConfig process st) pub u with
        | error err => simp [Except.toOption, answer]
        | ok pulled => simp [Except.toOption, answer, asked]
      · rw [if_neg asked]
        simp [asked]

/-- What is served is fresh exactly if what is applied may follow. -/
theorem servedFresh_iff (libs : Libs) (process : Process) (c : Channel) (u : Upstream) :
    ServedFresh libs process c u ↔
      ∀ entry ∈ bundleApplied libs process c.store u, MayFollow libs process c.applied entry := by
  constructor
  · intro fresh entry applied
    obtain ⟨pub, key, asked, pulled⟩ := (bundleApplied_iff libs process c.store u entry).mp applied
    obtain ⟨served, payload, signed, read⟩ :=
      (bundlePulled_iff libs _ pub u entry.1 entry.2).mp pulled
    obtain ⟨claims, full, known, kind, newest⟩ :=
      fresh pub key asked entry.1 served payload signed entry.2 read
    exact ⟨pub, key, claims, (verify_eq libs entry.1 pub payload claims signed).mpr ⟨full, known⟩,
      kind, newest⟩
  · intro follow pub key asked token served payload signed bundle read
    have pulled := (bundlePulled_iff libs _ pub u token bundle).mpr ⟨served, payload, signed, read⟩
    obtain ⟨other, key', claims, accepted, kind, newest⟩ := follow (token, bundle)
      ((bundleApplied_iff libs process c.store u (token, bundle)).mpr ⟨pub, key, asked, pulled⟩)
    rw [Option.mem_def.mp key, Option.mem_def, Option.some.injEq] at key'
    subst key'
    have read' := (verify_eq libs token pub payload claims signed).mp accepted
    exact ⟨claims, read'.1, read'.2, kind, newest⟩

theorem legal_sync_iff (libs : Libs) (process : Process) (c : Channel) (u : Upstream)
    (legal : Runs.Legal (MayFollow libs process) c.applied) :
    Runs.Legal (MayFollow libs process) (c.sync libs process u).applied ↔
      ServedFresh libs process c u := by
  rw [servedFresh_iff]
  unfold Channel.sync
  dsimp only
  cases bundleApplied libs process c.store u with
  | none =>
      rw [Option.toList_none, List.append_nil]
      exact iff_of_true legal (fun entry member => nomatch member)
  | some entry =>
      rw [Option.toList_some, Runs.legal_append_singleton, and_iff_right legal]
      constructor
      · intro follows other member
        rw [← Option.some.inj member]
        exact follows
      · intro all
        exact all entry rfl

/-- Along any synchronisations with any upstream, no bundle that is applied is unacceptable, of an
unknown kind or older than one of its kind before it, exactly if each token served is fresh. -/
theorem never_rolls_back_iff (libs : Libs) (process : Process) (st : Store)
    (answers : List Upstream) :
    Runs.Always (Channel.sync libs process) (fun c => Runs.Legal (MayFollow libs process) c.applied)
      ⟨st, []⟩
        answers ↔
      Runs.Guarded (Channel.sync libs process) (ServedFresh libs process) ⟨st, []⟩ answers :=
  Runs.always_iff_guarded _ _ _ (legal_sync_iff libs process) _ answers (Runs.legal_nil _)

/-! ### An older bundle is served again -/

/-- A signature of zeros. -/
def sampleSig : Str := List.replicate 86 'A'

def bundlePayload (id issuedAt : Str) : Bytes :=
  License.bytesOf
    ("\x7b\"v\":1,\"id\":\"".toList ++ id ++ "\",\"kind\":\"sigma-corpus\",\"iat\":".toList ++
    issuedAt ++ ",\"file_count\":1,\"manifest_hash\":\"00\"\x7d".toList)

def crlPayload : Bytes := License.bytesOf "\x7b\"v\":1,\"iat\":10,\"revoked\":[]\x7d".toList

def newBody : Str :=
  ("eyJ2IjoxLCJpZCI6ImJuZC0yIiwia2luZCI6InNpZ21hLWNvcnB1cyIsImlhdCI6MjAwLCJmaWxlX2NvdW50IjoxLCJtYW5pZmVz" ++
    "dF9oYXNoIjoiMDAifQ").toList

def oldBody : Str :=
  ("eyJ2IjoxLCJpZCI6ImJuZC0xIiwia2luZCI6InNpZ21hLWNvcnB1cyIsImlhdCI6MTAwLCJmaWxlX2NvdW50IjoxLCJtYW5pZmVz" ++
    "dF9oYXNoIjoiMDAifQ").toList

def crlBody : Str := "eyJ2IjoxLCJpYXQiOjEwLCJyZXZva2VkIjpbXX0".toList

/-- The payloads signed by the vendor, with their base64. -/
def signedTexts : List (Str × Bytes) :=
  [(newBody, bundlePayload "bnd-2".toList "200".toList),
    (oldBody, bundlePayload "bnd-1".toList "100".toList), (crlBody, crlPayload),
    (License.leaseBody, License.leasePayload)]

def sampleClaims (id : Str) (issuedAt : Int64) : Claims where
  version := 1
  bundleID := id
  kind := kindSigmaCorpus
  issuedAt := issuedAt
  fileCount := 1
  manifestHash := "00".toList

/-- The libraries on the signed payloads. -/
def sampleLibs : Libs where
  toLeaseLibs :=
    { License.leaseLibs with
      verify := fun _ msg sig => signedTexts.any (·.2 = msg) && sig = List.replicate 64 0
      decode := fun text =>
        if text = sampleSig then .ok (List.replicate 64 0)
        else
          match signedTexts.find? (·.1 = text) with
          | some entry => .ok entry.2
          | none => .error "illegal base64 data".toList }
  unmarshalCRL data :=
    if data = crlPayload then .ok ⟨1, 10, []⟩ else .error "unexpected end of JSON input".toList
  unmarshalClaims data :=
    if data = bundlePayload "bnd-2".toList "200".toList then .ok (sampleClaims "bnd-2".toList 200)
    else if data = bundlePayload "bnd-1".toList "100".toList then
      .ok (sampleClaims "bnd-1".toList 100)
    else .error "unexpected end of JSON input".toList
  unmarshalBundle data :=
    if data = bundlePayload "bnd-2".toList "200".toList then .ok ⟨"bnd-2".toList, kindSigmaCorpus⟩
    else if data = bundlePayload "bnd-1".toList "100".toList then
      .ok ⟨"bnd-1".toList, kindSigmaCorpus⟩
    else .error "unexpected end of JSON input".toList
  responseToken data := .ok ((License.textOf data).drop 10).dropLast.dropLast

def sampleToken (head body : Str) : Str := List.intercalate ['.'] [head, body, sampleSig]

def answerOf (token : Str) : Bytes :=
  License.bytesOf ("\x7b\"token\":\"".toList ++ token ++ "\"\x7d".toList)

def sampleProcess : Process where
  portalURL := "https://portal".toList
  updateURL := "https://update".toList
  pub := some (List.replicate 32 0)

def sampleStore : Store where
  hybridPolicy := ⟨[], [], [], [], []⟩
  runtime := ⟨zeroTime, zeroTime, [], [], zeroTime, [], []⟩
  leaseToken := []
  leaseRenew := zeroTime
  policy := ⟨"1.0.0".toList, ∅⟩
  audit := []

/-- An upstream that serves the lease, the CRL and a bundle, at a time. -/
def sampleUpstream (body : Str) (now : Time) : Upstream where
  get url :=
    if url = "https://update/api/v1/bundles/latest".toList then
      .ok (answerOf (sampleToken bundleFormat body))
    else if url = "https://portal/api/v1/hybrid/crl".toList then
      .ok (answerOf (sampleToken crlFormat crlBody))
    else .ok (answerOf (sampleToken License.leaseFormat License.leaseBody))
  health _ _ _ := .ok ()
  evaluatedAt := now
  renewedAt := now
  cachedAt := now
  crlPulledAt := now
  syncedAt := now

theorem plain_of_all (body : Str)
    (all : (body.all fun c => c != '.' && decide (c.toNat < 128)) = true) :
    '.' ∉ body ∧ ∀ c ∈ body, c.toNat < 128 := by
  simp only [List.all_eq_true, Bool.and_eq_true, bne_iff_ne, decide_eq_true_eq] at all
  exact ⟨fun dot => (all _ dot).1 rfl, fun c member => (all c member).2⟩

/-- The texts that were signed are told apart, and can stand in a token. -/
theorem signedTexts_told :
    (signedTexts.map (·.1)).Nodup ∧ sampleSig ∉ signedTexts.map (·.1) ∧
      ∀ body ∈ signedTexts.map (·.1), '.' ∉ body ∧ ∀ c ∈ body, c.toNat < 128 := by
  have keys : signedTexts.map (·.1) = [newBody, oldBody, crlBody, License.leaseBody] := by
    simp only [signedTexts, List.map_cons, List.map_nil]
  have new : newBody = _ := spell_append String.toList_ofList
  have old : oldBody = _ := spell_append String.toList_ofList
  have crl : crlBody = _ := String.toList_ofList
  have lease : License.leaseBody = _ := spell_append String.toList_ofList
  rw [keys, new, old, crl, lease]
  refine ⟨?_, ?_, ?_⟩
  · apply List.Nodup.of_map (List.take 30)
    decide +kernel
  · intro member
    have heads := List.mem_map_of_mem (f := List.head?) member
    revert heads
    decide +kernel
  · refine List.forall_mem_cons.mpr
      ⟨plain_of_all _ (by decide +kernel), List.forall_mem_cons.mpr ⟨?_, ?_⟩⟩
    · exact plain_of_all _ (by decide +kernel)
    · exact List.forall_mem_cons.mpr ⟨plain_of_all _ (by decide +kernel),
        List.forall_mem_singleton.mpr (plain_of_all _ (by decide +kernel))⟩

theorem signed_plain (body : Str) (payload : Bytes) (member : (body, payload) ∈ signedTexts) :
    '.' ∉ body ∧ ∀ c ∈ body, c.toNat < 128 :=
  signedTexts_told.2.2 body (List.mem_map_of_mem member)

theorem find_signed (entries : List (Str × Bytes)) (distinct : (entries.map (·.1)).Nodup)
    (entry : Str × Bytes) (member : entry ∈ entries) :
    entries.find? (·.1 = entry.1) = some entry := by
  induction entries with
  | nil => cases member
  | cons first rest ih =>
      rw [List.map_cons, List.nodup_cons] at distinct
      rcases List.mem_cons.mp member with here | later
      · rw [here]
        exact List.find?_cons_of_pos (by simp)
      · have other : first.1 ≠ entry.1 := fun same => distinct.1 (same ▸ List.mem_map_of_mem later)
        rw [List.find?_cons_of_neg (by simpa using other), ih distinct.2 later]

theorem sampleLibs_decode (body : Str) (payload : Bytes) (member : (body, payload) ∈ signedTexts) :
    sampleLibs.decode body = .ok payload := by
  have rule : sampleLibs.decode body =
      if body = sampleSig then .ok (List.replicate 64 0)
      else
        match signedTexts.find? (·.1 = body) with
        | some entry => .ok entry.2
        | none => .error "illegal base64 data".toList := rfl
  have other : body ≠ sampleSig :=
    fun same => signedTexts_told.2.1 (same ▸ List.mem_map_of_mem member)
  rw [rule, if_neg other, find_signed signedTexts signedTexts_told.1 (body, payload) member]

theorem sampleLibs_decode_sig : sampleLibs.decode sampleSig = .ok (List.replicate 64 0) := by
  have rule : sampleLibs.decode sampleSig =
      if sampleSig = sampleSig then .ok (List.replicate 64 0)
      else
        match signedTexts.find? (·.1 = sampleSig) with
        | some entry => .ok entry.2
        | none => .error "illegal base64 data".toList := rfl
  rw [rule, if_pos rfl]

theorem sampleLibs_verify (pub : Bytes) (body : Str) (payload : Bytes)
    (member : (body, payload) ∈ signedTexts) :
    sampleLibs.verify pub payload (List.replicate 64 0) = true := by
  have rule : sampleLibs.verify pub payload (List.replicate 64 0) =
      (signedTexts.any (·.2 = payload) && List.replicate 64 (0 : UInt8) = List.replicate 64 0) :=
        rfl
  rw [rule, Bool.and_eq_true]
  exact ⟨List.any_eq_true.mpr ⟨(body, payload), member, decide_eq_true rfl⟩, decide_eq_true rfl⟩

theorem sampleSig_plain : '.' ∉ sampleSig :=
  fun member => absurd (List.eq_of_mem_replicate member) (by decide)

/-- The token in an answer is read back. -/
theorem responseToken_answerOf (head : Str) (body : Str) (payload : Bytes)
    (member : (body, payload) ∈ signedTexts) (ascii : ∀ c ∈ head, c.toNat < 128) :
    sampleLibs.responseToken (answerOf (sampleToken head body)) = .ok (sampleToken head body) := by
  have front : "\x7b\"token\":\"".toList = _ := String.toList_ofList
  have back : "\"\x7d".toList = _ := String.toList_ofList
  have token : ∀ c ∈ sampleToken head body, c.toNat < 128 := by
    unfold sampleToken
    simp only [List.intercalate, List.intersperse, List.flatten_cons, List.flatten_nil,
      List.mem_append, List.mem_singleton, List.append_nil]
    rintro c (first | rfl | inside | rfl | sig)
    · exact ascii c first
    · decide
    · exact (signed_plain body payload member).2 c inside
    · decide
    · rw [List.eq_of_mem_replicate sig]
      decide
  have opening : ∀ c ∈ "\x7b\"token\":\"".toList, c.toNat < 128 := by
    rw [front]
    exact (plain_of_all _ (by decide +kernel)).2
  have closing : ∀ c ∈ "\"\x7d".toList, c.toNat < 128 := by
    rw [back]
    exact (plain_of_all _ (by decide +kernel)).2
  have read : License.textOf (answerOf (sampleToken head body)) =
      "\x7b\"token\":\"".toList ++ sampleToken head body ++ "\"\x7d".toList := by
    apply License.textOf_bytesOf
    intro c inside
    rcases List.mem_append.mp inside with inside | last
    · rcases List.mem_append.mp inside with first | middle
      · exact opening c first
      · exact token c middle
    · exact closing c last
  have rule : sampleLibs.responseToken (answerOf (sampleToken head body)) =
      .ok ((License.textOf (answerOf (sampleToken head body))).drop 10).dropLast.dropLast := rfl
  rw [rule, read, front, back, List.append_assoc]
  simp

/-- A token of a signed text is accepted. -/
theorem signedPayload_sample (pub : Bytes) (body : Str) (payload : Bytes)
    (member : (body, payload) ∈ signedTexts) :
    signedPayload sampleLibs (sampleToken bundleFormat body) pub = .ok payload := by
  have head : '.' ∉ bundleFormat := not_mem_literal _ _ (by decide)
  have plain := (signed_plain body payload member).1
  unfold signedPayload sampleToken
  rw [License.split_token _ _ _ head plain sampleSig_plain]
  dsimp only
  rw [if_neg (not_not.mpr rfl), sampleLibs_decode body payload member, sampleLibs_decode_sig]
  dsimp only
  rw [sampleLibs_verify pub body payload member]
  rfl

theorem newBundle_mem : (newBody, bundlePayload "bnd-2".toList "200".toList) ∈ signedTexts :=
  List.mem_cons_self

theorem oldBundle_mem : (oldBody, bundlePayload "bnd-1".toList "100".toList) ∈ signedTexts :=
  List.mem_cons_of_mem _ List.mem_cons_self

theorem oldPayload_ne :
    bundlePayload "bnd-1".toList "100".toList ≠ bundlePayload "bnd-2".toList "200".toList := by
  have front : "\x7b\"v\":1,\"id\":\"".toList = _ := String.toList_ofList
  have old : "bnd-1".toList = _ := String.toList_ofList
  have new : "bnd-2".toList = _ := String.toList_ofList
  unfold bundlePayload License.bytesOf
  rw [front, old, new]
  exact fun same => absurd (congrArg (List.take 20) same) (by decide)

theorem sampleUpstream_get (body : Str) (now : Time) (url : Str) :
    (sampleUpstream body now).get url =
    if url = "https://update/api/v1/bundles/latest".toList then
      .ok (answerOf (sampleToken bundleFormat body))
    else if url = "https://portal/api/v1/hybrid/crl".toList then
      .ok (answerOf (sampleToken crlFormat crlBody))
    else .ok (answerOf (sampleToken License.leaseFormat License.leaseBody)) :=
  rfl

theorem updateURL_sample (st : Store) :
    (loadConfig sampleProcess st).updateURL ≠ [] ∧
      bundleURL (loadConfig sampleProcess st) = "https://update/api/v1/bundles/latest".toList := by
  have base : "https://update".toList = _ := String.toList_ofList
  have path : "/api/v1/bundles/latest".toList = _ := String.toList_ofList
  have whole : "https://update/api/v1/bundles/latest".toList = _ := String.toList_ofList
  have rule : (loadConfig sampleProcess st).updateURL =
      if "https://update".toList ≠ [] then "https://update".toList else st.hybridPolicy.updateURL :=
        rfl
  have configured : (loadConfig sampleProcess st).updateURL = "https://update".toList := by
    rw [rule, base, if_pos (List.cons_ne_nil _ _)]
  unfold bundleURL
  rw [configured, base, path, whole]
  exact ⟨List.cons_ne_nil _ _, by decide⟩

theorem bundlePulled_sample (st : Store) (pub : Bytes) (body : Str) (payload : Bytes) (now : Time)
    (bundle : BundleClaims) (member : (body, payload) ∈ signedTexts)
    (read : sampleLibs.unmarshalBundle payload = .ok bundle) :
    bundlePulled sampleLibs (loadConfig sampleProcess st) pub (sampleUpstream body now) =
      .ok (sampleToken bundleFormat body, bundle) := by
  have head : ∀ c ∈ bundleFormat, c.toNat < 128 := by
    have spelled : bundleFormat = _ := String.toList_ofList
    rw [spelled]
    exact (plain_of_all _ (by decide +kernel)).2
  have served : (sampleUpstream body now).get "https://update/api/v1/bundles/latest".toList =
      .ok (answerOf (sampleToken bundleFormat body)) := by
    rw [sampleUpstream_get, if_pos rfl]
  unfold bundlePulled pullToken
  rw [(updateURL_sample st).2, served]
  dsimp only
  rw [responseToken_answerOf _ _ _ member head]
  dsimp only
  unfold minimalBundleVerify
  rw [signedPayload_sample _ _ _ member]
  dsimp only
  rw [read]

theorem bundleApplied_sample (st : Store) (body : Str) (payload : Bytes) (now : Time)
    (bundle : BundleClaims) (member : (body, payload) ∈ signedTexts)
    (read : sampleLibs.unmarshalBundle payload = .ok bundle) :
    bundleApplied sampleLibs sampleProcess st (sampleUpstream body now) =
      some (sampleToken bundleFormat body, bundle) := by
  have key : sampleProcess.pub = some (List.replicate 32 0) := rfl
  unfold bundleApplied
  rw [key]
  dsimp only
  rw [if_pos (updateURL_sample st).1, bundlePulled_sample st _ body payload now bundle member read]
  rfl

theorem verify_sample (pub : Bytes) (body : Str) (payload : Bytes) (claims : Claims)
    (member : (body, payload) ∈ signedTexts)
    (read : sampleLibs.unmarshalClaims payload = .ok claims)
    (known : claims.version = claimsVersion) :
    verify sampleLibs (sampleToken bundleFormat body) pub = .ok claims := by
  unfold verify
  rw [signedPayload_sample pub body payload member]
  dsimp only
  rw [read]
  dsimp only
  rw [if_neg (not_not.mpr known)]

theorem sampleLibs_unmarshalBundle (data : Bytes) : sampleLibs.unmarshalBundle data =
    if data = bundlePayload "bnd-2".toList "200".toList then .ok ⟨"bnd-2".toList, kindSigmaCorpus⟩
    else if data = bundlePayload "bnd-1".toList "100".toList then
      .ok ⟨"bnd-1".toList, kindSigmaCorpus⟩
    else .error "unexpected end of JSON input".toList :=
  rfl

theorem sampleLibs_unmarshalClaims (data : Bytes) : sampleLibs.unmarshalClaims data =
    if data = bundlePayload "bnd-2".toList "200".toList then .ok (sampleClaims "bnd-2".toList 200)
    else if data = bundlePayload "bnd-1".toList "100".toList then
      .ok (sampleClaims "bnd-1".toList 100)
    else .error "unexpected end of JSON input".toList :=
  rfl

/-- What is read of the newer and the older bundle. -/
theorem read_new : sampleLibs.unmarshalBundle (bundlePayload "bnd-2".toList "200".toList) =
      .ok ⟨"bnd-2".toList, kindSigmaCorpus⟩ ∧
    sampleLibs.unmarshalClaims (bundlePayload "bnd-2".toList "200".toList) =
      .ok (sampleClaims "bnd-2".toList 200) := by
  rw [sampleLibs_unmarshalBundle, sampleLibs_unmarshalClaims, if_pos rfl, if_pos rfl]
  exact ⟨rfl, rfl⟩

theorem read_old : sampleLibs.unmarshalBundle (bundlePayload "bnd-1".toList "100".toList) =
      .ok ⟨"bnd-1".toList, kindSigmaCorpus⟩ ∧
    sampleLibs.unmarshalClaims (bundlePayload "bnd-1".toList "100".toList) =
      .ok (sampleClaims "bnd-1".toList 100) := by
  rw [sampleLibs_unmarshalBundle, sampleLibs_unmarshalClaims, if_neg oldPayload_ne,
    if_neg oldPayload_ne, if_pos rfl, if_pos rfl]
  exact ⟨rfl, rfl⟩

/-- The older bundle, captured before, is applied over the newer one. -/
theorem replay_applied :
    ¬ Runs.Always (Channel.sync sampleLibs sampleProcess)
      (fun c => Runs.Legal (MayFollow sampleLibs sampleProcess) c.applied) ⟨sampleStore, []⟩
      [sampleUpstream newBody (unix 600), sampleUpstream oldBody (unix 700)] := by
  intro always
  have applied : ([sampleUpstream newBody (unix 600), sampleUpstream oldBody (unix 700)].foldl
      (Channel.sync sampleLibs sampleProcess) ⟨sampleStore, []⟩).applied =
        [(sampleToken bundleFormat newBody, ⟨"bnd-2".toList, kindSigmaCorpus⟩)] ++
          [(sampleToken bundleFormat oldBody, ⟨"bnd-1".toList, kindSigmaCorpus⟩)] := by
    have first (st : Store) :
        bundleApplied sampleLibs sampleProcess st (sampleUpstream newBody (unix 600)) =
          some (sampleToken bundleFormat newBody, ⟨"bnd-2".toList, kindSigmaCorpus⟩) :=
      bundleApplied_sample st _ _ _ _ newBundle_mem read_new.1
    have second (st : Store) :
        bundleApplied sampleLibs sampleProcess st (sampleUpstream oldBody (unix 700)) =
          some (sampleToken bundleFormat oldBody, ⟨"bnd-1".toList, kindSigmaCorpus⟩) :=
      bundleApplied_sample st _ _ _ _ oldBundle_mem read_old.1
    rw [List.foldl_cons, List.foldl_cons, List.foldl_nil]
    unfold Channel.sync
    dsimp only
    rw [first, second, Option.toList_some, Option.toList_some, List.nil_append]
  have legal := always.last
  rw [applied] at legal
  obtain ⟨pub, key, claims, accepted, -, newest⟩ := legal _ _ (List.prefix_refl _)
  have late : verify sampleLibs (sampleToken bundleFormat newBody) pub = .ok
      (sampleClaims "bnd-2".toList 200) :=
    verify_sample pub _ _ _ newBundle_mem read_new.2 rfl
  have early : verify sampleLibs (sampleToken bundleFormat oldBody) pub = .ok
      (sampleClaims "bnd-1".toList 100) :=
    verify_sample pub _ _ _ oldBundle_mem read_old.2 rfl
  have order := newest _ (List.mem_singleton.mpr rfl) rfl _ late
  rw [accepted] at early
  rw [Except.ok.inj early] at order
  exact absurd order (by decide)

/-! ### The rules of the policy -/

/-- The rule of a key is that of the bundle applied to it last, or as it was at first. -/
def RulesFollow (first : StrMap Str) (c : Channel) : Prop :=
  ∀ key : Str, c.store.policy.rules[key]? =
    ((c.applied.filter fun entry => ruleKey entry.2.kind = key).getLast?.map fun entry =>
      "bundle:".toList ++ entry.2.bundleID).or first[key]?

theorem rulesFollow_sync (libs : Libs) (process : Process) (first : StrMap Str) (c : Channel)
    (u : Upstream) (follow : RulesFollow first c) : RulesFollow first (c.sync libs process u) := by
  intro key
  unfold Channel.sync
  dsimp only
  rw [(policy_syncOnce libs process c.store u).1]
  cases bundleApplied libs process c.store u with
  | none =>
      rw [Option.toList_none, List.append_nil]
      exact follow key
  | some entry =>
      rw [Option.toList_some, List.filter_append]
      change (c.store.policy.rules.insert (ruleKey entry.2.kind) _)[key]? = _
      rw [Std.ExtTreeMap.getElem?_insert]
      by_cases same : ruleKey entry.2.kind = key
      · rw [if_pos (by rw [same]; exact Std.compare_self)]
        simp [same]
      · rw [if_neg (fun equal => same (Std.LawfulEqCmp.eq_of_compare equal)), follow key]
        simp [same]

theorem rulesFollow_always (libs : Libs) (process : Process) (st : Store)
    (answers : List Upstream) :
    Runs.Always (Channel.sync libs process) (RulesFollow st.policy.rules) ⟨st, []⟩ answers :=
  Runs.always_of_guarded _ _ (fun _ _ => True)
    (fun c u follow _ => rulesFollow_sync libs process st.policy.rules c u follow) _ answers
      (fun _ => rfl)
    (fun _ _ _ => trivial)

end EraOne.Hybrid
