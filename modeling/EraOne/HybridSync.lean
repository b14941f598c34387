import EraOne.HybridRelay

set_option autoImplicit false

/- What one synchronisation of the hybrid relay leaves in the runtime record and in the policy. -/
namespace EraOne.Hybrid

open GoTime Scan
open License (Bytes LeaseClaims LeaseStatus LeaseEvaluation CRL)

/-! ### Versions of the policy -/

theorem printInt_chars (n : Int) (c : Char) (member : c ∈ printInt n) :
    c = '-' ∨ c.isDigit = true := by
  unfold printInt at member
  split at member
  · rcases List.mem_cons.mp member with sign | digit
    · exact Or.inl sign
    · exact Or.inr (Nat.isDigit_of_mem_toDigits (by decide) (by decide) digit)
  · exact Or.inr (Nat.isDigit_of_mem_toDigits (by decide) (by decide) member)

theorem not_mem_printInt (n : Int) (c : Char) (sign : c ≠ '-') (digit : c.isDigit = false) :
    c ∉ printInt n := by
  intro member
  rcases printInt_chars n c member with same | other
  · exact sign same
  · rw [digit] at other
    exact Bool.false_ne_true other

theorem takeWhile_digits (n : Nat) :
    (Nat.toDigits 10 n).takeWhile Char.isDigit = Nat.toDigits 10 n := by
  apply List.takeWhile_eq_self_iff.mpr
  intro c member
  exact Nat.isDigit_of_mem_toDigits (by decide) (by decide) member

/-- A character that a number begins with is no blank. -/
theorem printInt_blank (n : Int) :
    (printInt n).dropWhile (fun c => c != '\n' && isWhitespace c) = printInt n := by
  apply List.dropWhile_eq_self_iff.mpr
  intro long
  have first := printInt_chars n _ (List.getElem_mem long)
  generalize (printInt n)[0] = c at first
  rcases first with same | digit
  · rw [same]
    decide
  · have range : 48 ≤ c.toNat ∧ c.toNat ≤ 57 := by
      simpa [Char.isDigit, UInt32.le_iff_toNat_le] using digit
    have quiet : isWhitespace c = false := by
      unfold isWhitespace
      simp only [decide_eq_false_iff_not]
      omega
    rw [quiet, Bool.and_false]
    exact Bool.false_ne_true

theorem scanSign_printInt (n : Int) :
    scanSign (printInt n) = (if n < 0 then -1 else 1, Nat.toDigits 10 n.natAbs) := by
  unfold printInt
  split
  · rfl
  · have first (c : Char) (member : c ∈ Nat.toDigits 10 n.natAbs) : c.isDigit = true :=
      Nat.isDigit_of_mem_toDigits (by decide) (by decide) member
    unfold scanSign
    split
    · rename_i rest shape
      exact absurd (first '+' (by rw [shape]; exact List.mem_cons_self)) (by decide)
    · rename_i rest shape
      exact absurd (first '-' (by rw [shape]; exact List.mem_cons_self)) (by decide)
    · rfl

/-- A number that was printed reads back. -/
theorem sscanfInt_printInt (n : Int64) : sscanfInt (printInt n.toInt) = n := by
  have low := Int64.le_toInt n
  have high := Int64.toInt_lt n
  have value : (if n.toInt < 0 then (-1 : Int) else 1) * (n.toInt.natAbs : Int) = n.toInt := by
    split <;> omega
  unfold sscanfInt
  dsimp only
  rw [printInt_blank, scanSign_printInt, takeWhile_digits, parseDigits_toDigits]
  dsimp only
  rw [value, if_pos ⟨low, high⟩, Int64.ofInt_toInt]

theorem printInt_inj (m n : Int64) (same : printInt m.toInt = printInt n.toInt) : m = n := by
  rw [← sscanfInt_printInt m, same, sscanfInt_printInt]

theorem versionBase_append (base tail : Str) (clean : '+' ∉ base) :
    versionBase (base ++ '+' :: tail) = base := by
  unfold versionBase
  have inside : ∀ c ∈ base, (decide (c ≠ '+')) = true := by
    intro c member
    rw [decide_eq_true_eq]
    rintro rfl
    exact clean member
  rw [List.takeWhile_append_of_pos inside, List.takeWhile_cons_of_neg (by simp), List.append_nil]

theorem plus_not_mem_versionBase (cur : Str) : '+' ∉ versionBase cur := by
  intro member
  have := List.mem_takeWhile_imp member
  simp at this

/-- A version of three numbers. -/
def threeNumbers (major minor : Str) (patch : Int64) (bundleID : Str) : Str :=
  major ++ '.' :: minor ++ '.' :: printInt patch.toInt ++ '+' :: bundleID

/-- It is raised at every bundle, also at the same one again. -/
theorem bump_threeNumbers (major minor : Str) (patch : Int64) (bundleID other : Str)
    (major_ : '.' ∉ major ∧ '+' ∉ major) (minor_ : '.' ∉ minor ∧ '+' ∉ minor) :
    bumpPolicyVersion (threeNumbers major minor patch other) bundleID =
      threeNumbers major minor (patch + 1) bundleID := by
  have joined : List.intercalate ['.'] [major, minor, printInt patch.toInt] =
      major ++ '.' :: minor ++ '.' :: printInt patch.toInt := by
    simp [List.intercalate]
  have base : versionBase (threeNumbers major minor patch other) =
      List.intercalate ['.'] [major, minor, printInt patch.toInt] := by
    rw [joined]
    apply versionBase_append
    have number := not_mem_printInt patch.toInt '+' (by decide) (by decide)
    simp [major_.2, minor_.2, number]
  have split_ : splitAll ['.'] (List.intercalate ['.'] [major, minor, printInt patch.toInt]) =
      [major, minor, printInt patch.toInt] := by
    apply splitAll_intercalate
    simp only [List.forall_mem_cons, List.not_mem_nil, false_implies, implies_true, and_true]
    exact ⟨major_.1, minor_.1, not_mem_printInt patch.toInt '.' (by decide) (by decide)⟩
  have nonempty : threeNumbers major minor patch other ≠ [] := by
    simp [threeNumbers]
  unfold bumpPolicyVersion
  rw [if_neg nonempty, base, split_]
  dsimp only
  rw [sscanfInt_printInt]
  rfl

theorem threeNumbers_ne (major minor : Str) (patch : Int64) (bundleID : Str) :
    threeNumbers major minor (patch + 1) bundleID ≠ threeNumbers major minor patch bundleID := by
  intro same
  unfold threeNumbers at same
  have numbers := List.append_cancel_right same
  simp only [List.append_assoc, List.cons_append, List.append_cancel_left_eq, List.cons.injEq,
    true_and]
    at numbers
  have equal := printInt_inj _ _ numbers
  have step : 1 + patch - patch = patch - patch := by rw [Int64.add_comm, equal]
  rw [Int64.add_sub_cancel, Int64.sub_self] at step
  exact absurd step (by decide)

/-- A version that a bundle does not change when it is applied again. -/
def Settled (version : Str) : Prop :=
  version ≠ [] ∧ (splitAll ['.'] (versionBase version)).length ≠ 3

theorem bump_again_iff (version bundleID : Str) :
    bumpPolicyVersion (bumpPolicyVersion version bundleID) bundleID = bumpPolicyVersion version
      bundleID ↔
      Settled version := by
  by_cases empty : version = []
  · subst empty
    have first : bumpPolicyVersion [] bundleID = threeNumbers ['1'] ['0'] 0 bundleID := by
      rfl
    rw [first, bump_threeNumbers ['1'] ['0'] 0 bundleID bundleID (by decide) (by decide)]
    exact iff_of_false (threeNumbers_ne ['1'] ['0'] 0 bundleID) (fun settled => settled.1 rfl)
  · by_cases three : (splitAll ['.'] (versionBase version)).length = 3
    · obtain ⟨major, minor, patch, pieces⟩ := List.length_eq_three.mp three
      have clean (piece : Str) (member : piece ∈ splitAll ['.'] (versionBase version)) :
          '.' ∉ piece ∧ '+' ∉ piece :=
        ⟨not_mem_splitAll '.' _ piece member,
          fun plus => plus_not_mem_versionBase version
            (mem_of_mem_splitAll '.' '+' _ piece member plus)⟩
      have first : bumpPolicyVersion version bundleID =
          threeNumbers major minor (sscanfInt patch + 1) bundleID := by
        unfold bumpPolicyVersion
        rw [if_neg empty, pieces]
        rfl
      rw [pieces] at clean
      rw [first, bump_threeNumbers major minor _ bundleID bundleID (clean major (by simp))
        (clean minor (by simp))]
      exact iff_of_false (threeNumbers_ne major minor _ bundleID) (fun settled => settled.2 three)
    · have plain (cur : Str) (some_ : cur ≠ []) (base : versionBase cur = versionBase version) :
          bumpPolicyVersion cur bundleID = versionBase version ++ '+' :: bundleID := by
        unfold bumpPolicyVersion
        rw [if_neg some_, base]
        split
        · rename_i pieces
          exact absurd (by rw [pieces]; rfl) three
        · rfl
      rw [plain version empty rfl,
        plain _ (by simp) (versionBase_append _ _ (plus_not_mem_versionBase version))]
      exact iff_of_true rfl ⟨empty, three⟩

/-! ### What is recorded -/

/-- The three pulls of a synchronisation succeed, with what they get. -/
structure AllPulled (libs : Libs) (process : Process) (st : Store) (u : Upstream) (pub : Bytes)
    (lease : Str × LeaseClaims) (crl : CRL) (bundle : Str × BundleClaims) : Prop where
  key : process.pub = some pub
  portal : (loadConfig process st).portalURL ≠ []
  update : (loadConfig process st).updateURL ≠ []
  lease : leasePulled libs (loadConfig process st) pub u = .ok lease
  crl : crlPulled libs (loadConfig process st) pub u = .ok crl
  bundle : bundlePulled libs (loadConfig process st) pub u = .ok bundle

/-- How a lease is judged during a synchronisation, given the last renewal. -/
def judged (libs : Libs) (process : Process) (st : Store) (u : Upstream) (claims : LeaseClaims)
    (lastRenew : Time) :
    LeaseEvaluation :=
  claims.evaluateLease libs.toLibs u.evaluatedAt (loadConfig process st).licenseID
    (loadConfig process st).deploymentID lastRenew

/-- The stored record tells what was pulled, and the same answers again leave the policy as it
is. -/
structure Recorded (libs : Libs) (process : Process) (st : Store) (u : Upstream)
    (lease : LeaseClaims) (bundle : BundleClaims) : Prop where
  crl : (syncOnce libs process st u).runtime.lastCRLIssuedAt = u.crlPulledAt
  bundle : (syncOnce libs process st u).runtime.lastBundleID = bundle.bundleID
  renewal : (syncOnce libs process st u).runtime.lastLeaseRenew = u.renewedAt
  status : (syncOnce libs process st u).runtime.leaseStatus =
    (judged libs process st u lease (syncOnce libs process st u).runtime.lastLeaseRenew).status.text
  again : ∀ v : Upstream, v.get = u.get →
    (syncOnce libs process (syncOnce libs process st u) v).policy =
      (syncOnce libs process st u).policy

/-- The record after a synchronisation is the one before it, but for what the copy of the loop was
given. -/
theorem runtime_syncOnce (libs : Libs) (process : Process) (st : Store) (u : Upstream) (pub : Bytes)
    (lease : Str × LeaseClaims) (crl : CRL) (bundle : Str × BundleClaims)
    (pulled : AllPulled libs process st u pub lease crl bundle) :
    (syncOnce libs process st u).runtime.lastCRLIssuedAt = st.runtime.lastCRLIssuedAt ∧
      (syncOnce libs process st u).runtime.lastBundleID = bundle.2.bundleID ∧
      (syncOnce libs process st u).runtime.lastLeaseRenew = u.renewedAt ∧
      (syncOnce libs process st u).runtime.leaseStatus =
        (judged libs process st u lease.2 st.leaseRenew).status.text := by
  unfold syncOnce
  rw [pulled.key]
  dsimp only
  rw [if_pos pulled.portal, if_pos pulled.update]
  unfold syncUpdate pullBundle syncPortal pullLease
  rw [pulled.lease, pulled.bundle]
  exact ⟨rfl, rfl, rfl, rfl⟩

/-- The lease is not this installation's. -/
def Mismatched (process : Process) (st : Store) (claims : LeaseClaims) : Prop :=
  ((loadConfig process st).licenseID ≠ [] ∧ claims.licenseID ≠ (loadConfig process st).licenseID) ∨
    ((loadConfig process st).deploymentID ≠ [] ∧ claims.deploymentID ≠ [] ∧
      claims.deploymentID ≠ (loadConfig process st).deploymentID)

/-- Whether the last renewal was the cached one or this one makes no difference to the lease. -/
def RenewalIrrelevant (process : Process) (st : Store) (u : Upstream) (claims : LeaseClaims) :
    Prop :=
  Mismatched process st claims ∨
    claims.offlineTooLong u.evaluatedAt st.leaseRenew = claims.offlineTooLong u.evaluatedAt
      u.renewedAt ∨
    (u.evaluatedAt.after (unix claims.expiresAt) = true ∧
      u.evaluatedAt.after (License.graceEnd claims.expiresAt claims.graceDays) = false)

theorem text_inj (a b : LeaseStatus) : a.text = b.text ↔ a = b := by
  cases a <;> cases b <;> decide

theorem status_judged (libs : Libs) (process : Process) (st : Store) (u : Upstream)
    (claims : LeaseClaims) (lastRenew : Time) (ours : ¬ Mismatched process st claims) :
    (judged libs process st u claims lastRenew).status =
      if claims.offlineTooLong u.evaluatedAt lastRenew then .grace
      else if u.evaluatedAt.after (License.graceEnd claims.expiresAt claims.graceDays) then .expired
      else if u.evaluatedAt.after (unix claims.expiresAt) then .grace
      else .valid := by
  unfold Mismatched at ours
  rw [not_or] at ours
  unfold judged LeaseClaims.evaluateLease
  rw [if_neg ours.1, if_neg ours.2]
  split
  · rfl
  · split
    · rfl
    · split <;> rfl

theorem status_mismatched (libs : Libs) (process : Process) (st : Store) (u : Upstream)
    (claims : LeaseClaims) (lastRenew : Time) (other : Mismatched process st claims) :
    (judged libs process st u claims lastRenew).status = .mismatch := by
  unfold judged LeaseClaims.evaluateLease
  split
  · rfl
  · rename_i license
    rcases other with license' | deployment
    · exact absurd license' license
    · rw [if_pos deployment]

theorem same_status_iff (libs : Libs) (process : Process) (st : Store) (u : Upstream)
    (claims : LeaseClaims) :
    (judged libs process st u claims st.leaseRenew).status =
        (judged libs process st u claims u.renewedAt).status ↔
      RenewalIrrelevant process st u claims := by
  unfold RenewalIrrelevant
  by_cases other : Mismatched process st claims
  · rw [status_mismatched libs process st u claims _ other,
      status_mismatched libs process st u claims _ other]
    exact iff_of_true rfl (Or.inl other)
  · rw [status_judged libs process st u claims _ other,
      status_judged libs process st u claims _ other]
    simp only [other, false_or]
    cases claims.offlineTooLong u.evaluatedAt st.leaseRenew <;>
      cases claims.offlineTooLong u.evaluatedAt u.renewedAt <;>
      cases u.evaluatedAt.after (License.graceEnd claims.expiresAt claims.graceDays) <;>
      cases u.evaluatedAt.after (unix claims.expiresAt) <;> decide

theorem bundleApplied_again (libs : Libs) (process : Process) (st later : Store) (u v : Upstream)
    (policy : later.hybridPolicy = st.hybridPolicy) (answers : v.get = u.get) :
    bundleApplied libs process later v = bundleApplied libs process st u := by
  have config : loadConfig process later = loadConfig process st := by
    unfold loadConfig
    rw [policy]
  unfold bundleApplied bundlePulled pullToken
  rw [config, answers]

/-- The same bundle again changes the policy exactly if it raises the version. -/
theorem policy_again_iff (libs : Libs) (process : Process) (st : Store) (u : Upstream)
    (entry : Str × BundleClaims) (applied : bundleApplied libs process st u = some entry) :
    (∀ v : Upstream, v.get = u.get →
        (syncOnce libs process (syncOnce libs process st u) v).policy =
          (syncOnce libs process st u).policy) ↔
      Settled st.policy.version := by
  have first := policy_syncOnce libs process st u
  rw [applied] at first
  have second (v : Upstream) (answers : v.get = u.get) :
      (syncOnce libs process (syncOnce libs process st u) v).policy =
        (applyBundleToPolicy (syncOnce libs process st u) entry.2).policy := by
    rw [(policy_syncOnce libs process _ v).1,
      bundleApplied_again libs process st (syncOnce libs process st u) u v first.2 answers, applied]
  rw [← bump_again_iff st.policy.version entry.2.bundleID]
  constructor
  · intro same
    have versions := congrArg PolicyBundle.version ((second u rfl).symm.trans (same u rfl))
    unfold applyBundleToPolicy at versions
    dsimp only at versions
    rw [first.1] at versions
    exact versions
  · intro settled v answers
    rw [second v answers]
    unfold applyBundleToPolicy
    dsimp only
    rw [first.1]
    unfold applyBundleToPolicy
    dsimp only
    rw [settled]
    congr 1
    apply Std.ExtTreeMap.ext_getElem?
    intro key
    rw [Std.ExtTreeMap.getElem?_insert, Std.ExtTreeMap.getElem?_insert]
    split <;> rfl

/-- Where all pulls succeed, they are recorded exactly if the time of the CRL is what was stored
before anyway, the cached renewal and this one make the same of the lease, and the version of the
policy is not of the kind that every bundle raises. -/
theorem recorded_iff (libs : Libs) (process : Process) (st : Store) (u : Upstream) (pub : Bytes)
    (lease : Str × LeaseClaims) (crl : CRL) (bundle : Str × BundleClaims)
    (pulled : AllPulled libs process st u pub lease crl bundle) :
    Recorded libs process st u lease.2 bundle.2 ↔
      st.runtime.lastCRLIssuedAt = u.crlPulledAt ∧ RenewalIrrelevant process st u lease.2 ∧
        Settled st.policy.version := by
  obtain ⟨crlAt, bundleID, renewedAt, status⟩ :=
    runtime_syncOnce libs process st u pub lease crl bundle pulled
  have applied : bundleApplied libs process st u = some bundle := by
    unfold bundleApplied
    rw [pulled.key]
    dsimp only
    rw [if_pos pulled.update, pulled.bundle]
    rfl
  rw [← same_status_iff libs, ← policy_again_iff libs process st u bundle applied, ← text_inj,
    ← status, ← crlAt]
  constructor
  · intro recorded
    have told := recorded.status
    rw [renewedAt] at told
    exact ⟨recorded.crl, told, recorded.again⟩
  · intro ⟨crlTold, statusTold, again⟩
    exact ⟨crlTold, bundleID, renewedAt, by rw [renewedAt]; exact statusTold, again⟩

deriving instance DecidableEq for License.CRL

theorem leasePulled_good (libs : Libs) (cfg : Config) (pub : Bytes) (u : Upstream) (raw : Bytes)
    (token : Str) (claims : LeaseClaims) (served : u.get (leaseURL cfg) = .ok raw)
    (told : libs.responseToken raw = .ok token)
    (good : License.verifyLease libs.toLeaseLibs token pub = .ok claims)
    (anywhere : cfg.deploymentID = []) :
    leasePulled libs cfg pub u = .ok (token, claims) := by
  unfold leasePulled pullToken
  rw [served]
  dsimp only
  rw [told]
  dsimp only
  rw [good]
  dsimp only
  rw [if_neg fun both => both.1 anywhere]

theorem portalURL_sample :
    (loadConfig sampleProcess sampleStore).portalURL ≠ [] ∧
      crlURL (loadConfig sampleProcess sampleStore) = "https://portal/api/v1/hybrid/crl".toList ∧
      "https://portal/api/v1/hybrid/crl".toList ≠ "https://update/api/v1/bundles/latest".toList ∧
      leaseURL (loadConfig sampleProcess sampleStore) ≠
        "https://update/api/v1/bundles/latest".toList ∧
      leaseURL (loadConfig sampleProcess sampleStore) ≠
        "https://portal/api/v1/hybrid/crl".toList := by
  have base : "https://portal".toList = _ := String.toList_ofList
  have path : "/api/v1/hybrid/crl".toList = _ := String.toList_ofList
  have renew : "/api/v1/hybrid/lease/renew?deployment_id=".toList = _ := String.toList_ofList
  have crl : "https://portal/api/v1/hybrid/crl".toList = _ := String.toList_ofList
  have bundles : "https://update/api/v1/bundles/latest".toList = _ := String.toList_ofList
  have rule : (loadConfig sampleProcess sampleStore).portalURL =
      if "https://portal".toList ≠ [] then "https://portal".toList
        else sampleStore.hybridPolicy.portalURL := rfl
  have configured : (loadConfig sampleProcess sampleStore).portalURL = "https://portal".toList := by
    rw [rule, base, if_pos (List.cons_ne_nil _ _)]
  unfold crlURL leaseURL
  rw [configured, base, path, crl, bundles, renew]
  refine ⟨List.cons_ne_nil _ _, by decide, by decide, ?_, ?_⟩
  · exact fun same => absurd (congrArg (List.take 9) same) (by decide)
  · exact fun same => absurd (congrArg (List.take 30) same) (by decide)

theorem sample_pulled :
    AllPulled sampleLibs sampleProcess sampleStore (sampleUpstream newBody (unix 600))
      (List.replicate 32 0)
      (sampleToken License.leaseFormat License.leaseBody, License.sampleLease) ⟨1, 10, []⟩
      (sampleToken bundleFormat newBody, ⟨"bnd-2".toList, kindSigmaCorpus⟩) where
  key := rfl
  portal := portalURL_sample.1
  update := (updateURL_sample sampleStore).1
  lease := by
    have member : (License.leaseBody, License.leasePayload) ∈ signedTexts :=
      List.mem_cons_of_mem _
        (List.mem_cons_of_mem _ (List.mem_cons_of_mem _ (List.mem_singleton.mpr rfl)))
    have served :
        (sampleUpstream newBody (unix 600)).get (leaseURL (loadConfig sampleProcess sampleStore)) =
          .ok (answerOf (sampleToken License.leaseFormat License.leaseBody)) := by
      rw [sampleUpstream_get, if_neg portalURL_sample.2.2.2.1, if_neg portalURL_sample.2.2.2.2]
    have ascii : ∀ c ∈ License.leaseFormat, c.toNat < 128 := by
      have spelled : License.leaseFormat = _ := String.toList_ofList
      rw [spelled]
      exact (plain_of_all _ (by decide +kernel)).2
    have plain := (signed_plain _ _ member).1
    have read : sampleLibs.unmarshalLease License.leasePayload = .ok License.sampleLease := by
      have rule : sampleLibs.unmarshalLease = License.leaseLibs.unmarshalLease := rfl
      rw [rule, License.leaseLibs_unmarshalLease, if_pos rfl]
    have good : License.verifyLease sampleLibs.toLeaseLibs
        (sampleToken License.leaseFormat License.leaseBody)
        (List.replicate 32 0) = .ok License.sampleLease :=
      License.verifyLease_token sampleLibs.toLeaseLibs (List.replicate 32 0) _ _ _
        (List.replicate 64 0) _
        List.length_replicate plain sampleSig_plain
          (sampleLibs_decode _ _ member) sampleLibs_decode_sig
        (sampleLibs_verify _ _ _ member) read rfl
    exact leasePulled_good sampleLibs _ _ _ _ _ _ served
      (responseToken_answerOf _ _ _ member ascii) good rfl
  crl := by
    have member : (crlBody, crlPayload) ∈ signedTexts :=
      List.mem_cons_of_mem _ (List.mem_cons_of_mem _ List.mem_cons_self)
    have served :
        (sampleUpstream newBody (unix 600)).get (crlURL (loadConfig sampleProcess sampleStore)) =
          .ok (answerOf (sampleToken crlFormat crlBody)) := by
      rw [portalURL_sample.2.1, sampleUpstream_get, if_neg portalURL_sample.2.2.1, if_pos rfl]
    have spelled : crlFormat = _ := String.toList_ofList
    have ascii : ∀ c ∈ crlFormat, c.toNat < 128 := by
      rw [spelled]
      exact (plain_of_all _ (by decide +kernel)).2
    have head : '.' ∉ crlFormat := not_mem_literal _ _ (by decide)
    have plain := (signed_plain _ _ member).1
    have read : sampleLibs.unmarshalCRL crlPayload = .ok ⟨1, 10, []⟩ := by
      have rule : sampleLibs.unmarshalCRL crlPayload =
          if crlPayload = crlPayload then .ok ⟨1, 10, []⟩
            else .error "unexpected end of JSON input".toList := rfl
      rw [rule, if_pos rfl]
    unfold crlPulled pullToken
    rw [served]
    dsimp only
    rw [responseToken_answerOf _ _ _ member ascii]
    dsimp only
    unfold verifyCRL sampleToken
    rw [if_neg (by simp), License.split_token _ _ _ head plain sampleSig_plain]
    dsimp only
    rw [if_neg (not_not.mpr rfl), sampleLibs_decode _ _ member, sampleLibs_decode_sig]
    dsimp only
    rw [sampleLibs_verify _ _ _ member, read]
    rfl
  bundle := bundlePulled_sample sampleStore _ _ _ _ _ newBundle_mem read_new.1

theorem recorded_sample_iff :
    Recorded sampleLibs sampleProcess sampleStore
      (sampleUpstream newBody (unix 600)) License.sampleLease
        ⟨"bnd-2".toList, kindSigmaCorpus⟩ ↔
      sampleStore.runtime.lastCRLIssuedAt = (sampleUpstream newBody (unix 600)).crlPulledAt ∧
        RenewalIrrelevant sampleProcess sampleStore
          (sampleUpstream newBody (unix 600)) License.sampleLease ∧
        Settled sampleStore.policy.version :=
  recorded_iff sampleLibs sampleProcess sampleStore (sampleUpstream newBody (unix 600))
    (List.replicate 32 0)
    (sampleToken License.leaseFormat License.leaseBody, License.sampleLease) ⟨1, 10, []⟩
    (sampleToken bundleFormat newBody, ⟨"bnd-2".toList, kindSigmaCorpus⟩) sample_pulled

/-- All pulls succeed, but the time of the CRL is lost, and the same bundle raises the version
again. -/
theorem crl_time_lost :
    AllPulled sampleLibs sampleProcess sampleStore (sampleUpstream newBody (unix 600))
      (List.replicate 32 0)
        (sampleToken License.leaseFormat License.leaseBody, License.sampleLease) ⟨1, 10, []⟩
        (sampleToken bundleFormat newBody, ⟨"bnd-2".toList, kindSigmaCorpus⟩) ∧
      ¬ Recorded sampleLibs sampleProcess sampleStore
        (sampleUpstream newBody (unix 600)) License.sampleLease
        ⟨"bnd-2".toList, kindSigmaCorpus⟩ := by
  refine ⟨sample_pulled, ?_⟩
  intro recorded
  have kept := (runtime_syncOnce _ _ _ _ _ _ _ _ sample_pulled).1
  have told := kept.symm.trans recorded.crl
  revert told
  decide +kernel

end EraOne.Hybrid
