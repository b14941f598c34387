import EraOne.PamVault
import EraOne.Runs

set_option autoImplicit false

/- Which key a vault in use holds. `Unseal` installs any key of 32 bytes; the secrets stay as they
were encrypted, so that they open exactly when the key is the one they were made with. -/
namespace EraOne.Pam

open Runs

section Cipher

variable {gcm : Gcm}

theorem copyKey_of_length (key : Bytes) (length : key.length = 32) : copyKey key = key := by
  rw [copyKey, ← length, List.take_left]

theorem newCipher_of_length (key : Bytes) (length : key.length = 32) : newCipher key = .ok () :=
  if_pos (Or.inr (Or.inr length))

theorem sealWith_of_length (gcm : Gcm) (key : Bytes) (nonce : Nonce) (plain : Bytes)
    (length : key.length = 32) :
    sealWith gcm key nonce plain = .ok (nonce.val ++ gcm.sealText key nonce.val plain) := by
  rw [sealWith, newCipher_of_length key length]
  rfl

/-- What was sealed under one key, opened under another or the same. -/
theorem openWith_sealed (lawful : gcm.Lawful) (key other : Bytes) (nonce : Nonce) (plain : Bytes)
    (length : key.length = 32) (length' : other.length = 32) :
    openWith gcm other (nonce.val ++ gcm.sealText key nonce.val plain) =
      if other = key then .ok plain else .error .authentication := by
  have long : ¬ (nonce.val ++ gcm.sealText key nonce.val plain).length < nonceSize := by
    rw [List.length_append, nonce.property]
    omega
  have front : (nonce.val ++ gcm.sealText key nonce.val plain).take nonceSize = nonce.val :=
    List.take_left' nonce.property
  have back : (nonce.val ++ gcm.sealText key nonce.val plain).drop nonceSize =
      gcm.sealText key nonce.val plain :=
    List.drop_left' nonce.property
  rw [openWith, newCipher_of_length other length', if_neg long, front, back]
  by_cases same : other = key
  · rw [if_pos same, same, lawful.opens key nonce.val plain length]
    rfl
  · rw [if_neg same, lawful.refuses key other nonce.val plain length length' same]
    rfl

theorem masterKey_of_length (gcm : Gcm) (kms : Provider) (length : kms.key.length = 32) :
    kms.masterKey gcm = (.ok kms.key, kms) := by
  cases kms with
  | softwareSealed key =>
      change key.length = 32 at length
      rw [Provider.masterKey, if_neg (by omega), copyKey_of_length key length]
      rfl
  | fileSealed wrapKey key file =>
      change key.length = 32 at length
      rw [Provider.masterKey, if_neg (by omega), copyKey_of_length key length]
      rfl

/-- A key of 32 bytes is installed in memory and, by the second provider, in the sealed file. -/
theorem setMasterKey_of_length (gcm : Gcm) (nonce : Nonce) (key : Bytes) (kms : Provider)
    (length : key.length = 32) :
    ∃ kms', kms.setMasterKey gcm nonce key = .ok kms' ∧ kms'.key = key := by
  have short : ¬ key.length ≠ 32 := by omega
  cases kms with
  | softwareSealed old =>
      refine ⟨_, if_neg short, ?_⟩
      rw [Provider.key, copyKey_of_length key length]
  | fileSealed wrapKey old file =>
      refine ⟨.fileSealed wrapKey key (some (nonce.val ++ gcm.sealText wrapKey.val nonce.val key)),
        ?_, rfl⟩
      rw [Provider.setMasterKey, if_neg short, copyKey_of_length key length,
        sealWith_of_length gcm _ _ _ wrapKey.property]
      rfl

end Cipher

section Calls

variable (gcm : Gcm) (v : Vault)

theorem unseal_of_length (nonce : Nonce) (key : Bytes) (length : key.length = 32) :
    ∃ kms, Vault.unseal gcm nonce key v = .ok { v with kms := kms, sealed := false } ∧
      kms.key = key := by
  obtain ⟨kms, set, installed⟩ := setMasterKey_of_length gcm nonce key v.kms length
  refine ⟨kms, ?_, installed⟩
  rw [Vault.unseal, if_neg (by omega), set]
  rfl

theorem unseal_of_wrong_length (nonce : Nonce) (key : Bytes) (length : key.length ≠ 32) :
    Vault.unseal gcm nonce key v = .error .masterKeyLength :=
  if_pos length

variable (length : v.kms.key.length = 32)
include length

theorem encrypt_of_length (nonce : Nonce) (plain : Bytes) :
    Vault.encrypt gcm nonce plain v =
      (.ok (nonce.val ++ gcm.sealText v.kms.key nonce.val plain), v) := by
  rw [Vault.encrypt, masterKey_of_length gcm v.kms length]
  change (sealWith gcm v.kms.key nonce plain, v) = _
  rw [sealWith_of_length gcm v.kms.key nonce plain length]

theorem decrypt_of_length (ciphertext : Bytes) :
    Vault.decrypt gcm ciphertext v = (openWith gcm v.kms.key ciphertext, v) := by
  rw [Vault.decrypt, masterKey_of_length gcm v.kms length]
  rfl

end Calls

section Runs

/-- The vault with, for every secret, the password last put or rotated and the key in memory
then. -/
structure VaultRun where
  vault : Vault
  password : Str → Bytes := fun _ => []
  madeWith : Str → Bytes := fun _ => []

inductive VaultEvent where
  | unsealVault (nonce : Nonce) (masterKey : Bytes)
  | sealVault
  | setShareHints (hints : List Str)
  | putStatic (draw : Draw) (tenantID name target username : Str) (password : Bytes)
  | reveal (id : Str)
  | rotatePassword (nonce : Nonce) (id : Str) (newPassword : Bytes)
  | delete (id : Str)
  | restart

/-- The vault after a call, with the password that it stored under `id`. -/
def VaultRun.stores (s : VaultRun) (vault : Vault) (id : Str) (password : Bytes) : VaultRun where
  vault := vault
  password := Function.update s.password id password
  madeWith := Function.update s.madeWith id s.vault.kms.key

def vaultStep (gcm : Gcm) (s : VaultRun) : VaultEvent → VaultRun
  | .unsealVault nonce masterKey =>
      match Vault.unseal gcm nonce masterKey s.vault with
      | .ok vault => { s with vault := vault }
      | .error _ => s
  | .sealVault => { s with vault := s.vault.seal }
  | .setShareHints hints => { s with vault := s.vault.setShareHints hints }
  | .putStatic draw tenantID name target username password =>
      let put := Vault.putStatic gcm draw tenantID name target username password s.vault
      match put.1 with
      | .ok meta_ => s.stores put.2 meta_.id password
      | .error _ => { s with vault := put.2 }
  | .reveal id => { s with vault := (Vault.reveal gcm id s.vault).2 }
  | .rotatePassword nonce id newPassword =>
      let rotated := Vault.rotatePassword gcm nonce id newPassword s.vault
      match rotated.1 with
      | .ok _ => s.stores rotated.2 id newPassword
      | .error _ => { s with vault := rotated.2 }
  | .delete id => { s with vault := (s.vault.delete id).2 }
  | .restart => { s with vault := s.vault.restart }

/-- A first process: no blob yet, and a provider with no key in memory. -/
def VaultRun.start (kms : Provider) : VaultRun where
  vault := Vault.bindPersist { kms := kms.restart }

/-- While the vault is unsealed, every stored secret reveals the password last put or rotated. -/
def Opens (gcm : Gcm) (s : VaultRun) : Prop :=
  s.vault.sealed = false → ∀ id stored, s.vault.secrets[id]? = some stored →
    (Vault.reveal gcm id s.vault).1 = .ok (stored.meta_.username, s.password id)

/-- A key of 32 bytes is the one that every stored secret was made with. -/
def RightKey (s : VaultRun) : VaultEvent → Prop
  | .unsealVault _ masterKey =>
      masterKey.length = 32 → ∀ id ∈ s.vault.secrets, s.madeWith id = masterKey
  | _ => True

/-- What holds in every run: the blob has the secrets in memory, an unsealed vault has a key in
memory, and every stored secret was made with the key noted for it. -/
structure Sound (gcm : Gcm) (s : VaultRun) : Prop where
  bound : s.vault.persist = true
  saved : s.vault.secrets = (s.vault.blob.map Snapshot.secrets).getD ∅
  inUse : s.vault.sealed = false → s.vault.kms.key.length = 32
  made : ∀ id stored, s.vault.secrets[id]? = some stored →
    (s.madeWith id).length = 32 ∧ ∃ nonce : Nonce,
      stored.ciphertext = nonce.val ++ gcm.sealText (s.madeWith id) nonce.val (s.password id)

theorem reveal_of_sound {gcm : Gcm} (lawful : gcm.Lawful) (s : VaultRun) (sound : Sound gcm s)
    (unsealed : s.vault.sealed = false) (id : Str) (stored : StoredSecret)
    (found : s.vault.secrets[id]? = some stored) :
    Vault.reveal gcm id s.vault =
      (if s.vault.kms.key = s.madeWith id then .ok (stored.meta_.username, s.password id)
        else .error .authentication, s.vault) := by
  obtain ⟨length, nonce, ciphertext⟩ := sound.made id stored found
  have inUse := sound.inUse unsealed
  rw [Vault.reveal, if_neg (by rw [unsealed]; decide), found]
  dsimp only
  rw [decrypt_of_length gcm s.vault inUse, ciphertext,
    openWith_sealed lawful _ _ nonce (s.password id) length inUse]
  split <;> rfl

theorem opens_iff {gcm : Gcm} (lawful : gcm.Lawful) (s : VaultRun) (sound : Sound gcm s) :
    Opens gcm s ↔
      (s.vault.sealed = false → ∀ id ∈ s.vault.secrets, s.madeWith id = s.vault.kms.key) := by
  constructor
  · intro opens unsealed id member
    have found := Std.ExtTreeMap.getElem?_eq_some_getElem member
    have revealed := opens unsealed id _ found
    rw [reveal_of_sound lawful s sound unsealed id _ found] at revealed
    by_contra different
    rw [if_neg (fun same => different same.symm)] at revealed
    cases revealed
  · intro right unsealed id stored found
    have member : id ∈ s.vault.secrets := by
      rw [← Std.ExtTreeMap.isSome_getElem?_iff_mem, found]
      rfl
    rw [reveal_of_sound lawful s sound unsealed id stored found,
      if_pos (right unsealed id member).symm]

/-- While the vault is unsealed, every stored secret was made with the key in memory. -/
def KeyInUse (s : VaultRun) : Prop :=
  s.vault.sealed = false → ∀ id ∈ s.vault.secrets, s.madeWith id = s.vault.kms.key

section Steps

theorem store_of_bound (v : Vault) (secrets : StrMap StoredSecret) (bound : v.persist = true) :
    v.store secrets = { v with secrets := secrets, blob := some ⟨v.shareHints, secrets⟩ } :=
  if_pos bound

variable {gcm : Gcm} {s : VaultRun} (sound : Sound gcm s)
include sound

/-- The secret under `id` is written anew with the key in memory. -/
theorem sound_stores (unsealed : s.vault.sealed = false) (nonce : Nonce) (id : Str)
    (stored : StoredSecret) (password : Bytes)
    (ciphertext : stored.ciphertext = nonce.val ++ gcm.sealText s.vault.kms.key nonce.val
      password) :
    Sound gcm (s.stores (s.vault.store (s.vault.secrets.insert id stored)) id password) := by
  rw [store_of_bound _ _ sound.bound]
  refine ⟨sound.bound, rfl, sound.inUse, ?_⟩
  intro other found there
  change (s.vault.secrets.insert id stored)[other]? = some found at there
  rw [Std.ExtTreeMap.getElem?_insert] at there
  dsimp only [VaultRun.stores]
  by_cases same : id = other
  · subst same
    rw [if_pos Std.ReflCmp.compare_self, Option.some_inj] at there
    rw [Function.update_self, Function.update_self, ← there]
    exact ⟨sound.inUse unsealed, nonce, ciphertext⟩
  · rw [if_neg (fun equal => same (Std.LawfulEqCmp.eq_of_compare equal))] at there
    rw [Function.update_of_ne (Ne.symm same), Function.update_of_ne (Ne.symm same)]
    exact sound.made other found there

theorem keyInUse_stores (id : Str) (stored : StoredSecret) (password : Bytes) (inUse : KeyInUse s) :
    KeyInUse (s.stores (s.vault.store (s.vault.secrets.insert id stored)) id password) := by
  rw [store_of_bound _ _ sound.bound]
  intro unsealed other member
  dsimp only [VaultRun.stores] at member ⊢
  by_cases same : other = id
  · rw [same, Function.update_self]
  · rw [Function.update_of_ne same]
    rcases Std.ExtTreeMap.mem_insert.mp member with equal | old
    · exact absurd (Std.LawfulEqCmp.eq_of_compare equal).symm same
    · exact inUse unsealed other old

theorem putStatic_of_sound (unsealed : s.vault.sealed = false) (draw : Draw)
    (tenantID name target username : Str) (password : Bytes) :
    ∃ stored : StoredSecret,
      stored.ciphertext = draw.nonce.val ++ gcm.sealText s.vault.kms.key draw.nonce.val password ∧
        Vault.putStatic gcm draw tenantID name target username password s.vault =
          (.ok ⟨draw.id, tenantID, name, target, username, draw.now⟩,
            s.vault.store (s.vault.secrets.insert draw.id stored)) := by
  refine ⟨⟨⟨draw.id, tenantID, name, target, username, draw.now⟩, _⟩, rfl, ?_⟩
  rw [Vault.putStatic, if_neg (by rw [unsealed]; decide),
    encrypt_of_length gcm s.vault (sound.inUse unsealed)]

theorem rotatePassword_of_sound (unsealed : s.vault.sealed = false) (nonce : Nonce) (id : Str)
    (newPassword : Bytes) (old : StoredSecret) (found : s.vault.secrets[id]? = some old) :
    ∃ stored : StoredSecret,
      stored.ciphertext = nonce.val ++ gcm.sealText s.vault.kms.key nonce.val newPassword ∧
        Vault.rotatePassword gcm nonce id newPassword s.vault =
          (.ok (), s.vault.store (s.vault.secrets.insert id stored)) := by
  refine ⟨{ old with ciphertext := _ }, rfl, ?_⟩
  rw [Vault.rotatePassword, if_neg (by rw [unsealed]; decide), found]
  dsimp only
  rw [encrypt_of_length gcm s.vault (sound.inUse unsealed)]

theorem reveal_vault (id : Str) : (Vault.reveal gcm id s.vault).2 = s.vault := by
  rw [Vault.reveal]
  by_cases closed : s.vault.sealed = true
  · rw [if_pos closed]
  · rw [if_neg closed]
    split
    · rfl
    · rw [decrypt_of_length gcm s.vault (sound.inUse (by simpa using closed))]

/-- The secrets that stay, with hints of any kind, are as they were. -/
theorem sound_kept (hints : List Str) (secrets : StrMap StoredSecret)
    (kept : ∀ (id : Str) (stored : StoredSecret), secrets[id]? = some stored →
      s.vault.secrets[id]? = some stored) :
    Sound gcm { s with vault := { s.vault with
      shareHints := hints, secrets := secrets, blob := some ⟨hints, secrets⟩ } } := by
  refine ⟨sound.bound, rfl, sound.inUse, ?_⟩
  intro id stored found
  exact sound.made id stored (kept id stored found)

theorem sound_unseal (nonce : Nonce) (masterKey : Bytes) :
    Sound gcm (vaultStep gcm s (.unsealVault nonce masterKey)) ∧
      (KeyInUse s → (KeyInUse (vaultStep gcm s (.unsealVault nonce masterKey)) ↔
        RightKey s (.unsealVault nonce masterKey))) := by
  rw [vaultStep]
  by_cases length : masterKey.length = 32
  · obtain ⟨kms, unsealed, installed⟩ := unseal_of_length gcm s.vault nonce masterKey length
    rw [unsealed]
    refine ⟨⟨sound.bound, sound.saved, fun _ => ?_, sound.made⟩, fun _ => ?_⟩
    · dsimp only
      rw [installed, length]
    · constructor
      · intro inUse _ id member
        rw [← installed]
        exact inUse rfl id member
      · intro right _ id member
        dsimp only at member ⊢
        rw [installed]
        exact right length id member
  · rw [unseal_of_wrong_length gcm s.vault nonce masterKey length]
    exact ⟨sound, fun inUse => iff_of_true inUse (fun right => absurd right length)⟩

theorem sound_restart :
    Sound gcm { s with vault := s.vault.restart } := by
  have saved := sound.saved
  have made := sound.made
  rw [Vault.restart, Vault.bindPersist]
  cases blob : s.vault.blob with
  | none =>
      refine ⟨rfl, rfl, fun unsealed => absurd (show true = false from unsealed) (by decide), ?_⟩
      intro id stored found
      dsimp only at found
      rw [Std.ExtTreeMap.getElem?_empty] at found
      cases found
  | some snap =>
      rw [blob] at saved
      change s.vault.secrets = snap.secrets at saved
      rw [saved] at made
      exact ⟨rfl, rfl, fun unsealed => absurd (show true = false from unsealed) (by decide), made⟩

/-- Every event keeps a run sound, and only an unseal can bring in a key that the stored secrets
were not made with. -/
theorem vaultStep_sound (event : VaultEvent) :
    Sound gcm (vaultStep gcm s event) ∧
      (KeyInUse s → (KeyInUse (vaultStep gcm s event) ↔ RightKey s event)) := by
  cases event with
  | unsealVault nonce masterKey => exact sound_unseal sound nonce masterKey
  | sealVault =>
      refine ⟨⟨sound.bound, sound.saved, fun unsealed =>
        absurd (show true = false from unsealed) (by decide), sound.made⟩, fun _ => ?_⟩
      exact iff_of_true (fun unsealed => absurd (show true = false from unsealed) (by decide))
        trivial
  | setShareHints hints =>
      rw [vaultStep, Vault.setShareHints, Vault.flushPersist, if_pos sound.bound]
      exact ⟨sound_kept sound hints s.vault.secrets (fun _ _ found => found),
        fun inUse => iff_of_true inUse trivial⟩
  | putStatic draw tenantID name target username password =>
      rw [vaultStep]
      by_cases closed : s.vault.sealed = true
      · rw [Vault.putStatic, if_pos closed]
        exact ⟨sound, fun inUse => iff_of_true inUse trivial⟩
      · have unsealed : s.vault.sealed = false := by simpa using closed
        obtain ⟨stored, ciphertext, put⟩ :=
          putStatic_of_sound sound unsealed draw tenantID name target username password
        rw [put]
        exact ⟨sound_stores sound unsealed draw.nonce draw.id stored password ciphertext,
          fun inUse => iff_of_true (keyInUse_stores sound draw.id stored password inUse) trivial⟩
  | reveal id =>
      rw [vaultStep, reveal_vault sound id]
      exact ⟨sound, fun inUse => iff_of_true inUse trivial⟩
  | rotatePassword nonce id newPassword =>
      rw [vaultStep]
      by_cases closed : s.vault.sealed = true
      · rw [Vault.rotatePassword, if_pos closed]
        exact ⟨sound, fun inUse => iff_of_true inUse trivial⟩
      · have unsealed : s.vault.sealed = false := by simpa using closed
        cases found : s.vault.secrets[id]? with
        | none =>
            rw [Vault.rotatePassword, if_neg closed, found]
            exact ⟨sound, fun inUse => iff_of_true inUse trivial⟩
        | some old =>
            obtain ⟨stored, ciphertext, rotated⟩ :=
              rotatePassword_of_sound sound unsealed nonce id newPassword old found
            rw [rotated]
            exact ⟨sound_stores sound unsealed nonce id stored newPassword ciphertext,
              fun inUse => iff_of_true (keyInUse_stores sound id stored newPassword inUse) trivial⟩
  | delete id =>
      rw [vaultStep, Vault.delete]
      by_cases member : id ∈ s.vault.secrets
      · rw [if_pos member, store_of_bound _ _ sound.bound]
        refine ⟨sound_kept sound _ _ ?_, fun inUse => iff_of_true ?_ trivial⟩
        · intro other stored found
          change (s.vault.secrets.erase id)[other]? = some stored at found
          rw [Std.ExtTreeMap.getElem?_erase] at found
          split at found
          · cases found
          · exact found
        · intro unsealed other kept
          exact inUse unsealed other (Std.ExtTreeMap.mem_of_mem_erase kept)
      · rw [if_neg member]
        exact ⟨sound, fun inUse => iff_of_true inUse trivial⟩
  | restart =>
      refine ⟨sound_restart sound, fun _ => iff_of_true ?_ trivial⟩
      intro unsealed
      rw [vaultStep, Vault.restart, Vault.bindPersist] at unsealed
      cases blob : s.vault.blob with
      | none =>
          rw [blob] at unsealed
          cases unsealed
      | some snap =>
          rw [blob] at unsealed
          cases unsealed

end Steps

theorem sound_start (gcm : Gcm) (kms : Provider) : Sound gcm (VaultRun.start kms) := by
  refine ⟨rfl, rfl, fun unsealed => absurd (show true = false from unsealed) (by decide), ?_⟩
  intro id stored found
  change (∅ : StrMap StoredSecret)[id]? = some stored at found
  rw [Std.ExtTreeMap.getElem?_empty] at found
  cases found

theorem always_keyInUse_iff (gcm : Gcm) (kms : Provider) (events : List VaultEvent) :
    Always (vaultStep gcm) (fun s => Sound gcm s ∧ KeyInUse s) (VaultRun.start kms) events ↔
      Guarded (vaultStep gcm) RightKey (VaultRun.start kms) events := by
  apply always_iff_guarded
  · intro s event holds
    have step := vaultStep_sound holds.1 event
    rw [and_iff_right step.1]
    exact step.2 holds.2
  · exact ⟨sound_start gcm kms, fun unsealed =>
      absurd (show true = false from unsealed) (by decide)⟩

theorem always_sound (gcm : Gcm) (kms : Provider) (events : List VaultEvent) :
    Always (vaultStep gcm) (Sound gcm) (VaultRun.start kms) events := by
  apply always_of_guarded (vaultStep gcm) (Sound gcm) (fun _ _ => True)
  · intro s event sound _
    exact (vaultStep_sound sound event).1
  · exact sound_start gcm kms
  · intro _ _ _
    trivial

theorem always_opens_iff {gcm : Gcm} (lawful : gcm.Lawful) (kms : Provider)
    (events : List VaultEvent) :
    Always (vaultStep gcm) (Opens gcm) (VaultRun.start kms) events ↔
      Always (vaultStep gcm) (fun s => Sound gcm s ∧ KeyInUse s) (VaultRun.start kms) events := by
  have sound := always_sound gcm kms events
  constructor
  · intro opens front within
    exact ⟨sound front within, (opens_iff lawful _ (sound front within)).mp (opens front within)⟩
  · intro inUse front within
    exact (opens_iff lawful _ (sound front within)).mpr (inUse front within).2

/-- An unsealed vault reveals every stored secret's last password along exactly the runs in which
each key of 32 bytes is the one the stored secrets were made with. `Unseal` refuses only a key of
another length, and a secret made with another key is never revealed wrongly. -/
theorem unseal_reveals_under_right_key {gcm : Gcm} (lawful : gcm.Lawful) (kms : Provider)
    (events : List VaultEvent) :
    (Always (vaultStep gcm) (Opens gcm) (VaultRun.start kms) events ↔
      Guarded (vaultStep gcm) RightKey (VaultRun.start kms) events) ∧
    Always (vaultStep gcm) (fun s =>
      (∀ id stored, s.vault.sealed = false → s.vault.secrets[id]? = some stored →
        (Vault.reveal gcm id s.vault).1 =
          if s.vault.kms.key = s.madeWith id then .ok (stored.meta_.username, s.password id)
          else .error .authentication) ∧
      (∀ nonce masterKey, masterKey.length ≠ 32 →
        vaultStep gcm s (.unsealVault nonce masterKey) = s) ∧
      ∀ nonce masterKey, masterKey.length = 32 →
        ∃ v, Vault.unseal gcm nonce masterKey s.vault = .ok v ∧
        v.sealed = false ∧ v.kms.key = masterKey) (VaultRun.start kms) events := by
  refine ⟨(always_opens_iff lawful kms events).trans (always_keyInUse_iff gcm kms events), ?_⟩
  intro front within
  have sound := always_sound gcm kms events front within
  refine ⟨?_, ?_, ?_⟩
  · intro id stored unsealed found
    rw [reveal_of_sound lawful _ sound unsealed id stored found]
  · intro nonce masterKey length
    rw [vaultStep, unseal_of_wrong_length _ _ _ _ length]
  · intro nonce masterKey length
    obtain ⟨kms', unsealed, installed⟩ := unseal_of_length gcm _ nonce masterKey length
    exact ⟨_, unsealed, rfl, installed⟩

end Runs

section Example

/-- A stand-in that keeps the key in front of the text. -/
def keyedGcm : Gcm where
  sealText := fun key _ plain => key ++ plain
  openText := fun key _ text => if text.take key.length = key then some (text.drop key.length)
    else none

theorem keyedGcm_lawful : keyedGcm.Lawful := by
  constructor
  · intro key nonce plain _
    dsimp only [keyedGcm]
    rw [List.take_left, List.drop_left, if_pos rfl]
  · intro key other nonce plain length length' different
    dsimp only [keyedGcm]
    rw [length', ← length, List.take_left, if_neg (Ne.symm different)]

def someNonce : Nonce := ⟨List.replicate 12 0, rfl⟩

def firstKey : Bytes := List.replicate 32 1

def secondKey : Bytes := List.replicate 32 2

def putRoot : VaultEvent :=
  .putStatic ⟨"db".toList, 0, someNonce⟩ "t1".toList "db".toList "db01".toList "root".toList
    [112, 119]

/-- Two cycles with one key, the second in a new process. -/
theorem root_revealed_after_restart :
    Always (vaultStep keyedGcm) (Opens keyedGcm) (VaultRun.start (.softwareSealed []))
      [.unsealVault someNonce firstKey, putRoot, .sealVault, .restart,
        .unsealVault someNonce firstKey] := by
  apply (unseal_reveals_under_right_key keyedGcm_lawful (.softwareSealed []) _).1.mpr
  simp only [guarded_cons]
  refine ⟨?_, trivial, trivial, trivial, ?_, guarded_nil _ _ _⟩
  · intro _ id member
    exact absurd member Std.ExtTreeMap.not_mem_empty
  · intro _ id member
    rcases Std.ExtTreeMap.mem_insert.mp member with equal | empty
    · rw [← Std.LawfulEqCmp.eq_of_compare equal]
      rfl
    · exact absurd empty Std.ExtTreeMap.not_mem_empty

/-- A secret put under one key and an unseal with another. -/
theorem second_key_unseals :
    ¬ ∀ gcm : Gcm, gcm.Lawful → ∀ (kms : Provider) (events : List VaultEvent),
      Always (vaultStep gcm) (Opens gcm) (VaultRun.start kms) events := by
  intro opens
  have last := (opens keyedGcm keyedGcm_lawful (.softwareSealed [])
    [.unsealVault someNonce firstKey, putRoot, .sealVault, .unsealVault someNonce secondKey]).last
  have revealed := last rfl "db".toList _ (Std.ExtTreeMap.getElem?_insert_self)
  have failed :
      (Vault.reveal keyedGcm "db".toList
        ([VaultEvent.unsealVault someNonce firstKey, putRoot, .sealVault,
          .unsealVault someNonce secondKey].foldl (vaultStep keyedGcm)
        (VaultRun.start (.softwareSealed []))).vault).1 = .error .authentication := by
    rfl
  rw [failed] at revealed
  cases revealed

end Example

end EraOne.Pam
