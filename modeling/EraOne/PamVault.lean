import EraOne.Strings
import EraOne.Shamir

set_option autoImplicit false

/- The vault of `pam` (`vault.go`, `vault_persist.go`) over its key providers (`kms.go`,
`file_sealed.go`). AES-GCM is a parameter. Passwords are the bytes of their strings, writes to disk
succeed, and the JSON around what is written is left out. -/
namespace EraOne.Pam

abbrev Bytes := List UInt8

/-- Nanoseconds. -/
abbrev Time := Int

inductive VaultErr where
  | masterKeyLength
  | noMasterKey
  | sealedFileMissing
  | sealedKeyLength
  | cipherKeySize
  | ciphertextTooShort
  | authentication
  | vaultSealed
  | notFound
  deriving DecidableEq, Repr

/-- `err.Error()`. -/
def VaultErr.text : VaultErr → String
  | .masterKeyLength => "master key must be 32 bytes"
  | .noMasterKey => "kms: no master key"
  | .sealedFileMissing => "kms: sealed file missing"
  | .sealedKeyLength => "kms: invalid sealed key length"
  | .cipherKeySize => "crypto/aes: invalid key size"
  | .ciphertextTooShort => "ciphertext too short"
  | .authentication => "cipher: message authentication failed"
  | .vaultSealed => "vault sealed"
  | .notFound => "not found"

section Cipher

/-- `cipher.AEAD` of AES-GCM: `Seal` and `Open` for a key, a nonce and a text. -/
structure Gcm where
  sealText : Bytes → Bytes → Bytes → Bytes
  openText : Bytes → Bytes → Bytes → Option Bytes

/-- What was sealed opens under its key and under no other key of 32 bytes. -/
structure Gcm.Lawful (gcm : Gcm) : Prop where
  opens : ∀ key nonce plain : Bytes, key.length = 32 →
    gcm.openText key nonce (gcm.sealText key nonce plain) = some plain
  refuses : ∀ key other nonce plain : Bytes, key.length = 32 → other.length = 32 → other ≠ key →
    gcm.openText other nonce (gcm.sealText key nonce plain) = none

def nonceSize : Nat := 12

/-- What `rand.Read` fills. -/
abbrev Nonce := { nonce : Bytes // nonce.length = nonceSize }

/-- `aes.NewCipher` takes keys of these sizes. -/
def newCipher (key : Bytes) : Except VaultErr Unit :=
  if key.length = 16 ∨ key.length = 24 ∨ key.length = 32 then .ok () else .error .cipherKeySize

/-- `encrypt`, `encryptWrap` and `sealBlob` from the key on. -/
def sealWith (gcm : Gcm) (key : Bytes) (nonce : Nonce) (plain : Bytes) : Except VaultErr Bytes := do
  newCipher key
  return nonce.val ++ gcm.sealText key nonce.val plain

/-- `decrypt`, `decryptWrap` and `openBlob` from the key on. -/
def openWith (gcm : Gcm) (key ciphertext : Bytes) : Except VaultErr Bytes := do
  newCipher key
  if ciphertext.length < nonceSize then .error .ciphertextTooShort
  else
    match gcm.openText key (ciphertext.take nonceSize) (ciphertext.drop nonceSize) with
    | some plain => .ok plain
    | none => .error .authentication

end Cipher

section Providers

/-- A key of 32 bytes. -/
abbrev Key := { key : Bytes // key.length = 32 }

/-- The providers that `SelectProvider` returns, with the key in memory, which is empty before an
unseal, and for the second one the wrap key and the sealed file on disk. -/
inductive Provider where
  | softwareSealed (key : Bytes)
  | fileSealed (wrapKey : Key) (key : Bytes) (file : Option Bytes)
  deriving DecidableEq

/-- `make([]byte, 32)` and `copy`. -/
def copyKey (key : Bytes) : Bytes := (key ++ List.replicate 32 0).take 32

def Provider.key : Provider → Bytes
  | .softwareSealed key | .fileSealed _ key _ => key

/-- `SetMasterKey`. -/
def Provider.setMasterKey (gcm : Gcm) (nonce : Nonce) (key : Bytes) :
    Provider → Except VaultErr Provider
  | .softwareSealed _ =>
      if key.length ≠ 32 then .error .masterKeyLength else .ok (.softwareSealed (copyKey key))
  | .fileSealed wrapKey _ _ =>
      if key.length ≠ 32 then .error .masterKeyLength
      else (sealWith gcm wrapKey.val nonce (copyKey key)).map fun file =>
        .fileSealed wrapKey (copyKey key) (some file)

def unsealFromFile (gcm : Gcm) (wrapKey : Key) (file : Option Bytes) : Except VaultErr Bytes :=
  match file with
  | none => .error .sealedFileMissing
  | some ciphertext => do
      let plain ← openWith gcm wrapKey.val ciphertext
      if plain.length ≠ 32 then .error .sealedKeyLength else .ok plain

/-- `MasterKey`, with the provider after it: a key read from the file stays in memory. -/
def Provider.masterKey (gcm : Gcm) : Provider → Except VaultErr Bytes × Provider
  | .softwareSealed key =>
      (if key.length = 0 then .error .noMasterKey else .ok (copyKey key), .softwareSealed key)
  | .fileSealed wrapKey key file =>
      if key.length = 0 then
        match unsealFromFile gcm wrapKey file with
        | .error e => (.error e, .fileSealed wrapKey key file)
        | .ok read => (.ok (copyKey read), .fileSealed wrapKey read file)
      else (.ok (copyKey key), .fileSealed wrapKey key file)

/-- `Clear`. -/
def Provider.clear : Provider → Provider
  | .softwareSealed _ => .softwareSealed []
  | .fileSealed wrapKey _ file => .fileSealed wrapKey [] file

/-- The provider of a new process over the same files. -/
def Provider.restart : Provider → Provider
  | .softwareSealed _ => .softwareSealed []
  | .fileSealed wrapKey _ file => .fileSealed wrapKey [] file

end Providers

section Vault

structure SecretMeta where
  id : Str
  tenantID : Str
  name : Str
  target : Str
  username : Str
  createdAt : Time
  deriving DecidableEq

structure StoredSecret where
  meta_ : SecretMeta
  ciphertext : Bytes
  deriving DecidableEq

structure Snapshot where
  shareHints : List Str
  secrets : StrMap StoredSecret

/-- The vault; `persist` says whether a store is bound and `blob` is what that store holds. -/
structure Vault where
  kms : Provider
  sealed : Bool := true
  shareHints : List Str := []
  secrets : StrMap StoredSecret := ∅
  persist : Bool := false
  blob : Option Snapshot := none

/-- The readings of a call: the uuid, the clock and the nonce. -/
structure Draw where
  id : Str
  now : Time
  nonce : Nonce

variable (gcm : Gcm)

/-- `BindPersist`. -/
def Vault.bindPersist (v : Vault) : Vault :=
  match v.blob with
  | none => { v with persist := true }
  | some snap => { v with persist := true, shareHints := snap.shareHints, secrets := snap.secrets }

def Vault.flushPersist (v : Vault) : Vault :=
  if v.persist then { v with blob := some ⟨v.shareHints, v.secrets⟩ } else v

/-- The map of secrets is replaced and written out. -/
def Vault.store (secrets : StrMap StoredSecret) (v : Vault) : Vault :=
  Vault.flushPersist { v with secrets := secrets }

/-- `New` and `BindPersist` in a new process over the same files. -/
def Vault.restart (v : Vault) : Vault := Vault.bindPersist { kms := v.kms.restart, blob := v.blob }

def Vault.unseal (nonce : Nonce) (masterKey : Bytes) (v : Vault) : Except VaultErr Vault :=
  if masterKey.length ≠ 32 then .error .masterKeyLength
  else (v.kms.setMasterKey gcm nonce masterKey).map fun kms =>
    { v with kms := kms, sealed := false }

def Vault.seal (v : Vault) : Vault := { v with kms := v.kms.clear, sealed := true }

def Vault.setShareHints (hints : List Str) (v : Vault) : Vault :=
  Vault.flushPersist { v with shareHints := hints }

/-- `encrypt`, with the vault after the key was asked for. -/
def Vault.encrypt (nonce : Nonce) (plain : Bytes) (v : Vault) : Except VaultErr Bytes × Vault :=
  let asked := v.kms.masterKey gcm
  (asked.1 >>= fun key => sealWith gcm key nonce plain, { v with kms := asked.2 })

def Vault.decrypt (ciphertext : Bytes) (v : Vault) : Except VaultErr Bytes × Vault :=
  let asked := v.kms.masterKey gcm
  (asked.1 >>= fun key => openWith gcm key ciphertext, { v with kms := asked.2 })

def Vault.putStatic (draw : Draw) (tenantID name target username : Str) (password : Bytes)
    (v : Vault) :
    Except VaultErr SecretMeta × Vault :=
  if v.sealed then (.error .vaultSealed, v)
  else
    let made := Vault.encrypt gcm draw.nonce password v
    match made.1 with
    | .error e => (.error e, made.2)
    | .ok ciphertext =>
        let meta_ : SecretMeta := ⟨draw.id, tenantID, name, target, username, draw.now⟩
        (.ok meta_, made.2.store (made.2.secrets.insert meta_.id ⟨meta_, ciphertext⟩))

/-- `ListMeta`, in key order. -/
def Vault.listMeta (v : Vault) : List SecretMeta := v.secrets.toList.map fun entry => entry.2.meta_

def Vault.getMeta (id : Str) (v : Vault) : Option SecretMeta :=
  (v.secrets[id]?).map StoredSecret.meta_

def Vault.reveal (id : Str) (v : Vault) : Except VaultErr (Str × Bytes) × Vault :=
  if v.sealed then (.error .vaultSealed, v)
  else
    match v.secrets[id]? with
    | none => (.error .notFound, v)
    | some s =>
        let opened := Vault.decrypt gcm s.ciphertext v
        (opened.1.map fun plain => (s.meta_.username, plain), opened.2)

def Vault.rotatePassword (nonce : Nonce) (id : Str) (newPassword : Bytes) (v : Vault) :
    Except VaultErr Unit × Vault :=
  if v.sealed then (.error .vaultSealed, v)
  else
    match v.secrets[id]? with
    | none => (.error .notFound, v)
    | some s =>
        let made := Vault.encrypt gcm nonce newPassword v
        match made.1 with
        | .error e => (.error e, made.2)
        | .ok ciphertext =>
            (.ok (), made.2.store (made.2.secrets.insert id { s with ciphertext := ciphertext }))

def Vault.delete (id : Str) (v : Vault) : Bool × Vault :=
  if id ∈ v.secrets then (true, v.store (v.secrets.erase id)) else (false, v)

/-- The key that `handleUnseal` makes of the shares: padded with zeros or cut to 32 bytes. -/
def unsealKey (shares : List Bytes) : Except Shamir.ShamirErr Bytes :=
  (Shamir.combine shares).map fun master =>
    if master.length < 32 then copyKey master else if master.length > 32 then master.take 32
      else master

end Vault

end EraOne.Pam
