import EraOne.PamVault
import EraOne.Search

set_option autoImplicit false

/- The requests of `pam` that touch checkouts (`checkout.go`, `ldap.go`, `server.go`, `broker.go`)
and the rotation of passwords (`scheduler.go`). A request runs to its end before the next one.
Sessions, recordings and the audit chain are left out: no credential goes through them. -/
namespace EraOne.Pam

open Scan

section Checkouts

inductive Status where
  | pending | approved | denied | expired | consumed | revoked
  deriving DecidableEq, Repr

structure Request where
  id : Str
  tenantID : Str
  secretID : Str
  requester : Str
  approver : Str := []
  status : Status
  ttlMinutes : Int
  expiresAt : Time
  createdAt : Time
  deriving DecidableEq

abbrev Checkouts := StrMap Request

/-- A `time.Duration` of that many minutes, which wraps at 64 bits. -/
def minutes (n : Int) : Int := (n * 60000000000).bmod (2 ^ 64)

namespace Checkouts

/-- `Create`; the error is that `secret_id and requester required`. -/
def create (id : Str) (now : Time) (tenantID secretID requester : Str) (ttlMinutes : Int)
    (autoApprove : Bool) (items : Checkouts) : Option Request × Checkouts :=
  if secretID = [] ∨ requester = [] then (none, items)
  else
    let ttlMinutes := if ttlMinutes ≤ 0 then 60 else ttlMinutes
    let r : Request :=
      { id := id, tenantID := tenantID, secretID := secretID, requester := requester
        ttlMinutes := ttlMinutes, expiresAt := now + minutes ttlMinutes, createdAt := now
        status := if autoApprove then .approved else .pending }
    (some r, items.insert r.id r)

def setStatus (id : Str) (r : Request) (status : Status) (items : Checkouts) : Checkouts :=
  items.insert id { r with status := status }

def get (now : Time) (id : Str) (items : Checkouts) : Option Request × Checkouts :=
  match items[id]? with
  | none => (none, items)
  | some r =>
      if r.status = .approved ∧ now > r.expiresAt then
        (some { r with status := .expired }, items.setStatus id r .expired)
      else (some r, items)

/-- `Approve` and `Deny`, which differ in the status they set. -/
def decide_ (status : Status) (id approver : Str) (items : Checkouts) :
    Option Request × Checkouts :=
  match items[id]? with
  | none => (none, items)
  | some r =>
      if r.status ≠ .pending then (none, items)
      else
        let r := { r with status := status, approver := approver }
        (some r, items.insert id r)

def approve (id approver : Str) (items : Checkouts) : Option Request × Checkouts :=
  items.decide_ .approved id approver

def deny (id approver : Str) (items : Checkouts) : Option Request × Checkouts :=
  items.decide_ .denied id approver

def consume (now : Time) (id : Str) (items : Checkouts) : Option Request × Checkouts :=
  match items[id]? with
  | none => (none, items)
  | some r =>
      if r.status ≠ .approved then (none, items)
      else if now > r.expiresAt then (none, items.setStatus id r .expired)
      else (some { r with status := .consumed }, items.setStatus id r .consumed)

def revoke (id : Str) (items : Checkouts) : Bool × Checkouts :=
  match items[id]? with
  | none => (false, items)
  | some r => (true, items.setStatus id r .revoked)

/-- `List`, in key order. -/
def list (items : Checkouts) : List Request := items.toList.map Prod.snd

end Checkouts

/-- Whether a role is approved at once, if it may ask at all. -/
def policyAllow (role : Str) : Option Bool :=
  if role = "admin".toList ∨ role = "pam-admin".toList then some true
  else if role = "analyst".toList ∨ role = "operator".toList then some false
  else none

/-- `ParseGroups`. -/
def parseGroups (csv : Str) : List Str :=
  if csv = [] then [] else ((splitAll [','] csv).map trim).filter (· ≠ [])

/-- `ApproverInLDAPGroups`, with the allowlist of the environment. -/
def approverInLDAPGroups (lower : Str → Str) (allowlist : Str) (groups : List Str) : Bool :=
  let raw := trim allowlist
  if raw = [] then true
  else
    let allow := ((splitAll [','] raw).map trim).filter (· ≠ []) |>.map lower
    groups.any fun g => allow.contains (lower (trim g))

end Checkouts

section Server

structure Inject where
  sessionID : Str
  username : Str
  password : Bytes
  secretID : Str
  checkoutID : Str
  createdAt : Time
  token : Str
  deriving DecidableEq

/-- `Bind`, into the injects by session; the error is that `session and username required`. -/
def bind (now : Time) (token sessionID username : Str) (password : Bytes)
    (secretID checkoutID : Str) (bySess : StrMap Inject) : Option Inject × StrMap Inject :=
  if sessionID = [] ∨ username = [] then (none, bySess)
  else
    let inj : Inject := ⟨sessionID, username, password, secretID, checkoutID, now, token⟩
    (some inj, bySess.insert sessionID inj)

/-- What the process is configured with: AES-GCM, `strings.ToLower`, the allowlist of approver
groups and whether the module is licensed. -/
structure Config where
  gcm : Gcm
  lower : Str → Str := id
  approverGroups : Str := []
  licensed : Bool := true

structure Server where
  vault : Vault
  checkouts : Checkouts := ∅
  broker : StrMap Inject := ∅
  interval : Int
  lastRotated : StrMap Time := ∅

structure HttpError where
  code : Nat
  text : String
  deriving DecidableEq, Repr

/-- `X-ERA-Actor`, `X-ERA-Role` and `X-ERA-Groups`. -/
structure Headers where
  actor : Str := []
  role : Str := []
  groups : Str := []

def Headers.actorName (h : Headers) : Str := if h.actor ≠ [] then h.actor else "unknown".toList

def Headers.roleName (h : Headers) : Str := if h.role ≠ [] then h.role else "requester".toList

/-- The readings of a request. `later` is the clock when `handleRDPStart` consumes the checkout. -/
structure Readings where
  id : Str
  now : Time
  later : Time
  token : Str
  nonce : Nonce

abbrev Handler (α : Type) := Except HttpError α × Server

variable (cfg : Config) (env : Readings)

/-- What `requirePAM` writes. -/
def unlicensed : HttpError := ⟨403, "pam module not licensed"⟩

/-- The same from a handler that writes its own refusal after it. -/
def unlicensedForbidden : HttpError := ⟨403, "pam module not licensed\nforbidden"⟩

/-- `handleUnseal` from the decoded shares on. -/
def handleUnseal (shares : List Bytes) (s : Server) : Handler Unit :=
  if !cfg.licensed then (.error unlicensedForbidden, s)
  else if shares.length < 2 then (.error ⟨400, "need >=2 shares"⟩, s)
  else
    match unsealKey shares with
    | .error _ => (.error ⟨400, "combine failed"⟩, s)
    | .ok master =>
        match Vault.unseal cfg.gcm env.nonce master s.vault with
        | .error e => (.error ⟨500, e.text⟩, s)
        | .ok vault => (.ok (), { s with vault := vault })

def handleSeal (h : Headers) (s : Server) : Handler Unit :=
  if !cfg.licensed then (.error unlicensedForbidden, s)
  else if h.roleName ≠ "admin".toList ∧ h.roleName ≠ "pam-admin".toList then
    (.error ⟨403, "admin only"⟩, s)
  else (.ok (), { s with vault := s.vault.seal })

/-- POST of `handleSecrets`. -/
def handleSecrets (tenantID name target username : Str) (password : Bytes) (s : Server) :
    Handler SecretMeta :=
  if !cfg.licensed then (.error unlicensed, s)
  else if s.vault.sealed then (.error ⟨503, "vault sealed"⟩, s)
  else if name = [] ∨ password = [] then (.error ⟨400, "name and password required"⟩, s)
  else
    let put := Vault.putStatic cfg.gcm ⟨env.id, env.now, env.nonce⟩ tenantID name target username
      password s.vault
    match put.1 with
    | .error e => (.error ⟨500, e.text⟩, { s with vault := put.2 })
    | .ok meta_ => (.ok meta_, { s with vault := put.2 })

/-- DELETE of `handleSecretByID`. -/
def handleDelete (id : Str) (s : Server) : Handler Unit :=
  if !cfg.licensed then (.error unlicensed, s)
  else
    let deleted := s.vault.delete id
    if deleted.1 then (.ok (), { s with vault := deleted.2 })
    else (.error ⟨404, "404 page not found"⟩, s)

/-- `rotate` of `handleSecretByID`. -/
def handleRotate (id : Str) (password : Bytes) (s : Server) : Handler Unit :=
  if !cfg.licensed then (.error unlicensed, s)
  else if s.vault.sealed then (.error ⟨503, "vault sealed"⟩, s)
  else if password = [] then (.error ⟨400, "password required"⟩, s)
  else
    let rotated := Vault.rotatePassword cfg.gcm env.nonce id password s.vault
    match rotated.1 with
    | .error .notFound => (.error ⟨404, "404 page not found"⟩, { s with vault := rotated.2 })
    | .error e => (.error ⟨500, e.text⟩, { s with vault := rotated.2 })
    | .ok _ => (.ok (), { s with vault := rotated.2 })

/-- POST of `handleCheckout`. -/
def handleCheckout (h : Headers) (secretID tenantID : Str) (ttlMinutes : Int) (s : Server) :
    Handler Request :=
  if !cfg.licensed then (.error unlicensed, s)
  else if secretID = [] then (.error ⟨400, "secret_id required"⟩, s)
  else
    match policyAllow h.roleName with
    | none => (.error ⟨403, "forbidden"⟩, s)
    | some auto =>
        let created :=
          s.checkouts.create env.id env.now tenantID secretID h.actorName ttlMinutes auto
        match created.1 with
        | none => (.error ⟨400, "secret_id and requester required"⟩, s)
        | some r => (.ok r, { s with checkouts := created.2 })

/-- `approve` of `handleCheckoutSub`. -/
def handleApprove (h : Headers) (id : Str) (s : Server) : Handler Request :=
  if !cfg.licensed then (.error unlicensed, s)
  else if h.roleName ≠ "admin".toList ∧ h.roleName ≠ "pam-admin".toList ∧
      !approverInLDAPGroups cfg.lower cfg.approverGroups (parseGroups h.groups) then
    (.error ⟨403, "approver not in ldap groups"⟩, s)
  else
    let approved := s.checkouts.approve id h.actorName
    match approved.1 with
    | none => (.error ⟨404, "404 page not found"⟩, s)
    | some r => (.ok r, { s with checkouts := approved.2 })

/-- `reveal` of `handleCheckoutSub`: the username and the password of the response. -/
def handleReveal (id : Str) (s : Server) : Handler (Str × Bytes) :=
  if !cfg.licensed then (.error unlicensed, s)
  else
    let consumed := s.checkouts.consume env.now id
    let s := { s with checkouts := consumed.2 }
    match consumed.1 with
    | none => (.error ⟨403, "not approved or expired"⟩, s)
    | some r =>
        let revealed := Vault.reveal cfg.gcm r.secretID s.vault
        let s := { s with vault := revealed.2 }
        match revealed.1 with
        | .error _ => (.error ⟨500, "reveal failed"⟩, s)
        | .ok credential => (.ok credential, s)

/-- The checkout a session is started with: none is named, or it is approved or consumed. -/
def startCheckout (checkoutID : Str) (s : Server) : Except HttpError (Option Request) × Server :=
  if checkoutID = [] then (.ok none, s)
  else
    let got := s.checkouts.get env.now checkoutID
    let s := { s with checkouts := got.2 }
    match got.1 with
    | none => (.error ⟨403, "invalid checkout"⟩, s)
    | some r =>
        if r.status ≠ .approved ∧ r.status ≠ .consumed then (.error ⟨403, "invalid checkout"⟩, s)
        else (.ok (some r), s)

/-- The user of the session: the actor, or the username of the checked out secret. -/
def startUser (h : Headers) (checkout : Option Request) (s : Server) : Str :=
  match checkout with
  | none => h.actorName
  | some r => ((Vault.getMeta r.secretID s.vault).map SecretMeta.username).getD h.actorName

def handleSSHStart (h : Headers) (checkoutID host : Str) (s : Server) : Handler Str :=
  if !cfg.licensed then (.error unlicensedForbidden, s)
  else if host = [] then (.error ⟨400, "host required"⟩, s)
  else
    let started := startCheckout env checkoutID s
    match started.1 with
    | .error e => (.error e, started.2)
    | .ok checkout => (.ok (startUser h checkout started.2), started.2)

/-- `Reveal`, `Bind` and `Consume` of `handleRDPStart`: the inject, and the user of the session. -/
def injectCredential (checkoutID user : Str) (r : Request) (s : Server) : Option Inject × Server :=
  let revealed := Vault.reveal cfg.gcm r.secretID s.vault
  let s := { s with vault := revealed.2 }
  match revealed.1 with
  | .error _ => (none, s)
  | .ok (username, password) =>
      let user := if username ≠ [] then username else user
      let bound := bind env.now env.token env.id user password r.secretID checkoutID s.broker
      match bound.1 with
      | none => (none, s)
      | some inj =>
          (some inj,
            { s with broker := bound.2, checkouts := (s.checkouts.consume env.later checkoutID).2 })

/-- `handleRDPStart`: the inject of the session it starts, if there is one. -/
def handleRDPStart (h : Headers) (checkoutID host : Str) (s : Server) : Handler (Option Inject) :=
  if !cfg.licensed then (.error unlicensedForbidden, s)
  else if host = [] then (.error ⟨400, "host required"⟩, s)
  else
    let started := startCheckout env checkoutID s
    match started.1 with
    | .error e => (.error e, started.2)
    | .ok none => (.ok none, started.2)
    | .ok (some r) =>
        let injected :=
          injectCredential cfg env checkoutID (startUser h (some r) started.2) r started.2
        (.ok injected.1, injected.2)

end Server

section Rotation

/-- The checkouts that a rotation of the secret revokes. -/
def revocable (secretID : Str) (r : Request) : Bool :=
  r.secretID = secretID ∧ (r.status = .approved ∨ r.status = .pending)

/-- `revokeCheckouts`: the ids it revokes, and the store. -/
def revokeCheckouts (secretID : Str) (items : Checkouts) : List Str × Checkouts :=
  let ids := (items.list.filter (revocable secretID)).map Request.id
  (ids, ids.foldl (fun items id => (items.revoke id).2) items)

/-- The password and the nonce drawn for a secret; no password when `rand.Read` fails. -/
abbrev Fresh := Str → Option (Bytes × Nonce)

/-- One round of the loop of `rotateDue`, with what it rotated and the checkouts it revoked. -/
def rotateSecret (gcm : Gcm) (now : Time) (fresh : Fresh) (id : Str) (s : Server) :
    Option (List Str) × Server :=
  if (s.lastRotated[id]?).any fun last => now - last < s.interval then (none, s)
  else
    match fresh id with
    | none => (none, s)
    | some (password, nonce) =>
        let rotated := Vault.rotatePassword gcm nonce id password s.vault
        let s := { s with vault := rotated.2 }
        match rotated.1 with
        | .error _ => (none, s)
        | .ok _ =>
            let revoked := revokeCheckouts id s.checkouts
            (some revoked.1, { s with
              checkouts := revoked.2, lastRotated := s.lastRotated.insert id now })

/-- `rotateDue`: the secrets it rotated, each with the checkouts it revoked. -/
def rotateDue (gcm : Gcm) (now : Time) (fresh : Fresh) (s : Server) :
    List (Str × List Str) × Server :=
  if s.vault.sealed then ([], s)
  else
    s.vault.listMeta.foldl (fun done meta_ =>
      let rotated := rotateSecret gcm now fresh meta_.id done.2
      (done.1 ++ (rotated.1.map (meta_.id, ·)).toList, rotated.2)) ([], s)

end Rotation

end EraOne.Pam
