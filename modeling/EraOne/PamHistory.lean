import EraOne.PamServer
import EraOne.Runs

set_option autoImplicit false

/- Runs of the server with what happened to each checkout, and the moves that every request is made
of: a checkout is created, its status turns, or a password is rotated. -/
namespace EraOne.Pam

open Runs

section Runs

/-- What is noted of a run: a checkout was created, decided on, revoked, or released a password, and
the password of a secret was rotated. -/
inductive Entry where
  | created (id secretID : Str) (expiresAt : Time)
  | approved (id : Str)
  | denied (id : Str)
  | revoked (id : Str)
  | released (id : Str) (time : Time)
  | rotated (secretID : Str)
  deriving DecidableEq

def Entry.about : Entry → Option Str
  | .created id _ _ | .approved id | .denied id | .revoked id | .released id _ => some id
  | .rotated _ => none

structure PamRun where
  server : Server
  history : List Entry := []

/-- A request with its readings, or a call of the store or the scheduler. -/
inductive PamEvent where
  | unsealVault (shares : List Bytes)
  | sealVault (h : Headers)
  | putSecret (tenantID name target username : Str) (password : Bytes)
  | deleteSecret (id : Str)
  | rotate (id : Str) (password : Bytes)
  | checkout (h : Headers) (secretID tenantID : Str) (ttlMinutes : Int)
  | approve (h : Headers) (id : Str)
  | reveal (id : Str)
  | sshStart (h : Headers) (checkoutID host : Str)
  | rdpStart (h : Headers) (checkoutID host : Str)
  | deny (id approver : Str)
  | revoke (id : Str)
  | rotateDue (fresh : Fresh)

/-- What a pass of the scheduler notes. -/
def noteRotated (done : List (Str × List Str)) : List Entry :=
  done.flatMap fun rotated => .rotated rotated.1 :: rotated.2.map .revoked

def noteCheckout : Except HttpError Request → List Entry
  | .ok r =>
      .created r.id r.secretID r.expiresAt :: if r.status = .approved then [.approved r.id] else []
  | .error _ => []

def noteStart (checkoutID : Str) (now : Time) : Except HttpError (Option Inject) → List Entry
  | .ok (some _) => [.released checkoutID now]
  | _ => []

variable (cfg : Config)

/-- What an event notes, and the server after it. -/
def handle (env : Readings) (s : Server) : PamEvent → List Entry × Server
  | .unsealVault shares => ([], (handleUnseal cfg env shares s).2)
  | .sealVault h => ([], (handleSeal cfg h s).2)
  | .putSecret tenantID name target username password =>
      ([], (handleSecrets cfg env tenantID name target username password s).2)
  | .deleteSecret id => ([], (handleDelete cfg id s).2)
  | .rotate id password =>
      let handled := handleRotate cfg env id password s
      (if handled.1.isOk then [.rotated id] else [], handled.2)
  | .checkout h secretID tenantID ttlMinutes =>
      let handled := handleCheckout cfg env h secretID tenantID ttlMinutes s
      (noteCheckout handled.1, handled.2)
  | .approve h id =>
      let handled := handleApprove cfg h id s
      (if handled.1.isOk then [.approved id] else [], handled.2)
  | .reveal id =>
      let handled := handleReveal cfg env id s
      (if handled.1.isOk then [.released id env.now] else [], handled.2)
  | .sshStart h checkoutID host => ([], (handleSSHStart cfg env h checkoutID host s).2)
  | .rdpStart h checkoutID host =>
      let handled := handleRDPStart cfg env h checkoutID host s
      (noteStart checkoutID env.now handled.1, handled.2)
  | .deny id approver =>
      let denied := s.checkouts.deny id approver
      (if denied.1.isSome then [.denied id] else [], { s with checkouts := denied.2 })
  | .revoke id =>
      let revoked := s.checkouts.revoke id
      (if revoked.1 then [.revoked id] else [], { s with checkouts := revoked.2 })
  | .rotateDue fresh =>
      let done := rotateDue cfg.gcm env.now fresh s
      (noteRotated done.1, done.2)

def pamStep (s : PamRun) (event : Readings × PamEvent) : PamRun :=
  let handled := handle cfg event.1 s.server event.2
  ⟨handled.2, s.history ++ handled.1⟩

/-- A new uuid is not the id of a checkout. -/
def FreshID (s : PamRun) (event : Readings × PamEvent) : Prop :=
  match event.2 with
  | .checkout _ _ _ _ => s.server.checkouts[event.1.id]? = none
  | _ => True

end Runs

section Moves

/-- The checkouts with their history. -/
structure Book where
  items : Checkouts
  history : List Entry

/-- How the status of a checkout turns, with what is noted of it. -/
inductive Turn (id : Str) (expiresAt : Time) : Status → Status → List Entry → Prop
  | approve : Turn id expiresAt .pending .approved [.approved id]
  | deny : Turn id expiresAt .pending .denied [.denied id]
  | revoke (status : Status) : Turn id expiresAt status .revoked [.revoked id]
  | expire : Turn id expiresAt .approved .expired []
  | consume : Turn id expiresAt .approved .consumed []
  | release (time : Time) (spent : Status) (inTime : time ≤ expiresAt)
      (used : spent = .consumed ∨ spent = .expired) :
      Turn id expiresAt .approved spent [.released id time]

/-- One move; with `cut`, a rotation leaves no checkout of its secret open. -/
inductive Move (cut : Prop) : Book → Book → Prop
  | create (b : Book) (r : Request) (fresh : b.items[r.id]? = none)
      (begins : r.status = .pending ∨ r.status = .approved) :
      Move cut b ⟨b.items.insert r.id r, b.history ++
        (.created r.id r.secretID r.expiresAt :: if r.status = .approved then [.approved r.id]
          else [])⟩
  | turn (b : Book) (id : Str) (r next : Request) (entries : List Entry)
      (found : b.items[id]? = some r)
      (same : next.id = r.id ∧ next.secretID = r.secretID ∧ next.expiresAt = r.expiresAt)
      (turns : Turn id r.expiresAt r.status next.status entries) :
      Move cut b ⟨b.items.insert id next, b.history ++ entries⟩
  | rotate (b : Book) (secretID : Str)
      (closed : cut → ∀ (id : Str) (r : Request), b.items[id]? = some r → ¬ revocable secretID r) :
      Move cut b ⟨b.items, b.history ++ [.rotated secretID]⟩
  | rotateRevoke (b : Book) (secretID : Str) :
      Move cut b ⟨(revokeCheckouts secretID b.items).2, b.history ++
        (.rotated secretID :: (revokeCheckouts secretID b.items).1.map .revoked)⟩

abbrev Moves (cut : Prop) : Book → Book → Prop := Relation.ReflTransGen (Move cut)

def PamRun.book (s : PamRun) : Book := ⟨s.server.checkouts, s.history⟩

/-- No request to start a session names a consumed checkout, and with `cut` no password is rotated
by request while a checkout of its secret is open. -/
def Orderly (cut : Prop) (s : PamRun) (event : Readings × PamEvent) : Prop :=
  match event.2 with
  | .rdpStart _ checkoutID _ => ∀ r, s.server.checkouts[checkoutID]? = some r → r.status ≠ .consumed
  | .rotate secretID _ =>
      cut → ∀ (id : Str) (r : Request), s.server.checkouts[id]? = some r → ¬ revocable secretID r
  | _ => True

theorem moves_refl (cut : Prop) (b : Book) : Moves cut b ⟨b.items, b.history ++ []⟩ := by
  rw [List.append_nil]

section Store

variable (cut : Prop) (items : Checkouts) (history : List Entry)

theorem moves_turn (id : Str) (r next : Request) (entries : List Entry)
    (found : items[id]? = some r) (same : next.id = r.id ∧ next.secretID = r.secretID ∧
      next.expiresAt = r.expiresAt)
    (turns : Turn id r.expiresAt r.status next.status entries) :
    Moves cut ⟨items, history⟩ ⟨items.insert id next, history ++ entries⟩ :=
  Relation.ReflTransGen.single (.turn ⟨items, history⟩ id r next entries found same turns)

theorem moves_setStatus (id : Str) (r : Request) (status : Status) (entries : List Entry)
    (found : items[id]? = some r) (turns : Turn id r.expiresAt r.status status entries) :
    Moves cut ⟨items, history⟩ ⟨items.setStatus id r status, history ++ entries⟩ :=
  moves_turn cut items history id r { r with status := status } entries found ⟨rfl, rfl, rfl⟩ turns

theorem moves_get (now : Time) (id : Str) :
    Moves cut ⟨items, history⟩ ⟨(items.get now id).2, history ++ []⟩ := by
  rw [Checkouts.get]
  split
  · exact moves_refl cut _
  · rename_i r found
    split
    · rename_i late
      apply moves_setStatus cut items history id r .expired [] found
      rw [late.1]
      exact .expire
    · exact moves_refl cut _

theorem moves_decide (status : Status) (id approver : Str) (entry : Entry)
    (turns : ∀ expiresAt, Turn id expiresAt .pending status [entry]) (result : Option Request)
    (after : Checkouts) (returned : items.decide_ status id approver = (result, after)) :
    Moves cut ⟨items, history⟩ ⟨after, history ++ if result.isSome then [entry] else []⟩ := by
  rw [Checkouts.decide_] at returned
  split at returned
  · cases returned
    exact moves_refl cut _
  · rename_i r found
    split at returned
    · cases returned
      exact moves_refl cut _
    · rename_i pending
      cases returned
      apply moves_turn cut items history id r _ [entry] found
      · exact ⟨rfl, rfl, rfl⟩
      · rw [not_not.mp pending]
        exact turns r.expiresAt

theorem moves_revoke (id : Str) (result : Bool) (after : Checkouts)
    (returned : items.revoke id = (result, after)) :
    Moves cut ⟨items, history⟩ ⟨after, history ++ if result then [.revoked id] else []⟩ := by
  rw [Checkouts.revoke] at returned
  split at returned
  · cases returned
    exact moves_refl cut _
  · rename_i r found
    cases returned
    exact moves_setStatus cut items history id r .revoked _ found (.revoke r.status)

theorem create_cases (id : Str) (now : Time) (tenantID secretID requester : Str) (ttlMinutes : Int)
    (autoApprove : Bool) (result : Option Request) (after : Checkouts)
    (returned : items.create id now tenantID secretID requester ttlMinutes autoApprove =
      (result, after)) :
    result = none ∨ ∃ r, result = some r ∧ r.id = id ∧
      (r.status = .pending ∨ r.status = .approved) ∧
      after = items.insert r.id r := by
  rw [Checkouts.create] at returned
  split at returned
  · cases returned
    exact Or.inl rfl
  · cases returned
    refine Or.inr ⟨_, rfl, rfl, ?_, rfl⟩
    cases autoApprove
    · exact Or.inl rfl
    · exact Or.inr rfl

/-- `Consume` of a checkout that is not given out, and of one that is. -/
theorem consume_cases (now : Time) (id : Str) :
    ((items.consume now id).1 = none ∧
      Moves cut ⟨items, history⟩ ⟨(items.consume now id).2, history ++ []⟩) ∨
    ∃ r, items[id]? = some r ∧ r.status = .approved ∧ now ≤ r.expiresAt ∧
      items.consume now id = (some { r with status := .consumed },
        items.setStatus id r .consumed) := by
  rw [Checkouts.consume]
  split
  · exact Or.inl ⟨rfl, moves_refl cut _⟩
  · rename_i r found
    by_cases approved : r.status = .approved
    · rw [if_neg (not_not.mpr approved)]
      by_cases late : now > r.expiresAt
      · rw [if_pos late]
        refine Or.inl ⟨rfl, moves_setStatus cut items history id r .expired [] found ?_⟩
        rw [approved]
        exact .expire
      · rw [if_neg late]
        exact Or.inr ⟨r, found, approved, Int.not_lt.mp late, rfl⟩
    · rw [if_pos approved]
      exact Or.inl ⟨rfl, moves_refl cut _⟩

/-- `Consume` of an approved checkout spends it, in time or not. -/
theorem consume_of_approved (now : Time) (id : Str) (r : Request) (found : items[id]? = some r)
    (approved : r.status = .approved) :
    ∃ spent, (spent = .consumed ∨ spent = .expired) ∧
      (items.consume now id).2 = items.setStatus id r spent := by
  rw [Checkouts.consume, found]
  dsimp only
  rw [if_neg (not_not.mpr approved)]
  split
  · exact ⟨.expired, Or.inr rfl, rfl⟩
  · exact ⟨.consumed, Or.inl rfl, rfl⟩

end Store

section Handlers

variable (cfg : Config) (env : Readings) (cut : Prop) (s after : Server) (history : List Entry)

theorem moves_reveal (id : Str) (result : Except HttpError (Str × Bytes))
    (returned : handleReveal cfg env id s = (result, after)) :
    Moves cut ⟨s.checkouts, history⟩
      ⟨after.checkouts, history ++ if result.isOk then [.released id env.now] else []⟩ := by
  rw [handleReveal] at returned
  split at returned
  · cases returned
    exact moves_refl cut _
  · dsimp only at returned
    rcases consume_cases cut s.checkouts history env.now id with
      ⟨refused, moves⟩ | ⟨r, found, approved, inTime, given⟩
    · rw [refused] at returned
      cases returned
      exact moves
    · rw [given] at returned
      dsimp only at returned
      split at returned
      · cases returned
        apply moves_setStatus cut s.checkouts history id r .consumed [] found
        rw [approved]
        exact .consume
      · cases returned
        apply moves_setStatus cut s.checkouts history id r .consumed [.released id env.now] found
        rw [approved]
        exact .release env.now .consumed inTime (Or.inl rfl)

theorem moves_startCheckout (checkoutID : Str) :
    Moves cut ⟨s.checkouts, history⟩
      ⟨(startCheckout env checkoutID s).2.checkouts, history ++ []⟩ := by
  rw [startCheckout]
  split
  · exact moves_refl cut _
  · have moves := moves_get cut s.checkouts history env.now checkoutID
    dsimp only
    split
    · exact moves
    · split <;> exact moves

/-- The checkout that a session is started with is consumed already, or approved and in time. -/
theorem startCheckout_ok (checkoutID : Str) (r : Request)
    (started : (startCheckout env checkoutID s).1 = .ok (some r)) :
    s.checkouts[checkoutID]? = some r ∧ (startCheckout env checkoutID s).2 = s ∧
      (r.status = .consumed ∨ r.status = .approved ∧ env.now ≤ r.expiresAt) := by
  rw [startCheckout] at started ⊢
  by_cases unnamed : checkoutID = []
  · rw [if_pos unnamed] at started
    cases started
  · rw [if_neg unnamed] at started ⊢
    cases found : s.checkouts[checkoutID]? with
    | none =>
        rw [Checkouts.get, found] at started
        cases started
    | some kept =>
        rw [Checkouts.get, found] at started ⊢
        dsimp only at started ⊢
        by_cases late : kept.status = .approved ∧ env.now > kept.expiresAt
        · rw [if_pos late] at started
          dsimp only at started
          rw [if_pos (by decide)] at started
          cases started
        · rw [if_neg late] at started ⊢
          dsimp only at started ⊢
          by_cases other : kept.status ≠ .approved ∧ kept.status ≠ .consumed
          · rw [if_pos other] at started
            cases started
          · rw [if_neg other] at started ⊢
            obtain rfl : kept = r := by
              injection started with inner
              injection inner
            refine ⟨rfl, rfl, ?_⟩
            by_cases spent : kept.status = .consumed
            · exact Or.inl spent
            · have approved : kept.status = .approved := by
                by_contra different
                exact other ⟨different, spent⟩
              exact Or.inr ⟨approved, Int.not_lt.mp fun after => late ⟨approved, after⟩⟩

/-- An inject is made only with a checkout that is then consumed, if it still can be. -/
theorem injectCredential_checkouts (checkoutID user : Str) (r : Request) (result : Option Inject)
    (returned : injectCredential cfg env checkoutID user r s = (result, after)) :
    after.checkouts =
      if result.isSome then (s.checkouts.consume env.later checkoutID).2 else s.checkouts := by
  rw [injectCredential] at returned
  dsimp only at returned
  split at returned
  · cases returned
    rfl
  · split at returned
    · cases returned
      rfl
    · cases returned
      rfl

theorem moves_rdpStart (h : Headers) (checkoutID host : Str)
    (unused : ∀ r, s.checkouts[checkoutID]? = some r → r.status ≠ .consumed)
    (result : Except HttpError (Option Inject))
    (returned : handleRDPStart cfg env h checkoutID host s = (result, after)) :
    Moves cut ⟨s.checkouts, history⟩
      ⟨after.checkouts, history ++ noteStart checkoutID env.now result⟩ := by
  have moves := moves_startCheckout env cut s history checkoutID
  rw [handleRDPStart] at returned
  split at returned
  · cases returned
    exact moves_refl cut _
  · split at returned
    · cases returned
      exact moves_refl cut _
    · dsimp only at returned
      split at returned
      · cases returned
        exact moves
      · cases returned
        exact moves
      · rename_i r started
        obtain ⟨found, kept, allowed⟩ := startCheckout_ok env s checkoutID r started
        have good := allowed.resolve_left (unused r found)
        rw [kept] at returned
        generalize made : injectCredential cfg env checkoutID
          (startUser h (some r) s) r s = injected
          at returned
        have checkouts :=
          injectCredential_checkouts cfg env s injected.2 checkoutID _ r injected.1 made
        cases returned
        rw [checkouts]
        cases injected.1 with
        | none => exact moves_refl cut _
        | some inj =>
            obtain ⟨spent, used, consumed⟩ :=
              consume_of_approved s.checkouts env.later checkoutID r found good.1
            rw [Option.isSome_some, if_pos rfl, consumed]
            apply moves_setStatus cut s.checkouts history checkoutID r spent _ found
            rw [good.1]
            exact .release env.now spent good.2 used

theorem moves_checkout (h : Headers) (secretID tenantID : Str) (ttlMinutes : Int)
    (fresh : s.checkouts[env.id]? = none) (result : Except HttpError Request)
    (returned : handleCheckout cfg env h secretID tenantID ttlMinutes s = (result, after)) :
    Moves cut ⟨s.checkouts, history⟩ ⟨after.checkouts, history ++ noteCheckout result⟩ := by
  rw [handleCheckout] at returned
  split at returned
  · cases returned
    exact moves_refl cut _
  · split at returned
    · cases returned
      exact moves_refl cut _
    · split at returned
      · cases returned
        exact moves_refl cut _
      · rename_i auto _
        generalize made : s.checkouts.create env.id env.now tenantID secretID h.actorName ttlMinutes
          auto =
            created at returned
        rcases create_cases s.checkouts _ _ _ _ _ _ _ created.1 created.2 made with
          refused | ⟨r, given, named, begins, stored⟩
        · dsimp only at returned
          rw [refused] at returned
          cases returned
          exact moves_refl cut _
        · dsimp only at returned
          rw [given] at returned
          cases returned
          rw [stored]
          apply Relation.ReflTransGen.single
          apply Move.create ⟨s.checkouts, history⟩ r _ begins
          rw [named]
          exact fresh

theorem moves_approve (h : Headers) (id : Str) (result : Except HttpError Request)
    (returned : handleApprove cfg h id s = (result, after)) :
    Moves cut ⟨s.checkouts, history⟩
      ⟨after.checkouts, history ++ if result.isOk then [.approved id] else []⟩ := by
  rw [handleApprove] at returned
  split at returned
  · cases returned
    exact moves_refl cut _
  · split at returned
    · cases returned
      exact moves_refl cut _
    · generalize made : s.checkouts.approve id h.actorName = approved at returned
      have moves := moves_decide cut s.checkouts history .approved id h.actorName (.approved id)
        (fun _ => .approve) approved.1 approved.2 made
      dsimp only at returned
      cases given : approved.1 with
      | none =>
          rw [given] at returned
          cases returned
          exact moves_refl cut _
      | some r =>
          rw [given] at returned moves
          cases returned
          exact moves

theorem moves_sshStart (h : Headers) (checkoutID host : Str) :
    Moves cut ⟨s.checkouts, history⟩
      ⟨(handleSSHStart cfg env h checkoutID host s).2.checkouts, history ++ []⟩ := by
  have moves := moves_startCheckout env cut s history checkoutID
  rw [handleSSHStart]
  split
  · exact moves_refl cut _
  · split
    · exact moves_refl cut _
    · dsimp only
      split
      · exact moves
      · exact moves

theorem checkouts_unseal (shares : List Bytes) :
    (handleUnseal cfg env shares s).2.checkouts = s.checkouts := by
  rw [handleUnseal]
  split
  · rfl
  · split
    · rfl
    · split
      · rfl
      · split <;> rfl

theorem checkouts_seal (h : Headers) : (handleSeal cfg h s).2.checkouts = s.checkouts := by
  rw [handleSeal]
  split
  · rfl
  · split <;> rfl

theorem checkouts_secrets (tenantID name target username : Str) (password : Bytes) :
    (handleSecrets cfg env tenantID name target username password s).2.checkouts = s.checkouts := by
  rw [handleSecrets]
  split
  · rfl
  · split
    · rfl
    · split
      · rfl
      · dsimp only
        split <;> rfl

theorem checkouts_delete (id : Str) : (handleDelete cfg id s).2.checkouts = s.checkouts := by
  rw [handleDelete]
  split
  · rfl
  · dsimp only
    split <;> rfl

theorem checkouts_rotate (id : Str) (password : Bytes) :
    (handleRotate cfg env id password s).2.checkouts = s.checkouts := by
  rw [handleRotate]
  split
  · rfl
  · split
    · rfl
    · split
      · rfl
      · dsimp only
        split <;> rfl

/-- A round of the scheduler leaves the checkouts alone, or rotates and revokes. -/
theorem rotateSecret_cases (gcm : Gcm) (now : Time) (fresh : Fresh) (id : Str)
    (result : Option (List Str)) (returned : rotateSecret gcm now fresh id s = (result, after)) :
    (result = none ∧ after.checkouts = s.checkouts) ∨
      (result = some (revokeCheckouts id s.checkouts).1 ∧
        after.checkouts = (revokeCheckouts id s.checkouts).2) := by
  rw [rotateSecret] at returned
  split at returned
  · cases returned
    exact Or.inl ⟨rfl, rfl⟩
  · split at returned
    · cases returned
      exact Or.inl ⟨rfl, rfl⟩
    · dsimp only at returned
      split at returned
      · cases returned
        exact Or.inl ⟨rfl, rfl⟩
      · cases returned
        exact Or.inr ⟨rfl, rfl⟩

theorem noteRotated_append (done : List (Str × List Str)) (id : Str) (ids : List Str) :
    noteRotated (done ++ [(id, ids)]) = noteRotated done ++ (.rotated id :: ids.map .revoked) := by
  rw [noteRotated, List.flatMap_append, List.flatMap_singleton]
  rfl

theorem moves_rotateLoop (gcm : Gcm) (now : Time) (fresh : Fresh) (metas : List SecretMeta)
    (done : List (Str × List Str) × Server) :
    let last := metas.foldl (fun done meta_ =>
      let rotated := rotateSecret gcm now fresh meta_.id done.2
      (done.1 ++ (rotated.1.map (meta_.id, ·)).toList, rotated.2)) done
    Moves cut ⟨done.2.checkouts, history ++ noteRotated done.1⟩
      ⟨last.2.checkouts, history ++ noteRotated last.1⟩ := by
  dsimp only
  induction metas generalizing done with
  | nil => exact Relation.ReflTransGen.refl
  | cons meta_ metas ih =>
      rw [List.foldl_cons]
      refine Relation.ReflTransGen.trans ?_ (ih _)
      rcases rotateSecret_cases done.2 (rotateSecret gcm now fresh meta_.id done.2).2 gcm now fresh
        meta_.id (rotateSecret gcm now fresh meta_.id done.2).1
          rfl with ⟨skipped, kept⟩ | ⟨rotated, revoked⟩
      · dsimp only
        rw [skipped, kept, Option.map_none, Option.toList_none, List.append_nil]
      · dsimp only
        rw [rotated, revoked, Option.map_some, Option.toList_some, noteRotated_append,
          ← List.append_assoc]
        exact Relation.ReflTransGen.single (.rotateRevoke ⟨_, _⟩ meta_.id)

theorem moves_rotateDue (gcm : Gcm) (now : Time) (fresh : Fresh) :
    Moves cut ⟨s.checkouts, history⟩ ⟨(rotateDue gcm now fresh s).2.checkouts,
      history ++ noteRotated (rotateDue gcm now fresh s).1⟩ := by
  rw [rotateDue]
  split
  · exact moves_refl cut _
  · have moves := moves_rotateLoop cut history gcm now fresh s.vault.listMeta ([], s)
    dsimp only at moves
    rw [noteRotated, List.flatMap_nil, List.append_nil] at moves
    exact moves

/-- Every event is a sequence of moves. -/
theorem moves_pamStep (run : PamRun) (event : Readings × PamEvent) (fresh : FreshID run event)
    (orderly : Orderly cut run event) : Moves cut run.book (pamStep cfg run event).book := by
  obtain ⟨env, event⟩ := event
  obtain ⟨server, history⟩ := run
  change Moves cut ⟨server.checkouts, history⟩
    ⟨(handle cfg env server event).2.checkouts, history ++ (handle cfg env server event).1⟩
  cases event with
  | unsealVault shares =>
      dsimp only [handle]
      rw [checkouts_unseal]
      exact moves_refl cut _
  | sealVault h =>
      dsimp only [handle]
      rw [checkouts_seal]
      exact moves_refl cut _
  | putSecret tenantID name target username password =>
      dsimp only [handle]
      rw [checkouts_secrets]
      exact moves_refl cut _
  | deleteSecret id =>
      dsimp only [handle]
      rw [checkouts_delete]
      exact moves_refl cut _
  | rotate id password =>
      dsimp only [handle]
      rw [checkouts_rotate]
      split
      · exact Relation.ReflTransGen.single (.rotate ⟨server.checkouts, history⟩ id orderly)
      · exact moves_refl cut _
  | checkout h secretID tenantID ttlMinutes =>
      exact moves_checkout cfg env cut server _ history h secretID tenantID ttlMinutes fresh _ rfl
  | approve h id => exact moves_approve cfg cut server _ history h id _ rfl
  | reveal id => exact moves_reveal cfg env cut server _ history id _ rfl
  | sshStart h checkoutID host => exact moves_sshStart cfg env cut server history h checkoutID host
  | rdpStart h checkoutID host =>
      exact moves_rdpStart cfg env cut server _ history h checkoutID host orderly _ rfl
  | deny id approver =>
      exact moves_decide cut server.checkouts history .denied id approver (.denied id)
        (fun _ => .deny) _ _ rfl
  | revoke id => exact moves_revoke cut server.checkouts history id _ _ rfl
  | rotateDue drawn => exact moves_rotateDue cut server history cfg.gcm env.now drawn

end Handlers

end Moves

end EraOne.Pam
