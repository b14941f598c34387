import EraOne.DrivePg
import EraOne.DriveCalls

set_option autoImplicit false

/- Concurrent calls on one object in Postgres. A call selects the row, then the access list, decides
in Go, may ask for the new name, and writes. A transaction takes effect as one statement: its
`UPDATE` keeps others from the row until it ends. -/
namespace EraOne.Drive

open Scan Runs

inductive RaceCall where
  | updateObject (tenantID : Str) (p : Principal) (patch : ObjectPatch)
  | putVersion (tenantID : Str) (p : Principal) (input : PutVersionInput) (blobKey : Str)
  deriving DecidableEq

def RaceCall.principal : RaceCall → Principal
  | .updateObject _ p _ | .putVersion _ p _ _ => p

def RaceCall.tenantID : RaceCall → Str
  | .updateObject tenantID _ _ | .putVersion tenantID _ _ _ => tenantID

/-- What a call makes of the object it has read: an error, the object as it is, or one to write. -/
def RaceCall.plan (env : Env) (obj : Object) : RaceCall → Except DriveErr (Option Object)
  | .putVersion _ p input blobKey => (planVersion env p input blobKey obj).map some
  | .updateObject _ p patch =>
      match patch.trashed with
      | none =>
          if ¬ canRead obj p then .error .forbidden else (planObject env p patch obj).map some
      | some true =>
          if ¬ canWrite obj p then .error .forbidden
          else if obj.trashedAt.isSome then .ok none
          else .ok (some { obj with
            trashRestoreFolderID := obj.folderID, trashedAt := some env.now, updatedAt := env.now })
      | some false =>
          if ¬ canWrite obj p then .error .forbidden
          else if obj.trashedAt.isNone then .ok none
          else .ok (some { obj with
            folderID := obj.trashRestoreFolderID, trashRestoreFolderID := [], trashedAt := none
            updatedAt := env.now })

/-- The call asks whether another object has the name. -/
def RaceCall.asksName (read next : Object) : RaceCall → Bool
  | .putVersion _ _ _ _ => false
  | .updateObject _ _ patch =>
      match patch.trashed with
      | none => next.name ≠ read.name ∨ next.folderID ≠ read.folderID
      | some trashed => !trashed

inductive RacePhase where
  | begun
  | readRow (row : ObjectRow)
  | asking (read next : Object)
  | ready (read next : Object)
  | returned (result : Except DriveErr Object)

structure Racing where
  call : RaceCall
  env : Env
  phase : RacePhase

/-- The row of the object, its access list, the numbers of its versions, the calls, and the users
whose lock requests have succeeded and who have not been unlocked since. -/
structure RaceState where
  row : ObjectRow
  acl : List ACLEntry
  versions : List Int32
  calls : List Racing := []
  granted : List Str := []

inductive RaceEvent where
  | begin (call : RaceCall) (env : Env)
  | selectRow (i : Nat)
  | selectACL (i : Nat)
  /-- Other objects change meanwhile, so that either answer is possible. -/
  | selectName (i : Nat) (taken : Bool)
  | write (i : Nat)

def RaceState.move (s : RaceState) (i : Nat) (phase : RacePhase) : RaceState :=
  { s with calls := s.calls.modify i fun c => { c with phase := phase } }

/-- The row, the version numbers and the granted locks after the last statement of a call. -/
def RaceState.finish (s : RaceState) (env : Env) (read next : Object) : RaceCall → RaceState
  | .putVersion _ _ _ _ =>
      { s with row := s.row.setContent next, versions := s.versions ++ [next.version] }
  | .updateObject _ p patch =>
      match patch.trashed with
      | some true =>
          { s with row := { s.row with
              trashedAt := next.trashedAt, trashRestoreFolderID := some next.trashRestoreFolderID
              updatedAt := next.updatedAt } }
      | some false =>
          { s with row := { s.row with
              folderID := next.folderID, trashedAt := none, trashRestoreFolderID := none
              updatedAt := next.updatedAt } }
      | none =>
          { s with
            row := s.row.setMeta next env.now
            granted :=
              match patch.locked with
              | none => s.granted
              | some true => p.userID :: s.granted
              | some false =>
                  if isOwner read p then [] else s.granted.filter fun user => user ≠ p.userID }

/-- The version that a put inserts is there already. -/
def RaceState.versionTaken (s : RaceState) (next : Object) : RaceCall → Bool
  | .putVersion _ _ _ _ => s.versions.contains next.version
  | .updateObject _ _ _ => false

def raceStep (s : RaceState) : RaceEvent → RaceState
  | .begin call env => { s with calls := s.calls ++ [⟨call, env, .begun⟩] }
  | .selectRow i =>
      match s.calls[i]? with
      | some ⟨call, _, .begun⟩ =>
          match call with
          | .putVersion _ _ _ [] => s.move i (.returned (.error .invalidInput))
          | _ => s.move i (.readRow s.row)
      | _ => s
  | .selectACL i =>
      match s.calls[i]? with
      | some ⟨call, env, .readRow row⟩ =>
          let read := row.scan s.acl
          if read.tenantID ≠ call.tenantID then s.move i (.returned (.error .notFound))
          else
            match call.plan env read with
            | .error e => s.move i (.returned (.error e))
            | .ok none => s.move i (.returned (.ok read))
            | .ok (some next) =>
                if call.asksName read next then s.move i (.asking read next)
                else s.move i (.ready read next)
      | _ => s
  | .selectName i taken =>
      match s.calls[i]? with
      | some ⟨_, _, .asking read next⟩ =>
          if taken then s.move i (.returned (.error .duplicate)) else s.move i (.ready read next)
      | _ => s
  | .write i =>
      match s.calls[i]? with
      | some ⟨call, env, .ready read next⟩ =>
          if s.versionTaken next call then s.move i (.returned (.error .database))
          else (s.finish env read next call).move i (.returned (.ok next))
      | _ => s

/-- The call is a rename, a move or an upload. -/
def RaceCall.mutates : RaceCall → Bool
  | .putVersion _ _ _ _ => true
  | .updateObject _ _ patch =>
      patch.trashed.isNone && (patch.name.isSome || patch.folderID.isSome)

/-- Every user whose lock request has succeeded has the lock. -/
def LocksHeld (s : RaceState) : Prop :=
  ∀ user ∈ s.granted, s.row.lockedBy = some user ∧ trim user ≠ []

/-- No rename, move or upload of another user takes effect under a granted lock. -/
def Excluded (s : RaceState) : RaceEvent → Prop
  | .write i =>
      match s.calls[i]? with
      | some ⟨call, _, .ready _ next⟩ => call.mutates = true → s.versionTaken next call = false →
          ∀ user ∈ s.granted, user = call.principal.userID
      | _ => True
  | _ => True

def RaceCall.asksLock : RaceCall → Bool
  | .putVersion _ _ _ _ => false
  | .updateObject _ _ patch => patch.trashed.isNone && patch.locked = some true

/-- A call that writes finds the lock as it has read it, and locks are asked for by named users. -/
def Undisturbed (s : RaceState) : RaceEvent → Prop
  | .write i =>
      match s.calls[i]? with
      | some ⟨call, _, .ready read _⟩ => s.row.lockedBy.getD [] = read.lockedBy ∧
          (call.asksLock = true → trim call.principal.userID ≠ [])
      | _ => True
  | _ => True

instance (s : RaceState) (event : RaceEvent) : Decidable (Undisturbed s event) := by
  unfold Undisturbed
  split
  · split <;> infer_instance
  · infer_instance

/-- What a call is about to write is what it decided on what it has read. -/
def Decided (s : RaceState) : Prop :=
  ∀ racing ∈ s.calls, ∀ read next,
    racing.phase = .asking read next ∨ racing.phase = .ready read next →
    racing.call.plan racing.env read = .ok (some next)

theorem mem_move (s : RaceState) (i : Nat) (phase : RacePhase) (racing : Racing)
    (member : racing ∈ (s.move i phase).calls) :
    racing ∈ s.calls ∨ ∃ before, s.calls[i]? = some before ∧
      racing = { before with phase := phase } := by
  obtain ⟨k, found⟩ := List.mem_iff_getElem?.mp member
  change (s.calls.modify i _)[k]? = some racing at found
  by_cases here : i = k
  · subst here
    rw [List.getElem?_modify_eq] at found
    obtain ⟨before, there, is_⟩ := Option.map_eq_some_iff.mp found
    exact Or.inr ⟨before, there, is_.symm⟩
  · rw [List.getElem?_modify_ne _ _ here] at found
    exact Or.inl (List.mem_of_getElem? found)

/-- A call that moves on to a phase in which it has decided keeps what was decided. -/
theorem decided_move (s : RaceState) (decided : Decided s) (i : Nat) (phase : RacePhase)
    (sound : ∀ before read next, s.calls[i]? = some before →
      phase = .asking read next ∨ phase = .ready read next →
      before.call.plan before.env read = .ok (some next)) :
    Decided (s.move i phase) := by
  intro racing member read next waits
  rcases mem_move s i phase racing member with old | ⟨before, there, rfl⟩
  · exact decided racing old read next waits
  · exact sound before read next there waits

theorem decided_returned (s : RaceState) (decided : Decided s) (i : Nat)
    (result : Except DriveErr Object) : Decided (s.move i (.returned result)) := by
  refine decided_move s decided i _ ?_
  intro _ _ _ _ waits
  rcases waits with waits | waits <;> cases waits

theorem decided_step (s : RaceState) (event : RaceEvent) (decided : Decided s) :
    Decided (raceStep s event) := by
  cases event with
  | begin call env =>
      intro racing member read next waits
      rcases List.mem_append.mp member with old | new
      · exact decided racing old read next waits
      · rw [List.mem_singleton] at new
        subst new
        rcases waits with waits | waits <;> cases waits
  | selectRow i =>
      unfold raceStep
      dsimp only
      split
      · split
        · exact decided_returned s decided i _
        · refine decided_move s decided i _ ?_
          intro _ _ _ _ waits
          rcases waits with waits | waits <;> cases waits
      · exact decided
  | selectACL i =>
      unfold raceStep
      dsimp only
      split
      · rename_i call env row here
        split
        · exact decided_returned s decided i _
        · split
          · exact decided_returned s decided i _
          · exact decided_returned s decided i _
          · rename_i next planned
            have sound (phase : RacePhase)
                (only : phase = .asking (row.scan s.acl) next ∨
                  phase = .ready (row.scan s.acl) next) :
                Decided (s.move i phase) := by
              refine decided_move s decided i phase ?_
              intro before read after there waits
              rw [here, Option.some.injEq] at there
              subst there
              rcases only with rfl | rfl
              · rcases waits with waits | waits
                · cases waits
                  exact planned
                · cases waits
              · rcases waits with waits | waits
                · cases waits
                · cases waits
                  exact planned
            split
            · exact sound _ (Or.inl rfl)
            · exact sound _ (Or.inr rfl)
      · exact decided
  | selectName i taken =>
      unfold raceStep
      dsimp only
      split
      · rename_i call env read next here
        split
        · exact decided_returned s decided i _
        · refine decided_move s decided i _ ?_
          intro before read' next' there waits
          rw [here, Option.some.injEq] at there
          subst there
          rcases waits with waits | waits
          · cases waits
          · cases waits
            exact decided _ (List.mem_of_getElem? here) read next (Or.inl rfl)
      · exact decided
  | write i =>
      unfold raceStep
      dsimp only
      split
      · rename_i call env read next here
        split
        · exact decided_returned s decided i _
        · refine decided_returned _ ?_ i _
          have same : (s.finish env read next call).calls = s.calls := by
            unfold RaceState.finish
            split
            · rfl
            · split <;> rfl
          unfold Decided
          rw [same]
          exact decided
      · exact decided

theorem planVersion_mutable (env : Env) (p : Principal) (input : PutVersionInput) (blobKey : Str)
    (read next : Object) (planned : planVersion env p input blobKey read = .ok next) :
    canMutateWhileLocked read p = true := by
  obtain ⟨⟨⟩, -, rest⟩ := (bind_eq_ok _ _ _).mp planned
  obtain ⟨⟨⟩, may, -⟩ := (bind_eq_ok _ _ _).mp rest
  exact not_not.mp ((refuse_eq_ok _ _ _).mp may)

/-- A plan changes name and place only for one who may, and the lock as `patchLock` does. -/
theorem planObject_spec (env : Env) (p : Principal) (patch : ObjectPatch) (read next : Object)
    (planned : planObject env p patch read = .ok next) :
    (patch.name.isSome = true ∨ patch.folderID.isSome = true → canMutateWhileLocked read p = true) ∧
    ∃ locked, patchLock read p env.now patch.locked = .ok locked ∧
      next.lockedBy = locked.lockedBy := by
  obtain ⟨⟨⟩, -, rest⟩ := (bind_eq_ok _ _ _).mp planned
  obtain ⟨⟨⟩, may, rest⟩ := (bind_eq_ok _ _ _).mp rest
  obtain ⟨locked, lock, rest⟩ := (bind_eq_ok _ _ _).mp rest
  obtain ⟨name, -, rest⟩ := (bind_eq_ok _ _ _).mp rest
  cases rest
  refine ⟨?_, locked, lock, rfl⟩
  intro touched
  by_contra blocked
  exact (refuse_eq_ok _ _ _).mp may ⟨touched, blocked⟩

/-- Under a granted lock that the call has read, only its holder may change the object. -/
theorem holder_of_mutable (s : RaceState) (held : LocksHeld s) (read : Object) (p : Principal)
    (fresh : s.row.lockedBy.getD [] = read.lockedBy) (may : canMutateWhileLocked read p = true)
    (user : Str) (granted : user ∈ s.granted) : user = p.userID := by
  obtain ⟨locked, named⟩ := held user granted
  rw [locked, Option.getD_some] at fresh
  unfold canMutateWhileLocked isLocker isLocked at may
  rw [← fresh] at may
  have both : p.userID ≠ [] ∧ user = p.userID := by simpa [named] using may
  exact both.2

/-- A write that meets the lock it has read is excluded or keeps every granted lock. -/
theorem excluded_of_undisturbed (s : RaceState) (event : RaceEvent) (held : LocksHeld s)
    (decided : Decided s) (undisturbed : Undisturbed s event) : Excluded s event := by
  unfold Excluded
  split
  case h_2 => trivial
  rename_i i
  split
  case h_2 => trivial
  rename_i call env read next here
  intro mutates _ user granted
  unfold Undisturbed at undisturbed
  dsimp only at undisturbed
  rw [here] at undisturbed
  obtain ⟨fresh, -⟩ := undisturbed
  have planned := decided _ (List.mem_of_getElem? here) read next (Or.inr rfl)
  dsimp only at planned
  refine holder_of_mutable s held read call.principal fresh ?_ user granted
  cases call with
  | putVersion tenantID p input blobKey =>
      unfold RaceCall.plan at planned
      dsimp only at planned
      cases done : planVersion env p input blobKey read with
      | error e =>
          rw [done] at planned
          cases planned
      | ok after => exact planVersion_mutable env p input blobKey read after done
  | updateObject tenantID p patch =>
      unfold RaceCall.mutates at mutates
      rw [Bool.and_eq_true, Bool.or_eq_true, Option.isNone_iff_eq_none] at mutates
      unfold RaceCall.plan at planned
      dsimp only at planned
      rw [mutates.1] at planned
      dsimp only at planned
      split at planned
      · cases planned
      · cases done : planObject env p patch read with
        | error e =>
            rw [done] at planned
            cases planned
        | ok after => exact (planObject_spec env p patch read after done).1 mutates.2

theorem held_meta (s : RaceState) (env : Env) (read next : Object) (tenantID : Str) (p : Principal)
    (patch : ObjectPatch) (held : LocksHeld s) (fresh : s.row.lockedBy.getD [] = read.lockedBy)
    (named : patch.locked = some true → trim p.userID ≠ []) (plain : patch.trashed = none)
    (planned : planObject env p patch read = .ok next) :
    LocksHeld (s.finish env read next (.updateObject tenantID p patch)) := by
  obtain ⟨-, locked, lock, same⟩ := planObject_spec env p patch read next planned
  obtain ⟨-, outcome⟩ := patchLock_spec read locked p env.now patch.locked lock
  -- Every granted user is the one that the call has read as the holder.
  have holder (user : Str) (granted : user ∈ s.granted) :
      user = read.lockedBy ∧ trim user ≠ [] := by
    obtain ⟨is_, named⟩ := held user granted
    rw [is_, Option.getD_some] at fresh
    exact ⟨fresh, named⟩
  have written (user : Str) (is_ : next.lockedBy = user) (name : trim user ≠ []) :
      (s.row.setMeta next env.now).lockedBy = some user ∧ trim user ≠ [] := by
    refine ⟨?_, name⟩
    unfold ObjectRow.setMeta
    dsimp only
    rw [if_pos, is_]
    rw [is_]
    rintro rfl
    exact name rfl
  unfold RaceState.finish
  dsimp only
  rw [plain]
  dsimp only
  intro user granted
  dsimp only at granted ⊢
  rcases outcome with ⟨idle, kept⟩ | ⟨asks, may, taken, -⟩ | ⟨asks, may, freed, -⟩
  · rw [idle] at granted
    obtain ⟨is_, name⟩ := holder user granted
    exact written user (by rw [same, kept, is_]) name
  · rw [asks] at granted
    have name := named asks
    rcases List.mem_cons.mp granted with rfl | old
    · exact written _ (by rw [same, taken]) name
    · have is_ := holder_of_mutable s held read p fresh may user old
      exact written user (by rw [same, taken, is_]) (by rw [is_]; exact name)
  · rw [asks] at granted
    dsimp only at granted
    split at granted
    · cases granted
    · rename_i notOwner
      rw [List.mem_filter] at granted
      obtain ⟨old, other⟩ := granted
      obtain ⟨is_, name⟩ := holder user old
      have locked : isLocked read = true := by
        unfold isLocked
        rw [← is_]
        simpa using name
      have can := may locked
      unfold canUnlock at can
      rw [Bool.or_eq_true] at can
      rcases can with locker | owner
      · unfold isLocker at locker
        simp only [decide_eq_true_eq] at locker other
        exact absurd (is_.trans locker.2.2) other
      · exact absurd owner notOwner

theorem held_step (s : RaceState) (event : RaceEvent) (held : LocksHeld s) (decided : Decided s)
    (undisturbed : Undisturbed s event) : LocksHeld (raceStep s event) := by
  cases event with
  | begin call env => exact held
  | selectRow i =>
      unfold raceStep
      dsimp only
      split
      · split
        · exact held
        · exact held
      · exact held
  | selectACL i =>
      unfold raceStep
      dsimp only
      split
      · split
        · exact held
        · split
          · exact held
          · exact held
          · split
            · exact held
            · exact held
      · exact held
  | selectName i taken =>
      unfold raceStep
      dsimp only
      split
      · split
        · exact held
        · exact held
      · exact held
  | write i =>
      unfold raceStep
      dsimp only
      split
      · rename_i call env read next here
        split
        · exact held
        · unfold Undisturbed at undisturbed
          dsimp only at undisturbed
          rw [here] at undisturbed
          obtain ⟨fresh, named⟩ := undisturbed
          have planned := decided _ (List.mem_of_getElem? here) read next (Or.inr rfl)
          dsimp only at planned
          change LocksHeld (s.finish env read next call)
          cases call with
          | putVersion tenantID p input blobKey => exact held
          | updateObject tenantID p patch =>
              cases trashed : patch.trashed with
              | some flag =>
                  unfold RaceState.finish
                  dsimp only
                  rw [trashed]
                  cases flag with
                  | true => exact held
                  | false => exact held
              | none =>
                  unfold RaceCall.plan at planned
                  dsimp only at planned
                  rw [trashed] at planned
                  dsimp only at planned
                  split at planned
                  · cases planned
                  · cases done : planObject env p patch read with
                    | error e =>
                        rw [done] at planned
                        cases planned
                    | ok after =>
                        rw [done] at planned
                        cases planned
                        refine held_meta s env read _ tenantID p patch held fresh ?_ trashed done
                        intro asks
                        exact named (by simp [RaceCall.asksLock, trashed, asks])
      · exact held

/-- In every interleaving in which each call that writes finds the lock as it has read it, granted
locks stay, and no rename, move or upload of another user takes effect under one. -/
theorem granted_locks_kept (start : RaceState) (events : List RaceEvent) (idle : start.calls = [])
    (free : start.granted = []) (undisturbed : Guarded raceStep Undisturbed start events) :
    Always raceStep LocksHeld start events ∧ Guarded raceStep Excluded start events := by
  have first : LocksHeld start ∧ Decided start := by
    constructor
    · intro user granted
      rw [free] at granted
      cases granted
    · intro racing member
      rw [idle] at member
      cases member
  have always := always_of_guarded raceStep (fun s => LocksHeld s ∧ Decided s) Undisturbed
    (fun s event holds allowed => ⟨held_step s event holds.1 holds.2 allowed,
      decided_step s event holds.2⟩) start events first undisturbed
  constructor
  · intro front within
    exact (always front within).1
  · intro front event within
    have before := always front ((List.prefix_append _ _).trans within)
    exact excluded_of_undisturbed _ event before.1 before.2 (undisturbed front event within)

/-- An object of one user that another may write, and requests to lock and to rename it. -/
def racedObject : RaceState where
  row := { id := "o1".toList, tenantID := "t1".toList, folderID := [], name := "a.txt".toList
           sizeBytes := 0, contentType := [], contentFormat := 1, version := 1
           blobKey := "k".toList, ownerUserID := "owner".toList, updatedAt := 0 }
  acl := [⟨"user:owner".toList, ACLRole.owner⟩, ⟨"user:writer".toList, ACLRole.write⟩]
  versions := [1]

def lockCall (user : String) : RaceCall :=
  .updateObject "t1".toList (userOf user) { locked := some true }

def renameCall (user : String) : RaceCall :=
  .updateObject "t1".toList (userOf user) { name := some "b.txt".toList }

theorem granted_locks_kept_late :
    Always raceStep LocksHeld racedObject
        [.begin (lockCall "writer") (envOf "-"), .selectRow 0, .selectACL 0, .write 0,
          .begin (renameCall "owner") (envOf "-"), .selectRow 1, .selectACL 1, .write 1] ∧
      Guarded raceStep Excluded racedObject
        [.begin (lockCall "writer") (envOf "-"), .selectRow 0, .selectACL 0, .write 0,
          .begin (renameCall "owner") (envOf "-"), .selectRow 1, .selectACL 1, .write 1] := by
  apply granted_locks_kept racedObject _ rfl rfl
  simp only [guarded_cons]
  exact ⟨trivial, trivial, trivial, by decide, trivial, trivial, trivial, by decide,
    guarded_nil _ _ _⟩

/-- The owner's rename reads the row before the lock and takes it away. -/
theorem granted_lock_lost :
    ¬ ∀ (start : RaceState) (events : List RaceEvent), start.calls = [] → start.granted = [] →
      Always raceStep LocksHeld start events ∧ Guarded raceStep Excluded start events := by
  intro all
  have last := (all racedObject
    [.begin (lockCall "writer") (envOf "-"), .begin (renameCall "owner") (envOf "-"), .selectRow 0,
      .selectACL 0, .selectRow 1, .selectACL 1, .selectName 1 false, .write 0, .write 1]
    rfl rfl).1.last
  have locked := (last "writer".toList (by decide)).1
  revert locked
  decide

end EraOne.Drive
