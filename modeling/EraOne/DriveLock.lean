import EraOne.DriveCalls

set_option autoImplicit false

/- Locks. Renaming, moving and uploading ask for the lock; trashing and restoring do not. -/
namespace EraOne.Drive

open Scan Runs

/-- The object is locked by a user. -/
def LockedFor (m : MemoryStore) (objectID user : Str) : Prop :=
  ∃ obj, m.objects[objectID]? = some obj ∧ isLocked obj = true ∧ obj.lockedBy = user

/-- An object but for its access list, its lock and the time of its last update. -/
def Object.frozen (obj : Object) : Object :=
  { obj with acl := [], lockedBy := [], lockedAt := none, updatedAt := 0 }

/-- What a lock protects: content, version, name, folder and trash state. -/
def protectedPart (m : MemoryStore) (objectID : Str) : Option (Object × Option Bytes) :=
  m.objects[objectID]?.map fun obj => (obj.frozen, m.blobs[obj.blobKey]?)

/-- The call takes the lock off as the owner of the object. -/
def OwnerUnlocks (m : MemoryStore) (env : Env) (objectID : Str) (c : Call) : Prop :=
  match c.resolve with
  | .updateObject tenantID id p patch => id = objectID ∧ patch.locked = some false ∧
      ∃ obj next, m.writable tenantID id p = .ok obj ∧ isOwner obj p = true ∧
        m.patchObject env tenantID id p patch obj = .ok next
  | _ => False

/-- A call by another user that is no unlock by the owner; the uuid of a new object is new. -/
def ByOthers (user objectID : Str) (m : MemoryStore) (input : Env × Call) : Prop :=
  (∀ p ∈ input.2.principal, p.userID ≠ user) ∧ ¬ OwnerUnlocks m input.1 objectID input.2 ∧
    (∀ content blobKey, input.2 = .createObject content blobKey → input.1.id ∉ m.objects)

/-- The call is accepted and moves the object into the trash or out of it. -/
def TrashesOrRestores (m : MemoryStore) (objectID : Str) (c : Call) : Prop :=
  match c.resolve with
  | .trashObject tenantID id p => id = objectID ∧
      ∃ obj, m.writable tenantID id p = .ok obj ∧ obj.trashedAt = none
  | .restoreObject tenantID id p => id = objectID ∧
      ∃ obj, m.writable tenantID id p = .ok obj ∧ obj.trashedAt ≠ none ∧
        m.liveObjectTaken id tenantID obj.trashRestoreFolderID obj.name = false
  | _ => False

/-- The call is accepted and stores bytes under a key. -/
def Uploads (m : MemoryStore) (env : Env) (c : Call) (key : Str) (data : Bytes) : Prop :=
  match c with
  | .createObject input blobKey =>
      (input.tenantID ≠ [] ∧ input.name ≠ [] ∧ input.ownerUserID ≠ []) ∧
        m.objectTaken input.tenantID input.folderID input.name = false ∧
        key = blobKeyOr blobKey env ∧ data = input.data
  | .putVersion tenantID objectID p input blobKey =>
      (∃ obj, m.writable tenantID objectID p = .ok obj ∧ canMutateWhileLocked obj p = true) ∧
        key = blobKeyOr blobKey env ∧ data = input.data
  | _ => False

/-- The call leaves the object out of the trash or in it, and its bytes as they are. -/
def RespectsLock (objectID : Str) (m : MemoryStore) (input : Env × Call) : Prop :=
  ¬ TrashesOrRestores m objectID input.2 ∧
    ∀ obj key data, m.objects[objectID]? = some obj → Uploads m input.1 input.2 key data →
      key = obj.blobKey → m.blobs[key]? = some data

section Steps

variable (m : MemoryStore) (env : Env) (objectID user : Str)

theorem not_locker (obj : Object) (p : Principal) (held : obj.lockedBy = user)
    (other : p.userID ≠ user) : isLocker obj p = false := by
  unfold isLocker
  rw [held]
  simp [Ne.symm other]

theorem cannot_mutate (obj : Object) (p : Principal) (locked : isLocked obj = true)
    (held : obj.lockedBy = user) (other : p.userID ≠ user) :
    canMutateWhileLocked obj p = false := by
  unfold canMutateWhileLocked
  rw [locked, not_locker user obj p held other]
  rfl

theorem objects_putObject (key : Str) (obj : Object) :
    (m.putObject key obj).objects[objectID]? =
      if key = objectID then some obj else m.objects[objectID]? := by
  unfold MemoryStore.putObject
  dsimp only
  rw [Std.ExtTreeMap.getElem?_insert]
  simp only [Std.LawfulEqCmp.compare_eq_iff_eq]

/-- A patch by another user that is no unlock by the owner touches only the time of update. -/
theorem patch_locked (tenantID : Str) (p : Principal) (patch : ObjectPatch) (obj next : Object)
    (locked : isLocked obj = true) (held : obj.lockedBy = user) (other : p.userID ≠ user)
    (notOwner : patch.locked = some false → isOwner obj p = false)
    (patched : m.patchObject env tenantID objectID p patch obj = .ok next) :
    next = { obj with updatedAt := env.now } := by
  obtain ⟨mutating, ⟨middle, lock, shape⟩, named, folder, -⟩ :=
    m.patchObject_spec env tenantID objectID p patch obj next patched
  have blocked := cannot_mutate user obj p locked held other
  obtain ⟨-, cases_⟩ := patchLock_spec obj middle p env.now patch.locked lock
  have untouched : middle = obj := by
    rcases cases_ with ⟨-, same⟩ | ⟨-, may, -⟩ | ⟨off, may, -⟩
    · exact same
    · rw [blocked] at may
      cases may
    · have unlocks := may locked
      unfold canUnlock at unlocks
      rw [not_locker user obj p held other, notOwner off] at unlocks
      cases unlocks
  have plain : patch.name = none ∧ patch.folderID = none := by
    rw [← Option.not_isSome_iff_eq_none, ← Option.not_isSome_iff_eq_none, ← not_or]
    intro touched
    rw [mutating touched] at blocked
    cases blocked
  rw [plain.1, patchName, Except.ok.injEq] at named
  rw [plain.2, Option.getD_none] at folder
  rw [shape, untouched, ← named, folder]

/-- A change of another object, or of folders, keeps the object. -/
theorem kept_of_same (next : MemoryStore) (held : LockedFor m objectID user)
    (object : next.objects[objectID]? = m.objects[objectID]?) :
    LockedFor next objectID user ∧
      (protectedPart next objectID = protectedPart m objectID ↔
        ∀ obj, m.objects[objectID]? = some obj →
          next.blobs[obj.blobKey]? = m.blobs[obj.blobKey]?) := by
  obtain ⟨obj, found, locked, by_⟩ := held
  refine ⟨⟨obj, by rw [object, found], locked, by_⟩, ?_⟩
  unfold protectedPart
  rw [object, found, Option.map_some, Option.map_some]
  simp

/-- A change of the object that leaves its lock, its key and all that is frozen keeps it. -/
theorem kept_of_frozen (obj next : Object) (found : m.objects[objectID]? = some obj)
    (locked : isLocked obj = true) (by_ : obj.lockedBy = user) (lock : next.lockedBy = obj.lockedBy)
    (frozen : next.frozen = obj.frozen) :
    LockedFor (m.putObject objectID next) objectID user ∧
      protectedPart (m.putObject objectID next) objectID = protectedPart m objectID := by
  have stored : (m.putObject objectID next).objects[objectID]? = some next := by
    rw [objects_putObject, if_pos rfl]
  refine ⟨⟨next, stored, ?_, by rw [lock, by_]⟩, ?_⟩
  · unfold isLocked at locked ⊢
    rw [lock]
    exact locked
  · have key := congrArg Object.blobKey frozen
    change next.blobKey = obj.blobKey at key
    unfold protectedPart
    rw [stored, found, Option.map_some, Option.map_some, frozen, key]
    rfl

/-- An upload to another object keeps the object, and its bytes if they are not overwritten. -/
theorem kept_of_upload (key : Str) (content : Object) (data : Bytes) (history : List Version)
    (held : LockedFor m objectID user) (other : key ≠ objectID) :
    LockedFor (m.putContent env key content data history) objectID user ∧
      (protectedPart (m.putContent env key content data history) objectID =
          protectedPart m objectID ↔
        ∀ obj, m.objects[objectID]? = some obj → content.blobKey = obj.blobKey →
          m.blobs[content.blobKey]? = some data) := by
  have object : (m.putContent env key content data history).objects[objectID]? =
      m.objects[objectID]? := by
    unfold MemoryStore.putContent
    dsimp only
    rw [Std.ExtTreeMap.getElem?_insert, if_neg]
    rw [Std.LawfulEqCmp.compare_eq_iff_eq]
    exact other
  obtain ⟨kept, same⟩ := kept_of_same m objectID user _ held object
  refine ⟨kept, same.trans ?_⟩
  refine forall₂_congr ?_
  intro obj _
  unfold MemoryStore.putContent
  dsimp only
  rw [Std.ExtTreeMap.getElem?_insert]
  simp only [Std.LawfulEqCmp.compare_eq_iff_eq]
  constructor
  · intro bytes here
    rw [if_pos here, ← here] at bytes
    exact bytes.symm
  · intro bytes
    split
    · rename_i here
      rw [← here, bytes here]
    · rfl

variable (lower : Str → Str)

/-- Trashing or restoring keeps the lock and changes the trash state. -/
theorem trashes_step (c : Call) (held : LockedFor m objectID user)
    (trashes : TrashesOrRestores m objectID c) :
    LockedFor (step lower m (env, c)) objectID user ∧
      protectedPart (step lower m (env, c)) objectID ≠ protectedPart m objectID := by
  have does := step_of_change lower m env c
  obtain ⟨obj, found, locked, by_⟩ := held
  have moved (next : Object) (lock : next.lockedBy = obj.lockedBy)
      (trash : next.trashedAt ≠ obj.trashedAt) :
      LockedFor (m.putObject objectID next) objectID user ∧
        protectedPart (m.putObject objectID next) objectID ≠ protectedPart m objectID := by
    have stored : (m.putObject objectID next).objects[objectID]? = some next := by
      rw [objects_putObject, if_pos rfl]
    refine ⟨⟨next, stored, ?_, by rw [lock, by_]⟩, ?_⟩
    · unfold isLocked at locked ⊢
      rw [lock]
      exact locked
    · unfold protectedPart
      rw [stored, found, Option.map_some, Option.map_some]
      intro same
      have frozen := (Prod.mk.inj (Option.some.inj same)).1
      have kept := congrArg Object.trashedAt frozen
      exact trash kept
  unfold TrashesOrRestores at trashes
  generalize c.resolve = r at trashes does
  cases r with
  | trashObject tenantID id p =>
      obtain ⟨rfl, obj', own, live⟩ := trashes
      have same := ((m.writable_eq_ok tenantID id p obj').mp own).1
      rw [found, Option.some.injEq] at same
      subst same
      rw [does _ (.trashObject tenantID id p obj own live)]
      exact moved _ rfl (by rw [live]; simp)
  | restoreObject tenantID id p =>
      obtain ⟨rfl, obj', own, trashed, free⟩ := trashes
      have same := ((m.writable_eq_ok tenantID id p obj').mp own).1
      rw [found, Option.some.injEq] at same
      subst same
      rw [does _ (.restoreObject tenantID id p obj own trashed free)]
      exact moved _ rfl (Ne.symm trashed)
  | _ => exact absurd trashes not_false

/-- An accepted upload is to another object. -/
theorem uploads_step (c : Call) (key : Str) (data : Bytes) (held : LockedFor m objectID user)
    (others : ByOthers user objectID m (env, c)) (uploads : Uploads m env c key data) :
    LockedFor (step lower m (env, c)) objectID user ∧
      (protectedPart (step lower m (env, c)) objectID = protectedPart m objectID ↔
        ∀ obj, m.objects[objectID]? = some obj → key = obj.blobKey →
          m.blobs[key]? = some data) := by
  have does := step_of_change lower m env c
  obtain ⟨foreign, -, fresh⟩ := others
  unfold Uploads at uploads
  obtain ⟨obj, found, locked, by_⟩ := held
  cases c with
  | createObject input blobKey =>
      obtain ⟨named, free, rfl, rfl⟩ := uploads
      rw [does _ (.createObject input blobKey named free)]
      refine kept_of_upload m env objectID user _ _ _ _ ⟨obj, found, locked, by_⟩ ?_
      intro same
      refine fresh input blobKey rfl ?_
      dsimp only
      rw [same, ← Std.ExtTreeMap.isSome_getElem?_iff_mem, found]
      rfl
  | putVersion tenantID id p input blobKey =>
      obtain ⟨⟨obj', own, may⟩, rfl, rfl⟩ := uploads
      rw [does _ (.putVersion tenantID id p input blobKey obj' own may)]
      refine kept_of_upload m env objectID user _ _ _ _ ⟨obj, found, locked, by_⟩ ?_
      intro same
      subst same
      have stored := ((m.writable_eq_ok tenantID id p obj').mp own).1
      rw [found, Option.some.injEq] at stored
      subst stored
      rw [cannot_mutate user obj p locked by_ (foreign p rfl)] at may
      cases may
  | _ => exact absurd uploads not_false

theorem uploads_unique (c : Call) (key key' : Str) (data data' : Bytes)
    (one : Uploads m env c key data) (other : Uploads m env c key' data') :
    key = key' ∧ data = data' := by
  unfold Uploads at one other
  cases c with
  | createObject input blobKey =>
      exact ⟨one.2.2.1.trans other.2.2.1.symm, one.2.2.2.trans other.2.2.2.symm⟩
  | putVersion tenantID id p input blobKey =>
      exact ⟨one.2.1.trans other.2.1.symm, one.2.2.trans other.2.2.symm⟩
  | _ => exact absurd one not_false

/-- What is neither an upload nor a move into the trash or out of it keeps the object. -/
theorem quiet_step (c : Call) (held : LockedFor m objectID user)
    (others : ByOthers user objectID m (env, c)) (still : ¬ TrashesOrRestores m objectID c)
    (silent : ∀ key data, ¬ Uploads m env c key data) :
    LockedFor (step lower m (env, c)) objectID user ∧
      protectedPart (step lower m (env, c)) objectID = protectedPart m objectID := by
  have untouched (next : MemoryStore) (objects : next.objects = m.objects)
      (blobs : next.blobs = m.blobs) : LockedFor next objectID user ∧
        protectedPart next objectID = protectedPart m objectID := by
    obtain ⟨kept, same⟩ := kept_of_same m objectID user next held (by rw [objects])
    exact ⟨kept, same.mpr fun obj _ => by rw [blobs]⟩
  have elsewhere (key : Str) (next : Object) (other : key ≠ objectID) :
      LockedFor (m.putObject key next) objectID user ∧
        protectedPart (m.putObject key next) objectID = protectedPart m objectID := by
    obtain ⟨kept, same⟩ := kept_of_same m objectID user (m.putObject key next) held
      (by rw [objects_putObject, if_neg other])
    exact ⟨kept, same.mpr fun obj _ => rfl⟩
  obtain ⟨foreign, unlocks, -⟩ := others
  obtain ⟨obj, found, locked, by_⟩ := held
  unfold step
  rcases call_change lower m env c with same | change
  · rw [same]
    exact untouched m rfl rfl
  · unfold TrashesOrRestores at still
    unfold OwnerUnlocks at unlocks
    obtain ⟨-, created, put⟩ := resolve_eq_create c
    generalize (m.call lower env c).2 = next at change ⊢
    generalize resolved : c.resolve = r at change still unlocks created put
    cases change with
    | createFolder | patchFolder | trashFolder | restoreFolder => exact untouched _ rfl rfl
    | createObject input blobKey named free =>
        rw [← created input blobKey rfl] at silent
        exact absurd ⟨named, free, rfl, rfl⟩ (silent _ _)
    | putVersion tenantID id p input blobKey obj' own may =>
        rw [← put tenantID id p input blobKey rfl] at silent
        exact absurd ⟨⟨obj', own, may⟩, rfl, rfl⟩ (silent _ _)
    | updateACL tenantID id p entries obj' own =>
        by_cases here : id = objectID
        · subst here
          have stored := ((m.writable_eq_ok tenantID id p obj').mp own).1
          rw [found, Option.some.injEq] at stored
          subst stored
          exact kept_of_frozen m id user obj _ found locked by_ rfl rfl
        · exact elsewhere id _ here
    | patchObject tenantID id p patch obj' next plain own patched =>
        by_cases here : id = objectID
        · subst here
          have stored := ((m.writable_eq_ok tenantID id p obj').mp own).1
          rw [found, Option.some.injEq] at stored
          subst stored
          have notOwner : patch.locked = some false → isOwner obj p = false := by
            intro off
            by_contra owner
            exact unlocks ⟨rfl, off, obj, next, own, by simpa using owner, patched⟩
          have other : p.userID ≠ user := foreign p (by rw [← resolve_principal, resolved]; rfl)
          have shape :=
            patch_locked m env id user tenantID p patch obj next locked by_ other notOwner
              patched
          rw [shape]
          exact kept_of_frozen m id user obj _ found locked by_ rfl rfl
        · exact elsewhere id _ here
    | trashObject tenantID id p obj' own live =>
        have here : id ≠ objectID := by
          intro same
          exact still ⟨same, obj', own, live⟩
        exact elsewhere id _ here
    | restoreObject tenantID id p obj' own trashed free =>
        have here : id ≠ objectID := by
          intro same
          exact still ⟨same, obj', own, trashed, free⟩
        exact elsewhere id _ here

theorem lock_step (c : Call) (held : LockedFor m objectID user)
    (others : ByOthers user objectID m (env, c)) :
    LockedFor (step lower m (env, c)) objectID user ∧
      (protectedPart (step lower m (env, c)) objectID = protectedPart m objectID ↔
        RespectsLock objectID m (env, c)) := by
  by_cases trashes : TrashesOrRestores m objectID c
  · obtain ⟨kept, changed⟩ := trashes_step m env objectID user lower c held trashes
    exact ⟨kept, iff_of_false changed fun respects => respects.1 trashes⟩
  by_cases uploads : ∃ key data, Uploads m env c key data
  · obtain ⟨key, data, uploads⟩ := uploads
    obtain ⟨kept, same⟩ := uploads_step m env objectID user lower c key data held others uploads
    refine ⟨kept, same.trans ?_⟩
    constructor
    · intro bytes
      refine ⟨trashes, ?_⟩
      intro obj key' data' found uploads' here
      obtain ⟨rfl, rfl⟩ := uploads_unique m env c _ _ _ _ uploads uploads'
      exact bytes obj found here
    · intro respects obj found here
      exact respects.2 obj key data found uploads here
  · have silent : ∀ key data, ¬ Uploads m env c key data := by
      intro key data uploads'
      exact uploads ⟨key, data, uploads'⟩
    obtain ⟨kept, same⟩ := quiet_step m env objectID user lower c held others trashes silent
    refine ⟨kept, iff_of_true same ⟨trashes, ?_⟩⟩
    intro obj key data _ uploads'
    exact absurd uploads' (silent key data)

end Steps

variable (lower : Str → Str)

/-- From a state in which the object is locked by a user, calls by others that are no unlock by
the owner keep what the lock protects exactly if none of them trashes or restores the object, or
stores other bytes under its key. -/
theorem lock_excludes_iff (m : MemoryStore) (objectID user : Str) (inputs : List (Env × Call))
    (held : LockedFor m objectID user)
    (others : Guarded (step lower) (ByOthers user objectID) m inputs) :
    Always (step lower) (fun next => protectedPart next objectID = protectedPart m objectID) m
        inputs ↔
      Guarded (step lower) (RespectsLock objectID) m inputs := by
  have kept : Always (step lower) (fun next => LockedFor next objectID user) m inputs := by
    refine always_of_guarded (step lower) _ (ByOthers user objectID) ?_ m inputs held others
    intro next input held allowed
    exact (lock_step next input.1 objectID user lower input.2 held allowed).1
  have both : Always (step lower) (fun next => LockedFor next objectID user ∧
      protectedPart next objectID = protectedPart m objectID) m inputs ↔
      Guarded (step lower) (RespectsLock objectID) m inputs := by
    refine always_iff_guarded_of_allowed (step lower) _ (ByOthers user objectID)
      (RespectsLock objectID) ?_ m inputs ⟨held, rfl⟩ others
    intro next input holds allowed
    obtain ⟨stays, same⟩ := lock_step next input.1 objectID user lower input.2 holds.1 allowed
    rw [← same, holds.2]
    exact and_iff_right stays
  rw [← both]
  constructor
  · intro same front within
    exact ⟨kept front within, same front within⟩
  · intro all front within
    exact (all front within).2

instance (m : MemoryStore) (objectID user : Str) : Decidable (LockedFor m objectID user) :=
  decidable_of_iff ((m.objects[objectID]?.any fun obj =>
    isLocked obj ∧ obj.lockedBy = user) = true) <| by
    simp [LockedFor, Option.any_eq_true]

/-- An object of one user that another one, who may write it, has locked. -/
def lockedRun : List (Env × Call) :=
  [(envOf "o1", .createObject (uploadOf "a.txt" "owner" [1]) "k1".toList),
    (envOf "-", .updateACL "t1".toList "o1".toList (userOf "owner")
      [⟨"user:writer".toList, ACLRole.write⟩]),
    (envOf "-", .updateObject "t1".toList "o1".toList (userOf "writer") { locked := some true })]

/-- The owner renames in vain and takes the lock holder off the access list. -/
theorem lock_excludes_rename :
    Always (step id) (fun next => protectedPart next "o1".toList =
        protectedPart (lockedRun.foldl (step id) newMemoryStore) "o1".toList)
      (lockedRun.foldl (step id) newMemoryStore)
      [(envOf "-", .updateObject "t1".toList "o1".toList (userOf "owner")
          { name := some "b.txt".toList }),
        (envOf "-", .updateACL "t1".toList "o1".toList (userOf "owner") [])] := by
  apply (lock_excludes_iff id _ "o1".toList "writer".toList _ (by decide) ?_).mpr
  · simp only [guarded_cons]
    refine ⟨⟨not_false, ?_⟩, ⟨not_false, ?_⟩, guarded_nil _ _ _⟩
    · exact fun _ _ _ _ uploads => absurd uploads not_false
    · exact fun _ _ _ _ uploads => absurd uploads not_false
  · simp only [guarded_cons]
    refine ⟨⟨?_, ?_, ?_⟩, ⟨?_, not_false, ?_⟩, guarded_nil _ _ _⟩
    · rintro p ⟨⟩
      decide
    · rintro ⟨-, ⟨⟩, -⟩
    · rintro _ _ ⟨⟩
    · rintro p ⟨⟩
      decide
    · rintro _ _ ⟨⟩

/-- The owner trashes an object that another user has locked. -/
theorem lock_misses_trash :
    ¬ ∀ (lower : Str → Str) (before inputs : List (Env × Call)) (objectID user : Str),
      LockedFor (before.foldl (step lower) newMemoryStore) objectID user →
      Guarded (step lower) (ByOthers user objectID) (before.foldl (step lower) newMemoryStore)
        inputs →
      Always (step lower) (fun next => protectedPart next objectID =
        protectedPart (before.foldl (step lower) newMemoryStore) objectID)
        (before.foldl (step lower) newMemoryStore) inputs := by
  intro all
  have same := all id lockedRun
    [(envOf "-", .trashObject "t1".toList "o1".toList (userOf "owner"))] "o1".toList
    "writer".toList (by decide) (by
      rw [guarded_cons]
      refine ⟨⟨?_, not_false, ?_⟩, guarded_nil _ _ _⟩
      · rintro p ⟨⟩
        decide
      · rintro _ _ ⟨⟩)
  have last := same.last
  revert last
  decide

end EraOne.Drive
