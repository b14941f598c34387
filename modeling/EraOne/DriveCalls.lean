import EraOne.DriveModel
import EraOne.Runs

set_option autoImplicit false

/- What a call can do to the store: nothing, or one of ten changes. Invariants are proved of the
changes. -/
namespace EraOne.Drive

open Scan

theorem bind_eq_ok {ε α β : Type} (x : Except ε α) (f : α → Except ε β) (b : β) :
    x >>= f = .ok b ↔ ∃ a, x = .ok a ∧ f a = .ok b := by
  cases x with
  | error e =>
      constructor
      · intro h
        cases h
      · intro ⟨_, h, _⟩
        cases h
  | ok a =>
      constructor
      · intro h
        exact ⟨a, rfl, h⟩
      · intro ⟨_, here, h⟩
        cases here
        exact h

theorem refuse_eq_ok (c : Prop) [Decidable c] (e : DriveErr) (u : Unit) :
    refuse c e = .ok u ↔ ¬ c := by
  unfold refuse
  split
  · rename_i holds
    exact iff_of_false (by intro h; cases h) (not_not.mpr holds)
  · rename_i fails
    exact iff_of_true rfl fails

namespace MemoryStore

variable (m : MemoryStore)

theorem lookupObject_eq_ok (tenantID objectID : Str) (obj : Object) :
    m.lookupObject tenantID objectID = .ok obj ↔
      m.objects[objectID]? = some obj ∧ obj.tenantID = tenantID := by
  unfold lookupObject
  cases found : m.objects[objectID]? with
  | none => simp
  | some other =>
      dsimp only
      split
      · rename_i foreign
        constructor
        · intro h
          cases h
        · intro ⟨same, own⟩
          cases same
          exact absurd own foreign
      · rename_i own
        rw [not_not] at own
        constructor
        · intro h
          cases h
          exact ⟨rfl, own⟩
        · intro ⟨same, _⟩
          cases same
          rfl

theorem writable_eq_ok (tenantID objectID : Str) (p : Principal) (obj : Object) :
    m.writable tenantID objectID p = .ok obj ↔
      m.objects[objectID]? = some obj ∧ obj.tenantID = tenantID ∧ canWrite obj p = true := by
  unfold writable
  rw [bind_eq_ok]
  constructor
  · intro ⟨other, found, rest⟩
    obtain ⟨_, may, same⟩ := (bind_eq_ok _ _ _).mp rest
    cases same
    obtain ⟨here, own⟩ := (m.lookupObject_eq_ok tenantID objectID _).mp found
    exact ⟨here, own, not_not.mp ((refuse_eq_ok _ _ _).mp may)⟩
  · intro ⟨here, own, may⟩
    refine ⟨obj, (m.lookupObject_eq_ok tenantID objectID obj).mpr ⟨here, own⟩, ?_⟩
    exact (bind_eq_ok _ _ _).mpr ⟨(), (refuse_eq_ok _ _ _).mpr (not_not.mpr may), rfl⟩

theorem ownFolder_eq_ok (tenantID folderID : Str) (f : Folder) :
    m.ownFolder tenantID folderID = .ok f ↔
      folderID ≠ [] ∧ m.folders[folderID]? = some f ∧ f.tenantID = tenantID := by
  unfold ownFolder
  by_cases root : folderID = []
  · simp [root]
  · rw [if_neg root]
    cases found : m.folders[folderID]? with
    | none => simp
    | some other =>
        dsimp only
        split
        · rename_i foreign
          constructor
          · intro h
            cases h
          · intro ⟨_, same, own⟩
            cases same
            exact absurd own foreign
        · rename_i own
          rw [not_not] at own
          constructor
          · intro h
            cases h
            exact ⟨root, rfl, own⟩
          · intro ⟨_, same, _⟩
            cases same
            rfl

end MemoryStore

/-- A lock is set by a caller that may take it, and taken off by one that may unlock. -/
theorem patchLock_spec (obj next : Object) (p : Principal) (now : Time) (locked : Option Bool)
    (done : patchLock obj p now locked = .ok next) :
    next = { obj with lockedBy := next.lockedBy, lockedAt := next.lockedAt } ∧
    (locked = none ∧ next = obj ∨
      locked = some true ∧ canMutateWhileLocked obj p = true ∧ next.lockedBy = p.userID ∧
        next.lockedAt = some now ∨
      locked = some false ∧ (isLocked obj = true → canUnlock obj p = true) ∧ next.lockedBy = [] ∧
        next.lockedAt = none) := by
  match locked with
  | none =>
      simp only [patchLock, Except.ok.injEq] at done
      subst done
      exact ⟨rfl, Or.inl ⟨rfl, rfl⟩⟩
  | some true =>
      simp only [patchLock] at done
      split at done
      · cases done
      · rename_i may
        cases done
        refine ⟨rfl, Or.inr (Or.inl ⟨rfl, ?_, rfl, rfl⟩)⟩
        unfold canMutateWhileLocked
        cases held : isLocked obj with
        | false => rfl
        | true => simpa [held] using may
  | some false =>
      simp only [patchLock] at done
      split at done
      · cases done
      · rename_i may
        cases done
        refine ⟨rfl, Or.inr (Or.inr ⟨rfl, ?_, rfl, rfl⟩)⟩
        intro held
        simpa [held] using may

/-- What a patch of name, folder and lock makes of an object. -/
theorem MemoryStore.patchObject_spec (m : MemoryStore) (env : Env) (tenantID objectID : Str)
    (p : Principal) (patch : ObjectPatch) (obj next : Object)
    (done : m.patchObject env tenantID objectID p patch obj = .ok next) :
    (patch.name.isSome = true ∨ patch.folderID.isSome = true → canMutateWhileLocked obj p = true) ∧
    (∃ locked, patchLock obj p env.now patch.locked = .ok locked ∧
      next = { locked with
        name := next.name, folderID := next.folderID, updatedAt := env.now }) ∧
    patchName obj.name patch.name = .ok next.name ∧
    next.folderID = patch.folderID.getD obj.folderID ∧
    (next.name = obj.name ∧ next.folderID = obj.folderID ∨
      m.liveObjectTaken objectID tenantID next.folderID next.name = false) := by
  unfold patchObject at done
  rw [bind_eq_ok] at done
  obtain ⟨⟨⟩, meta_, done⟩ := done
  rw [bind_eq_ok] at done
  obtain ⟨locked, lock, done⟩ := done
  obtain ⟨shape, -⟩ := patchLock_spec obj locked p env.now patch.locked lock
  have sameName : locked.name = obj.name := by rw [shape]
  have sameFolder : locked.folderID = obj.folderID := by rw [shape]
  rw [bind_eq_ok] at done
  obtain ⟨name, named, done⟩ := done
  dsimp only at done
  rw [bind_eq_ok] at done
  obtain ⟨⟨⟩, free, done⟩ := done
  cases done
  rw [sameName] at named
  rw [sameName, sameFolder] at free
  refine ⟨?_, ⟨locked, lock, rfl⟩, named, by rw [sameFolder], ?_⟩
  · intro touched
    by_contra blocked
    exact (refuse_eq_ok _ _ _).mp meta_ ⟨touched, blocked⟩
  · dsimp only
    rw [sameFolder]
    rcases not_and_or.mp ((refuse_eq_ok _ _ _).mp free) with same | clear
    · rw [not_or, not_not, not_not] at same
      exact Or.inl same
    · exact Or.inr (by simpa using clear)

theorem MemoryStore.patchFolder_spec (m : MemoryStore) (tenantID folderID : Str)
    (patch : FolderPatch) (f next : Folder)
    (done : m.patchFolder tenantID folderID patch f = .ok next) :
    next = { f with name := next.name, parentID := next.parentID } ∧
    patchName f.name patch.name = .ok next.name ∧
    patch.parentID ≠ some folderID ∧ next.parentID = patch.parentID.getD f.parentID ∧
    (next.name = f.name ∧ next.parentID = f.parentID ∨
      m.liveFolderTaken folderID tenantID next.parentID next.name = false) := by
  unfold patchFolder at done
  rw [bind_eq_ok] at done
  obtain ⟨name, named, done⟩ := done
  rw [bind_eq_ok] at done
  obtain ⟨⟨⟩, apart, done⟩ := done
  dsimp only at done
  rw [bind_eq_ok] at done
  obtain ⟨⟨⟩, free, done⟩ := done
  cases done
  refine ⟨rfl, named, ?_, rfl, ?_⟩
  · exact (refuse_eq_ok _ _ _).mp apart
  · dsimp only
    rcases not_and_or.mp ((refuse_eq_ok _ _ _).mp free) with same | clear
    · rw [not_or, not_not, not_not] at same
      exact Or.inl same
    · exact Or.inr (by simpa using clear)

/-- A patch of the trash flag is the call it stands for. -/
def Call.resolve : Call → Call
  | .updateObject tenantID objectID p patch =>
      match patch.trashed with
      | some true => .trashObject tenantID objectID p
      | some false => .restoreObject tenantID objectID p
      | none => .updateObject tenantID objectID p patch
  | .updateFolder tenantID folderID p patch =>
      match patch.trashed with
      | some true => .trashFolder tenantID folderID p
      | some false => .restoreFolder tenantID folderID p
      | none => .updateFolder tenantID folderID p patch
  | c => c

/-- The principal that a call is made by, where it has one. -/
def Call.principal : Call → Option Principal
  | .listChildren _ _ p | .search _ _ p | .putVersion _ _ p _ _ | .getObject _ _ p
  | .getObjectData _ _ p | .listVersions _ _ p | .updateACL _ _ p _ | .updateObject _ _ p _
  | .updateFolder _ _ p _ | .listTrash _ p | .trashObject _ _ p | .restoreObject _ _ p
  | .trashFolder _ _ p | .restoreFolder _ _ p => some p
  | .createFolder _ _ _ | .createObject _ _ | .lookupObject _ _ => none

theorem resolve_principal (c : Call) : c.resolve.principal = c.principal := by
  cases c with
  | updateObject tenantID objectID p patch =>
      unfold Call.resolve
      dsimp only
      split <;> rfl
  | updateFolder tenantID folderID p patch =>
      unfold Call.resolve
      dsimp only
      split <;> rfl
  | _ => rfl

/-- The changes a call can make, each with what was checked before it. -/
inductive Change (env : Env) (m : MemoryStore) : Call → MemoryStore → Prop where
  | createFolder (tenantID parentID name : Str) (named : tenantID ≠ [] ∧ name ≠ [])
      (free : m.folderTaken tenantID parentID name = false) :
      Change env m (.createFolder tenantID parentID name) (m.putFolder env.id
        { id := env.id, tenantID := tenantID, parentID := parentID, name := name
          createdAt := env.now })
  | patchFolder (tenantID folderID : Str) (p : Principal) (patch : FolderPatch) (f next : Folder)
      (plain : patch.trashed = none) (own : m.ownFolder tenantID folderID = .ok f)
      (patched : m.patchFolder tenantID folderID patch f = .ok next) :
      Change env m (.updateFolder tenantID folderID p patch) (m.putFolder folderID next)
  | trashFolder (tenantID folderID : Str) (p : Principal) (f : Folder)
      (own : m.ownFolder tenantID folderID = .ok f) (live : f.trashedAt = none) :
      Change env m (.trashFolder tenantID folderID p) (m.putFolder folderID
        { f with trashRestoreParentID := f.parentID, trashedAt := some env.now })
  | restoreFolder (tenantID folderID : Str) (p : Principal) (f : Folder)
      (own : m.ownFolder tenantID folderID = .ok f) (trashed : f.trashedAt ≠ none)
      (free : m.liveFolderTaken folderID tenantID f.trashRestoreParentID f.name = false) :
      Change env m (.restoreFolder tenantID folderID p) (m.putFolder folderID
        { f with
          parentID := f.trashRestoreParentID, trashRestoreParentID := [], trashedAt := none })
  | createObject (input : CreateObjectInput) (blobKey : Str)
      (named : input.tenantID ≠ [] ∧ input.name ≠ [] ∧ input.ownerUserID ≠ [])
      (free : m.objectTaken input.tenantID input.folderID input.name = false) :
      Change env m (.createObject input blobKey) (m.putContent env env.id
        (newObject env input (blobKeyOr blobKey env)) input.data [])
  | putVersion (tenantID objectID : Str) (p : Principal) (input : PutVersionInput) (blobKey : Str)
      (obj : Object) (own : m.writable tenantID objectID p = .ok obj)
      (may : canMutateWhileLocked obj p = true) :
      Change env m (.putVersion tenantID objectID p input blobKey) (m.putContent env objectID
        (nextVersion env obj input (blobKeyOr blobKey env)) input.data (m.vers[objectID]?.getD []))
  | updateACL (tenantID objectID : Str) (p : Principal) (entries : List ACLEntry) (obj : Object)
      (own : m.writable tenantID objectID p = .ok obj) :
      Change env m (.updateACL tenantID objectID p entries)
        (m.putObject objectID { obj with acl := entries })
  | patchObject (tenantID objectID : Str) (p : Principal) (patch : ObjectPatch)
      (obj next : Object) (plain : patch.trashed = none)
      (own : m.writable tenantID objectID p = .ok obj)
      (patched : m.patchObject env tenantID objectID p patch obj = .ok next) :
      Change env m (.updateObject tenantID objectID p patch) (m.putObject objectID next)
  | trashObject (tenantID objectID : Str) (p : Principal) (obj : Object)
      (own : m.writable tenantID objectID p = .ok obj) (live : obj.trashedAt = none) :
      Change env m (.trashObject tenantID objectID p) (m.putObject objectID
        { obj with
          trashRestoreFolderID := obj.folderID, trashedAt := some env.now, updatedAt := env.now })
  | restoreObject (tenantID objectID : Str) (p : Principal) (obj : Object)
      (own : m.writable tenantID objectID p = .ok obj) (trashed : obj.trashedAt ≠ none)
      (free : m.liveObjectTaken objectID tenantID obj.trashRestoreFolderID obj.name = false) :
      Change env m (.restoreObject tenantID objectID p) (m.putObject objectID
        { obj with
          folderID := obj.trashRestoreFolderID, trashRestoreFolderID := [], trashedAt := none
          updatedAt := env.now })

section Changes

variable (lower : Str → Str) (m : MemoryStore) (env : Env)

theorem call_resolve (c : Call) : m.call lower env c.resolve = m.call lower env c := by
  cases c with
  | updateObject tenantID objectID p patch =>
      obtain ⟨name, folderID, locked, trashed⟩ := patch
      match trashed with
      | none | some true | some false => rfl
  | updateFolder tenantID folderID p patch =>
      obtain ⟨name, parentID, trashed⟩ := patch
      match trashed with
      | none | some true | some false => rfl
  | _ => rfl

theorem createFolder_change (tenantID parentID name : Str) :
    (m.createFolder env tenantID parentID name).2 = m ∨
    Change env m (.createFolder tenantID parentID name)
      (m.createFolder env tenantID parentID name).2 := by
  unfold MemoryStore.createFolder
  split
  · exact Or.inl rfl
  · rename_i named
    dsimp only
    split
    · exact Or.inl rfl
    · rename_i free
      exact Or.inr (.createFolder tenantID parentID name (by simpa using named)
        (by simpa using free))

theorem createObject_change (input : CreateObjectInput) (blobKey : Str) :
    (m.createObject env input blobKey).2 = m ∨ Change env m (.createObject input blobKey)
      (m.createObject env input blobKey).2 := by
  unfold MemoryStore.createObject
  split
  · exact Or.inl rfl
  · rename_i named
    split
    · exact Or.inl rfl
    · rename_i free
      exact Or.inr (.createObject input blobKey (by simpa using named) (by simpa using free))

theorem putVersion_change (tenantID objectID : Str) (p : Principal) (input : PutVersionInput)
    (blobKey : Str) :
    (m.putVersion env tenantID objectID p input blobKey).2 = m ∨
    Change env m (.putVersion tenantID objectID p input blobKey)
      (m.putVersion env tenantID objectID p input blobKey).2 := by
  unfold MemoryStore.putVersion
  split
  · exact Or.inl rfl
  · rename_i obj own
    split
    · exact Or.inl rfl
    · rename_i may
      exact Or.inr (.putVersion tenantID objectID p input blobKey obj own (by simpa using may))

theorem updateACL_change (tenantID objectID : Str) (p : Principal) (entries : List ACLEntry) :
    (m.updateACL tenantID objectID p entries).2 = m ∨
    Change env m (.updateACL tenantID objectID p entries)
      (m.updateACL tenantID objectID p entries).2 := by
  unfold MemoryStore.updateACL
  split
  · exact Or.inl rfl
  · rename_i obj own
    exact Or.inr (.updateACL tenantID objectID p entries obj own)

theorem updateObject_change (tenantID objectID : Str) (p : Principal) (patch : ObjectPatch)
    (noTrash : patch.trashed = none) :
    (m.updateObject env tenantID objectID p patch).2 = m ∨
    Change env m (.updateObject tenantID objectID p patch)
      (m.updateObject env tenantID objectID p patch).2 := by
  unfold MemoryStore.updateObject
  rw [noTrash]
  dsimp only
  split
  · exact Or.inl rfl
  · rename_i next done
    obtain ⟨obj, own, patched⟩ := (bind_eq_ok _ _ _).mp done
    exact Or.inr (.patchObject tenantID objectID p patch obj next noTrash own patched)

theorem updateFolder_change (tenantID folderID : Str) (p : Principal) (patch : FolderPatch)
    (noTrash : patch.trashed = none) :
    (m.updateFolder env tenantID folderID patch).2 = m ∨
    Change env m (.updateFolder tenantID folderID p patch)
      (m.updateFolder env tenantID folderID patch).2 := by
  unfold MemoryStore.updateFolder
  rw [noTrash]
  dsimp only
  split
  · exact Or.inl rfl
  · rename_i next done
    obtain ⟨f, own, patched⟩ := (bind_eq_ok _ _ _).mp done
    exact Or.inr (.patchFolder tenantID folderID p patch f next noTrash own patched)

theorem trashObject_change (tenantID objectID : Str) (p : Principal) :
    (m.trashObject env tenantID objectID p).2 = m ∨ Change env m (.trashObject tenantID objectID p)
      (m.trashObject env tenantID objectID p).2 := by
  unfold MemoryStore.trashObject
  split
  · exact Or.inl rfl
  · rename_i obj own
    split
    · exact Or.inl rfl
    · rename_i live
      exact Or.inr (.trashObject tenantID objectID p obj own (by simpa using live))

theorem restoreObject_change (tenantID objectID : Str) (p : Principal) :
    (m.restoreObject env tenantID objectID p).2 = m ∨
    Change env m (.restoreObject tenantID objectID p)
      (m.restoreObject env tenantID objectID p).2 := by
  unfold MemoryStore.restoreObject
  split
  · exact Or.inl rfl
  · rename_i obj own
    split
    · exact Or.inl rfl
    · rename_i trashed
      split
      · exact Or.inl rfl
      · rename_i free
        exact Or.inr (.restoreObject tenantID objectID p obj own (by simpa using trashed)
          (by simpa using free))

theorem trashFolder_change (tenantID folderID : Str) (p : Principal) :
    (m.trashFolder env tenantID folderID).2 = m ∨ Change env m (.trashFolder tenantID folderID p)
      (m.trashFolder env tenantID folderID).2 := by
  unfold MemoryStore.trashFolder
  split
  · exact Or.inl rfl
  · rename_i f own
    split
    · exact Or.inl rfl
    · rename_i live
      exact Or.inr (.trashFolder tenantID folderID p f own (by simpa using live))

theorem restoreFolder_change (tenantID folderID : Str) (p : Principal) :
    (m.restoreFolder tenantID folderID).2 = m ∨ Change env m (.restoreFolder tenantID folderID p)
      (m.restoreFolder tenantID folderID).2 := by
  unfold MemoryStore.restoreFolder
  split
  · exact Or.inl rfl
  · rename_i f own
    split
    · exact Or.inl rfl
    · rename_i trashed
      split
      · exact Or.inl rfl
      · rename_i free
        exact Or.inr (.restoreFolder tenantID folderID p f own (by simpa using trashed)
          (by simpa using free))

/-- Only patches of the trash flag are resolved to another call. -/
theorem resolve_cases (c : Call) :
    c.resolve = c ∨ ∃ tenantID id p, c.resolve = .trashObject tenantID id p ∨
      c.resolve = .restoreObject tenantID id p ∨ c.resolve = .trashFolder tenantID id p ∨
      c.resolve = .restoreFolder tenantID id p := by
  cases c with
  | updateObject tenantID objectID p patch =>
      unfold Call.resolve
      dsimp only
      split
      · exact Or.inr ⟨tenantID, objectID, p, Or.inl rfl⟩
      · exact Or.inr ⟨tenantID, objectID, p, Or.inr (Or.inl rfl)⟩
      · exact Or.inl rfl
  | updateFolder tenantID folderID p patch =>
      unfold Call.resolve
      dsimp only
      split
      · exact Or.inr ⟨tenantID, folderID, p, Or.inr (Or.inr (Or.inl rfl))⟩
      · exact Or.inr ⟨tenantID, folderID, p, Or.inr (Or.inr (Or.inr rfl))⟩
      · exact Or.inl rfl
  | _ => exact Or.inl rfl

theorem resolve_eq_create (c : Call) :
    (∀ tenantID parentID name, c.resolve = .createFolder tenantID parentID name → c.resolve = c) ∧
    (∀ input blobKey, c.resolve = .createObject input blobKey → c.resolve = c) ∧
    ∀ tenantID id p input blobKey, c.resolve = .putVersion tenantID id p input blobKey →
      c.resolve = c := by
  rcases resolve_cases c with same | ⟨tenantID, id, p, moved | moved | moved | moved⟩
  · exact ⟨fun _ _ _ _ => same, fun _ _ _ => same, fun _ _ _ _ _ _ => same⟩
  all_goals rw [moved]; simp

/-- What is left of a patch does not touch the trash flag. -/
theorem resolve_plain (c : Call) :
    (∀ tenantID objectID p patch, c.resolve = .updateObject tenantID objectID p patch →
      patch.trashed = none) ∧
    ∀ tenantID folderID p patch, c.resolve = .updateFolder tenantID folderID p patch →
      patch.trashed = none := by
  constructor
  · intro tenantID objectID p patch same
    cases c with
    | updateObject tenantID' objectID' p' patch' =>
        unfold Call.resolve at same
        dsimp only at same
        split at same
        · cases same
        · cases same
        · rename_i plain
          cases same
          exact plain
    | updateFolder tenantID' folderID' p' patch' =>
        unfold Call.resolve at same
        dsimp only at same
        split at same <;> cases same
    | _ => cases same
  · intro tenantID folderID p patch same
    cases c with
    | updateFolder tenantID' folderID' p' patch' =>
        unfold Call.resolve at same
        dsimp only at same
        split at same
        · cases same
        · cases same
        · rename_i plain
          cases same
          exact plain
    | updateObject tenantID' objectID' p' patch' =>
        unfold Call.resolve at same
        dsimp only at same
        split at same <;> cases same
    | _ => cases same

/-- A call leaves the store as it is or makes one of the changes. -/
theorem call_change (c : Call) :
    (m.call lower env c).2 = m ∨ Change env m c.resolve (m.call lower env c).2 := by
  obtain ⟨plainObject, plainFolder⟩ := resolve_plain c
  rw [← call_resolve]
  generalize c.resolve = r at plainObject plainFolder ⊢
  cases r with
  | createFolder tenantID parentID name => exact createFolder_change m env tenantID parentID name
  | createObject input blobKey => exact createObject_change m env input blobKey
  | putVersion tenantID objectID p input blobKey =>
      exact putVersion_change m env tenantID objectID p input blobKey
  | updateACL tenantID objectID p entries =>
      exact updateACL_change m env tenantID objectID p entries
  | updateObject tenantID objectID p patch =>
      exact updateObject_change m env tenantID objectID p patch (plainObject _ _ _ _ rfl)
  | updateFolder tenantID folderID p patch =>
      exact updateFolder_change m env tenantID folderID p patch (plainFolder _ _ _ _ rfl)
  | trashObject tenantID objectID p => exact trashObject_change m env tenantID objectID p
  | restoreObject tenantID objectID p => exact restoreObject_change m env tenantID objectID p
  | trashFolder tenantID folderID p => exact trashFolder_change m env tenantID folderID p
  | restoreFolder tenantID folderID p => exact restoreFolder_change m env tenantID folderID p
  | _ => exact Or.inl rfl

/-- A change that passes its checks is what the call does. -/
theorem call_of_change (c : Call) (next : MemoryStore) (change : Change env m c next) :
    (m.call lower env c).2 = next := by
  cases change with
  | createFolder tenantID parentID name named free =>
      change (m.createFolder env tenantID parentID name).2 = _
      unfold MemoryStore.createFolder
      rw [if_neg (by simpa using named), if_neg (by simp [free])]
      rfl
  | patchFolder tenantID folderID p patch f next plain own patched =>
      change (m.updateFolder env tenantID folderID patch).2 = _
      unfold MemoryStore.updateFolder
      rw [plain]
      dsimp only
      rw [(bind_eq_ok _ _ _).mpr ⟨f, own, patched⟩]
  | trashFolder tenantID folderID p f own live =>
      change (m.trashFolder env tenantID folderID).2 = _
      unfold MemoryStore.trashFolder
      rw [own]
      dsimp only
      rw [if_neg (by simp [live])]
  | restoreFolder tenantID folderID p f own trashed free =>
      change (m.restoreFolder tenantID folderID).2 = _
      unfold MemoryStore.restoreFolder
      rw [own]
      dsimp only
      rw [if_neg (by simpa using trashed), if_neg (by simp [free])]
  | createObject input blobKey named free =>
      change (m.createObject env input blobKey).2 = _
      unfold MemoryStore.createObject
      rw [if_neg (by simpa using named), if_neg (by simp [free])]
      rfl
  | putVersion tenantID objectID p input blobKey obj own may =>
      change (m.putVersion env tenantID objectID p input blobKey).2 = _
      unfold MemoryStore.putVersion
      rw [own]
      dsimp only
      rw [if_neg (by simp [may])]
  | updateACL tenantID objectID p entries obj own =>
      change (m.updateACL tenantID objectID p entries).2 = _
      unfold MemoryStore.updateACL
      rw [own]
  | patchObject tenantID objectID p patch obj next plain own patched =>
      change (m.updateObject env tenantID objectID p patch).2 = _
      unfold MemoryStore.updateObject
      rw [plain]
      dsimp only
      rw [(bind_eq_ok _ _ _).mpr ⟨obj, own, patched⟩]
  | trashObject tenantID objectID p obj own live =>
      change (m.trashObject env tenantID objectID p).2 = _
      unfold MemoryStore.trashObject
      rw [own]
      dsimp only
      rw [if_neg (by simp [live])]
  | restoreObject tenantID objectID p obj own trashed free =>
      change (m.restoreObject env tenantID objectID p).2 = _
      unfold MemoryStore.restoreObject
      rw [own]
      dsimp only
      rw [if_neg (by simpa using trashed), if_neg (by simp [free])]

/-- A run of calls, as the store goes from one to the next. -/
def step (m : MemoryStore) (input : Env × Call) : MemoryStore := (m.call lower input.1 input.2).2

theorem step_of_change (c : Call) (next : MemoryStore) (change : Change env m c.resolve next) :
    step lower m (env, c) = next := by
  unfold step
  rw [← call_resolve]
  exact call_of_change lower m env c.resolve next change

variable {lower} in
/-- What every change keeps holds in every state of a run. -/
theorem always_of_change (inv : MemoryStore → Prop)
    (keeps : ∀ env m c next, inv m → Change env m c next → inv next) (start : MemoryStore)
    (first : inv start) (inputs : List (Env × Call)) :
    Runs.Always (step lower) inv start inputs := by
  refine Runs.always_of_guarded (step lower) inv (fun _ _ => True) ?_ start inputs first
    (fun _ _ _ => trivial)
  intro m input holds _
  rcases call_change lower m input.1 input.2 with same | change
  · unfold step
    rw [same]
    exact holds
  · exact keeps input.1 m input.2.resolve _ holds change

end Changes

/-- The environment of a call that is given an id, for concrete runs. -/
def envOf (id : String) : Env := ⟨id.toList, id.toList, 0⟩

def userOf (user : String) : Principal := { tenantID := "t1".toList, userID := user.toList }

def uploadOf (name owner : String) (data : Bytes) : CreateObjectInput :=
  ⟨"t1".toList, [], name.toList, "text/plain".toList, 1, owner.toList, data⟩

end EraOne.Drive
