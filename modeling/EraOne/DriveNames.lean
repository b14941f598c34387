import EraOne.DriveCalls
import EraOne.Maps

set_option autoImplicit false

/- Live names. Each check for a duplicate looks at all items, or at the live ones other than the
item itself; the invariant is that the map's keys are the items' own ids. -/
namespace EraOne.Drive

open Scan Maps Runs

def Folder.slot (f : Folder) : Str × Str × Str := (f.tenantID, f.parentID, f.name)

def Object.slot (obj : Object) : Str × Str × Str := (obj.tenantID, obj.folderID, obj.name)

/-- No two live folders, and no two live objects, have one name in one place. -/
def LiveNamesUnique (m : MemoryStore) : Prop :=
  OnePerSlot (fun obj : Object => obj.trashedAt = none) Object.slot m.objects ∧
    OnePerSlot (fun f : Folder => f.trashedAt = none) Folder.slot m.folders

/-- The keys are the ids. -/
def Keyed (m : MemoryStore) : Prop :=
  (∀ (id : Str) (obj : Object), m.objects[id]? = some obj → obj.id = id) ∧
    ∀ (id : Str) (f : Folder), m.folders[id]? = some f → f.id = id

section Keys

variable (m : MemoryStore)

theorem keyed_folders (keyed : Keyed m) (key : Str) (f : Folder) (id : f.id = key) :
    Keyed (m.putFolder key f) := by
  refine ⟨keyed.1, ?_⟩
  intro other item found
  unfold MemoryStore.putFolder at found
  dsimp only at found
  rw [Std.ExtTreeMap.getElem?_insert] at found
  split at found
  · rename_i here
    cases found
    rw [id]
    simpa using here
  · exact keyed.2 other item found

theorem keyed_objects (keyed : Keyed m) (key : Str) (obj : Object) (id : obj.id = key)
    (vers : StrMap (List Version)) (blobs : StrMap Bytes) :
    Keyed { m with objects := m.objects.insert key obj, vers := vers, blobs := blobs } := by
  refine ⟨?_, keyed.2⟩
  intro other item found
  dsimp only at found
  rw [Std.ExtTreeMap.getElem?_insert] at found
  split at found
  · rename_i here
    cases found
    rw [id]
    simpa using here
  · exact keyed.1 other item found

/-- Changes write under the id of the item. -/
theorem keyed_change (env : Env) (c : Call) (next : MemoryStore) (keyed : Keyed m)
    (change : Change env m c next) : Keyed next := by
  have ownID (tenantID folderID : Str) (f : Folder) (own : m.ownFolder tenantID folderID = .ok f) :
      f.id = folderID :=
    keyed.2 folderID f ((m.ownFolder_eq_ok tenantID folderID f).mp own).2.1
  have sameID (tenantID objectID : Str) (p : Principal) (obj : Object)
      (own : m.writable tenantID objectID p = .ok obj) : obj.id = objectID :=
    keyed.1 objectID obj ((m.writable_eq_ok tenantID objectID p obj).mp own).1
  cases change with
  | createFolder => exact keyed_folders m keyed _ _ rfl
  | patchFolder tenantID folderID p patch f next plain own patched =>
      obtain ⟨shape, -⟩ := m.patchFolder_spec tenantID folderID patch f next patched
      refine keyed_folders m keyed folderID next ?_
      rw [shape]
      exact ownID tenantID folderID f own
  | trashFolder tenantID folderID p f own
  | restoreFolder tenantID folderID p f own =>
      refine keyed_folders m keyed folderID _ ?_
      exact ownID tenantID folderID f own
  | createObject input blobKey =>
      exact keyed_objects m keyed env.id (newObject env input (blobKeyOr blobKey env)) rfl _ _
  | putVersion tenantID objectID p _ _ obj own
  | updateACL tenantID objectID p _ obj own
  | trashObject tenantID objectID p obj own
  | restoreObject tenantID objectID p obj own =>
      refine keyed_objects m keyed objectID _ ?_ _ _
      exact sameID tenantID objectID p obj own
  | patchObject tenantID objectID p patch obj next plain own patched =>
      obtain ⟨-, ⟨locked, lock, shape⟩, -⟩ :=
        m.patchObject_spec env tenantID objectID p patch obj next patched
      obtain ⟨kept, -⟩ := patchLock_spec obj locked p env.now patch.locked lock
      refine keyed_objects m keyed objectID next ?_ _ _
      rw [shape, kept]
      exact sameID tenantID objectID p obj own

end Keys

section Names

variable (m : MemoryStore)

theorem folderTaken_free (tenantID parentID name : Str)
    (free : m.folderTaken tenantID parentID name = false) (id : Str) (f : Folder)
    (found : m.folders[id]? = some f) : f.slot ≠ (tenantID, parentID, name) := by
  have apart := any_toList_eq_false m.folders _ free id f found
  simpa [Folder.slot] using apart

theorem liveFolderTaken_free (keyed : Keyed m) (folderID tenantID parentID name : Str)
    (free : m.liveFolderTaken folderID tenantID parentID name = false) (id : Str) (f : Folder)
    (other : id ≠ folderID) (found : m.folders[id]? = some f) (live : f.trashedAt = none) :
    f.slot ≠ (tenantID, parentID, name) := by
  have apart := any_toList_eq_false m.folders _ free id f found
  have key := keyed.2 id f found
  simpa [Folder.slot, key, other, live] using apart

theorem objectTaken_free (tenantID folderID name : Str)
    (free : m.objectTaken tenantID folderID name = false) (id : Str) (obj : Object)
    (found : m.objects[id]? = some obj) : obj.slot ≠ (tenantID, folderID, name) := by
  have apart := any_toList_eq_false m.objects _ free id obj found
  simpa [Object.slot] using apart

theorem liveObjectTaken_free (keyed : Keyed m) (objectID tenantID folderID name : Str)
    (free : m.liveObjectTaken objectID tenantID folderID name = false) (id : Str) (obj : Object)
    (other : id ≠ objectID) (found : m.objects[id]? = some obj) (live : obj.trashedAt = none) :
    obj.slot ≠ (tenantID, folderID, name) := by
  have apart := any_toList_eq_false m.objects _ free id obj found
  have key := keyed.1 id obj found
  simpa [Object.slot, key, other, live] using apart

/-- An item that stays in its slot, or leaves the live ones, meets no other. -/
theorem apart_of_kept {β : Type} (live : β → Prop) (slot : β → Str × Str × Str) (items : StrMap β)
    (one : OnePerSlot live slot items) (key : Str) (before after : β)
    (found : items[key]? = some before) (was : live after → live before)
    (kept : slot after = slot before) :
    live after → ∀ i a, i ≠ key → items[i]? = some a → live a → slot a ≠ slot after := by
  intro now i a other found' live' same
  rw [kept] at same
  exact other (one i key a before found' found live' (was now) same)

theorem names_change (env : Env) (c : Call) (next : MemoryStore) (keyed : Keyed m)
    (unique : LiveNamesUnique m) (change : Change env m c next) : LiveNamesUnique next := by
  obtain ⟨objects, folders⟩ := unique
  cases change with
  | createFolder tenantID parentID name named free =>
      refine ⟨objects, onePerSlot_insert _ _ _ folders _ _ ?_⟩
      intro _ i a _ found _
      exact folderTaken_free m tenantID parentID name free i a found
  | patchFolder tenantID folderID p patch f next plain own patched =>
      obtain ⟨-, found, tenant⟩ := (m.ownFolder_eq_ok tenantID folderID f).mp own
      obtain ⟨shape, -, -, -, checked⟩ := m.patchFolder_spec tenantID folderID patch f next patched
      have sameTenant : next.tenantID = tenantID := by rw [shape, tenant]
      have sameTrash : next.trashedAt = f.trashedAt := by rw [shape]
      refine ⟨objects, onePerSlot_insert _ _ _ folders _ _ ?_⟩
      rcases checked with ⟨name, parent⟩ | free
      · refine apart_of_kept _ _ m.folders folders folderID f next found ?_ ?_
        · intro live
          rw [← sameTrash, live]
        · unfold Folder.slot
          rw [sameTenant, name, parent, tenant]
      · intro _ i a other found' live
        have apart := liveFolderTaken_free m keyed folderID tenantID _ _ free i a other found' live
        unfold Folder.slot at apart ⊢
        rwa [sameTenant]
  | trashFolder tenantID folderID p f own live =>
      refine ⟨objects, onePerSlot_insert _ _ _ folders _ _ ?_⟩
      intro trashed
      cases trashed
  | restoreFolder tenantID folderID p f own trashed free =>
      obtain ⟨-, found, tenant⟩ := (m.ownFolder_eq_ok tenantID folderID f).mp own
      refine ⟨objects, onePerSlot_insert _ _ _ folders _ _ ?_⟩
      intro _ i a other found' live
      have apart := liveFolderTaken_free m keyed folderID tenantID _ _ free i a other found' live
      unfold Folder.slot at apart ⊢
      dsimp only
      rwa [tenant]
  | createObject input blobKey named free =>
      refine ⟨onePerSlot_insert _ _ _ objects _ _ ?_, folders⟩
      intro _ i a _ found _
      exact objectTaken_free m input.tenantID input.folderID input.name free i a found
  | putVersion tenantID objectID p _ _ obj own
  | updateACL tenantID objectID p _ obj own =>
      obtain ⟨found, -⟩ := (m.writable_eq_ok tenantID objectID p obj).mp own
      refine ⟨onePerSlot_insert _ _ _ objects _ _ ?_, folders⟩
      exact apart_of_kept _ _ m.objects objects objectID obj _ found id rfl
  | patchObject tenantID objectID p patch obj next plain own patched =>
      obtain ⟨found, tenant, -⟩ := (m.writable_eq_ok tenantID objectID p obj).mp own
      obtain ⟨-, ⟨locked, lock, shape⟩, -, -, checked⟩ :=
        m.patchObject_spec env tenantID objectID p patch obj next patched
      obtain ⟨kept, -⟩ := patchLock_spec obj locked p env.now patch.locked lock
      have sameTenant : next.tenantID = tenantID := by rw [shape, kept, tenant]
      have sameTrash : next.trashedAt = obj.trashedAt := by rw [shape, kept]
      refine ⟨onePerSlot_insert _ _ _ objects _ _ ?_, folders⟩
      rcases checked with ⟨name, folder⟩ | free
      · refine apart_of_kept _ _ m.objects objects objectID obj next found ?_ ?_
        · intro live
          rw [← sameTrash, live]
        · unfold Object.slot
          rw [sameTenant, name, folder, tenant]
      · intro _ i a other found' live
        have apart := liveObjectTaken_free m keyed objectID tenantID _ _ free i a other found' live
        unfold Object.slot at apart ⊢
        rwa [sameTenant]
  | trashObject tenantID objectID p obj own live =>
      refine ⟨onePerSlot_insert _ _ _ objects _ _ ?_, folders⟩
      intro trashed
      cases trashed
  | restoreObject tenantID objectID p obj own trashed free =>
      obtain ⟨found, tenant, -⟩ := (m.writable_eq_ok tenantID objectID p obj).mp own
      refine ⟨onePerSlot_insert _ _ _ objects _ _ ?_, folders⟩
      intro _ i a other found' live
      have apart := liveObjectTaken_free m keyed objectID tenantID _ _ free i a other found' live
      unfold Object.slot at apart ⊢
      dsimp only
      rwa [tenant]

end Names

variable (lower : Str → Str)

theorem keyed_always (inputs : List (Env × Call)) :
    Always (step lower) Keyed newMemoryStore inputs := by
  refine always_of_change Keyed ?_ newMemoryStore ?_ inputs
  · exact fun env m c next keyed change => keyed_change m env c next keyed change
  · exact ⟨by simp [newMemoryStore], by simp [newMemoryStore]⟩

/-- No two live objects share tenant, folder and name, and no two live folders tenant, parent and
name, after any sequence of calls. -/
theorem live_names_unique (inputs : List (Env × Call)) :
    LiveNamesUnique (inputs.foldl (step lower) newMemoryStore) := by
  have both : Always (step lower) (fun m => Keyed m ∧ LiveNamesUnique m) newMemoryStore inputs := by
    refine always_of_change _ ?_ newMemoryStore ?_ inputs
    · intro env m c next holds change
      exact ⟨keyed_change m env c next holds.1 change,
        names_change m env c next holds.1 holds.2 change⟩
    · refine ⟨(keyed_always lower []).start, ?_⟩
      constructor <;> simp [OnePerSlot, newMemoryStore]
  exact both.last.2


end EraOne.Drive
