import EraOne.DriveNames

set_option autoImplicit false

/- Two runs, one without the calls of a tenant. The second run's store is the first one's without
that tenant's folders and objects; lists and blobs agree wherever an object of it looks. -/
namespace EraOne.Drive

open Scan Maps

/-- The tenant that a call is made for. -/
def Call.tenant : Call → Str
  | .createObject input _ => input.tenantID
  | .createFolder tenantID _ _ | .listChildren tenantID _ _ | .search tenantID _ _
  | .putVersion tenantID _ _ _ _ | .getObject tenantID _ _ | .getObjectData tenantID _ _
  | .listVersions tenantID _ _ | .updateACL tenantID _ _ _ | .updateObject tenantID _ _ _
  | .updateFolder tenantID _ _ _ | .lookupObject tenantID _ | .listTrash tenantID _
  | .trashObject tenantID _ _ | .restoreObject tenantID _ _ | .trashFolder tenantID _ _
  | .restoreFolder tenantID _ _ => tenantID

/-- The uuid that a call gives to what it creates. -/
def newID (input : Env × Call) : Option Str :=
  match input.2 with
  | .createFolder _ _ _ | .createObject _ _ => some input.1.id
  | _ => none

/-- The key that a call uploads under. -/
def newKey (input : Env × Call) : Option Str :=
  match input.2 with
  | .createObject _ blobKey | .putVersion _ _ _ _ blobKey => some (blobKeyOr blobKey input.1)
  | _ => none

/-- No uuid, or no blob key, is given to two tenants. -/
def OwnNames (names : Env × Call → Option Str) (inputs : List (Env × Call)) : Prop :=
  ∀ a ∈ inputs, ∀ b ∈ inputs, ∀ name ∈ names a, name ∈ names b → a.2.tenant = b.2.tenant

theorem resolve_tenant (c : Call) : c.resolve.tenant = c.tenant := by
  cases c with
  | updateObject tenantID objectID p patch =>
      unfold Call.resolve
      dsimp only
      split <;> rfl
  | updateFolder tenantID folderID p patch =>
      unfold Call.resolve
      dsimp only
      split <;> rfl
  | _ => rfl

section Owned

variable (idTenant keyTenant : Str → Str)

/-- The names of the call belong to its tenant. -/
def Assigned (input : Env × Call) : Prop :=
  (∀ id ∈ newID input, idTenant id = input.2.tenant) ∧
    ∀ key ∈ newKey input, keyTenant key = input.2.tenant

/-- Every item is stored under a uuid of its own tenant, and so is its blob. -/
structure Owned (m : MemoryStore) : Prop where
  keyed : Keyed m
  folders : ∀ (id : Str) (f : Folder), m.folders[id]? = some f → idTenant id = f.tenantID
  objects : ∀ (id : Str) (obj : Object), m.objects[id]? = some obj →
    idTenant id = obj.tenantID ∧ keyTenant obj.blobKey = obj.tenantID

variable {idTenant keyTenant} {m : MemoryStore} {env : Env}

/-- What a change writes, by the tenant it is made for: a folder, the head of an object that is
there, or an upload. -/
theorem change_writes (c : Call) (next : MemoryStore) (owned : Owned idTenant keyTenant m)
    (assigned : Assigned idTenant keyTenant (env, c)) (change : Change env m c next) :
    (∃ id f, next = m.putFolder id f ∧ f.tenantID = c.tenant ∧ idTenant id = c.tenant) ∨
    (∃ id obj old, next = m.putObject id obj ∧ m.objects[id]? = some old ∧
      old.tenantID = c.tenant ∧ obj.tenantID = c.tenant ∧ obj.blobKey = old.blobKey) ∨
    ∃ id obj data history, next = m.putContent env id obj data history ∧
      obj.tenantID = c.tenant ∧ idTenant id = c.tenant ∧ keyTenant obj.blobKey = c.tenant := by
  have ofFolder (tenantID folderID : Str) (f : Folder)
      (own : m.ownFolder tenantID folderID = .ok f) :
      f.tenantID = tenantID ∧ idTenant folderID = tenantID := by
    obtain ⟨-, found, tenant⟩ := (m.ownFolder_eq_ok tenantID folderID f).mp own
    exact ⟨tenant, (owned.folders folderID f found).trans tenant⟩
  cases change with
  | createFolder => exact Or.inl ⟨_, _, rfl, rfl, assigned.1 env.id rfl⟩
  | patchFolder tenantID folderID p patch f next plain own patched =>
      obtain ⟨shape, -⟩ := m.patchFolder_spec tenantID folderID patch f next patched
      obtain ⟨tenant, place⟩ := ofFolder tenantID folderID f own
      refine Or.inl ⟨_, _, rfl, ?_, place⟩
      rw [shape]
      exact tenant
  | trashFolder tenantID folderID p f own
  | restoreFolder tenantID folderID p f own =>
      obtain ⟨tenant, place⟩ := ofFolder tenantID folderID f own
      exact Or.inl ⟨_, _, rfl, tenant, place⟩
  | createObject input blobKey =>
      exact Or.inr (Or.inr ⟨_, _, _, _, rfl, rfl, assigned.1 env.id rfl, assigned.2 _ rfl⟩)
  | putVersion tenantID objectID p input blobKey obj own =>
      obtain ⟨found, tenant, -⟩ := (m.writable_eq_ok tenantID objectID p obj).mp own
      have place := (owned.objects objectID obj found).1.trans tenant
      exact Or.inr (Or.inr ⟨_, _, _, _, rfl, tenant, place, assigned.2 _ rfl⟩)
  | updateACL tenantID objectID p _ obj own
  | trashObject tenantID objectID p obj own
  | restoreObject tenantID objectID p obj own =>
      obtain ⟨found, tenant, -⟩ := (m.writable_eq_ok tenantID objectID p obj).mp own
      exact Or.inr (Or.inl ⟨_, _, obj, rfl, found, tenant, tenant, rfl⟩)
  | patchObject tenantID objectID p patch obj next plain own patched =>
      obtain ⟨found, tenant, -⟩ := (m.writable_eq_ok tenantID objectID p obj).mp own
      obtain ⟨-, ⟨locked, lock, shape⟩, -⟩ :=
        m.patchObject_spec env tenantID objectID p patch obj next patched
      obtain ⟨kept, -⟩ := patchLock_spec obj locked p env.now patch.locked lock
      refine Or.inr (Or.inl ⟨_, _, obj, rfl, found, tenant, ?_, ?_⟩)
      · rw [shape, kept]
        exact tenant
      · rw [shape, kept]

theorem Owned.insertObject (owned : Owned idTenant keyTenant m) (id : Str) (obj : Object)
    (place : idTenant id = obj.tenantID) (blob : keyTenant obj.blobKey = obj.tenantID)
    (other : Str) (found : Object) (there : (m.objects.insert id obj)[other]? = some found) :
    idTenant other = found.tenantID ∧ keyTenant found.blobKey = found.tenantID := by
  rw [Std.ExtTreeMap.getElem?_insert] at there
  split at there
  · rename_i here
    rw [Std.LawfulEqCmp.compare_eq_iff_eq] at here
    cases there
    subst here
    exact ⟨place, blob⟩
  · exact owned.objects other found there

theorem Owned.change (owned : Owned idTenant keyTenant m) (c : Call) (next : MemoryStore)
    (assigned : Assigned idTenant keyTenant (env, c)) (change : Change env m c next) :
    Owned idTenant keyTenant next := by
  have keyed := keyed_change m env c next owned.keyed change
  obtain ⟨id, f, rfl, tenant, place⟩ | ⟨id, obj, old, rfl, found, was, tenant, blob⟩ |
    ⟨id, obj, data, history, rfl, tenant, place, blob⟩ := change_writes c next owned assigned change
  · refine ⟨keyed, ?_, owned.objects⟩
    intro other found there
    unfold MemoryStore.putFolder at there
    dsimp only at there
    rw [Std.ExtTreeMap.getElem?_insert] at there
    split at there
    · rename_i here
      rw [Std.LawfulEqCmp.compare_eq_iff_eq] at here
      cases there
      subst here
      rw [place, tenant]
    · exact owned.folders other found there
  · obtain ⟨place, key⟩ := owned.objects id old found
    refine ⟨keyed, owned.folders, owned.insertObject id obj ?_ ?_⟩
    · rw [place, was, tenant]
    · rw [blob, key, was, tenant]
  · refine ⟨keyed, owned.folders, owned.insertObject id obj ?_ ?_⟩
    · rw [place, tenant]
    · rw [blob, tenant]

end Owned

/-- The second store is the first without a tenant's items. -/
structure Without (tenant : Str) (m rest : MemoryStore) : Prop where
  folders : rest.folders = m.folders.filter fun _ f => f.tenantID ≠ tenant
  objects : rest.objects = m.objects.filter fun _ obj => obj.tenantID ≠ tenant
  vers : ∀ (id : Str) (obj : Object), rest.objects[id]? = some obj → rest.vers[id]? = m.vers[id]?
  blobs : ∀ (id : Str) (obj : Object), rest.objects[id]? = some obj →
    rest.blobs[obj.blobKey]? = m.blobs[obj.blobKey]?

section Deleted

variable {idTenant keyTenant : Str → Str} {tenant : Str} {m rest : MemoryStore} {env : Env}

theorem Without.object (without : Without tenant m rest) (id : Str) (obj : Object)
    (found : rest.objects[id]? = some obj) : m.objects[id]? = some obj ∧ obj.tenantID ≠ tenant := by
  rw [without.objects, Std.ExtTreeMap.getElem?_filter', Option.filter_eq_some_iff] at found
  simpa using found

/-- A change that the tenant's own call makes is not seen in the store without it. -/
theorem Without.deleted (without : Without tenant m rest) (owned : Owned idTenant keyTenant m)
    (c : Call) (next : MemoryStore) (assigned : Assigned idTenant keyTenant (env, c))
    (change : Change env m c next) (own : c.tenant = tenant) : Without tenant next rest := by
  have hidden (id : Str) (obj : Object) (place : idTenant id = tenant)
      (mine : obj.tenantID = tenant) :
      rest.objects = (m.objects.insert id obj).filter fun _ obj => obj.tenantID ≠ tenant := by
    rw [without.objects]
    refine (filter_insert_of_drop m.objects _ id obj (by simp [mine]) ?_).symm
    intro old found
    rw [(owned.objects id old found).1] at place
    simp [place]
  obtain ⟨id, f, rfl, mine, place⟩ | ⟨id, obj, old, rfl, found, was, mine, blob⟩ |
    ⟨id, obj, data, history, rfl, mine, place, blob⟩ := change_writes c next owned assigned change
  · refine ⟨?_, without.objects, without.vers, without.blobs⟩
    rw [without.folders]
    refine (filter_insert_of_drop m.folders _ id f (by simp [mine, own]) ?_).symm
    intro old found
    rw [owned.folders id old found, own] at place
    simp [place]
  · have place := (owned.objects id old found).1.trans (was.trans own)
    exact ⟨without.folders, hidden id obj place (mine.trans own), without.vers, without.blobs⟩
  · refine ⟨without.folders, hidden id obj (place.trans own) (mine.trans own), ?_, ?_⟩
    · intro other kept there
      obtain ⟨found, foreign⟩ := without.object other kept there
      have apart : id ≠ other := by
        rintro rfl
        exact foreign ((owned.objects id kept found).1.symm.trans (place.trans own))
      unfold MemoryStore.putContent
      dsimp only
      rw [Std.ExtTreeMap.getElem?_insert, if_neg (by simpa using apart)]
      exact without.vers other kept there
    · intro other kept there
      obtain ⟨found, foreign⟩ := without.object other kept there
      have apart : obj.blobKey ≠ kept.blobKey := by
        intro same
        rw [same, (owned.objects other kept found).2, own] at blob
        exact foreign blob
      unfold MemoryStore.putContent
      dsimp only
      rw [Std.ExtTreeMap.getElem?_insert, if_neg (by simpa using apart)]
      exact without.blobs other kept there

end Deleted

section Kept

variable {tenant : Str} {m rest : MemoryStore} (without : Without tenant m rest)
  (tenantID : Str) (foreign : tenantID ≠ tenant)

include without foreign

theorem Without.lookupObject (objectID : Str) :
    rest.lookupObject tenantID objectID = m.lookupObject tenantID objectID := by
  unfold MemoryStore.lookupObject
  rw [without.objects, Std.ExtTreeMap.getElem?_filter']
  cases m.objects[objectID]? with
  | none => rfl
  | some obj =>
      rw [Option.filter_some]
      by_cases mine : obj.tenantID = tenant
      · rw [if_neg (by simp [mine])]
        dsimp only
        rw [if_pos]
        rw [mine]
        exact Ne.symm foreign
      · rw [if_pos (by simp [mine])]

theorem Without.ownFolder (folderID : Str) :
    rest.ownFolder tenantID folderID = m.ownFolder tenantID folderID := by
  unfold MemoryStore.ownFolder
  by_cases root : folderID = []
  · rw [if_pos root, if_pos root]
  · rw [if_neg root, if_neg root, without.folders, Std.ExtTreeMap.getElem?_filter']
    cases m.folders[folderID]? with
    | none => rfl
    | some f =>
        rw [Option.filter_some]
        by_cases mine : f.tenantID = tenant
        · rw [if_neg (by simp [mine])]
          dsimp only
          rw [if_pos]
          rw [mine]
          exact Ne.symm foreign
        · rw [if_pos (by simp [mine])]

theorem Without.writable (objectID : Str) (p : Principal) :
    rest.writable tenantID objectID p = m.writable tenantID objectID p := by
  unfold MemoryStore.writable
  rw [without.lookupObject tenantID foreign]

theorem Without.getObject (objectID : Str) (p : Principal) :
    rest.getObject tenantID objectID p = m.getObject tenantID objectID p := by
  unfold MemoryStore.getObject
  rw [without.lookupObject tenantID foreign]

theorem Without.folderTaken (parentID name : Str) :
    rest.folderTaken tenantID parentID name = m.folderTaken tenantID parentID name := by
  unfold MemoryStore.folderTaken
  rw [without.folders]
  refine any_toList_filter m.folders _ _ ?_
  intro _ f same
  simp only [decide_eq_true_eq] at same
  simp [same.1, foreign]

theorem Without.liveFolderTaken (folderID parentID name : Str) :
    rest.liveFolderTaken folderID tenantID parentID name =
      m.liveFolderTaken folderID tenantID parentID name := by
  unfold MemoryStore.liveFolderTaken
  rw [without.folders]
  refine any_toList_filter m.folders _ _ ?_
  intro _ f same
  simp only [decide_eq_true_eq] at same
  simp [same.2.1, foreign]

theorem Without.objectTaken (folderID name : Str) :
    rest.objectTaken tenantID folderID name = m.objectTaken tenantID folderID name := by
  unfold MemoryStore.objectTaken
  rw [without.objects]
  refine any_toList_filter m.objects _ _ ?_
  intro _ obj same
  simp only [decide_eq_true_eq] at same
  simp [same.1, foreign]

theorem Without.liveObjectTaken (objectID folderID name : Str) :
    rest.liveObjectTaken objectID tenantID folderID name =
      m.liveObjectTaken objectID tenantID folderID name := by
  unfold MemoryStore.liveObjectTaken
  rw [without.objects]
  refine any_toList_filter m.objects _ _ ?_
  intro _ obj same
  simp only [decide_eq_true_eq] at same
  simp [same.2.1, foreign]

omit foreign in
/-- A listing of another tenant's items. -/
theorem Without.listFolders (p : Folder → Bool)
    (apart : ∀ f, p f = true → f.tenantID ≠ tenant) : rest.listFolders p = m.listFolders p := by
  unfold MemoryStore.listFolders
  rw [without.folders, Std.ExtTreeMap.toList_filter, List.filter_map, List.filter_filter,
    List.filter_map]
  congr 2
  funext entry
  cases listed : p entry.2 with
  | false => simp [listed]
  | true => simp [listed, apart entry.2 listed]

omit foreign in
theorem Without.listObjects (p : Object → Bool)
    (apart : ∀ obj, p obj = true → obj.tenantID ≠ tenant) :
    rest.listObjects p = m.listObjects p := by
  unfold MemoryStore.listObjects
  rw [without.objects, Std.ExtTreeMap.toList_filter, List.filter_map, List.filter_filter,
    List.filter_map]
  congr 2
  funext entry
  cases listed : p entry.2 with
  | false => simp [listed]
  | true => simp [listed, apart entry.2 listed]

end Kept

section Writes

variable {tenant : Str} {m rest : MemoryStore}

theorem Without.putFolder (without : Without tenant m rest) (id : Str) (f : Folder)
    (foreign : f.tenantID ≠ tenant) : Without tenant (m.putFolder id f) (rest.putFolder id f) := by
  refine ⟨?_, without.objects, without.vers, without.blobs⟩
  unfold MemoryStore.putFolder
  dsimp only
  rw [without.folders, filter_insert_of_keep m.folders _ id f (by simp [foreign])]

/-- The head of an object that is there, with the same blob. -/
theorem Without.putObject (without : Without tenant m rest) (id : Str) (obj old : Object)
    (foreign : old.tenantID ≠ tenant) (found : m.objects[id]? = some old)
    (own : obj.tenantID = old.tenantID) (blob : obj.blobKey = old.blobKey) :
    Without tenant (m.putObject id obj) (rest.putObject id obj) := by
  have kept : rest.objects[id]? = some old := by
    rw [without.objects, Std.ExtTreeMap.getElem?_filter', found, Option.filter_some,
      if_pos (by simp [foreign])]
  have same (other : Str) (there : Object)
      (stored : (rest.putObject id obj).objects[other]? = some there) :
      ∃ before, rest.objects[other]? = some before ∧ there.blobKey = before.blobKey := by
    unfold MemoryStore.putObject at stored
    dsimp only at stored
    rw [Std.ExtTreeMap.getElem?_insert] at stored
    split at stored
    · rename_i here
      rw [Std.LawfulEqCmp.compare_eq_iff_eq] at here
      cases stored
      subst here
      exact ⟨old, kept, blob⟩
    · exact ⟨there, stored, rfl⟩
  refine ⟨without.folders, ?_, ?_, ?_⟩
  · unfold MemoryStore.putObject
    dsimp only
    rw [without.objects, filter_insert_of_keep m.objects _ id obj (by simp [own, foreign])]
  · intro other there stored
    obtain ⟨before, was, -⟩ := same other there stored
    exact without.vers other before was
  · intro other there stored
    obtain ⟨before, was, key⟩ := same other there stored
    rw [key]
    exact without.blobs other before was

/-- An upload makes the same entries in both stores. -/
theorem Without.putContent (without : Without tenant m rest) (env : Env) (id : Str) (obj : Object)
    (data : Bytes) (history : List Version) (foreign : obj.tenantID ≠ tenant) :
    Without tenant (m.putContent env id obj data history)
      (rest.putContent env id obj data history) := by
  refine ⟨without.folders, ?_, ?_, ?_⟩
  · unfold MemoryStore.putContent
    dsimp only
    rw [without.objects, filter_insert_of_keep m.objects _ id obj (by simp [foreign])]
  · intro other there stored
    unfold MemoryStore.putContent at stored ⊢
    dsimp only at stored ⊢
    rw [Std.ExtTreeMap.getElem?_insert] at stored ⊢
    rw [Std.ExtTreeMap.getElem?_insert]
    split
    · rfl
    · rename_i apart
      rw [if_neg apart] at stored
      exact without.vers other there stored
  · intro other there stored
    unfold MemoryStore.putContent at stored ⊢
    dsimp only at stored ⊢
    rw [Std.ExtTreeMap.getElem?_insert] at stored
    rw [Std.ExtTreeMap.getElem?_insert, Std.ExtTreeMap.getElem?_insert]
    split
    · rfl
    · rename_i apart
      split at stored
      · cases stored
        rw [Std.LawfulEqCmp.compare_eq_iff_eq] at apart
        exact absurd rfl apart
      · exact without.blobs other there stored

end Writes

/-- The same result, in stores that differ by a tenant's items. -/
def Agrees {α : Type} (tenant : Str) (all kept : α × MemoryStore) : Prop :=
  kept.1 = all.1 ∧ Without tenant all.2 kept.2

theorem Agrees.map {α β : Type} {tenant : Str} {all kept : α × MemoryStore}
    (agrees : Agrees tenant all kept) (f : α → β) :
    Agrees tenant (all.map f id) (kept.map f id) :=
  ⟨congrArg f agrees.1, agrees.2⟩

section Calls

variable {tenant : Str} {m rest : MemoryStore} (without : Without tenant m rest) (env : Env)
  (tenantID : Str) (foreign : tenantID ≠ tenant)

include without foreign

theorem Without.createFolder (parentID name : Str) :
    Agrees tenant (m.createFolder env tenantID parentID name)
      (rest.createFolder env tenantID parentID name) := by
  unfold MemoryStore.createFolder
  rw [without.folderTaken tenantID foreign]
  split
  · exact ⟨rfl, without⟩
  · dsimp only
    split
    · exact ⟨rfl, without⟩
    · exact ⟨rfl, without.putFolder _ _ foreign⟩

theorem Without.trashFolder (folderID : Str) :
    Agrees tenant (m.trashFolder env tenantID folderID)
      (rest.trashFolder env tenantID folderID) := by
  unfold MemoryStore.trashFolder
  rw [without.ownFolder tenantID foreign]
  cases own : m.ownFolder tenantID folderID with
  | error e => exact ⟨rfl, without⟩
  | ok f =>
      obtain ⟨-, -, mine⟩ := (m.ownFolder_eq_ok tenantID folderID f).mp own
      dsimp only
      split
      · exact ⟨rfl, without⟩
      · exact ⟨rfl, without.putFolder _ _ (mine ▸ foreign)⟩

theorem Without.restoreFolder (folderID : Str) :
    Agrees tenant (m.restoreFolder tenantID folderID) (rest.restoreFolder tenantID folderID) := by
  unfold MemoryStore.restoreFolder
  rw [without.ownFolder tenantID foreign]
  cases own : m.ownFolder tenantID folderID with
  | error e => exact ⟨rfl, without⟩
  | ok f =>
      obtain ⟨-, -, mine⟩ := (m.ownFolder_eq_ok tenantID folderID f).mp own
      dsimp only
      rw [without.liveFolderTaken tenantID foreign]
      split
      · exact ⟨rfl, without⟩
      · split
        · exact ⟨rfl, without⟩
        · exact ⟨rfl, without.putFolder _ _ (mine ▸ foreign)⟩

theorem Without.updateFolder (folderID : Str) (patch : FolderPatch) :
    Agrees tenant (m.updateFolder env tenantID folderID patch)
      (rest.updateFolder env tenantID folderID patch) := by
  have patches :
      rest.patchFolder tenantID folderID patch = m.patchFolder tenantID folderID patch := by
    funext f
    unfold MemoryStore.patchFolder
    simp only [without.liveFolderTaken tenantID foreign]
  unfold MemoryStore.updateFolder
  split
  · exact without.trashFolder env tenantID foreign folderID
  · exact without.restoreFolder tenantID foreign folderID
  · rw [without.ownFolder tenantID foreign, patches]
    cases done : m.ownFolder tenantID folderID >>= m.patchFolder tenantID folderID patch with
    | error e => exact ⟨rfl, without⟩
    | ok next =>
        obtain ⟨f, own, patched⟩ := (bind_eq_ok _ _ _).mp done
        obtain ⟨-, -, mine⟩ := (m.ownFolder_eq_ok tenantID folderID f).mp own
        obtain ⟨shape, -⟩ := m.patchFolder_spec tenantID folderID patch f next patched
        refine ⟨rfl, without.putFolder _ _ ?_⟩
        rw [shape]
        exact mine ▸ foreign

theorem Without.putVersion (objectID : Str) (p : Principal) (input : PutVersionInput)
    (blobKey : Str) :
    Agrees tenant (m.putVersion env tenantID objectID p input blobKey)
      (rest.putVersion env tenantID objectID p input blobKey) := by
  unfold MemoryStore.putVersion
  have same := without.writable tenantID foreign objectID p
  rw [same]
  cases own : m.writable tenantID objectID p with
  | error e => exact ⟨rfl, without⟩
  | ok obj =>
      obtain ⟨-, mine, -⟩ := (m.writable_eq_ok tenantID objectID p obj).mp own
      obtain ⟨kept, -, -⟩ := (rest.writable_eq_ok tenantID objectID p obj).mp (same.trans own)
      dsimp only
      split
      · exact ⟨rfl, without⟩
      · rw [without.vers objectID obj kept]
        exact ⟨rfl, without.putContent env _ _ _ _ (mine ▸ foreign)⟩

theorem Without.updateACL (objectID : Str) (p : Principal) (entries : List ACLEntry) :
    Agrees tenant (m.updateACL tenantID objectID p entries)
      (rest.updateACL tenantID objectID p entries) := by
  unfold MemoryStore.updateACL
  rw [without.writable tenantID foreign]
  cases own : m.writable tenantID objectID p with
  | error e => exact ⟨rfl, without⟩
  | ok obj =>
      obtain ⟨found, mine, -⟩ := (m.writable_eq_ok tenantID objectID p obj).mp own
      exact ⟨rfl, without.putObject _ _ obj (mine ▸ foreign) found rfl rfl⟩

theorem Without.trashObject (objectID : Str) (p : Principal) :
    Agrees tenant (m.trashObject env tenantID objectID p)
      (rest.trashObject env tenantID objectID p) := by
  unfold MemoryStore.trashObject
  rw [without.writable tenantID foreign]
  cases own : m.writable tenantID objectID p with
  | error e => exact ⟨rfl, without⟩
  | ok obj =>
      obtain ⟨found, mine, -⟩ := (m.writable_eq_ok tenantID objectID p obj).mp own
      dsimp only
      split
      · exact ⟨rfl, without⟩
      · exact ⟨rfl, without.putObject _ _ obj (mine ▸ foreign) found rfl rfl⟩

theorem Without.restoreObject (objectID : Str) (p : Principal) :
    Agrees tenant (m.restoreObject env tenantID objectID p)
      (rest.restoreObject env tenantID objectID p) := by
  unfold MemoryStore.restoreObject
  rw [without.writable tenantID foreign]
  cases own : m.writable tenantID objectID p with
  | error e => exact ⟨rfl, without⟩
  | ok obj =>
      obtain ⟨found, mine, -⟩ := (m.writable_eq_ok tenantID objectID p obj).mp own
      dsimp only
      rw [without.liveObjectTaken tenantID foreign]
      split
      · exact ⟨rfl, without⟩
      · split
        · exact ⟨rfl, without⟩
        · exact ⟨rfl, without.putObject _ _ obj (mine ▸ foreign) found rfl rfl⟩

theorem Without.updateObject (objectID : Str) (p : Principal) (patch : ObjectPatch) :
    Agrees tenant (m.updateObject env tenantID objectID p patch)
      (rest.updateObject env tenantID objectID p patch) := by
  have patches : rest.patchObject env tenantID objectID p patch =
      m.patchObject env tenantID objectID p patch := by
    funext obj
    unfold MemoryStore.patchObject
    simp only [without.liveObjectTaken tenantID foreign]
  unfold MemoryStore.updateObject
  split
  · exact without.trashObject env tenantID foreign objectID p
  · exact without.restoreObject env tenantID foreign objectID p
  · rw [without.writable tenantID foreign, patches]
    cases done : m.writable tenantID objectID p >>=
        m.patchObject env tenantID objectID p patch with
    | error e => exact ⟨rfl, without⟩
    | ok next =>
        obtain ⟨obj, own, patched⟩ := (bind_eq_ok _ _ _).mp done
        obtain ⟨found, mine, -⟩ := (m.writable_eq_ok tenantID objectID p obj).mp own
        obtain ⟨-, ⟨locked, lock, shape⟩, -⟩ :=
          m.patchObject_spec env tenantID objectID p patch obj next patched
        obtain ⟨kept, -⟩ := patchLock_spec obj locked p env.now patch.locked lock
        refine ⟨rfl, without.putObject _ _ obj (mine ▸ foreign) found ?_ ?_⟩
        · rw [shape, kept]
        · rw [shape, kept]

omit foreign in
theorem Without.createObject (input : CreateObjectInput) (blobKey : Str)
    (foreign : input.tenantID ≠ tenant) :
    Agrees tenant (m.createObject env input blobKey) (rest.createObject env input blobKey) := by
  unfold MemoryStore.createObject
  rw [without.objectTaken input.tenantID foreign]
  split
  · exact ⟨rfl, without⟩
  · split
    · exact ⟨rfl, without⟩
    · exact ⟨rfl, without.putContent env _ _ _ _ foreign⟩

theorem Without.getObjectData (objectID : Str) (p : Principal) :
    rest.getObjectData tenantID objectID p = m.getObjectData tenantID objectID p := by
  unfold MemoryStore.getObjectData
  have same := without.getObject tenantID foreign objectID p
  rw [same]
  cases got : m.getObject tenantID objectID p with
  | error e => rfl
  | ok obj =>
      obtain ⟨found, here, may⟩ := (bind_eq_ok _ _ _).mp (same.trans got)
      obtain ⟨-, -, last⟩ := (bind_eq_ok _ _ _).mp may
      cases last
      obtain ⟨stored, -⟩ := (rest.lookupObject_eq_ok tenantID objectID obj).mp here
      change Except.ok (obj, rest.blobs[obj.blobKey]?.getD []) =
        Except.ok (obj, m.blobs[obj.blobKey]?.getD [])
      rw [without.blobs objectID obj stored]

theorem Without.listVersions (keyed : Keyed m) (objectID : Str) (p : Principal) :
    rest.listVersions tenantID objectID p = m.listVersions tenantID objectID p := by
  unfold MemoryStore.listVersions
  have same := without.getObject tenantID foreign objectID p
  rw [same]
  cases got : m.getObject tenantID objectID p with
  | error e => rfl
  | ok obj =>
      obtain ⟨found, here, may⟩ := (bind_eq_ok _ _ _).mp (same.trans got)
      obtain ⟨-, -, last⟩ := (bind_eq_ok _ _ _).mp may
      cases last
      obtain ⟨stored, -⟩ := (rest.lookupObject_eq_ok tenantID objectID obj).mp here
      have key := keyed.1 objectID obj (without.object objectID obj stored).1
      change Except.ok (rest.vers[obj.id]?.getD []) = Except.ok (m.vers[obj.id]?.getD [])
      rw [key, without.vers objectID obj stored]

theorem Without.listChildren (folderID : Str) (p : Principal) :
    rest.listChildren tenantID folderID p = m.listChildren tenantID folderID p := by
  unfold MemoryStore.listChildren
  rw [without.listFolders, without.listObjects]
  · intro obj listed mine
    simp only [decide_eq_true_eq] at listed
    exact foreign (listed.1.symm.trans mine)
  · intro f listed mine
    simp only [decide_eq_true_eq] at listed
    exact foreign (listed.1.symm.trans mine)

theorem Without.listTrash (p : Principal) : rest.listTrash tenantID p = m.listTrash tenantID p := by
  unfold MemoryStore.listTrash
  rw [without.listFolders, without.listObjects]
  · intro obj listed mine
    simp only [decide_eq_true_eq] at listed
    exact foreign (listed.1.symm.trans mine)
  · intro f listed mine
    simp only [decide_eq_true_eq] at listed
    exact foreign (listed.1.symm.trans mine)

theorem Without.search (lower : Str → Str) (query : Str) (p : Principal) :
    MemoryStore.search lower rest tenantID query p = MemoryStore.search lower m tenantID query
      p := by
  unfold MemoryStore.search
  dsimp only
  rw [without.listFolders, without.listObjects]
  · intro obj listed mine
    simp only [decide_eq_true_eq] at listed
    exact foreign (listed.1.symm.trans mine)
  · intro f listed mine
    simp only [decide_eq_true_eq] at listed
    exact foreign (listed.1.symm.trans mine)

end Calls

section Runs

variable (lower : Str → Str) {tenant : Str} {m rest : MemoryStore}

/-- A call of another tenant has the same result without the tenant's items. -/
theorem Without.call (without : Without tenant m rest) (keyed : Keyed m) (env : Env) (c : Call)
    (foreign : c.tenant ≠ tenant) :
    Agrees tenant (m.call lower env c) (rest.call lower env c) := by
  cases c with
  | createFolder tenantID parentID name =>
      exact (without.createFolder env tenantID foreign parentID name).map _
  | listChildren tenantID folderID p =>
      exact ⟨by rw [MemoryStore.call, without.listChildren tenantID foreign]; rfl, without⟩
  | search tenantID query p =>
      exact ⟨by rw [MemoryStore.call, without.search tenantID foreign]; rfl, without⟩
  | createObject input blobKey => exact (without.createObject env input blobKey foreign).map _
  | putVersion tenantID objectID p input blobKey =>
      exact (without.putVersion env tenantID foreign objectID p input blobKey).map _
  | getObject tenantID objectID p =>
      exact ⟨congrArg (Except.map _) (without.getObject tenantID foreign objectID p), without⟩
  | getObjectData tenantID objectID p =>
      exact ⟨congrArg (Except.map _) (without.getObjectData tenantID foreign objectID p), without⟩
  | listVersions tenantID objectID p =>
      exact ⟨congrArg (Except.map _) (without.listVersions tenantID foreign keyed objectID p),
        without⟩
  | updateACL tenantID objectID p entries =>
      exact (without.updateACL tenantID foreign objectID p entries).map _
  | updateObject tenantID objectID p patch =>
      exact (without.updateObject env tenantID foreign objectID p patch).map _
  | updateFolder tenantID folderID p patch =>
      exact (without.updateFolder env tenantID foreign folderID patch).map _
  | lookupObject tenantID objectID =>
      exact ⟨congrArg (Except.map _) (without.lookupObject tenantID foreign objectID), without⟩
  | listTrash tenantID p =>
      exact ⟨by rw [MemoryStore.call, without.listTrash tenantID foreign]; rfl, without⟩
  | trashObject tenantID objectID p =>
      exact (without.trashObject env tenantID foreign objectID p).map _
  | restoreObject tenantID objectID p =>
      exact (without.restoreObject env tenantID foreign objectID p).map _
  | trashFolder tenantID folderID p =>
      exact (without.trashFolder env tenantID foreign folderID).map _
  | restoreFolder tenantID folderID p =>
      exact (without.restoreFolder tenantID foreign folderID).map _

/-- The calls of a run with their results. -/
def results : MemoryStore → List (Env × Call) → List ((Env × Call) × Except DriveErr Reply)
  | _, [] => []
  | m, input :: inputs =>
      (input, (m.call lower input.1 input.2).1) :: results (step lower m input) inputs

theorem results_cons (m : MemoryStore) (input : Env × Call) (inputs : List (Env × Call)) :
    results lower m (input :: inputs) =
      (input, (m.call lower input.1 input.2).1) :: results lower (step lower m input) inputs := rfl

variable {idTenant keyTenant : Str → Str}

theorem assigned_resolve (env : Env) (c : Call)
    (assigned : Assigned idTenant keyTenant (env, c)) :
    Assigned idTenant keyTenant (env, c.resolve) := by
  unfold Assigned at assigned ⊢
  dsimp only at assigned ⊢
  rw [resolve_tenant]
  rcases resolve_cases c with same | ⟨tenantID, id, p, moved | moved | moved | moved⟩
  · rw [same]
    exact assigned
  all_goals
    rw [moved]
    exact ⟨by simp [newID], by simp [newKey]⟩

theorem results_without (inputs : List (Env × Call)) (without : Without tenant m rest)
    (owned : Owned idTenant keyTenant m)
    (assigned : ∀ input ∈ inputs, Assigned idTenant keyTenant input) :
    results lower rest (inputs.filter fun input => input.2.tenant ≠ tenant) =
      (results lower m inputs).filter fun result => result.1.2.tenant ≠ tenant := by
  induction inputs generalizing m rest with
  | nil => rfl
  | cons input inputs ih =>
      have first := assigned_resolve input.1 input.2 (assigned input List.mem_cons_self)
      have later := fun other member => assigned other (List.mem_cons_of_mem input member)
      have next : Owned idTenant keyTenant (step lower m input) := by
        unfold step
        rcases call_change lower m input.1 input.2 with same | change
        · rw [same]
          exact owned
        · exact owned.change _ _ first change
      rw [results_cons, List.filter_cons, List.filter_cons]
      by_cases mine : input.2.tenant = tenant
      · rw [if_neg (by simp [mine]), if_neg (by simp [mine])]
        refine ih ?_ next later
        unfold step
        rcases call_change lower m input.1 input.2 with same | change
        · rw [same]
          exact without
        · exact without.deleted owned _ _ first change ((resolve_tenant _).trans mine)
      · rw [if_pos (by simp [mine]), if_pos (by simp [mine])]
        obtain ⟨result, after⟩ := without.call lower owned.keyed input.1 input.2 mine
        rw [results_cons, result]
        congr 1
        exact ih after next later

end Runs

/-- Names that no two tenants share are each one tenant's. -/
theorem exists_tenant_of (names : Env × Call → Option Str) (inputs : List (Env × Call))
    (own : OwnNames names inputs) :
    ∃ tenantOf : Str → Str, ∀ input ∈ inputs, ∀ name ∈ names input,
      tenantOf name = input.2.tenant := by
  classical
  refine ⟨fun name => if given : ∃ input ∈ inputs, name ∈ names input then
    given.choose.2.tenant else [], ?_⟩
  intro input member name named
  have given : ∃ input ∈ inputs, name ∈ names input := ⟨input, member, named⟩
  dsimp only
  rw [dif_pos given]
  exact own _ given.choose_spec.1 input member name given.choose_spec.2 named

variable (lower : Str → Str)

/-- Without the calls of a tenant, every other call of a run has the result it had: the listings,
the data and the errors. The runs share neither uuids nor blob keys between tenants. -/
theorem tenant_isolation (inputs : List (Env × Call)) (tenant : Str)
    (ids : OwnNames newID inputs) (keys : OwnNames newKey inputs) :
    results lower newMemoryStore (inputs.filter fun input => input.2.tenant ≠ tenant) =
      (results lower newMemoryStore inputs).filter fun result => result.1.2.tenant ≠ tenant := by
  obtain ⟨idTenant, ids⟩ := exists_tenant_of newID inputs ids
  obtain ⟨keyTenant, keys⟩ := exists_tenant_of newKey inputs keys
  have owned : Owned idTenant keyTenant newMemoryStore := by
    refine ⟨⟨?_, ?_⟩, ?_, ?_⟩
    all_goals simp [newMemoryStore]
  have without : Without tenant newMemoryStore newMemoryStore := by
    refine ⟨?_, ?_, fun _ _ _ => rfl, fun _ _ _ => rfl⟩
    all_goals
      symm
      rw [newMemoryStore, Std.ExtTreeMap.filter_eq_empty_iff]
      intro key member
      exact absurd member Std.ExtTreeMap.not_mem_empty
  exact results_without lower inputs without owned
    (fun input member => ⟨ids input member, keys input member⟩)

/-- Two tenants in folders of one name, and with files of one name. -/
def twoTenants (key : String) : List (Env × Call) :=
  [(envOf "f1", .createFolder "t1".toList [] "docs".toList),
    (envOf "f2", .createFolder "t2".toList [] "docs".toList),
    (envOf "o1", .createObject (uploadOf "a.txt" "ann" [1]) "k1".toList),
    (envOf "o2", .createObject { uploadOf "a.txt" "bob" [2] with tenantID := "t2".toList }
      key.toList),
    (envOf "-", .getObjectData "t1".toList "o1".toList (userOf "ann"))]

theorem tenant_isolation_two :
    results id newMemoryStore
        ((twoTenants "k2").filter fun input => input.2.tenant ≠ "t2".toList) =
      (results id newMemoryStore (twoTenants "k2")).filter
        fun result => result.1.2.tenant ≠ "t2".toList := by
  apply tenant_isolation id (twoTenants "k2") "t2".toList
  · unfold OwnNames
    decide
  · unfold OwnNames
    decide

/-- Another tenant's upload under the same blob key is what the first one reads. -/
theorem tenant_isolation_shared_key :
    ¬ ∀ (lower : Str → Str) (inputs : List (Env × Call)) (tenant : Str),
      (∀ input ∈ inputs, ∀ p ∈ input.2.principal, p.tenantID = input.2.tenant) →
      (inputs.filterMap newID).Nodup →
      results lower newMemoryStore (inputs.filter fun input => input.2.tenant ≠ tenant) =
        (results lower newMemoryStore inputs).filter
          fun result => result.1.2.tenant ≠ tenant := by
  intro all
  have same := all id (twoTenants "k1") "t2".toList (by decide) (by decide)
  revert same
  decide

end EraOne.Drive
