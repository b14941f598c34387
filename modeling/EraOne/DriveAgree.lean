import EraOne.DrivePg
import EraOne.DriveNames

set_option autoImplicit false

/- The two stores side by side. A row read back is the item in memory, with its access list in the
order of the database; the lists of rows of an object are those in memory. -/
namespace EraOne.Drive

open Scan Like Maps Runs

section Lists

variable (collate : Str → Str → Bool)

/-- An object as the database lists it. -/
def Object.listed (obj : Object) : Object :=
  { obj with acl := obj.acl.mergeSort fun a b => collate a.principal b.principal }

theorem granted_listed (roles : List ACLRole) (obj : Object) (p : Principal) :
    granted roles (obj.listed collate) p = granted roles obj p := by
  unfold granted
  congr 1
  rw [Bool.eq_iff_iff, List.any_eq_true, List.any_eq_true]
  have same := List.mergeSort_perm obj.acl fun a b => collate a.principal b.principal
  constructor
  · intro ⟨e, member, holds⟩
    exact ⟨e, same.mem_iff.mp member, holds⟩
  · intro ⟨e, member, holds⟩
    exact ⟨e, same.mem_iff.mpr member, holds⟩

theorem canRead_listed (obj : Object) (p : Principal) :
    canRead (obj.listed collate) p = canRead obj p := granted_listed collate _ obj p

theorem canWrite_listed (obj : Object) (p : Principal) :
    canWrite (obj.listed collate) p = canWrite obj p := granted_listed collate _ obj p

theorem canRead_of_canWrite (obj : Object) (p : Principal) (may : canWrite obj p = true) :
    canRead obj p = true := by
  unfold canWrite granted at may
  unfold canRead granted
  rw [Bool.or_eq_true, List.any_eq_true] at may ⊢
  rcases may with owner | ⟨e, member, fits⟩
  · exact Or.inl owner
  · refine Or.inr ⟨e, member, ?_⟩
    simp only [Bool.and_eq_true, List.contains_iff_mem, List.mem_cons] at fits ⊢
    rcases fits with ⟨here, role | role | none_⟩
    · exact ⟨here, Or.inl role⟩
    · exact ⟨here, Or.inr (Or.inr (Or.inl role))⟩
    · cases none_

end Lists

/-- The stores hold the same items. -/
structure Matches (m : MemoryStore) (db : PgStore) : Prop where
  folders : m.folders = db.folders.map fun _ row => row.scan
  objects : m.objects = db.objects.map fun id row => row.scan (db.aclOf id)
  keyed : Keyed m
  versions : ∀ id : Str, db.versionsOf id = m.vers[id]?.getD []
  /-- Version numbers go up to that of the head. -/
  counted : ∀ (id : Str) (obj : Object), m.objects[id]? = some obj →
    ((m.vers[id]?.getD []).map (·.version)).Pairwise (· < ·) ∧
      ∀ v ∈ m.vers[id]?.getD [], v.version ≤ obj.version
  /-- What is not there has no rows in the other tables. -/
  absent : ∀ id : Str, id ∉ m.objects → m.vers[id]?.getD [] = [] ∧ db.aclOf id = []
  /-- A lock has a time, and no lock has none. -/
  locks : ∀ (id : Str) (obj : Object), m.objects[id]? = some obj →
    (obj.lockedBy = [] ↔ obj.lockedAt = none)

section Reads

variable (collate : Str → Str → Bool) {m : MemoryStore} {db : PgStore} (same : Matches m db)

include same

theorem Matches.object (id : Str) :
    m.objects[id]? = db.objects[id]?.map fun row => row.scan (db.aclOf id) := by
  rw [same.objects, Std.ExtTreeMap.getElem?_map]

theorem Matches.folder (id : Str) : m.folders[id]? = db.folders[id]?.map FolderRow.scan := by
  rw [same.folders, Std.ExtTreeMap.getElem?_map]

theorem Matches.mem_objects (id : Str) : id ∈ m.objects ↔ id ∈ db.objects := by
  rw [← Std.ExtTreeMap.isSome_getElem?_iff_mem, ← Std.ExtTreeMap.isSome_getElem?_iff_mem,
    same.object, Option.isSome_map]

theorem Matches.mem_folders (id : Str) : id ∈ m.folders ↔ id ∈ db.folders := by
  rw [← Std.ExtTreeMap.isSome_getElem?_iff_mem, ← Std.ExtTreeMap.isSome_getElem?_iff_mem,
    same.folder, Option.isSome_map]

theorem Matches.lookupObject (tenantID objectID : Str) :
    db.lookupObject collate tenantID objectID =
      (m.lookupObject tenantID objectID).map (Object.listed collate) := by
  unfold PgStore.lookupObject PgStore.fetchObject MemoryStore.lookupObject
  rw [same.object]
  cases db.objects[objectID]? with
  | none => rfl
  | some row =>
      change (refuse (row.tenantID ≠ tenantID) .notFound >>= fun _ => _) = _
      dsimp only [Option.map_some]
      unfold refuse
      by_cases own : row.tenantID ≠ tenantID
      · rw [if_pos own, if_pos (by exact own)]
        rfl
      · rw [if_neg own, if_neg (by exact own)]
        rfl

theorem Matches.getObject (tenantID objectID : Str) (p : Principal) :
    db.getObject collate tenantID objectID p =
      (m.getObject tenantID objectID p).map (Object.listed collate) := by
  unfold PgStore.getObject MemoryStore.getObject
  rw [same.lookupObject collate]
  cases m.lookupObject tenantID objectID with
  | error e => rfl
  | ok obj =>
      change (refuse (¬ canRead (obj.listed collate) p = true) .forbidden >>= fun _ => _) =
        Except.map _ (refuse (¬ canRead obj p = true) .forbidden >>= fun _ => _)
      rw [canRead_listed]
      unfold refuse
      split <;> rfl

theorem Matches.writable (tenantID objectID : Str) (p : Principal) :
    db.writable collate tenantID objectID p =
      (m.writable tenantID objectID p).map (Object.listed collate) := by
  unfold PgStore.writable MemoryStore.writable
  rw [same.lookupObject collate]
  cases m.lookupObject tenantID objectID with
  | error e => rfl
  | ok obj =>
      change (refuse (¬ canWrite (obj.listed collate) p = true) .forbidden >>= fun _ => _) =
        Except.map _ (refuse (¬ canWrite obj p = true) .forbidden >>= fun _ => _)
      rw [canWrite_listed]
      unfold refuse
      split <;> rfl

theorem Matches.ownFolder (tenantID folderID : Str) :
    db.ownFolder tenantID folderID = m.ownFolder tenantID folderID := by
  unfold PgStore.ownFolder PgStore.fetchFolder MemoryStore.ownFolder refuse
  by_cases root : folderID = []
  · rw [if_pos root, if_pos root]
    rfl
  · rw [if_neg root, if_neg root, same.folder]
    cases db.folders[folderID]? with
    | none => rfl
    | some row =>
        change Except.bind (if row.scan.tenantID ≠ tenantID then .error DriveErr.notFound
          else .ok ())
          (fun _ => .ok row.scan) = _
        dsimp only [Option.map_some]
        split <;> rfl

/-- A test on the folders of one store asks the same of the other. -/
theorem Matches.anyFolder (p : FolderRow → Bool) (q : Folder → Bool)
    (tests : ∀ row, p row = q row.scan) :
    db.anyFolder p = m.folders.toList.any fun e => q e.2 := by
  unfold PgStore.anyFolder
  rw [same.folders, Std.ExtTreeMap.toList_map, List.any_map]
  congr 1
  funext e
  exact tests e.2

theorem Matches.anyObject (p : ObjectRow → Bool) (q : Object → Bool)
    (tests : ∀ row acl, p row = q (row.scan acl)) :
    db.anyObject p = m.objects.toList.any fun e => q e.2 := by
  unfold PgStore.anyObject
  rw [same.objects, Std.ExtTreeMap.toList_map, List.any_map]
  congr 1
  funext e
  exact tests e.2 _

/-- A `SELECT` of folders lists those that the memory store lists. -/
theorem Matches.selectFolders (p : FolderRow → Bool) (q : Folder → Bool)
    (order : FolderRow → FolderRow → Bool) (tests : ∀ row, p row = q row.scan) :
    (m.listFolders q).Perm (db.selectFolders p order) := by
  have rows : m.listFolders q =
      ((db.folders.toList.map Prod.snd).filter p).map FolderRow.scan := by
    unfold MemoryStore.listFolders
    rw [same.folders, Std.ExtTreeMap.toList_map, List.map_map, List.filter_map, List.filter_map,
      List.map_map]
    have both : (q ∘ (Prod.snd ∘ fun e : Str × FolderRow => (e.1, e.2.scan))) = p ∘ Prod.snd := by
      funext e
      exact (tests e.2).symm
    rw [both]
    rfl
  rw [rows]
  exact ((List.mergeSort_perm _ order).map FolderRow.scan).symm

theorem Matches.selectObjects (p : ObjectRow → Bool) (q : Object → Bool) (pr : Principal)
    (order : ObjectRow → ObjectRow → Bool)
    (tests : ∀ row acl, q (row.scan acl) = (p row && canRead (row.scan acl) pr)) :
    ((m.listObjects q).map (Object.listed collate)).Perm (db.selectObjects collate p order pr) := by
  have ids (e : Str × ObjectRow) (listed : e ∈ db.objects.toList) : e.2.id = e.1 := by
    rw [Std.ExtTreeMap.mem_toList_iff_getElem?_eq_some] at listed
    have found := same.object e.1
    rw [listed, Option.map_some] at found
    exact same.keyed.1 e.1 _ found
  have rows : (m.listObjects q).map (Object.listed collate) =
      (((db.objects.toList.map Prod.snd).filter p).map fun row =>
        row.scan (db.loadACL collate row.id)).filter fun obj => canRead obj pr := by
    unfold MemoryStore.listObjects
    rw [same.objects, Std.ExtTreeMap.toList_map, List.map_map, List.filter_map, List.map_map,
      List.filter_map, List.filter_filter, List.filter_map, List.map_map]
    have kept : db.objects.toList.filter
          (q ∘ (Prod.snd ∘ fun e : Str × ObjectRow => (e.1, e.2.scan (db.aclOf e.1)))) =
        db.objects.toList.filter ((fun row =>
          ((fun obj => canRead obj pr) ∘ fun row => row.scan (db.loadACL collate row.id)) row &&
            p row) ∘ Prod.snd) := by
      refine List.filter_congr ?_
      intro e listed
      change q (e.2.scan (db.aclOf e.1)) =
        (canRead ((e.2.scan (db.aclOf e.2.id)).listed collate) pr && p e.2)
      rw [ids e listed, canRead_listed, tests, Bool.and_comm]
    rw [kept]
    refine List.map_congr_left ?_
    intro e member
    have listed := (List.mem_filter.mp member).1
    change (e.2.scan (db.aclOf e.1)).listed collate = (e.2.scan (db.aclOf e.2.id)).listed collate
    rw [ids e listed]
  rw [rows]
  exact (((List.mergeSort_perm _ order).map _).filter _).symm

end Reads

section Rows

theorem insertACL_ok (objectID : Str) (rows : List AclRow) (entries : List ACLEntry)
    (distinct : (entries.map (·.principal)).Nodup)
    (new : ∀ row ∈ rows, row.objectID = objectID →
      row.entry.principal ∉ entries.map (·.principal)) :
    PgStore.insertACL objectID rows entries =
      .ok (rows ++ entries.map fun e => ⟨objectID, e⟩) := by
  induction entries generalizing rows with
  | nil => simp [PgStore.insertACL]
  | cons e entries ih =>
      rw [List.map_cons, List.nodup_cons] at distinct
      unfold PgStore.insertACL
      rw [if_neg, ih _ distinct.2, List.map_cons, List.append_assoc]
      · rfl
      · intro row member own
        rcases List.mem_append.mp member with old | last
        · have apart := new row old own
          rw [List.map_cons, List.mem_cons, not_or] at apart
          exact apart.2
        · rw [List.mem_singleton] at last
          subst last
          exact distinct.1
      · rw [List.any_eq_true]
        intro ⟨row, member, taken⟩
        simp only [decide_eq_true_eq] at taken
        have apart := new row member taken.1
        rw [List.map_cons, List.mem_cons, not_or] at apart
        exact apart.1 taken.2

/-- What was inserted has one entry for each principal, and none of those there before. -/
theorem insertACL_distinct (objectID : Str) (rows after : List AclRow) (entries : List ACLEntry)
    (done : PgStore.insertACL objectID rows entries = .ok after) :
    (entries.map (·.principal)).Nodup ∧
      ∀ row ∈ rows, row.objectID = objectID → row.entry.principal ∉ entries.map (·.principal) := by
  induction entries generalizing rows with
  | nil => exact ⟨List.nodup_nil, fun _ _ _ => List.not_mem_nil⟩
  | cons e entries ih =>
      unfold PgStore.insertACL at done
      split at done
      · cases done
      · rename_i free
        obtain ⟨distinct, apart⟩ := ih _ done
        rw [List.map_cons, List.nodup_cons]
        refine ⟨⟨apart ⟨objectID, e⟩ (by simp) rfl, distinct⟩, ?_⟩
        intro row member own
        rw [List.mem_cons, not_or]
        refine ⟨?_, apart row (List.mem_append_left _ member) own⟩
        intro taken
        apply free
        rw [List.any_eq_true]
        exact ⟨row, member, decide_eq_true ⟨own, taken⟩⟩

variable (db : PgStore)

theorem insertVersion_ok (objectID : Str) (version : Version)
    (new : ∀ v ∈ db.versionsOf objectID, v.version ≠ version.version) :
    db.insertVersion objectID version = .ok (db.versions ++ [⟨objectID, version⟩]) := by
  unfold PgStore.insertVersion
  rw [if_neg]
  rw [List.any_eq_true]
  intro ⟨row, member, taken⟩
  simp only [decide_eq_true_eq] at taken
  refine new row.version ?_ taken.2
  unfold PgStore.versionsOf
  exact List.mem_map_of_mem (List.mem_filter.mpr ⟨member, by simpa using taken.1⟩)

theorem versionsOf_append (rows : List VersionRow) (objectID id : Str) (version : Version) :
    ({ db with versions := rows ++ [⟨objectID, version⟩] } : PgStore).versionsOf id =
      ({ db with versions := rows } : PgStore).versionsOf id ++
        if objectID = id then [version] else [] := by
  unfold PgStore.versionsOf
  dsimp only
  rw [List.filter_append, List.map_append]
  congr 1
  by_cases here : objectID = id
  · simp [here]
  · simp [here]

/-- The access lists after a list has been replaced. -/
theorem aclOf_replace (objectID id : Str) (entries : List ACLEntry) :
    ({ db with
      acl := (db.acl.filter fun row => row.objectID ≠ objectID) ++
        entries.map fun e => ⟨objectID, e⟩ } : PgStore).aclOf id =
      if objectID = id then entries else db.aclOf id := by
  unfold PgStore.aclOf
  dsimp only
  rw [List.filter_append, List.map_append, List.filter_filter, List.filter_map, List.map_map]
  split
  · rename_i here
    subst here
    have none_ : (db.acl.filter fun row => decide (row.objectID = objectID) &&
        decide (row.objectID ≠ objectID)) = [] := by
      rw [List.filter_eq_nil_iff]
      intro row _
      simp
    have all : entries.filter ((fun row : AclRow => decide (row.objectID = objectID)) ∘
        fun e => (⟨objectID, e⟩ : AclRow)) = entries := by
      rw [List.filter_eq_self]
      intro e _
      simp
    rw [none_, all, List.map_nil, List.nil_append]
    exact List.map_id entries
  · rename_i other
    have old : (db.acl.filter fun row => decide (row.objectID = id) &&
        decide (row.objectID ≠ objectID)) = db.acl.filter fun row => row.objectID = id := by
      refine List.filter_congr ?_
      intro row _
      by_cases here : row.objectID = id
      · simp [here, Ne.symm other]
      · simp [here]
    have none_ : entries.filter ((fun row : AclRow => decide (row.objectID = id)) ∘
        fun e => (⟨objectID, e⟩ : AclRow)) = [] := by
      rw [List.filter_eq_nil_iff]
      intro e _
      simpa using other
    rw [old, none_, List.map_nil, List.append_nil]

end Rows

section Writes

variable {m : MemoryStore} {db : PgStore} (same : Matches m db)

include same

theorem Matches.putFolder (id : Str) (f : Folder) (row : FolderRow) (reads : row.scan = f)
    (named : f.id = id) :
    Matches (m.putFolder id f) { db with folders := db.folders.insert id row } := by
  refine ⟨?_, same.objects, keyed_folders m same.keyed id f named, same.versions, same.counted,
    same.absent, same.locks⟩
  unfold MemoryStore.putFolder
  dsimp only
  rw [map_insert, ← same.folders, reads]

/-- A row that is written, when the access lists of the others stay. -/
theorem Matches.insertRow (id : Str) (obj : Object) (row : ObjectRow) (aclOf : Str → List ACLEntry)
    (others : ∀ k, k ≠ id → aclOf k = db.aclOf k) (reads : row.scan (aclOf id) = obj) :
    m.objects.insert id obj = (db.objects.insert id row).map fun k r => r.scan (aclOf k) := by
  refine Std.ExtTreeMap.ext_getElem? ?_
  intro k
  rw [Std.ExtTreeMap.getElem?_map, Std.ExtTreeMap.getElem?_insert, Std.ExtTreeMap.getElem?_insert]
  simp only [Std.LawfulEqCmp.compare_eq_iff_eq]
  by_cases here : id = k
  · subst here
    rw [if_pos rfl, if_pos rfl, Option.map_some, reads]
  · rw [if_neg here, if_neg here, same.object, others k (Ne.symm here)]

/-- The head of an object that is there, with the version it had. -/
theorem Matches.putObject (id : Str) (obj old : Object) (row : ObjectRow)
    (found : m.objects[id]? = some old) (reads : row.scan (db.aclOf id) = obj)
    (named : obj.id = old.id) (version : obj.version = old.version)
    (lock : obj.lockedBy = [] ↔ obj.lockedAt = none) :
    Matches (m.putObject id obj) { db with objects := db.objects.insert id row } := by
  have head (other : Str) (item : Object)
      (there : (m.putObject id obj).objects[other]? = some item) :
      other = id ∧ item = obj ∨ m.objects[other]? = some item := by
    unfold MemoryStore.putObject at there
    dsimp only at there
    rw [Std.ExtTreeMap.getElem?_insert] at there
    split at there
    · rename_i here
      rw [Std.LawfulEqCmp.compare_eq_iff_eq] at here
      cases there
      exact Or.inl ⟨here.symm, rfl⟩
    · exact Or.inr there
  refine ⟨same.folders, ?_, ?_, same.versions, ?_, ?_, ?_⟩
  · exact same.insertRow id obj row db.aclOf (fun _ _ => rfl) reads
  · exact keyed_objects m same.keyed id obj (named.trans (same.keyed.1 id old found)) m.vers m.blobs
  · intro other item there
    rcases head other item there with ⟨rfl, rfl⟩ | before
    · rw [version]
      exact same.counted other old found
    · exact same.counted other item before
  · intro other absent
    refine same.absent other ?_
    intro member
    exact absent (Std.ExtTreeMap.mem_insert.mpr (Or.inr member))
  · intro other item there
    rcases head other item there with ⟨rfl, rfl⟩ | before
    · exact lock
    · exact same.locks other item before

theorem Matches.putACL (id : Str) (old : Object) (entries : List ACLEntry)
    (found : m.objects[id]? = some old) :
    Matches (m.putObject id { old with acl := entries })
      { db with
        acl := (db.acl.filter fun row => row.objectID ≠ id) ++ entries.map fun e => ⟨id, e⟩ } := by
  have stored := same.object id
  rw [found] at stored
  obtain ⟨row, there, reads⟩ := Option.map_eq_some_iff.mp stored.symm
  have acl := aclOf_replace db id
  -- The row stays; only the entries are other ones.
  have kept : db.objects.insert id row = db.objects := by
    refine Std.ExtTreeMap.ext_getElem? ?_
    intro k
    rw [Std.ExtTreeMap.getElem?_insert]
    split
    · rename_i here
      rw [Std.LawfulEqCmp.compare_eq_iff_eq] at here
      rw [← here, there]
    · rfl
  refine ⟨same.folders, ?_, ?_, same.versions, ?_, ?_, ?_⟩
  · have objects := same.insertRow id { old with acl := entries } row
      (fun k => if id = k then entries else db.aclOf k) (fun k apart => if_neg (Ne.symm apart)) (by
        rw [if_pos rfl, ← reads]
        rfl)
    rw [kept] at objects
    unfold MemoryStore.putObject
    dsimp only
    rw [objects]
    congr 1
    funext k r
    rw [acl k]
  · exact keyed_objects m same.keyed id { old with acl := entries } (same.keyed.1 id old found)
      m.vers m.blobs
  · intro other item present
    unfold MemoryStore.putObject at present
    dsimp only at present
    rw [Std.ExtTreeMap.getElem?_insert] at present
    split at present
    · rename_i here
      rw [Std.LawfulEqCmp.compare_eq_iff_eq] at here
      cases present
      subst here
      exact same.counted id old found
    · exact same.counted other item present
  · intro other absent
    have before : other ∉ m.objects := fun member =>
      absent (Std.ExtTreeMap.mem_insert.mpr (Or.inr member))
    have apart : id ≠ other := by
      rintro rfl
      exact absent (Std.ExtTreeMap.mem_insert.mpr (Or.inl Std.ReflCmp.compare_self))
    refine ⟨(same.absent other before).1, ?_⟩
    rw [acl other, if_neg apart]
    exact (same.absent other before).2
  · intro other item present
    unfold MemoryStore.putObject at present
    dsimp only at present
    rw [Std.ExtTreeMap.getElem?_insert] at present
    split at present
    · cases present
      exact same.locks id old found
    · exact same.locks other item present

/-- An upload: the head, one more version and, for a new object, its access list. -/
theorem Matches.upload (env : Env) (id : Str) (obj : Object) (row : ObjectRow) (data : Bytes)
    (acl : List AclRow) (others : ∀ k, k ≠ id →
      ({ db with acl := acl } : PgStore).aclOf k = db.aclOf k)
    (reads : row.scan (({ db with acl := acl } : PgStore).aclOf id) = obj) (named : obj.id = id)
    (ordered : ((m.vers[id]?.getD []).map (·.version)).Pairwise (· < ·))
    (greater : ∀ v ∈ m.vers[id]?.getD [], v.version < obj.version)
    (lock : obj.lockedBy = [] ↔ obj.lockedAt = none) :
    Matches (m.putContent env id obj data (m.vers[id]?.getD []))
      { db with
        objects := db.objects.insert id row
        versions := db.versions ++ [⟨id, ⟨obj.version, obj.blobKey, obj.sizeBytes, env.now⟩⟩]
        acl := acl } := by
  have lists (k : Str) : (m.putContent env id obj data (m.vers[id]?.getD [])).vers[k]?.getD [] =
      m.vers[k]?.getD [] ++
        if id = k then [⟨obj.version, obj.blobKey, obj.sizeBytes, env.now⟩] else [] := by
    unfold MemoryStore.putContent
    dsimp only
    rw [Std.ExtTreeMap.getElem?_insert]
    simp only [Std.LawfulEqCmp.compare_eq_iff_eq]
    by_cases here : id = k
    · subst here
      rw [if_pos rfl, if_pos rfl, Option.getD_some]
    · rw [if_neg here, if_neg here, List.append_nil]
  refine ⟨same.folders, same.insertRow id obj row _ others reads,
    keyed_objects m same.keyed id obj named _ _, ?_, ?_, ?_, ?_⟩
  · intro k
    rw [lists, ← same.versions k]
    exact versionsOf_append db db.versions id k _
  · intro other item present
    unfold MemoryStore.putContent at present
    dsimp only at present
    rw [Std.ExtTreeMap.getElem?_insert] at present
    rw [lists]
    split at present
    · rename_i here
      rw [Std.LawfulEqCmp.compare_eq_iff_eq] at here
      cases present
      subst here
      rw [if_pos rfl]
      constructor
      · rw [List.map_append, List.pairwise_append]
        refine ⟨ordered, List.pairwise_singleton _ _, ?_⟩
        intro a listed b last
        rw [List.map_singleton, List.mem_singleton] at last
        obtain ⟨v, member, rfl⟩ := List.mem_map.mp listed
        rw [last]
        exact greater v member
      · intro v member
        rcases List.mem_append.mp member with old | last
        · exact Int32.le_of_lt (greater v old)
        · rw [List.mem_singleton] at last
          rw [last]
          exact Int32.le_refl _
    · rename_i apart
      rw [Std.LawfulEqCmp.compare_eq_iff_eq] at apart
      rw [if_neg apart, List.append_nil]
      exact same.counted other item present
  · intro other absent
    have before : other ∉ m.objects := fun member =>
      absent (Std.ExtTreeMap.mem_insert.mpr (Or.inr member))
    have apart : id ≠ other := by
      rintro rfl
      exact absent (Std.ExtTreeMap.mem_insert.mpr (Or.inl Std.ReflCmp.compare_self))
    rw [lists, if_neg apart, List.append_nil]
    exact ⟨(same.absent other before).1, (others other (Ne.symm apart)).trans
      (same.absent other before).2⟩
  · intro other item present
    unfold MemoryStore.putContent at present
    dsimp only at present
    rw [Std.ExtTreeMap.getElem?_insert] at present
    split at present
    · cases present
      exact lock
    · exact same.locks other item present

end Writes

/-- The same result, up to how it is listed, in stores that hold the same. -/
def Alike {α : Type} (listed : α → α) (mem : Except DriveErr α × MemoryStore)
    (pg : Except DriveErr α × PgStore) : Prop :=
  pg.1 = mem.1.map listed ∧ Matches mem.2 pg.2

section Folders

variable {m : MemoryStore} {db : PgStore} (same : Matches m db) (env : Env)

include same

theorem Matches.updateFolderRow (tenantID folderID : Str) (f next : Folder)
    (own : m.ownFolder tenantID folderID = .ok f) (set_ : FolderRow → FolderRow)
    (reads : ∀ row, row.scan = f → (set_ row).scan = next) (named : next.id = f.id) :
    Matches (m.putFolder folderID next) (db.updateFolderRow tenantID folderID set_) := by
  obtain ⟨-, found, tenant⟩ := (m.ownFolder_eq_ok tenantID folderID f).mp own
  have stored := same.folder folderID
  rw [found] at stored
  obtain ⟨row, there, scan⟩ := Option.map_eq_some_iff.mp stored.symm
  unfold PgStore.updateFolderRow
  rw [there]
  dsimp only
  rw [if_pos (by rw [← tenant, ← scan]; rfl)]
  exact same.putFolder folderID next (set_ row) (reads row scan)
    (named.trans (same.keyed.2 folderID f found))

theorem Matches.liveFolders (folderID tenantID parentID name : Str) :
    (db.anyFolder fun r => r.tenantID = tenantID ∧ r.parentID = parentID ∧ r.name = name ∧
      r.id ≠ folderID ∧
        r.trashedAt.isNone) = m.liveFolderTaken folderID tenantID parentID name := by
  refine same.anyFolder _ (fun f => ¬ (f.id = folderID ∨ f.trashedAt.isSome) ∧
    f.tenantID = tenantID ∧ f.parentID = parentID ∧ f.name = name) ?_
  intro row
  rw [decide_eq_decide]
  change _ ↔ ¬ (row.id = folderID ∨ row.trashedAt.isSome = true) ∧
    row.tenantID = tenantID ∧ row.parentID = parentID ∧ row.name = name
  cases row.trashedAt with
  | none =>
      simp
      tauto
  | some t => simp

theorem Matches.trashFolder (tenantID folderID : Str) :
    Alike id (m.trashFolder env tenantID folderID) (db.trashFolder env tenantID folderID) := by
  unfold MemoryStore.trashFolder PgStore.trashFolder
  rw [same.ownFolder]
  cases own : m.ownFolder tenantID folderID with
  | error e => exact ⟨rfl, same⟩
  | ok f =>
      dsimp only
      split
      · exact ⟨rfl, same⟩
      · refine ⟨rfl, same.updateFolderRow tenantID folderID f _ own _ ?_ rfl⟩
        intro row scan
        subst scan
        rfl

theorem Matches.restoreFolder (tenantID folderID : Str) :
    Alike id (m.restoreFolder tenantID folderID) (db.restoreFolder tenantID folderID) := by
  unfold MemoryStore.restoreFolder PgStore.restoreFolder
  rw [same.ownFolder]
  cases own : m.ownFolder tenantID folderID with
  | error e => exact ⟨rfl, same⟩
  | ok f =>
      dsimp only
      rw [same.liveFolders]
      split
      · exact ⟨rfl, same⟩
      · split
        · exact ⟨rfl, same⟩
        · refine ⟨rfl, same.updateFolderRow tenantID folderID f _ own _ ?_ rfl⟩
          intro row scan
          subst scan
          rfl

omit same in
theorem ok_bind {ε α β : Type} (a : α) (f : α → Except ε β) : (Except.ok a >>= f) = f a := rfl

omit same in
/-- The patch of a folder is the plan and then the search for a duplicate. -/
theorem patchFolder_eq (tenantID folderID : Str) (patch : FolderPatch) (f : Folder) :
    m.patchFolder tenantID folderID patch f = (do
      let next ← PgStore.planFolder folderID patch f
      refuse ((next.name ≠ f.name ∨ next.parentID ≠ f.parentID) ∧
        m.liveFolderTaken folderID tenantID next.parentID next.name) .duplicate
      return next) := by
  unfold MemoryStore.patchFolder PgStore.planFolder
  cases patchName f.name patch.name with
  | error e => rfl
  | ok name =>
      unfold refuse
      by_cases itself : patch.parentID = some folderID
      · simp [itself]
        rfl
      · simp [itself]
        rfl

omit same in
theorem planFolder_shape (folderID : Str) (patch : FolderPatch) (f next : Folder)
    (planned : PgStore.planFolder folderID patch f = .ok next) :
    next = { f with name := next.name, parentID := next.parentID } := by
  obtain ⟨name, -, rest⟩ := (bind_eq_ok _ _ _).mp planned
  obtain ⟨⟨⟩, -, rest⟩ := (bind_eq_ok _ _ _).mp rest
  cases rest
  rfl

theorem Matches.updateFolder (tenantID folderID : Str) (patch : FolderPatch) :
    Alike id (m.updateFolder env tenantID folderID patch)
      (db.updateFolder env tenantID folderID patch) := by
  unfold MemoryStore.updateFolder PgStore.updateFolder
  cases patch.trashed with
  | some flag =>
      cases flag with
      | true => exact same.trashFolder env tenantID folderID
      | false => exact same.restoreFolder tenantID folderID
  | none =>
      dsimp only
      rw [same.ownFolder]
      cases own : m.ownFolder tenantID folderID with
      | error e => exact ⟨rfl, same⟩
      | ok f =>
          rw [ok_bind, patchFolder_eq]
          dsimp only
          cases planned : PgStore.planFolder folderID patch f with
          | error e => exact ⟨rfl, same⟩
          | ok next =>
              have shape := planFolder_shape folderID patch f next planned
              dsimp only
              rw [same.liveFolders]
              rw [ok_bind]
              unfold refuse
              by_cases taken : (next.name ≠ f.name ∨ next.parentID ≠ f.parentID) ∧
                  m.liveFolderTaken folderID tenantID next.parentID next.name = true
              · rw [if_pos taken, if_pos taken]
                exact ⟨rfl, same⟩
              · rw [if_neg taken, if_neg taken]
                refine ⟨rfl, same.updateFolderRow tenantID folderID f next own _ ?_ ?_⟩
                · intro row scan
                  rw [shape, ← scan]
                  rfl
                · rw [shape]

variable (lower : Str → Str)

/-- No other tenant has been given this slug. -/
def slugFree (db : PgStore) (tenantID : Str) : Bool :=
  db.tenants.toList.all fun e => e.2 ≠ lower tenantID ∨ e.1 = tenantID

omit same in
theorem ensureTenant_ok (tenantID : Str) (named : tenantID ≠ [])
    (free : slugFree lower db tenantID) :
    ∃ tenants, db.ensureTenant lower tenantID = .ok { db with tenants := tenants } := by
  unfold PgStore.ensureTenant
  dsimp only
  rw [if_neg named]
  by_cases known : tenantID ∈ db.tenants
  · rw [if_pos known]
    exact ⟨db.tenants, rfl⟩
  · rw [if_neg known, if_neg]
    · exact ⟨_, rfl⟩
    · rw [List.any_eq_true]
      intro ⟨e, listed, slug⟩
      have apart := List.all_eq_true.mp free e listed
      simp only [decide_eq_true_eq] at slug apart
      rcases apart with other | itself
      · exact other slug
      · rw [← itself, Std.ExtTreeMap.mem_iff_isSome_getElem?,
          Std.ExtTreeMap.mem_toList_iff_getElem?_eq_some.mp listed] at known
        exact known rfl

theorem Matches.createFolder (tenantID parentID name : Str) (fresh : env.id ∉ m.folders)
    (free : slugFree lower db tenantID) :
    Alike id (m.createFolder env tenantID parentID name)
      (db.createFolder lower env tenantID parentID name) := by
  unfold MemoryStore.createFolder PgStore.createFolder
  by_cases blank : tenantID = [] ∨ name = []
  · rw [if_pos blank, if_pos blank]
    exact ⟨rfl, same⟩
  · rw [if_neg blank, if_neg blank]
    rw [not_or] at blank
    obtain ⟨tenants, ensured⟩ := ensureTenant_ok lower tenantID blank.1 free
    rw [ensured]
    have kept : Matches m { db with tenants := tenants } :=
      ⟨same.folders, same.objects, same.keyed, same.versions, same.counted, same.absent, same.locks⟩
    have taken := kept.anyFolder
      (fun r => r.tenantID = tenantID ∧ r.parentID = parentID ∧ r.name = name)
      (fun f => f.tenantID = tenantID ∧ f.parentID = parentID ∧ f.name = name) (fun _ => rfl)
    dsimp only
    rw [taken]
    change Alike id (if m.folderTaken tenantID parentID name = true then _ else _)
      (if m.folderTaken tenantID parentID name = true then _ else _)
    split
    · exact ⟨rfl, kept⟩
    · rw [if_neg (by rw [← kept.mem_folders]; exact fresh)]
      exact ⟨rfl, kept.putFolder env.id _ _ rfl rfl⟩

end Folders

section Objects

variable (collate : Str → Str → Bool) {m : MemoryStore} {db : PgStore} (same : Matches m db)
  (env : Env)

include same

theorem Matches.updateObjectRow (tenantID objectID : Str) (obj next : Object)
    (found : m.objects[objectID]? = some obj) (tenant : obj.tenantID = tenantID)
    (set_ : ObjectRow → ObjectRow)
    (reads : ∀ row acl, row.scan acl = obj → (set_ row).scan acl = next)
    (named : next.id = obj.id) (version : next.version = obj.version)
    (lock : next.lockedBy = [] ↔ next.lockedAt = none) :
    Matches (m.putObject objectID next) (db.updateObjectRow tenantID objectID set_) := by
  have stored := same.object objectID
  rw [found] at stored
  obtain ⟨row, there, scan⟩ := Option.map_eq_some_iff.mp stored.symm
  unfold PgStore.updateObjectRow
  rw [there]
  dsimp only
  rw [if_pos (by rw [← tenant, ← scan]; rfl)]
  exact same.putObject objectID next obj (set_ row) found (reads row _ scan) named version lock

theorem Matches.liveObjects (objectID tenantID folderID name : Str) :
    (db.anyObject fun r => r.tenantID = tenantID ∧ r.folderID = folderID ∧ r.name = name ∧
      r.id ≠ objectID ∧
        r.trashedAt.isNone) = m.liveObjectTaken objectID tenantID folderID name := by
  refine same.anyObject _ (fun obj => ¬ (obj.id = objectID ∨ obj.trashedAt.isSome) ∧
    obj.tenantID = tenantID ∧ obj.folderID = folderID ∧ obj.name = name) ?_
  intro row acl
  rw [decide_eq_decide]
  change _ ↔ ¬ (row.id = objectID ∨ row.trashedAt.isSome = true) ∧
    row.tenantID = tenantID ∧ row.folderID = folderID ∧ row.name = name
  cases row.trashedAt with
  | none =>
      simp
      tauto
  | some t => simp

theorem Matches.trashObject (tenantID objectID : Str) (p : Principal) :
    Alike (Object.listed collate) (m.trashObject env tenantID objectID p)
      (db.trashObject collate env tenantID objectID p) := by
  unfold MemoryStore.trashObject PgStore.trashObject
  rw [same.writable collate]
  cases own : m.writable tenantID objectID p with
  | error e => exact ⟨rfl, same⟩
  | ok obj =>
      obtain ⟨found, tenant, -⟩ := (m.writable_eq_ok tenantID objectID p obj).mp own
      change Alike _ _ (if obj.trashedAt.isSome = true then _ else _)
      dsimp only
      split
      · exact ⟨rfl, same⟩
      · refine ⟨rfl, same.updateObjectRow tenantID objectID obj _ found tenant _ ?_ rfl rfl
          (same.locks objectID obj found)⟩
        intro row acl scan
        subst scan
        rfl

theorem Matches.restoreObject (tenantID objectID : Str) (p : Principal) :
    Alike (Object.listed collate) (m.restoreObject env tenantID objectID p)
      (db.restoreObject collate env tenantID objectID p) := by
  unfold MemoryStore.restoreObject PgStore.restoreObject
  rw [same.writable collate]
  cases own : m.writable tenantID objectID p with
  | error e => exact ⟨rfl, same⟩
  | ok obj =>
      obtain ⟨found, tenant, -⟩ := (m.writable_eq_ok tenantID objectID p obj).mp own
      dsimp only [Except.map]
      rw [same.liveObjects]
      change Alike _ _ (if obj.trashedAt.isNone = true then _ else
        if m.liveObjectTaken objectID tenantID obj.trashRestoreFolderID obj.name = true then _
        else _)
      split
      · exact ⟨rfl, same⟩
      · split
        · exact ⟨rfl, same⟩
        · refine ⟨rfl, same.updateObjectRow tenantID objectID obj _ found tenant _ ?_ rfl rfl
            (same.locks objectID obj found)⟩
          intro row acl scan
          subst scan
          rfl

theorem Matches.updateACL (tenantID objectID : Str) (p : Principal) (entries : List ACLEntry)
    (distinct : (entries.map (·.principal)).Nodup) :
    Alike id (m.updateACL tenantID objectID p entries)
      (db.updateACL collate tenantID objectID p entries) := by
  unfold MemoryStore.updateACL PgStore.updateACL
  rw [same.writable collate]
  cases own : m.writable tenantID objectID p with
  | error e => exact ⟨rfl, same⟩
  | ok obj =>
      obtain ⟨found, -⟩ := (m.writable_eq_ok tenantID objectID p obj).mp own
      dsimp only [Except.map]
      rw [insertACL_ok objectID _ entries distinct]
      · exact ⟨rfl, same.putACL objectID obj entries found⟩
      · intro row member its
        rw [List.mem_filter] at member
        simp [its] at member

omit same in
/-- Two entries of one principal are refused. -/
theorem updateACL_repeated (db : PgStore) (tenantID objectID : Str) (p : Principal)
    (entries : List ACLEntry) (repeated : ¬ (entries.map (·.principal)).Nodup) :
    ∃ e, (db.updateACL collate tenantID objectID p entries).1 = .error e := by
  unfold PgStore.updateACL
  cases db.writable collate tenantID objectID p with
  | error e => exact ⟨e, rfl⟩
  | ok obj =>
      dsimp only
      cases inserted : PgStore.insertACL objectID _ entries with
      | error e => exact ⟨e, rfl⟩
      | ok after => exact absurd (insertACL_distinct objectID _ after entries inserted).1 repeated

omit same in
theorem lt_succ_of_le (a b : Int32) (below : a ≤ b) (room : b ≠ Int32.maxValue) : a < b + 1 := by
  have low := b.le_toInt
  have high := b.toInt_lt
  have short : b.toInt ≠ 2147483647 := by
    intro full
    exact room (Int32.toInt_inj.mp full)
  have one : (1 : Int32).toInt = 1 := by decide
  rw [Int32.le_iff_toInt_le] at below
  rw [Int32.lt_iff_toInt_lt, Int32.toInt_add, one, Int.bmod_eq_of_le]
  · omega
  · omega
  · omega

theorem Matches.putVersion (tenantID objectID : Str) (p : Principal) (input : PutVersionInput)
    (blobKey : Str) (keyed : blobKey ≠ [])
    (room : ∀ obj, m.objects[objectID]? = some obj → obj.version ≠ Int32.maxValue) :
    Alike (Object.listed collate) (m.putVersion env tenantID objectID p input blobKey)
      (db.putVersion collate env tenantID objectID p input blobKey) := by
  unfold MemoryStore.putVersion PgStore.putVersion MemoryStore.writable
  rw [if_neg keyed, same.lookupObject collate]
  cases looked : m.lookupObject tenantID objectID with
  | error e => exact ⟨rfl, same⟩
  | ok obj =>
      obtain ⟨found, tenant⟩ := (m.lookupObject_eq_ok tenantID objectID obj).mp looked
      have key : blobKeyOr blobKey env = blobKey := if_neg keyed
      rw [key]
      rw [Except.map, ok_bind, ok_bind]
      unfold planVersion refuse
      rw [canWrite_listed]
      have may : canMutateWhileLocked (obj.listed collate) p = canMutateWhileLocked obj p := rfl
      rw [may]
      by_cases write : ¬ canWrite obj p = true
      · rw [if_pos write]
        exact ⟨rfl, same⟩
      · rw [if_neg write]
        by_cases blocked : ¬ canMutateWhileLocked obj p = true
        · rw [if_pos blocked]
          rw [ok_bind, ok_bind]
          dsimp only [pure, Except.pure]
          rw [if_pos blocked]
          exact ⟨rfl, same⟩
        · rw [if_neg blocked, ok_bind, ok_bind, ok_bind]
          dsimp only [pure, Except.pure]
          rw [if_neg blocked]
          obtain ⟨ordered, bounded⟩ := same.counted objectID obj found
          have greater : ∀ v ∈ m.vers[objectID]?.getD [], v.version < obj.version + 1 :=
            fun v member => lt_succ_of_le _ _ (bounded v member) (room obj found)
          have stored := same.object objectID
          rw [found] at stored
          obtain ⟨row, there, scan⟩ := Option.map_eq_some_iff.mp stored.symm
          unfold PgStore.updateContent
          rw [insertVersion_ok]
          · have update : db.updateObjectRow tenantID objectID
                (·.setContent (nextVersion env (obj.listed collate) input blobKey)) =
                { db with
                  objects := db.objects.insert objectID
                    (row.setContent (nextVersion env (obj.listed collate) input blobKey)) } := by
              unfold PgStore.updateObjectRow
              rw [there]
              dsimp only
              rw [if_pos (by rw [← tenant, ← scan]; rfl)]
            rw [update]
            refine ⟨rfl, same.upload env objectID (nextVersion env obj input blobKey)
              (row.setContent (nextVersion env (obj.listed collate) input blobKey)) input.data
                db.acl
              (fun _ _ => rfl) ?_ (same.keyed.1 objectID obj found) ordered greater
              (same.locks objectID obj found)⟩
            subst scan
            rfl
          · intro v member
            rw [same.versions] at member
            exact Int32.ne_of_lt (greater v member)

theorem Matches.insertObject (input : CreateObjectInput) (blobKey : Str)
    (fresh : env.id ∉ m.objects) :
    ∃ next, db.insertObject (newObject env input blobKey) env.now = .ok next ∧
      Matches (m.putContent env env.id (newObject env input blobKey) input.data []) next := by
  obtain ⟨noVersions, noEntries⟩ := same.absent env.id fresh
  have none_ : (db.acl.filter fun row => row.objectID ≠ env.id) = db.acl := by
    rw [List.filter_eq_self]
    intro row member
    rw [decide_eq_true_eq]
    intro its
    have listed : row.entry ∈ db.aclOf env.id := by
      unfold PgStore.aclOf
      exact List.mem_map_of_mem (List.mem_filter.mpr ⟨member, by simpa using its⟩)
    rw [noEntries] at listed
    cases listed
  have acl := aclOf_replace db env.id
  rw [none_] at acl
  have entries := insertACL_ok env.id db.acl (newObject env input blobKey).acl
    (List.nodup_singleton _) (by
      intro row member its
      rw [List.filter_eq_self] at none_
      simpa [its] using none_ row member)
  have version := insertVersion_ok db env.id
    ⟨1, blobKey, input.data.length, env.now⟩ (by
      rw [same.versions, noVersions]
      intro v member
      cases member)
  have upload := same.upload env env.id (newObject env input blobKey)
    (insertedRow (newObject env input blobKey)) input.data
    (db.acl ++ (newObject env input blobKey).acl.map fun e => ⟨env.id, e⟩)
    (fun k apart => (acl k _).trans (if_neg (Ne.symm apart)))
    (by rw [acl, if_pos rfl]; rfl) rfl (by rw [noVersions]; exact List.Pairwise.nil)
    (by rw [noVersions]; intro v member; cases member) (iff_of_true rfl rfl)
  rw [noVersions] at upload
  refine ⟨_, ?_, upload⟩
  refine (bind_eq_ok _ _ _).mpr ⟨(), (refuse_eq_ok _ _ _).mpr ?_, ?_⟩
  · rw [← same.mem_objects]
    exact fresh
  · refine (bind_eq_ok _ _ _).mpr ⟨_, version, ?_⟩
    exact (bind_eq_ok _ _ _).mpr ⟨_, entries, rfl⟩

theorem Matches.createObject (lower : Str → Str) (input : CreateObjectInput) (blobKey : Str)
    (keyed : blobKey ≠ []) (fresh : env.id ∉ m.objects) (free : slugFree lower db input.tenantID) :
    Alike (Object.listed collate) (m.createObject env input blobKey)
      (db.createObject lower env input blobKey) := by
  unfold MemoryStore.createObject PgStore.createObject
  by_cases blank : input.tenantID = [] ∨ input.name = [] ∨ input.ownerUserID = []
  · rw [if_pos blank, if_pos blank]
    exact ⟨rfl, same⟩
  · rw [if_neg blank, if_neg blank]
    rw [not_or] at blank
    obtain ⟨tenants, ensured⟩ := ensureTenant_ok lower input.tenantID blank.1 free
    have kept : Matches m { db with tenants := tenants } :=
      ⟨same.folders, same.objects, same.keyed, same.versions, same.counted, same.absent, same.locks⟩
    have taken := kept.anyObject
      (fun r => r.tenantID = input.tenantID ∧ r.folderID = input.folderID ∧ r.name = input.name)
      (fun f => f.tenantID = input.tenantID ∧ f.folderID = input.folderID ∧ f.name = input.name)
      (fun _ _ => rfl)
    have key : blobKeyOr blobKey env = blobKey := if_neg keyed
    dsimp only
    rw [if_neg keyed, ensured, key]
    dsimp only
    rw [taken]
    change Alike _ (if m.objectTaken input.tenantID input.folderID input.name = true then _ else _)
      (if m.objectTaken input.tenantID input.folderID input.name = true then _ else _)
    split
    · exact ⟨rfl, kept⟩
    · obtain ⟨next, inserted, after⟩ := kept.insertObject env input blobKey fresh
      rw [inserted]
      refine ⟨?_, after⟩
      change Except.ok (newObject env input blobKey) =
        Except.ok ((newObject env input blobKey).listed collate)
      congr 1
      unfold Object.listed newObject defaultOwnerACL
      dsimp only
      rw [List.mergeSort_singleton]

end Objects

section Patches

variable (collate : Str → Str → Bool) {m : MemoryStore} {db : PgStore} (same : Matches m db)
  (env : Env)

/-- An object of this name other than the given one, trashed or not. -/
def MemoryStore.otherTaken (m : MemoryStore) (objectID tenantID folderID name : Str) : Bool :=
  m.objects.toList.any fun e => e.2.tenantID = tenantID ∧ e.2.folderID = folderID ∧
    e.2.name = name ∧ e.2.id ≠ objectID

/-- A patch gives an object a name that a trashed object has, and no live one. -/
def MemoryStore.trashedInWay (m : MemoryStore) (tenantID objectID : Str) (patch : ObjectPatch) :
    Bool :=
  match m.objects[objectID]? with
  | none => false
  | some obj =>
      let folderID := patch.folderID.getD obj.folderID
      let name := (patch.name.map trim).getD obj.name
      (name ≠ obj.name ∨ folderID ≠ obj.folderID) ∧
        m.otherTaken objectID tenantID folderID name ∧
        ¬ m.liveObjectTaken objectID tenantID folderID name

theorem patchLock_listed (obj : Object) (p : Principal) (now : Time) (locked : Option Bool) :
    patchLock (obj.listed collate) p now locked =
      (patchLock obj p now locked).map (Object.listed collate) := by
  match locked with
  | none => rfl
  | some true =>
      change (if isLocked obj = true ∧ ¬ isLocker obj p = true then _ else _) =
        Except.map _ (if isLocked obj = true ∧ ¬ isLocker obj p = true then _ else _)
      split <;> rfl
  | some false =>
      change (if isLocked obj = true ∧ ¬ canUnlock obj p = true then _ else _) =
        Except.map _ (if isLocked obj = true ∧ ¬ canUnlock obj p = true then _ else _)
      split <;> rfl

theorem planObject_listed (p : Principal) (patch : ObjectPatch) (obj : Object) :
    planObject env p patch (obj.listed collate) =
      (planObject env p patch obj).map (Object.listed collate) := by
  unfold planObject
  rw [canWrite_listed, patchLock_listed]
  change (refuse _ _ >>= fun _ => refuse
      ((patch.name.isSome = true ∨ patch.folderID.isSome = true) ∧
        ¬ canMutateWhileLocked obj p = true) _ >>= fun _ => _) = _
  unfold refuse
  by_cases write : ¬ canWrite obj p = true
  · rw [if_pos write]
    rfl
  · rw [if_neg write]
    by_cases blocked : (patch.name.isSome = true ∨ patch.folderID.isSome = true) ∧
        ¬ canMutateWhileLocked obj p = true
    · rw [if_pos blocked]
      rfl
    · rw [if_neg blocked]
      cases patchLock obj p env.now patch.locked with
      | error e => rfl
      | ok locked =>
          change Except.bind (patchName locked.name patch.name) _ =
            Except.map _ (Except.bind (patchName locked.name patch.name) _)
          cases patchName locked.name patch.name with
          | error e => rfl
          | ok name => rfl

/-- The patch of an object that may be written is the plan and then the search for a duplicate. -/
theorem patchObject_eq (tenantID objectID : Str) (p : Principal) (patch : ObjectPatch)
    (obj : Object) (write : canWrite obj p = true) :
    m.patchObject env tenantID objectID p patch obj = (do
      let next ← planObject env p patch obj
      refuse ((next.name ≠ obj.name ∨ next.folderID ≠ obj.folderID) ∧
        m.liveObjectTaken objectID tenantID next.folderID next.name) .duplicate
      return next) := by
  unfold MemoryStore.patchObject planObject
  unfold refuse
  rw [if_neg (not_not.mpr write)]
  by_cases blocked : (patch.name.isSome = true ∨ patch.folderID.isSome = true) ∧
      ¬ canMutateWhileLocked obj p = true
  · rw [if_pos blocked]
    rfl
  · rw [if_neg blocked]
    cases lock : patchLock obj p env.now patch.locked with
    | error e => rfl
    | ok locked =>
        obtain ⟨shape, -⟩ := patchLock_spec obj locked p env.now patch.locked lock
        have name : locked.name = obj.name := by rw [shape]
        have folder : locked.folderID = obj.folderID := by rw [shape]
        change Except.bind (patchName locked.name patch.name) _ =
          Except.bind (Except.bind (patchName locked.name patch.name) _) _
        rw [name, folder]
        cases patchName obj.name patch.name with
        | error e => rfl
        | ok new => rfl

theorem planObject_shape (p : Principal) (patch : ObjectPatch) (obj next : Object)
    (planned : planObject env p patch obj = .ok next) :
    next = { obj with
      name := (patch.name.map trim).getD obj.name, folderID := patch.folderID.getD obj.folderID
      updatedAt := env.now, lockedBy := next.lockedBy, lockedAt := next.lockedAt } ∧
    ∃ locked, patchLock obj p env.now patch.locked = .ok locked ∧
      next.lockedBy = locked.lockedBy ∧ next.lockedAt = locked.lockedAt := by
  obtain ⟨⟨⟩, -, rest⟩ := (bind_eq_ok _ _ _).mp planned
  obtain ⟨⟨⟩, -, rest⟩ := (bind_eq_ok _ _ _).mp rest
  obtain ⟨locked, lock, rest⟩ := (bind_eq_ok _ _ _).mp rest
  obtain ⟨name, named, rest⟩ := (bind_eq_ok _ _ _).mp rest
  obtain ⟨shape, -⟩ := patchLock_spec obj locked p env.now patch.locked lock
  have given : name = (patch.name.map trim).getD locked.name := by
    cases new : patch.name with
    | none =>
        rw [new] at named
        cases named
        rfl
    | some text =>
        rw [new] at named
        change (if trim text = [] then _ else _) = _ at named
        split at named
        · cases named
        · cases named
          rfl
  cases rest
  refine ⟨?_, locked, lock, rfl, rfl⟩
  rw [given, shape]

/-- A patch that no nameless user locks with keeps a lock and its time together. -/
theorem planObject_locks (p : Principal) (patch : ObjectPatch) (obj next : Object)
    (before : obj.lockedBy = [] ↔ obj.lockedAt = none)
    (named : patch.locked = some true → p.userID ≠ [])
    (planned : planObject env p patch obj = .ok next) :
    next.lockedBy = [] ↔ next.lockedAt = none := by
  obtain ⟨-, locked, lock, user, time⟩ := planObject_shape env p patch obj next planned
  rw [user, time]
  obtain ⟨-, outcome⟩ := patchLock_spec obj locked p env.now patch.locked lock
  rcases outcome with ⟨-, kept⟩ | ⟨asks, -, taken, since⟩ | ⟨-, -, freed, since⟩
  · rw [kept]
    exact before
  · rw [taken, since]
    exact iff_of_false (named asks) (by simp)
  · rw [freed, since]
    exact iff_of_true rfl rfl

theorem other_of_live (objectID tenantID folderID name : Str)
    (live : m.liveObjectTaken objectID tenantID folderID name = true) :
    m.otherTaken objectID tenantID folderID name = true := by
  unfold MemoryStore.liveObjectTaken at live
  unfold MemoryStore.otherTaken
  rw [List.any_eq_true] at live ⊢
  obtain ⟨e, listed, fits⟩ := live
  simp only [decide_eq_true_eq, not_or] at fits
  exact ⟨e, listed, by simp [fits]⟩

/-- The row that `UpdateObject` writes reads back as what it returns. -/
theorem setMeta_scan (row : ObjectRow) (acl : List ACLEntry) (obj next : Object) (now : Time)
    (name folderID : Str) (scan : row.scan acl = obj)
    (shape : next = { obj with
      name := name, folderID := folderID, updatedAt := now, lockedBy := next.lockedBy
      lockedAt := next.lockedAt })
    (locks : next.lockedBy = [] ↔ next.lockedAt = none) :
    (row.setMeta (next.listed collate) now).scan acl = next := by
  have user : (if next.lockedBy ≠ [] then some next.lockedBy else none).getD [] =
      next.lockedBy := by
    by_cases free : next.lockedBy = []
    · rw [if_neg (not_not.mpr free), free]
      rfl
    · rw [if_pos free]
      rfl
  have time : (if next.lockedBy ≠ [] then some (next.lockedAt.getD now) else none) =
      next.lockedAt := by
    by_cases free : next.lockedBy = []
    · rw [if_neg (not_not.mpr free), locks.mp free]
    · rw [if_pos free]
      cases since : next.lockedAt with
      | none => exact absurd (locks.mpr since) free
      | some t => rfl
  unfold ObjectRow.setMeta ObjectRow.scan Object.listed
  dsimp only
  rw [user, time]
  generalize next.lockedBy = by_ at shape
  generalize next.lockedAt = at_ at shape
  rw [shape, ← scan]
  rfl

include same

theorem Matches.otherObjects (objectID tenantID folderID name : Str) :
    (db.anyObject fun r => r.tenantID = tenantID ∧ r.folderID = folderID ∧ r.name = name ∧
      r.id ≠ objectID) = m.otherTaken objectID tenantID folderID name :=
  same.anyObject _ (fun obj => obj.tenantID = tenantID ∧ obj.folderID = folderID ∧
    obj.name = name ∧ obj.id ≠ objectID) (fun _ _ => rfl)

/-- The plan for an object that may be written, and what is written then. -/
theorem Matches.planned (tenantID objectID : Str) (p : Principal) (patch : ObjectPatch)
    (obj : Object) (named : patch.locked = some true → p.userID ≠ [])
    (clear : m.trashedInWay tenantID objectID patch = false)
    (found : m.objects[objectID]? = some obj) (tenant : obj.tenantID = tenantID)
    (write : canWrite obj p = true) :
    Alike (Object.listed collate)
      (match m.patchObject env tenantID objectID p patch obj with
        | .error e => (.error e, m)
        | .ok obj => (.ok obj, m.putObject objectID obj))
      (match planObject env p patch (obj.listed collate) with
        | .error e => (.error e, db)
        | .ok next =>
            if (next.name ≠ obj.name ∨ next.folderID ≠ obj.folderID) ∧
                db.anyObject fun r => r.tenantID = tenantID ∧ r.folderID = next.folderID ∧
                  r.name = next.name ∧ r.id ≠ objectID then
              (.error .duplicate, db)
            else (.ok next, db.updateObjectRow tenantID objectID (·.setMeta next env.now))) := by
  rw [patchObject_eq env tenantID objectID p patch obj write, planObject_listed]
  cases planned : planObject env p patch obj with
  | error e => exact ⟨rfl, same⟩
  | ok next =>
      obtain ⟨shape, -⟩ := planObject_shape env p patch obj next planned
      have locks :=
        planObject_locks env p patch obj next (same.locks objectID obj found) named planned
      -- The searches for a duplicate agree, as no trashed object is in the way.
      have duplicate : (next.name ≠ obj.name ∨ next.folderID ≠ obj.folderID) ∧
            m.otherTaken objectID tenantID next.folderID next.name = true ↔
          (next.name ≠ obj.name ∨ next.folderID ≠ obj.folderID) ∧
            m.liveObjectTaken objectID tenantID next.folderID next.name = true := by
        have name : next.name = (patch.name.map trim).getD obj.name := by rw [shape]
        have folder : next.folderID = patch.folderID.getD obj.folderID := by rw [shape]
        unfold MemoryStore.trashedInWay at clear
        rw [found] at clear
        dsimp only at clear
        rw [← name, ← folder, decide_eq_false_iff_not] at clear
        constructor
        · intro ⟨moved, other⟩
          refine ⟨moved, ?_⟩
          by_contra live
          exact clear ⟨moved, other, live⟩
        · intro ⟨moved, live⟩
          exact ⟨moved, other_of_live objectID tenantID next.folderID next.name live⟩
      dsimp only [Except.map]
      change Alike _ (match (refuse _ _ >>= fun _ => Except.ok next) with
          | .error e => (.error e, m)
          | .ok obj => (.ok obj, m.putObject objectID obj))
        (if (next.name ≠ obj.name ∨ next.folderID ≠ obj.folderID) ∧ (db.anyObject fun r =>
            r.tenantID = tenantID ∧ r.folderID = next.folderID ∧ r.name = next.name ∧
              r.id ≠ objectID) = true then _ else _)
      rw [same.otherObjects]
      unfold refuse
      by_cases taken : (next.name ≠ obj.name ∨ next.folderID ≠ obj.folderID) ∧
          m.liveObjectTaken objectID tenantID next.folderID next.name = true
      · rw [if_pos taken, if_pos (duplicate.mpr taken)]
        exact ⟨rfl, same⟩
      · rw [if_neg taken, if_neg (fun other => taken (duplicate.mp other))]
        refine ⟨rfl, same.updateObjectRow tenantID objectID obj next found tenant _ ?_ ?_ ?_ locks⟩
        · intro row acl scan
          exact setMeta_scan collate row acl obj next env.now _ _ scan shape locks
        · rw [shape]
        · rw [shape]

theorem Matches.updateObject (tenantID objectID : Str) (p : Principal) (patch : ObjectPatch)
    (plain : patch.trashed = none → (patch.locked = some true → p.userID ≠ []) ∧
      m.trashedInWay tenantID objectID patch = false) :
    Alike (Object.listed collate) (m.updateObject env tenantID objectID p patch)
      (db.updateObject collate env tenantID objectID p patch) := by
  unfold MemoryStore.updateObject PgStore.updateObject
  cases trashed : patch.trashed with
  | some flag =>
      cases flag with
      | true => exact same.trashObject collate env tenantID objectID p
      | false => exact same.restoreObject collate env tenantID objectID p
  | none =>
      obtain ⟨named, clear⟩ := plain trashed
      dsimp only
      rw [same.getObject collate]
      have reads :
          m.getObject tenantID objectID p = (m.lookupObject tenantID objectID >>= fun obj =>
        if ¬ canRead obj p = true then .error .forbidden else .ok obj) := by
        unfold MemoryStore.getObject refuse
        congr 1
        funext obj
        split <;> rfl
      have writes :
          m.writable tenantID objectID p = (m.lookupObject tenantID objectID >>= fun obj =>
        if ¬ canWrite obj p = true then .error .forbidden else .ok obj) := by
        unfold MemoryStore.writable refuse
        congr 1
        funext obj
        split <;> rfl
      rw [reads, writes]
      cases looked : m.lookupObject tenantID objectID with
      | error e => exact ⟨rfl, same⟩
      | ok obj =>
          obtain ⟨found, tenant⟩ := (m.lookupObject_eq_ok tenantID objectID obj).mp looked
          dsimp only [bind, Except.bind]
          by_cases write : canWrite obj p = true
          · have read := canRead_of_canWrite obj p write
            rw [if_neg (not_not.mpr write), if_neg (not_not.mpr read)]
            exact same.planned collate env tenantID objectID p patch obj named clear found tenant
              write
          · rw [if_pos write]
            by_cases read : canRead obj p = true
            · have refused : planObject env p patch (obj.listed collate) = .error .forbidden := by
                unfold planObject refuse
                rw [canWrite_listed, if_pos write]
                rfl
              rw [if_neg (not_not.mpr read)]
              dsimp only [Except.map]
              rw [refused]
              exact ⟨rfl, same⟩
            · rw [if_pos read]
              exact ⟨rfl, same⟩

end Patches

section Listings

/-- `strings.ToLower` goes rune by rune, and leaves alone what is special in a pattern. -/
structure RuneWise (lower : Str → Str) : Prop where
  runes : ∃ rune : Char → Char, (∀ s, lower s = s.map rune) ∧
    ∀ c, (special c = true → rune c = c) ∧ (special (rune c) = true → special c = true)

theorem likeContainsPattern_eq (q : Str) : likeContainsPattern q = '%' :: escape q ++ ['%'] := by
  have replaced (x : Char) (f g : Char → Str) (here : f x = [x]) (code : g x = ['\\', x])
      (others : ∀ c, c ≠ x → g c = f c ∧ x ∉ f c) (s : Str) :
      replaceAll [x] ['\\', x] (s.flatMap f) = s.flatMap g := by
    refine replaceAll_flatMap _ _ (by simp) f g ?_ s
    intro c
    by_cases is_ : c = x
    · rw [is_]
      exact Or.inl ⟨here, code⟩
    · obtain ⟨same, absent⟩ := others c is_
      exact Or.inr ⟨same, quiet_of_not_mem x [] (f c) absent⟩
  have first := replaced '\\' (fun c => [c]) (fun c => if c = '\\' then ['\\', c] else [c]) rfl rfl
    (by intro c apart; simp [apart, Ne.symm apart]) q
  have second := replaced '%' (fun c => if c = '\\' then ['\\', c] else [c])
    (fun c => if c = '\\' ∨ c = '%' then ['\\', c] else [c]) rfl rfl (by
      intro c apart
      by_cases slash : c = '\\'
      · simp [slash]
      · simp [slash, apart, Ne.symm apart]) q
  have third := replaced '_' (fun c => if c = '\\' ∨ c = '%' then ['\\', c] else [c]) escapeChar rfl
    rfl (by
      intro c apart
      unfold escapeChar special
      by_cases slash : c = '\\' ∨ c = '%'
      · rcases slash with rfl | rfl
        · simp
        · simp
      · rw [not_or] at slash
        simp [slash, apart, Ne.symm apart]) q
  unfold likeContainsPattern
  dsimp only
  rw [List.flatMap_singleton'] at first
  rw [first, second, third]
  rfl

/-- The pattern asks for the lower-cased substring. -/
theorem ilike_substring (lower : Str → Str) (runeWise : RuneWise lower) (q name : Str) :
    like (lower (likeContainsPattern q)) (lower name) = contains (lower q) (lower name) := by
  obtain ⟨rune, runes, keeps⟩ := runeWise.runes
  have escaped : (escape q).map rune = escape (q.map rune) := by
    unfold escape
    rw [List.map_flatMap, List.flatMap_map]
    congr 1
    funext c
    unfold escapeChar
    by_cases code : special c = true
    · have slash : rune '\\' = '\\' := (keeps '\\').1 rfl
      rw [if_pos code, (keeps c).1 code, if_pos code, List.map_cons, List.map_cons, slash,
        (keeps c).1 code, List.map_nil]
    · rw [if_neg code, if_neg fun made => code ((keeps c).2 made)]
      rfl
  have percent : rune '%' = '%' := (keeps '%').1 rfl
  rw [likeContainsPattern_eq, runes ('%' :: escape q ++ ['%']), List.map_append, List.map_cons,
    List.map_singleton, percent, escaped, ← runes q]
  exact like_substring (lower q) (lower name)

variable (collate : Str → Str → Bool) {m : MemoryStore} {db : PgStore} (same : Matches m db)

include same

theorem Matches.listVersions (tenantID objectID : Str) (p : Principal) :
    db.listVersions collate tenantID objectID p = m.listVersions tenantID objectID p := by
  unfold PgStore.listVersions MemoryStore.listVersions
  rw [same.getObject collate]
  cases got : m.getObject tenantID objectID p with
  | error e => rfl
  | ok obj =>
      obtain ⟨other, here, may⟩ := (bind_eq_ok _ _ _).mp got
      obtain ⟨-, -, last⟩ := (bind_eq_ok _ _ _).mp may
      cases last
      obtain ⟨found, -⟩ := (m.lookupObject_eq_ok tenantID objectID obj).mp here
      have ordered := (same.counted objectID obj found).1
      have key := same.keyed.1 objectID obj found
      change Except.ok ((db.versionsOf objectID).mergeSort fun a b => a.version ≤ b.version) =
        Except.ok (m.vers[obj.id]?.getD [])
      rw [key, same.versions, List.mergeSort_of_pairwise]
      refine (List.pairwise_map.mp ordered).imp ?_
      intro a b less
      simpa using Int32.le_of_lt less

theorem Matches.listChildren (tenantID folderID : Str) (p : Principal) :
    (m.listChildren tenantID folderID p).1.Perm (db.listChildren collate tenantID folderID p).1 ∧
      ((m.listChildren tenantID folderID p).2.map (Object.listed collate)).Perm
        (db.listChildren collate tenantID folderID p).2 := by
  unfold MemoryStore.listChildren PgStore.listChildren
  constructor
  · exact same.selectFolders _ _ _ (fun _ => rfl)
  · refine same.selectObjects collate _ _ p _ ?_
    intro row acl
    rw [Bool.eq_iff_iff]
    simp only [Bool.and_eq_true, decide_eq_true_eq, and_assoc]
    exact Iff.rfl

theorem Matches.listTrash (tenantID : Str) (p : Principal) :
    (m.listTrash tenantID p).1.Perm (db.listTrash collate tenantID p).1 ∧
      ((m.listTrash tenantID p).2.map (Object.listed collate)).Perm
        (db.listTrash collate tenantID p).2 := by
  unfold MemoryStore.listTrash PgStore.listTrash
  constructor
  · exact same.selectFolders _ _ _ (fun _ => rfl)
  · refine same.selectObjects collate _ _ p _ ?_
    intro row acl
    rw [Bool.eq_iff_iff]
    simp only [Bool.and_eq_true, decide_eq_true_eq, and_assoc]
    exact Iff.rfl

theorem Matches.search (lower : Str → Str) (runeWise : RuneWise lower) (tenantID query : Str)
    (p : Principal) :
    (MemoryStore.search lower m tenantID query p).1.Perm
        (db.search lower collate tenantID query p).1 ∧
      ((MemoryStore.search lower m tenantID query p).2.map (Object.listed collate)).Perm
        (db.search lower collate tenantID query p).2 := by
  unfold MemoryStore.search PgStore.search
  dsimp only
  split
  · exact ⟨List.Perm.nil, List.Perm.nil⟩
  · constructor
    · refine same.selectFolders _ _ _ ?_
      intro row
      simp only [ilike_substring lower runeWise]
      rfl
    · refine same.selectObjects collate _ _ p _ ?_
      intro row acl
      rw [Bool.eq_iff_iff]
      simp only [ilike_substring lower runeWise, Bool.and_eq_true, decide_eq_true_eq, and_assoc]
      exact Iff.rfl

end Listings

section Runs

variable (lower : Str → Str) (collate : Str → Str → Bool)

/-- The same folders, and the same objects as the database lists them; listings in any order, and
without the data, which only one of the stores has. -/
def Reply.Same : Reply → Reply → Prop
  | .folder f, .folder g => f = g
  | .object obj, .object row => row = obj.listed collate
  | .data obj _, .data row _ => row = obj.listed collate
  | .versions vs, .versions ws => vs = ws
  | .listing folders objects, .listing folders' objects' =>
      folders.Perm folders' ∧ (objects.map (Object.listed collate)).Perm objects'
  | .done, .done => True
  | _, _ => False

def SameResult : Except DriveErr Reply → Except DriveErr Reply → Prop
  | .error e, .error e' => e = e'
  | .ok reply, .ok reply' => reply.Same collate reply'
  | _, _ => False

def bothStep (s : MemoryStore × PgStore) (input : Env × Call) : MemoryStore × PgStore :=
  ((s.1.call lower input.1 input.2).2, (s.2.call lower collate input.1 input.2).2)

/-- The stores answer a call alike. -/
def AnsweredAlike (s : MemoryStore × PgStore) (input : Env × Call) : Prop :=
  SameResult collate (s.1.call lower input.1 input.2).1 (s.2.call lower collate input.1 input.2).1

/-- New uuids, and blob keys that are not empty. -/
def InScope (s : MemoryStore × PgStore) (input : Env × Call) : Prop :=
  match input.2 with
  | .createFolder _ _ _ => input.1.id ∉ s.1.folders
  | .createObject _ blobKey => input.1.id ∉ s.1.objects ∧ blobKey ≠ []
  | .putVersion _ _ _ _ blobKey => blobKey ≠ []
  | _ => True

/-- What the database's constraints and columns ask for, and no trashed object in the way of a
rename. -/
def WithinSchema (s : MemoryStore × PgStore) (input : Env × Call) : Prop :=
  match input.2 with
  | .createFolder tenantID _ _ => slugFree lower s.2 tenantID = true
  | .createObject content _ => slugFree lower s.2 content.tenantID = true
  | .putVersion _ objectID _ _ _ => ∀ obj ∈ s.1.objects[objectID]?, obj.version ≠ Int32.maxValue
  | .updateACL _ _ _ entries => (entries.map (·.principal)).Nodup
  | .updateObject tenantID objectID p patch => patch.trashed = none →
      (patch.locked = some true → p.userID ≠ []) ∧
        s.1.trashedInWay tenantID objectID patch = false
  | _ => True

variable {m : MemoryStore} {db : PgStore}

theorem Alike.objects {mem : Except DriveErr Object × MemoryStore}
    {pg : Except DriveErr Object × PgStore} (alike : Alike (Object.listed collate) mem pg) :
    SameResult collate (mem.map (Except.map Reply.object) id).1
        (pg.map (Except.map Reply.object) id).1 ∧ Matches mem.2 pg.2 := by
  obtain ⟨result, after⟩ := alike
  refine ⟨?_, after⟩
  rw [Prod.map_fst, Prod.map_fst, result]
  cases mem.1 with
  | error e => exact rfl
  | ok obj => exact rfl

theorem Alike.folders {mem : Except DriveErr Folder × MemoryStore}
    {pg : Except DriveErr Folder × PgStore} (alike : Alike id mem pg) :
    SameResult collate (mem.map (Except.map Reply.folder) id).1
        (pg.map (Except.map Reply.folder) id).1 ∧ Matches mem.2 pg.2 := by
  obtain ⟨result, after⟩ := alike
  refine ⟨?_, after⟩
  rw [Prod.map_fst, Prod.map_fst, result]
  cases mem.1 with
  | error e => exact rfl
  | ok f => exact rfl

theorem Matches.call (same : Matches m db) (runeWise : RuneWise lower) (env : Env) (c : Call)
    (scope : InScope (m, db) (env, c)) (schema : WithinSchema lower (m, db) (env, c)) :
    SameResult collate (m.call lower env c).1 (db.call lower collate env c).1 ∧
      Matches (m.call lower env c).2 (db.call lower collate env c).2 := by
  cases c with
  | createFolder tenantID parentID name =>
      exact (same.createFolder env lower tenantID parentID name scope schema).folders collate
  | listChildren tenantID folderID p => exact ⟨same.listChildren collate tenantID folderID p, same⟩
  | search tenantID query p => exact ⟨same.search collate lower runeWise tenantID query p, same⟩
  | createObject input blobKey =>
      exact (same.createObject collate env lower input blobKey scope.2 scope.1 schema).objects
        collate
  | putVersion tenantID objectID p input blobKey =>
      exact (same.putVersion collate env tenantID objectID p input blobKey scope
        (fun obj found => schema obj found)).objects collate
  | getObject tenantID objectID p =>
      refine ⟨?_, same⟩
      unfold MemoryStore.call PgStore.call
      dsimp only
      rw [same.getObject collate]
      cases m.getObject tenantID objectID p with
      | error e => exact rfl
      | ok obj => exact rfl
  | getObjectData tenantID objectID p =>
      refine ⟨?_, same⟩
      unfold MemoryStore.call PgStore.call MemoryStore.getObjectData PgStore.getObjectData
      dsimp only
      rw [same.getObject collate]
      cases m.getObject tenantID objectID p with
      | error e => exact rfl
      | ok obj => exact rfl
  | listVersions tenantID objectID p =>
      refine ⟨?_, same⟩
      unfold MemoryStore.call PgStore.call
      dsimp only
      rw [same.listVersions collate]
      cases m.listVersions tenantID objectID p with
      | error e => exact rfl
      | ok vs => exact rfl
  | updateACL tenantID objectID p entries =>
      obtain ⟨result, after⟩ := same.updateACL collate tenantID objectID p entries schema
      refine ⟨?_, after⟩
      unfold MemoryStore.call PgStore.call
      dsimp only [Prod.map_fst]
      rw [result]
      cases (m.updateACL tenantID objectID p entries).1 with
      | error e => exact rfl
      | ok u => exact trivial
  | updateObject tenantID objectID p patch =>
      exact (same.updateObject collate env tenantID objectID p patch schema).objects collate
  | updateFolder tenantID folderID p patch =>
      exact (same.updateFolder env tenantID folderID patch).folders collate
  | lookupObject tenantID objectID =>
      refine ⟨?_, same⟩
      unfold MemoryStore.call PgStore.call
      dsimp only
      rw [same.lookupObject collate]
      cases m.lookupObject tenantID objectID with
      | error e => exact rfl
      | ok obj => exact rfl
  | listTrash tenantID p => exact ⟨same.listTrash collate tenantID p, same⟩
  | trashObject tenantID objectID p =>
      exact (same.trashObject collate env tenantID objectID p).objects collate
  | restoreObject tenantID objectID p =>
      exact (same.restoreObject collate env tenantID objectID p).objects collate
  | trashFolder tenantID folderID p =>
      exact (same.trashFolder env tenantID folderID).folders collate
  | restoreFolder tenantID folderID p =>
      exact (same.restoreFolder tenantID folderID).folders collate

/-- Two entries of one principal are refused by one store only. -/
theorem not_alike_of_repeated (s : MemoryStore × PgStore) (env : Env) (tenantID objectID : Str)
    (p : Principal) (entries : List ACLEntry) (repeated : ¬ (entries.map (·.principal)).Nodup)
    (accepted : (s.1.updateACL tenantID objectID p entries).1 = .ok ()) :
    ¬ AnsweredAlike lower collate s (env, .updateACL tenantID objectID p entries) := by
  unfold AnsweredAlike MemoryStore.call PgStore.call
  dsimp only [Prod.map_fst]
  obtain ⟨e, refused⟩ := updateACL_repeated collate s.2 tenantID objectID p entries repeated
  rw [accepted, refused]
  exact not_false

theorem matches_new : Matches newMemoryStore newPgStore where
  folders := by decide
  objects := by decide
  keyed := by
    constructor <;> intro id item found <;> simp [newMemoryStore] at found
  versions := by
    intro id
    simp [newMemoryStore, newPgStore, PgStore.versionsOf]
  counted := by
    intro id obj found
    simp [newMemoryStore] at found
  absent := by
    intro id absent
    simp [newMemoryStore, newPgStore, PgStore.aclOf]
  locks := by
    intro id obj found
    simp [newMemoryStore] at found

/-- The two stores answer every call of a run alike. -/
theorem stores_agree (runeWise : RuneWise lower) (inputs : List (Env × Call))
    (scope : Guarded (bothStep lower collate) InScope (newMemoryStore, newPgStore) inputs)
    (schema : Guarded (bothStep lower collate) (WithinSchema lower) (newMemoryStore, newPgStore)
      inputs) :
    Guarded (bothStep lower collate) (AnsweredAlike lower collate) (newMemoryStore, newPgStore)
      inputs := by
  refine guarded_of_invariant _ (fun s => Matches s.1 s.2)
    (fun s input => InScope s input ∧ WithinSchema lower s input) _ ?_ _ inputs matches_new ?_
  · intro s input same both
    exact same.call lower collate runeWise input.1 input.2 both.1 both.2
  · intro front input within
    exact ⟨scope front input within, schema front input within⟩

end Runs

/-- An upload whose access list is then set to `entries`, locked, renamed and trashed. -/
def sharedRun (entries : List ACLEntry) : List (Env × Call) :=
  [(envOf "f1", .createFolder "t1".toList [] "docs".toList),
    (envOf "o1", .createObject (uploadOf "a.txt" "ann" [1]) "k1".toList),
    (envOf "-", .updateACL "t1".toList "o1".toList (userOf "ann") entries),
    (envOf "-", .updateObject "t1".toList "o1".toList (userOf "ann") { locked := some true }),
    (envOf "-", .updateObject "t1".toList "o1".toList (userOf "ann")
      { name := some "b.txt".toList }),
    (envOf "-", .search "t1".toList "txt".toList (userOf "ann")),
    (envOf "-", .trashObject "t1".toList "o1".toList (userOf "ann"))]

def sharedWith (names : List String) : List ACLEntry := names.map fun name => ⟨name.toList, .write⟩

theorem runeWise_id : RuneWise id where
  runes := ⟨id, fun s => (List.map_id s).symm, fun _ => ⟨fun _ => rfl, fun special => special⟩⟩

theorem sharedRun_inScope (collate : Str → Str → Bool) (entries : List ACLEntry) :
    Guarded (bothStep id collate) InScope (newMemoryStore, newPgStore) (sharedRun entries) := by
  unfold sharedRun
  simp only [guarded_cons]
  refine ⟨?_, ?_, trivial, trivial, trivial, trivial, trivial, guarded_nil _ _ _⟩
  · change "f1".toList ∉ newMemoryStore.folders
    decide
  · change "o1".toList ∉ newMemoryStore.objects ∧ "k1".toList ≠ []
    decide

theorem stores_agree_shared :
    Guarded (bothStep id fun a b => decide (a ≤ b)) (AnsweredAlike id fun a b => decide (a ≤ b))
      (newMemoryStore, newPgStore) (sharedRun (sharedWith ["user:carl", "user:bob"])) := by
  apply stores_agree id _ runeWise_id _ (sharedRun_inScope _ _)
  unfold sharedRun
  simp only [guarded_cons]
  refine ⟨?_, ?_, ?_, fun _ => ⟨?_, ?_⟩, fun _ => ⟨?_, ?_⟩, trivial, trivial, guarded_nil _ _ _⟩
  · change slugFree id newPgStore "t1".toList = true
    decide
  · change slugFree id _ "t1".toList = true
    decide
  · change (List.map _ (sharedWith _)).Nodup
    decide
  · decide
  · decide
  · decide
  · decide

/-- Two entries of one principal, which the table of the database has no room for. -/
theorem stores_agree_one_principal :
    ¬ ∀ (lower : Str → Str) (collate : Str → Str → Bool) (inputs : List (Env × Call)),
      RuneWise lower →
      Guarded (bothStep lower collate) InScope (newMemoryStore, newPgStore) inputs →
      Guarded (bothStep lower collate) (AnsweredAlike lower collate) (newMemoryStore, newPgStore)
        inputs := by
  intro all
  have run := all id (fun a b => decide (a ≤ b)) (sharedRun (sharedWith ["user:bob", "user:bob"]))
    runeWise_id (sharedRun_inScope _ _)
  unfold sharedRun at run
  simp only [guarded_cons] at run
  obtain ⟨-, -, alike, -⟩ := run
  exact not_alike_of_repeated id _ _ _ _ _ _ _ (by decide) (by decide) alike

end EraOne.Drive
