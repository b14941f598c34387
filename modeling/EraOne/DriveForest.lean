import EraOne.DriveCalls
import EraOne.Forest

set_option autoImplicit false

/- The folder tree. A move checks that the new parent is not the folder itself, and a restore
checks nothing of the parent it remembers; neither looks further up. -/
namespace EraOne.Drive

open Scan Forest Runs

/-- One step along `ParentID`. The root is nobody's child. -/
def parentOf (m : MemoryStore) (id : Str) : Option Str :=
  if id = [] then none else m.folders[id]?.map (·.parentID)

/-- From every folder the parents lead to the root or to an id that is no folder, and none is
its own proper ancestor. -/
def FolderForest (m : MemoryStore) : Prop :=
  (∀ id ∈ m.folders, ∃ n stop, climb (parentOf m) n id = some stop ∧
    (stop = [] ∨ stop ∉ m.folders)) ∧
  ∀ id n, climb (parentOf m) (n + 1) id ≠ some id

theorem parentOf_eq_none_iff (m : MemoryStore) (id : Str) :
    parentOf m id = none ↔ id = [] ∨ id ∉ m.folders := by
  unfold parentOf
  split
  · rename_i root
    exact iff_of_true rfl (Or.inl root)
  · rename_i inner
    rw [Option.map_eq_none_iff, ← Option.not_isSome_iff_eq_none,
      Std.ExtTreeMap.isSome_getElem?_iff_mem]
    constructor
    · exact Or.inr
    · intro either
      exact either.resolve_left inner

theorem folderForest_iff (m : MemoryStore) : FolderForest m ↔ Grounded (parentOf m) := by
  constructor
  · intro ⟨stops, _⟩ id
    cases up : parentOf m id with
    | none => exact ⟨1, climb_succ_of_root _ id up 0⟩
    | some parent =>
        have known : id ∈ m.folders := by
          by_contra unknown
          rw [(parentOf_eq_none_iff m id).mpr (Or.inr unknown)] at up
          cases up
        obtain ⟨n, stop, reached, last⟩ := stops id known
        refine ⟨n + 1, ?_⟩
        rw [climb_succ, reached, Option.bind_some]
        exact (parentOf_eq_none_iff m stop).mpr last
  · intro grounded
    refine ⟨?_, fun id n => grounded_no_loop _ grounded id n⟩
    intro id _
    obtain ⟨n, ended⟩ := grounded id
    obtain ⟨k, stop, reached, root⟩ := last_of_ended _ n id ended
    exact ⟨k, stop, reached, (parentOf_eq_none_iff m stop).mp root⟩

theorem parentOf_putFolder (m : MemoryStore) (folderID : Str) (f : Folder)
    (inner : folderID ≠ []) :
    parentOf (m.putFolder folderID f) = Function.update (parentOf m) folderID
      (some f.parentID) := by
  funext id
  unfold parentOf MemoryStore.putFolder
  dsimp only
  by_cases here : id = folderID
  · subst here
    rw [Function.update_self, if_neg inner, Std.ExtTreeMap.getElem?_insert_self, Option.map_some]
  · have other : compare folderID id ≠ .eq := by
      rw [Ne, Std.LawfulEqCmp.compare_eq_iff_eq]
      exact fun same => here same.symm
    rw [Function.update_of_ne here, Std.ExtTreeMap.getElem?_insert, if_neg other]

/-- Writing a folder back under its parent moves nothing. -/
theorem parentOf_putFolder_same (m : MemoryStore) (folderID : Str) (f next : Folder)
    (found : m.folders[folderID]? = some f) (kept : next.parentID = f.parentID) :
    parentOf (m.putFolder folderID next) = parentOf m := by
  by_cases root : folderID = []
  · funext id
    unfold parentOf MemoryStore.putFolder
    dsimp only
    split
    · rfl
    · rename_i inner
      have other : compare folderID id ≠ .eq := by
        rw [Ne, Std.LawfulEqCmp.compare_eq_iff_eq, root]
        exact fun same => inner same.symm
      rw [Std.ExtTreeMap.getElem?_insert, if_neg other]
  · rw [parentOf_putFolder m folderID next root]
    refine Function.update_eq_self_iff.mpr ?_
    unfold parentOf
    rw [if_neg root, found, Option.map_some, kept]

/-- The call is accepted and sets the parent of a folder. -/
def Attaches (m : MemoryStore) (c : Call) (folder parent : Str) : Prop :=
  match c.resolve with
  | .updateFolder tenantID folderID _ patch => folder = folderID ∧
      ∃ f next, m.ownFolder tenantID folderID = .ok f ∧
        m.patchFolder tenantID folderID patch f = .ok next ∧
        parent = patch.parentID.getD f.parentID
  | .restoreFolder tenantID folderID _ => folder = folderID ∧
      ∃ f, m.ownFolder tenantID folderID = .ok f ∧ f.trashedAt ≠ none ∧
        m.liveFolderTaken folderID tenantID f.trashRestoreParentID f.name = false ∧
        parent = f.trashRestoreParentID
  | _ => False

/-- No folder is attached below itself. -/
def AttachesAbove (m : MemoryStore) (input : Env × Call) : Prop :=
  ∀ folder parent, Attaches m input.2 folder parent → ¬ Leads (parentOf m) parent folder

/-- The uuid of a new folder occurs nowhere: it is not empty, names no folder, and is no folder's
parent. -/
def FreshFolder (m : MemoryStore) (input : Env × Call) : Prop :=
  match input.2 with
  | .createFolder _ parentID _ => input.1.id ≠ [] ∧ parentID ≠ input.1.id ∧
      input.1.id ∉ m.folders ∧ ∀ e ∈ m.folders.toList, e.2.parentID ≠ input.1.id
  | _ => True

instance (m : MemoryStore) (input : Env × Call) : Decidable (FreshFolder m input) := by
  unfold FreshFolder
  split <;> infer_instance

theorem not_leads_of_no_child (m : MemoryStore) (folder parent : Str) (other : parent ≠ folder)
    (childless : ∀ e ∈ m.folders.toList, e.2.parentID ≠ folder) :
    ¬ Leads (parentOf m) parent folder := by
  refine not_leads_of_leaf _ _ _ ?_ other
  intro id up
  unfold parentOf at up
  split at up
  · cases up
  · rw [Option.map_eq_some_iff] at up
    obtain ⟨f, found, same⟩ := up
    exact childless (id, f) (Std.ExtTreeMap.mem_toList_iff_getElem?_eq_some.mpr found) same

section Steps

variable (lower : Str → Str) (m : MemoryStore)

/-- An accepted attachment is what the call does. -/
theorem attaches_spec (env : Env) (c : Call) (folder parent : Str)
    (attaches : Attaches m c folder parent) :
    ∃ next, step lower m (env, c) = m.putFolder folder next ∧ next.parentID = parent ∧
      folder ≠ [] := by
  obtain ⟨-, plain⟩ := resolve_plain c
  have does := step_of_change lower m env c
  unfold Attaches at attaches
  generalize c.resolve = r at plain attaches does
  cases r with
  | updateFolder tenantID folderID p patch =>
      obtain ⟨rfl, f, next, own, patched, rfl⟩ := attaches
      obtain ⟨inner, -⟩ := (m.ownFolder_eq_ok tenantID folder f).mp own
      obtain ⟨-, -, -, parent, -⟩ := m.patchFolder_spec tenantID folder patch f next patched
      exact ⟨next, does _ (.patchFolder _ _ _ _ f next (plain _ _ _ _ rfl) own patched), parent,
        inner⟩
  | restoreFolder tenantID folderID p =>
      obtain ⟨rfl, f, own, trashed, free, rfl⟩ := attaches
      obtain ⟨inner, -⟩ := (m.ownFolder_eq_ok tenantID folder f).mp own
      exact ⟨_, does _ (.restoreFolder _ _ _ f own trashed free), rfl, inner⟩
  | _ => exact absurd attaches id

theorem attaches_unique (c : Call) (folder parent folder' parent' : Str)
    (one : Attaches m c folder parent) (other : Attaches m c folder' parent') :
    folder = folder' ∧ parent = parent' := by
  unfold Attaches at one other
  generalize c.resolve = r at one other
  cases r with
  | updateFolder tenantID folderID p patch =>
      obtain ⟨rfl, f, next, own, -, rfl⟩ := one
      obtain ⟨rfl, f', next', own', -, rfl⟩ := other
      rw [own, Except.ok.injEq] at own'
      rw [own']
      exact ⟨rfl, rfl⟩
  | restoreFolder tenantID folderID p =>
      obtain ⟨rfl, f, own, -, -, rfl⟩ := one
      obtain ⟨rfl, f', own', -, -, rfl⟩ := other
      rw [own, Except.ok.injEq] at own'
      rw [own']
      exact ⟨rfl, rfl⟩
  | _ => exact absurd one id

/-- A call that attaches nothing keeps the walks of the old folders; a new folder is a leaf. -/
theorem grounded_of_no_attachment (env : Env) (c : Call) (grounded : Grounded (parentOf m))
    (fresh : FreshFolder m (env, c)) (nothing : ∀ folder parent, ¬ Attaches m c folder parent) :
    Grounded (parentOf (step lower m (env, c))) := by
  rcases call_change lower m env c with same | change
  · unfold step
    rw [same]
    exact grounded
  · unfold step
    unfold Attaches at nothing
    generalize after : (m.call lower env c).2 = next at change ⊢
    generalize resolved : c.resolve = r at change nothing
    cases change with
    | createFolder tenantID parentID name named free =>
        rw [← (resolve_eq_create c).1 _ _ _ resolved, resolved] at fresh
        obtain ⟨inner, apart, -, childless⟩ := fresh
        rw [parentOf_putFolder m env.id _ inner, grounded_update_iff _ _ _ grounded]
        exact not_leads_of_no_child m env.id parentID apart childless
    | patchFolder tenantID folderID p patch f next plain own patched =>
        exact absurd ⟨rfl, f, next, own, patched, rfl⟩ (nothing folderID _)
    | trashFolder tenantID folderID p f own live =>
        obtain ⟨-, found, -⟩ := (m.ownFolder_eq_ok tenantID folderID f).mp own
        rw [parentOf_putFolder_same m folderID f _ found]
        · exact grounded
        · rfl
    | restoreFolder tenantID folderID p f own trashed free =>
        exact absurd ⟨rfl, f, own, trashed, free, rfl⟩ (nothing folderID _)
    | _ => exact grounded

theorem grounded_step_iff (env : Env) (c : Call) (grounded : Grounded (parentOf m))
    (fresh : FreshFolder m (env, c)) :
    Grounded (parentOf (step lower m (env, c))) ↔ AttachesAbove m (env, c) := by
  by_cases some_ : ∃ folder parent, Attaches m c folder parent
  · obtain ⟨folder, parent, attaches⟩ := some_
    obtain ⟨next, stored, rfl, inner⟩ := attaches_spec lower m env c folder parent attaches
    rw [stored, parentOf_putFolder m folder next inner, grounded_update_iff _ _ _ grounded]
    constructor
    · intro apart folder' parent' attaches'
      obtain ⟨rfl, rfl⟩ := attaches_unique m c _ _ _ _ attaches attaches'
      exact apart
    · intro above
      exact above folder next.parentID attaches
  · have nothing : ∀ folder parent, ¬ Attaches m c folder parent := by
      intro folder parent attaches
      exact some_ ⟨folder, parent, attaches⟩
    refine iff_of_true (grounded_of_no_attachment lower m env c grounded fresh nothing) ?_
    intro folder parent attaches
    exact absurd attaches (nothing folder parent)

end Steps

variable (lower : Str → Str)

/-- From the empty store and with fresh uuids, the folders form a forest in every state of a run
exactly if no accepted move or restore attaches a folder below itself. -/
theorem folder_forest_iff (inputs : List (Env × Call))
    (fresh : Guarded (step lower) FreshFolder newMemoryStore inputs) :
    Always (step lower) FolderForest newMemoryStore inputs ↔
      Guarded (step lower) AttachesAbove newMemoryStore inputs := by
  refine always_iff_guarded_of_allowed (step lower) FolderForest FreshFolder AttachesAbove ?_
    newMemoryStore inputs ?_ fresh
  · intro m input forest allowed
    rw [folderForest_iff] at forest ⊢
    exact grounded_step_iff lower m input.1 input.2 forest allowed
  · rw [folderForest_iff]
    intro id
    have unknown : id ∉ newMemoryStore.folders := by simp [newMemoryStore]
    exact ⟨1, climb_succ_of_root _ id ((parentOf_eq_none_iff _ id).mpr (Or.inr unknown)) 0⟩

/-- A folder is created in another, trashed and restored to its place. -/
theorem folder_forest_restore :
    Always (step id) FolderForest newMemoryStore
      [(envOf "a", .createFolder "t1".toList [] "A".toList),
        (envOf "b", .createFolder "t1".toList "a".toList "B".toList),
        (envOf "-", .trashFolder "t1".toList "b".toList (userOf "u1")),
        (envOf "-", .restoreFolder "t1".toList "b".toList (userOf "u1"))] := by
  apply (folder_forest_iff id _ ?_).mpr
  · simp only [guarded_cons]
    refine ⟨?_, ?_, ?_, ?_, guarded_nil _ _ _⟩
    · exact fun _ _ attaches => absurd attaches id
    · exact fun _ _ attaches => absurd attaches id
    · exact fun _ _ attaches => absurd attaches id
    · intro folder parent attaches
      obtain ⟨rfl, f, own, -, -, rfl⟩ := attaches
      have kept := congrArg (Except.map (·.trashRestoreParentID)) own
      have same : f.trashRestoreParentID = "a".toList := Except.ok.inj (kept.symm.trans (by decide))
      rw [same]
      exact not_leads_of_no_child _ _ _ (by decide) (by decide)
  · simp only [guarded_cons]
    exact ⟨by decide, by decide, by decide, by decide, guarded_nil _ _ _⟩

/-- A folder is moved into its own subfolder. -/
theorem folder_forest_broken :
    ¬ ∀ (lower : Str → Str) (inputs : List (Env × Call)),
      Guarded (step lower) FreshFolder newMemoryStore inputs →
      Always (step lower) FolderForest newMemoryStore inputs := by
  intro all
  have forest := all id
    [(envOf "a", .createFolder "t1".toList [] "A".toList),
      (envOf "b", .createFolder "t1".toList "a".toList "B".toList),
      (envOf "-", .updateFolder "t1".toList "a".toList (userOf "u1")
        { parentID := some "b".toList })] (by
    simp only [guarded_cons]
    exact ⟨by decide, by decide, by decide, guarded_nil _ _ _⟩)
  refine forest.last.2 "a".toList 1 ?_
  decide

end EraOne.Drive
