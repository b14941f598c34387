import EraOne.Maps

set_option autoImplicit false

/- Tables of records that carry their own key. -/
namespace EraOne

open Std

/-- Records by the key each carries. -/
structure KeyedTable {α V : Type} (cmp : α → α → Ordering) [TransCmp cmp] (key : V → α) where
  rows : ExtTreeMap α V cmp
  keyed : ∀ (k : α) (v : V), rows[k]? = some v → key v = k

namespace KeyedTable

variable {α V : Type} {cmp : α → α → Ordering} [TransCmp cmp] [LawfulEqCmp cmp] [DecidableEq α]
  {key : V → α}

def empty : KeyedTable cmp key where
  rows := ∅
  keyed k v found := by simp at found

def insert (table : KeyedTable cmp key) (v : V) : KeyedTable cmp key where
  rows := table.rows.insert (key v) v
  keyed k w found := by
    classical
    rw [Maps.getElem?_insert_eq] at found
    split at found
    · rename_i same
      rw [← Option.some.inj found, same]
    · exact table.keyed k w found

def get (table : KeyedTable cmp key) (k : α) : Option V := table.rows[k]?

def list (table : KeyedTable cmp key) : List V := table.rows.toList.map Prod.snd

theorem get_insert (table : KeyedTable cmp key) (v : V) (k : α) :
    (table.insert v).get k = if k = key v then some v else table.get k :=
  Maps.getElem?_insert_eq table.rows (key v) v k

omit [LawfulEqCmp cmp] [DecidableEq α] in
theorem key_of_get (table : KeyedTable cmp key) (k : α) (v : V) (found : table.get k = some v) :
    key v = k :=
  table.keyed k v found

omit [DecidableEq α] in
theorem mem_list (table : KeyedTable cmp key) (v : V) :
    v ∈ table.list ↔ table.get (key v) = some v := by
  unfold list get
  rw [List.mem_map]
  constructor
  · intro ⟨entry, member, same⟩
    have found :=
      ExtTreeMap.mem_toList_iff_getElem?_eq_some.mp (show (entry.1, entry.2) ∈ _ from member)
    rw [same] at found
    rwa [table.keyed entry.1 v found]
  · intro found
    exact ⟨(key v, v), ExtTreeMap.mem_toList_iff_getElem?_eq_some.mpr found, rfl⟩

omit [LawfulEqCmp cmp] [DecidableEq α] in
theorem get_empty (k : α) : (empty : KeyedTable cmp key).get k = none := by
  simp [empty, get]

end KeyedTable

end EraOne
