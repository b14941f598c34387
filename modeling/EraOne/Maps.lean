import Mathlib

set_option autoImplicit false

/- Ordered maps written entry by entry: a later entry overwrites an earlier one of the same key.
The map keeps every entry exactly when the keys are distinct. -/
namespace EraOne.Maps

open Std

variable {α β γ : Type} {cmp : α → α → Ordering} [TransCmp cmp]

omit [TransCmp cmp] in
/-- Images of distinct keys are distinct exactly when no two keys share one. -/
theorem nodup_filterMap_iff (f : α → Option γ) (keys : List α) (distinct : keys.Nodup) :
    (keys.filterMap f).Nodup ↔ ∀ a ∈ keys, ∀ b ∈ keys, ∀ k ∈ f a, k ∈ f b → a = b := by
  rw [List.Nodup, List.pairwise_filterMap]
  constructor
  · intro apart a memberA b memberB k fromA fromB
    by_contra different
    have : Std.Symm fun a a' => ∀ k, f a = some k → ∀ k', f a' = some k' → k ≠ k' :=
      ⟨fun a a' ne k found k' found' same => ne k' found' k found same.symm⟩
    exact apart.forall memberA memberB different k fromA k fromB rfl
  · intro shared
    refine distinct.pairwise_of_forall_ne ?_
    rintro a memberA b memberB different k fromA _ fromB rfl
    exact different (shared a memberA b memberB k fromA fromB)

omit [TransCmp cmp] in
theorem find?_key [DecidableEq α] (entries : List (α × β)) (entry : α × β)
    (distinct : (entries.map Prod.fst).Nodup) (member : entry ∈ entries) :
    (entries.find? fun e => e.1 = entry.1) = some entry := by
  have found : (entries.find? fun e => e.1 = entry.1).isSome = true := by
    rw [List.find?_isSome]
    exact ⟨entry, member, by simp⟩
  obtain ⟨other, same⟩ := Option.isSome_iff_exists.mp found
  have key : other.1 = entry.1 := by simpa using List.find?_some same
  rw [same, List.inj_on_of_nodup_map distinct (List.mem_of_find?_eq_some same) member key]

/-- The loop that writes what `f` makes of the entries. -/
theorem foldl_insert_eq_ofList (f : γ → Option (α × β)) (entries : List γ)
    (write : ExtTreeMap α β cmp → γ → ExtTreeMap α β cmp)
    (writes : ∀ next entry, write next entry = (f entry).elim next fun e => next.insert e.1 e.2) :
    entries.foldl write ∅ = ExtTreeMap.ofList (entries.filterMap f) cmp := by
  rw [ExtTreeMap.ofList_eq_foldl, List.foldl_filterMap]
  congr 1
  funext next entry
  rw [writes]
  cases f entry <;> rfl

theorem nodup_keys_toList (m : ExtTreeMap α β cmp) : (m.toList.map Prod.fst).Nodup := by
  rw [ExtTreeMap.map_fst_toList_eq_keys]
  exact ExtTreeMap.nodup_keys

variable [LawfulEqCmp cmp]

theorem mem_ofList_iff [DecidableEq α] (entries : List (α × β)) (key : α) :
    key ∈ ExtTreeMap.ofList entries cmp ↔ key ∈ entries.map Prod.fst := by
  rw [ExtTreeMap.mem_ofList, List.contains_iff_mem]

theorem toList_ofList_perm (entries : List (α × β)) (distinct : (entries.map Prod.fst).Nodup) :
    (ExtTreeMap.ofList entries cmp).toList.Perm entries := by
  have apart : entries.Pairwise (fun a b => ¬ cmp a.1 b.1 = .eq) := by
    refine (List.pairwise_map.mp distinct).imp ?_
    intro a b different same
    exact different (LawfulEqCmp.eq_of_compare same)
  have inside : entries ⊆ (ExtTreeMap.ofList entries cmp).toList := by
    rintro ⟨key, value⟩ member
    rw [ExtTreeMap.mem_toList_iff_getElem?_eq_some]
    exact ExtTreeMap.getElem?_ofList_of_mem ReflCmp.compare_self apart member
  have sub := (List.Nodup.of_map _ distinct).subperm inside
  refine (sub.perm_of_length_le ?_).symm
  rw [ExtTreeMap.length_toList]
  exact ExtTreeMap.size_ofList_le

/-- What ends up in the map was written. -/
theorem mem_of_mem_toList_ofList [DecidableEq α] (entries : List (α × β)) (entry : α × β)
    (found : entry ∈ (ExtTreeMap.ofList entries cmp).toList) : entry ∈ entries := by
  rw [ExtTreeMap.mem_toList_iff_getElem?_eq_some, ExtTreeMap.ofList_eq_foldl] at found
  induction entries using List.reverseRecOn with
  | nil => simp at found
  | append_singleton entries last ih =>
      rw [List.foldl_concat, ExtTreeMap.getElem?_insert] at found
      split at found
      · rename_i same
        have key := LawfulEqCmp.eq_of_compare same
        have value := Option.some.inj found
        simp [Prod.ext_iff, key, value]
      · exact List.mem_append_left _ (ih found)

theorem nodup_of_length_ofList [DecidableEq α] (entries : List (α × β))
    (full : (ExtTreeMap.ofList entries cmp).size = entries.length) :
    (entries.map Prod.fst).Nodup := by
  have inside : (ExtTreeMap.ofList entries cmp).keys ⊆ entries.map Prod.fst := by
    intro key member
    exact (mem_ofList_iff entries key).mp (ExtTreeMap.mem_keys.mp member)
  have sub := (ExtTreeMap.nodup_keys (t := ExtTreeMap.ofList entries cmp)).subperm inside
  have same := sub.perm_of_length_le (by simp [full])
  exact same.nodup_iff.mp ExtTreeMap.nodup_keys

/-- Written entries all survive exactly when their keys are distinct, whatever is looked at. -/
theorem map_toList_ofList_perm_iff [DecidableEq α] (look : α × β → γ) (entries : List (α × β)) :
    ((ExtTreeMap.ofList entries cmp).toList.map look).Perm (entries.map look) ↔
      (entries.map Prod.fst).Nodup := by
  constructor
  · intro same
    have length := same.length_eq
    simp only [List.length_map, ExtTreeMap.length_toList] at length
    exact nodup_of_length_ofList entries length
  · intro distinct
    exact (toList_ofList_perm entries distinct).map look

theorem any_toList_eq_false (m : ExtTreeMap α β cmp) (p : α × β → Bool)
    (none_ : m.toList.any p = false) (key : α) (item : β) (found : m[key]? = some item) :
    p (key, item) = false := by
  rw [List.any_eq_false] at none_
  have listed := ExtTreeMap.mem_toList_iff_getElem?_eq_some.mpr found
  simpa using none_ (key, item) listed

omit [LawfulEqCmp cmp] in
/-- Filtering forgets entries that a test does not look for. -/
theorem any_toList_filter (m : ExtTreeMap α β cmp) (keep : α → β → Bool) (p : α × β → Bool)
    (inside : ∀ key item, p (key, item) = true → keep key item = true) :
    (m.filter keep).toList.any p = m.toList.any p := by
  rw [ExtTreeMap.toList_filter, List.any_filter]
  congr 1
  funext entry
  cases holds : p entry with
  | false => simp
  | true => simp [inside entry.1 entry.2 holds]

theorem map_insert (m : ExtTreeMap α β cmp) (f : α → β → γ) (key : α) (item : β) :
    (m.insert key item).map f = (m.map f).insert key (f key item) := by
  refine ExtTreeMap.ext_getElem? ?_
  intro k
  rw [ExtTreeMap.getElem?_map, ExtTreeMap.getElem?_insert, ExtTreeMap.getElem?_insert,
    ExtTreeMap.getElem?_map]
  split
  · rename_i here
    rw [LawfulEqCmp.compare_eq_iff_eq] at here
    subst here
    rfl
  · rfl

theorem filter_insert_of_keep (m : ExtTreeMap α β cmp) (keep : α → β → Bool) (key : α) (item : β)
    (kept : keep key item = true) :
    (m.insert key item).filter keep = (m.filter keep).insert key item := by
  refine ExtTreeMap.ext_getElem? ?_
  intro k
  rw [ExtTreeMap.getElem?_filter', ExtTreeMap.getElem?_insert, ExtTreeMap.getElem?_insert,
    ExtTreeMap.getElem?_filter']
  split
  · rename_i here
    rw [LawfulEqCmp.compare_eq_iff_eq] at here
    subst here
    rw [Option.filter_some, if_pos kept]
  · rfl

/-- A dropped entry that takes the place of none, or of a dropped one, is not seen. -/
theorem filter_insert_of_drop (m : ExtTreeMap α β cmp) (keep : α → β → Bool) (key : α) (item : β)
    (dropped : keep key item = false) (before : ∀ old, m[key]? = some old → keep key old = false) :
    (m.insert key item).filter keep = m.filter keep := by
  refine ExtTreeMap.ext_getElem? ?_
  intro k
  rw [ExtTreeMap.getElem?_filter', ExtTreeMap.getElem?_insert, ExtTreeMap.getElem?_filter']
  split
  · rename_i here
    rw [LawfulEqCmp.compare_eq_iff_eq] at here
    subst here
    rw [Option.filter_some, if_neg (by simp [dropped])]
    cases found : m[key]? with
    | none => rfl
    | some old => rw [Option.filter_some, if_neg (by simp [before old found])]
  · rfl

theorem getElem?_insert_eq [DecidableEq α] (m : ExtTreeMap α β cmp) (key : α) (item : β) (k : α) :
    (m.insert key item)[k]? = if k = key then some item else m[k]? := by
  rw [ExtTreeMap.getElem?_insert]
  by_cases same : k = key
  · rw [if_pos same, if_pos (by rw [same]; exact ReflCmp.compare_self)]
  · rw [if_neg same, if_neg fun equal => same (LawfulEqCmp.eq_of_compare equal).symm]

/-- At most one live item of the map is in any slot. -/
def OnePerSlot {σ : Type} (live : β → Prop) (slot : β → σ) (m : ExtTreeMap α β cmp) : Prop :=
  ∀ (i j : α) (a b : β), m[i]? = some a → m[j]? = some b → live a → live b → slot a = slot b → i = j

theorem onePerSlot_insert {σ : Type} (live : β → Prop) (slot : β → σ) (m : ExtTreeMap α β cmp)
    (one : OnePerSlot live slot m) (key : α) (item : β)
    (free : live item → ∀ i a, i ≠ key → m[i]? = some a → live a → slot a ≠ slot item) :
    OnePerSlot live slot (m.insert key item) := by
  intro i j a b foundA foundB liveA liveB same
  rw [ExtTreeMap.getElem?_insert] at foundA foundB
  split at foundA
  · rename_i hereA
    cases foundA
    split at foundB
    · rename_i hereB
      rw [LawfulEqCmp.compare_eq_iff_eq] at hereA hereB
      rw [← hereA, ← hereB]
    · rename_i otherB
      rw [LawfulEqCmp.compare_eq_iff_eq] at otherB
      exact absurd same.symm (free liveA j b (Ne.symm otherB) foundB liveB)
  · rename_i otherA
    rw [LawfulEqCmp.compare_eq_iff_eq] at otherA
    split at foundB
    · cases foundB
      exact absurd same (free liveB i a (Ne.symm otherA) foundA liveA)
    · exact one i j a b foundA foundB liveA liveB same

end EraOne.Maps
