import Mathlib

set_option autoImplicit false

/- Loops over a map, whose order the language leaves open: an order is any rearrangement of the
entries. -/
namespace EraOne.Visits

/-- An order in which a loop visits entries. -/
structure Order (α : Type) where
  visit : List α → List α
  perm : ∀ entries, (visit entries).Perm entries

namespace Order

variable {α : Type}

/-- In the order the entries are listed. -/
def asListed : Order α := ⟨id, fun entries => List.Perm.refl entries⟩

theorem mem_visit (order : Order α) (entries : List α) (a : α) :
    a ∈ order.visit entries ↔ a ∈ entries :=
  (order.perm entries).mem_iff

/-- A loop returns an entry exactly if there is one to return. -/
theorem find_eq_none (order : Order α) (p : α → Bool) (entries : List α) :
    (order.visit entries).find? p = none ↔ ∀ a ∈ entries, p a = false := by
  rw [List.find?_eq_none]
  constructor
  · intro all a member
    exact Bool.eq_false_iff.mpr (all a ((order.mem_visit entries a).mpr member))
  · intro all a member
    rw [all a ((order.mem_visit entries a).mp member)]
    exact Bool.false_ne_true

theorem of_find (order : Order α) (p : α → Bool) (entries : List α) (a : α)
    (found : (order.visit entries).find? p = some a) : a ∈ entries ∧ p a = true :=
  ⟨(order.mem_visit entries a).mp (List.mem_of_find?_eq_some found), List.find?_some found⟩

theorem isSome_find_of_mem (order : Order α) (p : α → Bool) (entries : List α) (a : α)
    (member : a ∈ entries) (good : p a = true) : ((order.visit entries).find? p).isSome := by
  rw [List.find?_isSome]
  exact ⟨a, (order.mem_visit entries a).mpr member, good⟩

/-- Some order returns an entry that can be returned. -/
theorem exists_find (p : α → Bool) (entries : List α) (a : α) (member : a ∈ entries)
    (good : p a = true) : ∃ order : Order α, (order.visit entries).find? p = some a := by
  classical
  refine ⟨⟨fun others => if a ∈ others then a :: others.erase a else others, ?_⟩, ?_⟩
  · intro others
    split
    · rename_i inside
      exact (List.perm_cons_erase inside).symm
    · exact List.Perm.refl others
  · simp only [if_pos member, List.find?_cons, good]

end Order

end EraOne.Visits
