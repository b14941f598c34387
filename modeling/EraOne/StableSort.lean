import Mathlib

set_option autoImplicit false

/- What a search finds first in a list after a stable sort: the first of the least elements in the
order they had before it. -/
namespace EraOne.StableSort

variable {α : Type} (le : α → α → Bool)

/-- The least elements, in their order. -/
def least (l : List α) : List α := l.filter fun a => l.all fun b => le a b

theorem mem_least (l : List α) (a : α) : a ∈ least le l ↔ a ∈ l ∧ ∀ b ∈ l, le a b = true := by
  rw [least, List.mem_filter, List.all_eq_true]

theorem pairwise_least (l : List α) : (least le l).Pairwise fun a b => le a b = true := by
  apply List.pairwise_of_forall_mem_list
  intro a member b member'
  exact ((mem_least le l a).mp member).2 b ((mem_least le l b).mp member').1

variable (total : ∀ a b : α, (le a b || le b a) = true)
include total

/-- The first element of a sorted arrangement is a least one. -/
theorem mem_least_of_sorted (l rest : List α) (x : α) (same : (x :: rest).Perm l)
    (sorted : (x :: rest).Pairwise fun a b => le a b = true) : x ∈ least le l := by
  refine (mem_least le l x).mpr ⟨same.mem_iff.mp List.mem_cons_self, ?_⟩
  intro b member
  rcases List.mem_cons.mp (same.mem_iff.mpr member) with rfl | later
  · simpa using total b b
  · exact List.rel_of_pairwise_cons sorted later

/-- A sorted arrangement begins with the first least element, if it keeps the least ones in
order. -/
theorem head?_of_sorted (l s : List α) (same : s.Perm l)
    (sorted : s.Pairwise fun a b => le a b = true) (distinct : l.Nodup)
    (kept : (least le l).Sublist s) : s.head? = (least le l).head? := by
  cases s with
  | nil => rw [List.sublist_nil.mp kept]
  | cons x rest =>
      have first : x ∈ least le l := mem_least_of_sorted le total l rest x same sorted
      have apart : x ∉ rest := (List.nodup_cons.mp (same.nodup_iff.mpr distinct)).1
      cases shape : least le l with
      | nil => rw [shape] at first; cases first
      | cons a others =>
          rw [shape] at kept first
          cases kept with
          | cons _ inside => exact absurd (inside.subset first) apart
          | cons_cons _ _ => rfl

variable (trans : ∀ a b c : α, le a b = true → le b c = true → le a c = true)
include trans

theorem exists_least (l : List α) (a : α) (member : a ∈ l) : ∃ b, (least le l).head? = some b := by
  have same := List.mergeSort_perm l le
  have sorted := List.pairwise_mergeSort trans total l
  cases shape : l.mergeSort le with
  | nil =>
      rw [shape] at same
      exact absurd (same.mem_iff.mpr member) List.not_mem_nil
  | cons x rest =>
      rw [shape] at same sorted
      have first := mem_least_of_sorted le total l rest x same sorted
      exact ⟨_, List.head?_eq_some_head (List.ne_nil_of_mem first)⟩

theorem find?_mergeSort (p : α → Bool) (l : List α) (distinct : l.Nodup) :
    (l.mergeSort le).find? p = (least le (l.filter p)).head? := by
  rw [← List.head?_filter]
  apply head?_of_sorted le total
  · exact (List.mergeSort_perm l le).filter p
  · exact (List.pairwise_mergeSort trans total l).filter p
  · exact distinct.filter p
  · have inside : (least le (l.filter p)).Sublist (l.mergeSort le) :=
      List.sublist_mergeSort trans total (pairwise_least le _)
        (List.filter_sublist.trans List.filter_sublist)
    have picked : (least le (l.filter p)).filter p = least le (l.filter p) := by
      rw [List.filter_eq_self]
      intro a member
      exact (List.mem_filter.mp ((mem_least le _ a).mp member).1).2
    rw [← picked]
    exact inside.filter p

omit total trans in
/-- Two elements of a list without repetitions stand in one order only. -/
theorem not_pair_both (s : List α) (distinct : s.Nodup) (a b : α) (first : [a, b].Sublist s) :
    ¬ [b, a].Sublist s := by
  intro second
  obtain ⟨r₁, r₂, shape, inA, laterB⟩ := List.cons_sublist_iff.mp first
  obtain ⟨q₁, q₂, shape', inB, laterA⟩ := List.cons_sublist_iff.mp second
  have inB₂ := List.singleton_sublist.mp laterB
  have inA₂ := List.singleton_sublist.mp laterA
  rcases List.append_eq_append_iff.mp
      (shape.symm.trans shape') with ⟨more, longer, -⟩ | ⟨more, longer, -⟩
  · rw [shape', longer] at distinct
    exact (List.nodup_append.mp distinct).2.2 a (List.mem_append_left _ inA) a inA₂ rfl
  · rw [shape, longer] at distinct
    exact (List.nodup_append.mp distinct).2.2 b (List.mem_append_left _ inB) b inB₂ rfl

omit total trans in
theorem pair_or_pair (l : List α) (a b : α) (inA : a ∈ l) (inB : b ∈ l) (apart : a ≠ b) :
    [a, b].Sublist l ∨ [b, a].Sublist l := by
  obtain ⟨front, back, shape⟩ := List.append_of_mem inA
  rw [shape, List.mem_append, List.mem_cons] at inB
  rw [shape]
  rcases inB with before | same | behind
  · exact Or.inr
      ((List.singleton_sublist.mpr before).append (List.singleton_sublist.mpr List.mem_cons_self))
  · exact absurd same.symm apart
  · exact Or.inl
      (((List.singleton_sublist.mpr behind).cons_cons a).trans (List.sublist_append_right front _))

/-- A sorted arrangement is in order, and in the order it had before where the comparison leaves it
open. -/
theorem pairwise_stable (before : α → α → Prop) (l : List α) (ordered : l.Pairwise before)
    (distinct : l.Nodup) :
    (l.mergeSort le).Pairwise fun a b => le a b = true ∧ (le b a = true → before a b) := by
  have same := List.mergeSort_perm l le
  have nodup : (l.mergeSort le).Nodup := same.nodup_iff.mpr distinct
  rw [List.pairwise_iff_forall_sublist]
  intro a b pair
  refine ⟨List.pairwise_iff_forall_sublist.mp (List.pairwise_mergeSort trans total l) pair,
    fun open_ => ?_⟩
  have apart : a ≠ b := List.pairwise_iff_forall_sublist.mp nodup pair
  have inA : a ∈ l := same.mem_iff.mp (pair.subset List.mem_cons_self)
  have inB : b ∈ l := same.mem_iff.mp (pair.subset (List.mem_cons_of_mem a List.mem_cons_self))
  rcases pair_or_pair l a b inA inB apart with kept | turned
  · exact List.pairwise_iff_forall_sublist.mp ordered kept
  · have moved : [b, a].Sublist (l.mergeSort le) :=
      List.sublist_mergeSort trans total (List.pairwise_pair.mpr open_) turned
    exact absurd moved (not_pair_both _ nodup a b pair)

end EraOne.StableSort
