import Mathlib.Order.PiLex
import Mathlib.Data.List.GetD
import Mathlib.Order.RelClasses

set_option autoImplicit false

/- Lists compared in lexicographic order, the shorter one padded with zeros. -/
namespace EraOne.PaddedOrder

variable {α β : Type} [Zero α] [LinearOrder α]

/-- The first place where the padded lists differ has the smaller entry in the first. -/
def Below (xs ys : List α) : Prop :=
  ∃ i, (∀ j < i, xs.getD j 0 = ys.getD j 0) ∧ xs.getD i 0 < ys.getD i 0

/-- The padded list as a point of the lexicographic order of sequences. -/
def sequence (xs : List α) : Lex (Nat → α) := toLex fun i => xs.getD i 0

theorem below_iff_lex (xs ys : List α) : Below xs ys ↔ sequence xs < sequence ys := Iff.rfl

/-- Lists that differ in trailing zeros only are not told apart. -/
theorem not_below_iff (xs ys : List α) :
    ¬ Below xs ys ∧ ¬ Below ys xs ↔ sequence xs = sequence ys := by
  rw [below_iff_lex, below_iff_lex]
  constructor
  · rintro ⟨notLess, notMore⟩
    rcases lt_trichotomy (sequence xs) (sequence ys) with less | same | more
    · exact absurd less notLess
    · exact same
    · exact absurd more notMore
  · intro same
    rw [same]
    exact ⟨lt_irrefl _, lt_irrefl _⟩

instance isStrictWeakOrder_below : IsStrictWeakOrder (List α) Below where
  irrefl xs := lt_irrefl (sequence xs)
  trans _ _ _ first second := lt_trans (α := Lex (Nat → α)) first second
  incomp_trans xs ys zs first second := by
    rw [not_below_iff] at first second ⊢
    exact first.trans second

/-- What the order looks at ends with the longer list. -/
theorem below_iff_within (xs ys : List α) :
    Below xs ys ↔ ∃ i < max xs.length ys.length,
      (∀ j < i, xs.getD j 0 = ys.getD j 0) ∧ xs.getD i 0 < ys.getD i 0 := by
  constructor
  · rintro ⟨i, same, less⟩
    refine ⟨i, ?_, same, less⟩
    by_contra outside
    rw [not_lt, Nat.max_le] at outside
    rw [List.getD_eq_default _ _ outside.1, List.getD_eq_default _ _ outside.2] at less
    exact lt_irrefl _ less
  · rintro ⟨i, -, same, less⟩
    exact ⟨i, same, less⟩

instance (xs ys : List α) : Decidable (Below xs ys) :=
  decidable_of_iff _ (below_iff_within xs ys).symm

/-- An embedding of the entries that keeps zero keeps the order. -/
theorem below_map_iff [Zero β] [LinearOrder β] (f : α → β) (grows : StrictMono f) (zero : f 0 = 0)
    (xs ys : List α) : Below (xs.map f) (ys.map f) ↔ Below xs ys := by
  have entry (zs : List α) (i : Nat) : (zs.map f).getD i 0 = f (zs.getD i 0) := by
    rw [← zero, List.getD_map]
  simp only [Below, entry, grows.injective.eq_iff, grows.lt_iff_lt]

end EraOne.PaddedOrder
