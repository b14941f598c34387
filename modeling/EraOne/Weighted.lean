import Mathlib

set_option autoImplicit false

/- Lists whose elements have a size, addressed by offsets into the total size. The
sizes are arbitrary; the cutting lemmas ask them to be positive where they need it. -/
namespace EraOne.Weighted

variable {α : Type} (w : α → Nat)

/-- Total size of a list. -/
def weight (l : List α) : Nat := (l.map w).sum

@[simp] theorem weight_nil : weight w [] = 0 := rfl

@[simp] theorem weight_cons (a : α) (l : List α) : weight w (a :: l) = w a + weight w l := by
  simp only [weight, List.map_cons, List.sum_cons]

@[simp] theorem weight_append (l m : List α) : weight w (l ++ m) = weight w l + weight w m := by
  simp only [weight, List.map_append, List.sum_append]

/-- The longest prefix that fits in `n`. -/
def takeWeight : List α → Nat → List α
  | [], _ => []
  | a :: l, n => if w a ≤ n then a :: takeWeight l (n - w a) else []

/-- What `takeWeight` leaves. -/
def dropWeight : List α → Nat → List α
  | [], _ => []
  | a :: l, n => if w a ≤ n then dropWeight l (n - w a) else a :: l

@[simp] theorem takeWeight_nil (n : Nat) : takeWeight w [] n = [] := rfl

@[simp] theorem dropWeight_nil (n : Nat) : dropWeight w [] n = [] := rfl

theorem takeWeight_append_dropWeight (l : List α) (n : Nat) :
    takeWeight w l n ++ dropWeight w l n = l := by
  induction l generalizing n with
  | nil => rfl
  | cons a l ih =>
      by_cases fits : w a ≤ n
      · simp only [takeWeight, dropWeight, fits, ↓reduceIte, List.cons_append, ih]
      · simp only [takeWeight, dropWeight, fits, ↓reduceIte, List.nil_append]

/-- Offsets at or past the end take everything. -/
theorem takeWeight_of_le (l : List α) (n : Nat) (past : weight w l ≤ n) :
    takeWeight w l n = l := by
  induction l generalizing n with
  | nil => rfl
  | cons a l ih =>
      rw [weight_cons] at past
      have fits : w a ≤ n := by omega
      simp only [takeWeight, fits, ↓reduceIte, ih (n - w a) (by omega)]

theorem dropWeight_of_le (l : List α) (n : Nat) (past : weight w l ≤ n) :
    dropWeight w l n = [] := by
  have whole := takeWeight_append_dropWeight w l n
  rw [takeWeight_of_le w l n past] at whole
  exact List.append_right_eq_self.mp whole

/-- A cut past a complete front is a cut of what follows it. -/
theorem takeWeight_append (l m : List α) (n : Nat) :
    takeWeight w (l ++ m) (weight w l + n) = l ++ takeWeight w m n := by
  induction l with
  | nil => simp
  | cons a l ih =>
      have fits : w a ≤ weight w (a :: l) + n := by rw [weight_cons]; omega
      have rest : weight w (a :: l) + n - w a = weight w l + n := by rw [weight_cons]; omega
      simp only [List.cons_append, takeWeight, fits, ↓reduceIte, rest, ih]

theorem dropWeight_append (l m : List α) (n : Nat) :
    dropWeight w (l ++ m) (weight w l + n) = dropWeight w m n := by
  induction l with
  | nil => simp
  | cons a l ih =>
      have fits : w a ≤ weight w (a :: l) + n := by rw [weight_cons]; omega
      have rest : weight w (a :: l) + n - w a = weight w l + n := by rw [weight_cons]; omega
      simp only [List.cons_append, dropWeight, fits, ↓reduceIte, rest, ih]

/-- `n` is the size of some prefix. -/
def Boundary (l : List α) (n : Nat) : Prop := weight w (takeWeight w l n) = n

instance (l : List α) (n : Nat) : Decidable (Boundary w l n) :=
  inferInstanceAs (Decidable (weight w (takeWeight w l n) = n))

theorem Boundary.le {l : List α} {n : Nat} (cut : Boundary w l n) : n ≤ weight w l := by
  have whole := congrArg (weight w) (takeWeight_append_dropWeight w l n)
  rw [weight_append, cut] at whole
  omega

section Positive

variable (positive : ∀ a, 0 < w a)

include positive

theorem takeWeight_zero (l : List α) : takeWeight w l 0 = [] := by
  cases l with
  | nil => rfl
  | cons a l =>
      have := positive a
      simp only [takeWeight, show ¬ w a ≤ 0 by omega, ↓reduceIte]

theorem dropWeight_zero (l : List α) : dropWeight w l 0 = l := by
  simpa only [takeWeight_zero w positive, List.nil_append] using
    takeWeight_append_dropWeight w l 0

/-- Sizes identify prefixes, since no element is free. -/
theorem takeWeight_front (l m : List α) : takeWeight w (l ++ m) (weight w l) = l := by
  simpa only [Nat.add_zero, takeWeight_zero w positive, List.append_nil] using
    takeWeight_append w l m 0

theorem dropWeight_front (l m : List α) : dropWeight w (l ++ m) (weight w l) = m := by
  simpa only [Nat.add_zero, dropWeight_zero w positive] using dropWeight_append w l m 0

theorem boundary_iff (l : List α) (n : Nat) :
    Boundary w l n ↔ ∃ front back, l = front ++ back ∧ weight w front = n := by
  constructor
  · intro cut
    exact ⟨_, _, (takeWeight_append_dropWeight w l n).symm, cut⟩
  · rintro ⟨front, back, rfl, rfl⟩
    exact congrArg (weight w) (takeWeight_front w positive front back)

end Positive

theorem eq_nil_of_weight (l : List α) (positive : ∀ a ∈ l, 0 < w a) (empty : weight w l = 0) :
    l = [] := by
  cases l with
  | nil => rfl
  | cons a l =>
      have := positive a (by simp)
      rw [weight_cons] at empty
      omega

/-- Two cuts of one list nest in the order of their sizes. -/
theorem append_nested {front back front' back' : List α}
    (same : front ++ back = front' ++ back') (positive : ∀ a ∈ front, 0 < w a)
    (order : weight w front ≤ weight w front') :
    ∃ middle, front' = front ++ middle ∧ back = middle ++ back' := by
  rcases List.append_eq_append_iff.mp same with ⟨middle, left, right⟩ | ⟨middle, left, right⟩
  · exact ⟨middle, left, right⟩
  · have empty : middle = [] := by
      apply eq_nil_of_weight w middle
      · intro a member
        exact positive a (by simp [left, member])
      · rw [left, weight_append] at order
        omega
    subst empty
    exact ⟨[], by simpa using left.symm, by simpa using right.symm⟩

end EraOne.Weighted
