import EraOne.Weighted

set_option autoImplicit false

/- Strings and counters of the source. A `String` is the list of its scalar values; every offset the
source uses is a byte offset into its UTF-8 form. -/
namespace EraOne

open Weighted

abbrev Str := List Char

instance : LawfulBEq Str := List.instLawfulBEq

/-- `str::len`, in bytes. -/
def byteLen (s : Str) : Nat := weight Char.utf8Size s

/-- `&s[..n]` for a char boundary `n`; otherwise the cut falls back to the boundary before it. -/
def takeBytes (s : Str) (n : Nat) : Str := takeWeight Char.utf8Size s n

/-- `&s[n..]` under the same convention. -/
def dropBytes (s : Str) (n : Nat) : Str := dropWeight Char.utf8Size s n

/-- `n` is at most the length and does not fall inside a scalar value. -/
def CharBoundary (s : Str) (n : Nat) : Prop := Boundary Char.utf8Size s n

instance (s : Str) (n : Nat) : Decidable (CharBoundary s n) :=
  inferInstanceAs (Decidable (Boundary Char.utf8Size s n))

@[simp] theorem byteLen_nil : byteLen [] = 0 := rfl

@[simp] theorem byteLen_cons (c : Char) (s : Str) : byteLen (c :: s) = c.utf8Size + byteLen s :=
  weight_cons _ c s

@[simp] theorem byteLen_append (s t : Str) : byteLen (s ++ t) = byteLen s + byteLen t :=
  weight_append _ s t

theorem eq_nil_of_byteLen (s : Str) (empty : byteLen s = 0) : s = [] :=
  eq_nil_of_weight _ s (fun c _ => Char.utf8Size_pos c) empty

@[simp] theorem takeBytes_nil (n : Nat) : takeBytes [] n = [] := rfl

@[simp] theorem dropBytes_nil (n : Nat) : dropBytes [] n = [] := rfl

@[simp] theorem takeBytes_zero (s : Str) : takeBytes s 0 = [] :=
  takeWeight_zero _ Char.utf8Size_pos s

@[simp] theorem dropBytes_zero (s : Str) : dropBytes s 0 = s :=
  dropWeight_zero _ Char.utf8Size_pos s

theorem takeBytes_cons_of_le (c : Char) (s : Str) (n : Nat) (fits : c.utf8Size ≤ n) :
    takeBytes (c :: s) n = c :: takeBytes s (n - c.utf8Size) := by
  simp only [takeBytes, takeWeight, fits, ↓reduceIte]

theorem takeBytes_cons_of_lt (c : Char) (s : Str) (n : Nat) (wide : n < c.utf8Size) :
    takeBytes (c :: s) n = [] := by
  simp only [takeBytes, takeWeight, show ¬ c.utf8Size ≤ n by omega, ↓reduceIte]

theorem dropBytes_cons_of_le (c : Char) (s : Str) (n : Nat) (fits : c.utf8Size ≤ n) :
    dropBytes (c :: s) n = dropBytes s (n - c.utf8Size) := by
  simp only [dropBytes, dropWeight, fits, ↓reduceIte]

theorem dropBytes_cons_of_lt (c : Char) (s : Str) (n : Nat) (wide : n < c.utf8Size) :
    dropBytes (c :: s) n = c :: s := by
  simp only [dropBytes, dropWeight, show ¬ c.utf8Size ≤ n by omega, ↓reduceIte]

theorem takeBytes_append_dropBytes (s : Str) (n : Nat) : takeBytes s n ++ dropBytes s n = s :=
  takeWeight_append_dropWeight _ s n

theorem takeBytes_of_le (s : Str) (n : Nat) (past : byteLen s ≤ n) : takeBytes s n = s :=
  takeWeight_of_le _ s n past

theorem dropBytes_of_le (s : Str) (n : Nat) (past : byteLen s ≤ n) : dropBytes s n = [] :=
  dropWeight_of_le _ s n past

theorem takeBytes_append (s t : Str) (n : Nat) :
    takeBytes (s ++ t) (byteLen s + n) = s ++ takeBytes t n :=
  takeWeight_append _ s t n

theorem dropBytes_append (s t : Str) (n : Nat) :
    dropBytes (s ++ t) (byteLen s + n) = dropBytes t n :=
  dropWeight_append _ s t n

theorem takeBytes_front (s t : Str) : takeBytes (s ++ t) (byteLen s) = s :=
  takeWeight_front _ Char.utf8Size_pos s t

theorem dropBytes_front (s t : Str) : dropBytes (s ++ t) (byteLen s) = t :=
  dropWeight_front _ Char.utf8Size_pos s t

/-- A cut inside the front leaves what follows it alone. -/
theorem takeBytes_append_of_le (s t : Str) (n : Nat) (inside : n ≤ byteLen s) :
    takeBytes (s ++ t) n = takeBytes s n ∧ dropBytes (s ++ t) n = dropBytes s n ++ t := by
  induction s generalizing n with
  | nil =>
      have zero : n = 0 := by simpa using inside
      simp [zero]
  | cons c s ih =>
      rw [byteLen_cons] at inside
      by_cases fits : c.utf8Size ≤ n
      · have inner := ih (n - c.utf8Size) (by omega)
        rw [List.cons_append, takeBytes_cons_of_le _ _ _ fits, takeBytes_cons_of_le _ _ _ fits,
          dropBytes_cons_of_le _ _ _ fits, dropBytes_cons_of_le _ _ _ fits, inner.1, inner.2]
        exact ⟨rfl, rfl⟩
      · have wide : n < c.utf8Size := by omega
        rw [List.cons_append, takeBytes_cons_of_lt _ _ _ wide, takeBytes_cons_of_lt _ _ _ wide,
          dropBytes_cons_of_lt _ _ _ wide, dropBytes_cons_of_lt _ _ _ wide]
        exact ⟨rfl, rfl⟩

/-- Only the boundary at or before `n` matters to a cut at `n`. -/
theorem takeBytes_floor (s : Str) (n : Nat) :
    takeBytes s (byteLen (takeBytes s n)) = takeBytes s n ∧
      dropBytes s (byteLen (takeBytes s n)) = dropBytes s n := by
  have front := takeBytes_front (takeBytes s n) (dropBytes s n)
  have back := dropBytes_front (takeBytes s n) (dropBytes s n)
  rw [takeBytes_append_dropBytes] at front back
  exact ⟨front, back⟩

theorem byteLen_takeBytes_mono (s : Str) (n m : Nat) (order : n ≤ m) :
    byteLen (takeBytes s n) ≤ byteLen (takeBytes s m) := by
  induction s generalizing n m with
  | nil => simp
  | cons c s ih =>
      by_cases fits : c.utf8Size ≤ n
      · have inner := ih (n - c.utf8Size) (m - c.utf8Size) (by omega)
        rw [takeBytes_cons_of_le _ _ _ fits, takeBytes_cons_of_le _ _ _ (by omega)]
        simpa using inner
      · rw [takeBytes_cons_of_lt _ _ _ (by omega)]
        simp

theorem charBoundary_iff (s : Str) (n : Nat) :
    CharBoundary s n ↔ ∃ front back, s = front ++ back ∧ byteLen front = n :=
  boundary_iff _ Char.utf8Size_pos s n

theorem CharBoundary.le {s : Str} {n : Nat} (cut : CharBoundary s n) : n ≤ byteLen s :=
  Boundary.le _ cut

/-- `HashMap<String, V>` and `BTreeMap<String, V>`: finite maps in key order. UTF-8 byte
order, which the source's maps use, is the order of the scalar values. -/
abbrev StrMap (V : Type) := Std.ExtTreeMap Str V compare

/-- `n.saturating_add(1)` of a `u64`: the last value stays. -/
def saturatingSucc (n : UInt64) : UInt64 := if n + 1 = 0 then n else n + 1

theorem lt_saturatingSucc (a b : UInt64) : a < saturatingSucc b ↔ a ≤ b ∧ a + 1 ≠ 0 := by
  have wraps (n : UInt64) : n + 1 = 0 ↔ n.toNat = 2 ^ 64 - 1 := by
    rw [← UInt64.toNat_inj, UInt64.toNat_add]
    have bound := n.toNat_lt
    simp only [UInt64.toNat_one, UInt64.toNat_zero]
    omega
  have boundA := a.toNat_lt
  have boundB := b.toNat_lt
  rw [Ne, wraps a, UInt64.le_iff_toNat_le]
  unfold saturatingSucc
  split
  · rename_i full
    rw [wraps] at full
    rw [UInt64.lt_iff_toNat_lt]
    omega
  · rename_i room
    rw [wraps] at room
    rw [UInt64.lt_iff_toNat_lt, UInt64.toNat_add, UInt64.toNat_one]
    omega

end EraOne
