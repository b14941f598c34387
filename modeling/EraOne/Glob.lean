import EraOne.Search

set_option autoImplicit false

/- Patterns in which a star stands for any text, and texts that hold some pieces in order. -/
namespace EraOne.Glob

/-- A text that is had from a pattern by replacing each star with some text. -/
def Expands : Str → Str → Prop
  | [], v => v = []
  | c :: p, v =>
      if c = '*' then ∃ w rest, v = w ++ rest ∧ Expands p rest
      else ∃ rest, v = c :: rest ∧ Expands p rest

/-- Pieces that occur one behind the other. -/
def InOrder : List Str → Str → Prop
  | [], _ => True
  | piece :: pieces, v => ∃ front back, v = front ++ (piece ++ back) ∧ InOrder pieces back

theorem expands_star (p v : Str) :
    Expands ('*' :: p) v ↔ ∃ w rest, v = w ++ rest ∧ Expands p rest := by
  rw [Expands, if_pos rfl]

theorem expands_char (c : Char) (p v : Str) (plain : c ≠ '*') :
    Expands (c :: p) v ↔ ∃ rest, v = c :: rest ∧ Expands p rest := by
  rw [Expands, if_neg plain]

theorem expands_append (p q v : Str) :
    Expands (p ++ q) v ↔ ∃ front back, v = front ++ back ∧ Expands p front ∧ Expands q back := by
  induction p generalizing v with
  | nil =>
      rw [List.nil_append]
      constructor
      · intro expands
        exact ⟨[], v, rfl, rfl, expands⟩
      · rintro ⟨front, back, shape, empty, expands⟩
        rwa [shape, show front = [] from empty]
  | cons c p ih =>
      rw [List.cons_append]
      by_cases star : c = '*'
      · subst star
        rw [expands_star]
        constructor
        · rintro ⟨w, rest, shape, expands⟩
          obtain ⟨front, back, inner, first, second⟩ := (ih rest).mp expands
          refine ⟨w ++ front, back, by rw [shape, inner, List.append_assoc], ?_, second⟩
          exact (expands_star p _).mpr ⟨w, front, rfl, first⟩
        · rintro ⟨front, back, shape, first, second⟩
          obtain ⟨w, rest, inner, expands⟩ := (expands_star p front).mp first
          exact ⟨w, rest ++ back, by rw [shape, inner, List.append_assoc],
            (ih _).mpr ⟨rest, back, rfl, expands, second⟩⟩
      · rw [expands_char c _ _ star]
        constructor
        · rintro ⟨rest, shape, expands⟩
          obtain ⟨front, back, inner, first, second⟩ := (ih rest).mp expands
          refine ⟨c :: front, back, by rw [shape, inner, List.cons_append], ?_, second⟩
          exact (expands_char c p _ star).mpr ⟨front, rfl, first⟩
        · rintro ⟨front, back, shape, first, second⟩
          obtain ⟨rest, inner, expands⟩ := (expands_char c p front star).mp first
          exact ⟨rest ++ back, by rw [shape, inner, List.cons_append],
            (ih _).mpr ⟨rest, back, rfl, expands, second⟩⟩

/-- A pattern without a star stands for itself. -/
theorem expands_of_plain (p v : Str) (plain : '*' ∉ p) : Expands p v ↔ v = p := by
  induction p generalizing v with
  | nil => exact Iff.rfl
  | cons c p ih =>
      rw [List.mem_cons, not_or] at plain
      rw [expands_char c p v (Ne.symm plain.1)]
      constructor
      · rintro ⟨rest, shape, expands⟩
        rw [shape, (ih rest plain.2).mp expands]
      · intro same
        exact ⟨p, same, (ih p plain.2).mpr rfl⟩

/-- Stars may stand for nothing. -/
theorem expands_erased (p : Str) : Expands p (p.filter (· ≠ '*')) := by
  induction p with
  | nil => rfl
  | cons c p ih =>
      by_cases star : c = '*'
      · rw [List.filter_cons_of_neg (by simpa using star), star, expands_star]
        exact ⟨[], _, rfl, ih⟩
      · rw [List.filter_cons_of_pos (by simpa using star), expands_char c p _ star]
        exact ⟨_, rfl, ih⟩

theorem length_erased (p : Str) (star : '*' ∈ p) : (p.filter (· ≠ '*')).length < p.length := by
  apply List.length_filter_lt_length_iff_exists.mpr
  exact ⟨'*', star, by decide⟩

/-- A star in front, behind which the pattern is plain, asks for an end. -/
theorem expands_star_plain (s v : Str) (plain : '*' ∉ s) : Expands ('*' :: s) v ↔ s <:+ v := by
  rw [expands_star]
  constructor
  · rintro ⟨w, rest, shape, expands⟩
    rw [shape, (expands_of_plain s rest plain).mp expands]
    exact List.suffix_append w s
  · rintro ⟨w, shape⟩
    exact ⟨w, s, shape.symm, (expands_of_plain s s plain).mpr rfl⟩

/-- A star at the end of a plain pattern asks for a beginning. -/
theorem expands_plain_star (s v : Str) (plain : '*' ∉ s) : Expands (s ++ ['*']) v ↔ s <+: v := by
  rw [expands_append]
  constructor
  · rintro ⟨front, back, shape, first, -⟩
    rw [shape, (expands_of_plain s front plain).mp first]
    exact List.prefix_append s back
  · rintro ⟨back, shape⟩
    exact ⟨s, back, shape.symm, (expands_of_plain s s plain).mpr rfl,
      (expands_star [] back).mpr ⟨back, [], (List.append_nil back).symm, rfl⟩⟩

/-! ### Pieces -/

theorem inOrder_append (pieces : List Str) (more v : Str) (inside : InOrder pieces v) :
    InOrder pieces (more ++ v) := by
  cases pieces with
  | nil => trivial
  | cons piece pieces =>
      obtain ⟨front, back, shape, rest⟩ := inside
      exact ⟨more ++ front, back, by rw [shape, List.append_assoc], rest⟩

/-- The first match leaves the longest rest. -/
theorem suffix_of_splitOnce (pattern v front rest : Str)
    (found : Scan.splitOnce pattern v = some (front, rest)) (other back : Str)
    (shape : v = other ++ (pattern ++ back)) : back <:+ rest := by
  induction v generalizing front rest other with
  | nil =>
      have parts := List.append_eq_nil_iff.mp shape.symm
      rw [(List.append_eq_nil_iff.mp parts.2).2]
      exact List.nil_suffix
  | cons c v ih =>
      rw [Scan.splitOnce] at found
      split at found
      · cases found
        have ends : pattern ++ back <:+ c :: v := shape ▸ List.suffix_append other _
        have long := ends.length_le
        rw [List.length_append] at long
        apply List.suffix_of_suffix_length_le ((List.suffix_append pattern back).trans ends)
          (List.drop_suffix _ _)
        rw [List.length_drop]
        omega
      · rename_i apart
        obtain ⟨halves, later, same⟩ := Option.map_eq_some_iff.mp found
        cases same
        cases other with
        | nil =>
            exfalso
            apply apart
            rw [shape, List.isPrefixOf_iff_prefix, List.nil_append]
            exact List.prefix_append _ _
        | cons d other => exact ih halves.1 halves.2 later other (List.cons.inj shape).2

/-- Pieces are looked for one behind the other, each at its first place. -/
def findInOrder : List Str → Str → Bool
  | [], _ => true
  | piece :: pieces, v =>
      match Scan.splitOnce piece v with
      | some (_, rest) => findInOrder pieces rest
      | none => false

theorem findInOrder_iff (pieces : List Str) (v : Str) :
    findInOrder pieces v = true ↔ InOrder pieces v := by
  induction pieces generalizing v with
  | nil => exact iff_of_true rfl trivial
  | cons piece pieces ih =>
      rw [findInOrder]
      cases found : Scan.splitOnce piece v with
      | none =>
          refine iff_of_false Bool.false_ne_true ?_
          rintro ⟨front, back, shape, -⟩
          have occurs : Scan.contains piece v = true := by
            rw [Scan.contains_iff_infix, shape, ← List.append_assoc]
            exact List.infix_append front piece back
          rw [Scan.contains, found] at occurs
          cases occurs
      | some halves =>
          dsimp only
          rw [ih]
          constructor
          · intro rest
            exact ⟨halves.1, halves.2, Scan.splitOnce_append piece v _ _ found, rest⟩
          · rintro ⟨front, back, shape, rest⟩
            obtain ⟨more, same⟩ :=
              suffix_of_splitOnce piece v halves.1 halves.2 found front back shape
            rw [← same]
            exact inOrder_append pieces more back rest

/-- With a star on either side, a pattern asks for its pieces in order. -/
theorem expands_between (p v : Str) :
    Expands ('*' :: (p ++ ['*'])) v ↔ InOrder (Scan.splitAll ['*'] p) v := by
  induction size : p.length using Nat.strong_induction_on generalizing p v with
  | _ n ih =>
      have last (s w : Str) (plain : '*' ∉ s) :
          Expands ('*' :: (s ++ ['*'])) w ↔ InOrder [s] w := by
        rw [expands_star]
        simp only [expands_plain_star s _ plain]
        constructor
        · rintro ⟨front, rest, shape, back, inner⟩
          exact ⟨front, back, by rw [shape, inner], trivial⟩
        · rintro ⟨front, back, shape, -⟩
          exact ⟨front, s ++ back, shape, back, rfl⟩
      by_cases star : '*' ∈ p
      · obtain ⟨s, q, shape, plain⟩ := List.eq_append_cons_of_mem star
        have shorter : q.length < n := by
          rw [← size, shape, List.length_append, List.length_cons]
          omega
        have split : Scan.splitAll ['*'] p = s :: Scan.splitAll ['*'] q := by
          rw [shape]
          exact Scan.splitAll_quiet_match ['*'] s q (by decide)
            (Scan.quiet_of_not_mem '*' [] s plain)
        have joined : '*' :: (p ++ ['*']) = '*' :: s ++ '*' :: (q ++ ['*']) := by
          rw [shape]
          simp
        rw [split, joined, expands_append, InOrder]
        simp only [expands_star_plain s _ plain]
        constructor
        · rintro ⟨first, second, whole, ⟨front, inner⟩, expands⟩
          exact ⟨front, second, by rw [whole, ← inner, List.append_assoc],
            (ih q.length shorter q second rfl).mp expands⟩
        · rintro ⟨front, back, whole, rest⟩
          exact ⟨front ++ s, back, by rw [whole, List.append_assoc], ⟨front, rfl⟩,
            (ih q.length shorter q back rfl).mpr rest⟩
      · rw [Scan.splitAll_quiet ['*'] p (by decide) (Scan.quiet_of_not_mem '*' [] p star),
          last p v star]

end EraOne.Glob
