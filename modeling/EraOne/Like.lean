import EraOne.Search

set_option autoImplicit false

/- SQL's `LIKE` with a backslash as escape character, and patterns that ask for a substring. -/
namespace EraOne.Like

open Scan

/-- `text LIKE pattern ESCAPE '\'`. A pattern that ends in the escape character is an error, here a
text that does not match. -/
def like : Str → Str → Bool
  | [], text => text.isEmpty
  | '%' :: pattern, text => text.tails.any (like pattern)
  | '_' :: pattern, text =>
      match text with
      | [] => false
      | _ :: text => like pattern text
  | '\\' :: [], _ => false
  | '\\' :: c :: pattern, text =>
      match text with
      | [] => false
      | d :: text => c = d && like pattern text
  | c :: pattern, text =>
      match text with
      | [] => false
      | d :: text => c = d && like pattern text

/-- The characters that a pattern has to escape. -/
def special (c : Char) : Bool := c = '\\' || c = '%' || c = '_'

def escapeChar (c : Char) : Str := if special c then ['\\', c] else [c]

def escape (s : Str) : Str := s.flatMap escapeChar

theorem like_percent (pattern text : Str) :
    like ('%' :: pattern) text = text.tails.any (like pattern) := by
  rw [like]

/-- An escaped string stands for itself. -/
theorem like_escape (s pattern text : Str) :
    like (escape s ++ pattern) text = true ↔ ∃ rest, text = s ++ rest ∧
      like pattern rest = true := by
  induction s generalizing text with
  | nil => simp [escape]
  | cons c s ih =>
      have one : like (escape (c :: s) ++ pattern) text =
          match text with
          | [] => false
          | d :: text => c = d && like (escape s ++ pattern) text := by
        unfold escape
        rw [List.flatMap_cons, List.append_assoc]
        unfold escapeChar special
        split
        · cases text with
          | nil => rfl
          | cons d text => rfl
        · rename_i plain
          simp only [Bool.or_eq_true, decide_eq_true_eq, not_or] at plain
          obtain ⟨⟨slash, percent⟩, under⟩ := plain
          cases text with
          | nil => simp [like, slash]
          | cons d text => simp [like, slash]
      rw [one]
      cases text with
      | nil => simp
      | cons d text =>
          rw [Bool.and_eq_true, ih, decide_eq_true_eq]
          constructor
          · intro ⟨same, rest, shape, more⟩
            exact ⟨rest, by rw [same, shape, List.cons_append], more⟩
          · intro ⟨rest, shape, more⟩
            rw [List.cons_append, List.cons.injEq] at shape
            exact ⟨shape.1.symm, rest, shape.2, more⟩

/-- A pattern between two percent signs asks for a substring. -/
theorem like_substring (s text : Str) :
    like ('%' :: escape s ++ ['%']) text = contains s text := by
  rw [Bool.eq_iff_iff, List.cons_append, like_percent, List.any_eq_true, contains_iff_infix]
  constructor
  · intro ⟨tail, member, found⟩
    obtain ⟨rest, rfl, -⟩ := (like_escape s ['%'] tail).mp found
    obtain ⟨front, rfl⟩ := (List.mem_tails _ _).mp member
    exact ⟨front, rest, by rw [List.append_assoc]⟩
  · intro ⟨front, rest, shape⟩
    refine ⟨s ++ rest, ?_, ?_⟩
    · rw [← shape, List.append_assoc, List.mem_tails]
      exact List.suffix_append front _
    · rw [like_escape]
      refine ⟨rest, rfl, ?_⟩
      rw [like_percent, List.any_eq_true]
      refine ⟨[], ?_, rfl⟩
      rw [List.mem_tails]
      exact List.nil_suffix

end EraOne.Like
