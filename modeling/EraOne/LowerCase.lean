import EraOne.Search

set_option autoImplicit false

/- `strings.ToLower`, and texts that contain another when case is ignored. -/
namespace EraOne.LowerCase

/-- The lower case outside ASCII; what it gives inside ASCII are letters. -/
structure Table where
  lower : Char → Char
  letters : ∀ c, 128 ≤ c.toNat → (lower c).toNat < 128 → (lower c).isAlpha

theorem letters_id (c : Char) (outside : 128 ≤ c.toNat) (inside : (id c).toNat < 128) :
    (id c).isAlpha :=
  absurd inside (Nat.not_lt.mpr outside)

/-- A table without letters outside ASCII. -/
def asciiTable : Table where
  lower := id
  letters := letters_id

variable (table : Table)

def Table.low (c : Char) : Char := if c.toNat < 128 then c.toLower else table.lower c

/-- `strings.ToLower`. -/
def Table.toLower (s : Str) : Str := s.map table.low

/-- Whether a text occurs in another, ignoring case. -/
def Table.Occurs (part s : Str) : Prop := table.toLower part <:+: table.toLower s

instance (part s : Str) : Decidable (table.Occurs part s) := inferInstanceAs (Decidable (_ <:+: _))

/-- `strings.Contains(strings.ToLower(s), strings.ToLower(part))`. -/
def Table.contains (s part : Str) : Bool := Scan.contains (table.toLower part) (table.toLower s)

theorem contains_iff (s part : Str) : table.contains s part = true ↔ table.Occurs part s :=
  Scan.contains_iff_infix _ _

theorem Table.Occurs.trans {a b c : Str} (first : table.Occurs a b) (second : table.Occurs b c) :
    table.Occurs a c :=
  List.IsInfix.trans first second

/-- Only a sign itself has that sign as its lower case. -/
theorem eq_of_low_eq_sign (c sign : Char) (plain : ¬ sign.isAlpha) (ascii : sign.toNat < 128)
    (same : table.low c = sign) : c = sign := by
  unfold Table.low at same
  split at same
  · have letter : ¬ c.isUpper := by
      intro upper
      apply plain
      rw [← same, Char.isAlpha_toLower_eq_isAlpha, Char.isAlpha, upper, Bool.true_or]
    rwa [Char.toLower_eq_of_not_isUpper letter] at same
  · rename_i outside
    have letter := table.letters c (by omega) (by rw [same]; exact ascii)
    rw [same] at letter
    exact absurd letter plain

theorem low_sign (sign : Char) (plain : ¬ sign.isAlpha) (ascii : sign.toNat < 128) :
    table.low sign = sign := by
  have letter : ¬ sign.isUpper := by
    intro upper
    apply plain
    rw [Char.isAlpha, upper, Bool.true_or]
  rw [Table.low, if_pos ascii, Char.toLower_eq_of_not_isUpper letter]

theorem mem_toLower_sign (sign : Char) (plain : ¬ sign.isAlpha) (ascii : sign.toNat < 128)
    (s : Str) :
    sign ∈ table.toLower s ↔ sign ∈ s := by
  unfold Table.toLower
  rw [List.mem_map]
  constructor
  · rintro ⟨c, member, same⟩
    rwa [← eq_of_low_eq_sign table c sign plain ascii same]
  · intro member
    exact ⟨sign, member, low_sign table sign plain ascii⟩

end EraOne.LowerCase
