import EraOne.Strings

set_option autoImplicit false

/- Searching, trimming and number reading of `str`, on scalar values. -/
namespace EraOne.Scan

/-- `char::is_whitespace`, the `White_Space` property. -/
def isWhitespace (c : Char) : Bool :=
  let n := c.toNat
  (9 ≤ n ∧ n ≤ 13) ∨ n = 0x20 ∨ n = 0x85 ∨ n = 0xA0 ∨ n = 0x1680 ∨ (0x2000 ≤ n ∧ n ≤ 0x200A) ∨
    n = 0x2028 ∨ n = 0x2029 ∨ n = 0x202F ∨ n = 0x205F ∨ n = 0x3000

def trim (s : Str) : Str := (s.dropWhile isWhitespace).rdropWhile isWhitespace

def trimStartMatches (c : Char) (s : Str) : Str := s.dropWhile (· = c)

def trimEndMatches (c : Char) (s : Str) : Str := s.rdropWhile (· = c)

def trimMatches (c : Char) (s : Str) : Str := trimEndMatches c (trimStartMatches c s)

/-- `str::split_once`, and `str::find` with the two slices around the match. -/
def splitOnce (pattern : Str) : Str → Option (Str × Str)
  | [] => if pattern.isEmpty then some ([], []) else none
  | c :: s =>
      if pattern.isPrefixOf (c :: s) then some ([], (c :: s).drop pattern.length)
      else (splitOnce pattern s).map fun halves => (c :: halves.1, halves.2)

/-- `str::strip_prefix`. -/
def strip (pattern s : Str) : Option Str :=
  if pattern.isPrefixOf s then some (s.drop pattern.length) else none

/-- The digits of an unsigned number, with the value they denote. -/
def parseDigits (s : Str) : Option Nat :=
  if s.isEmpty then none
  else if s.all Char.isDigit then some (Nat.ofDigitChars 10 s 0)
  else none

def dropPlus : Str → Str
  | '+' :: rest => rest
  | s => s

/-- `str::parse::<u32>`: an optional plus sign, any leading zeros, no overflow. -/
def parseU32 (s : Str) : Option UInt32 :=
  match parseDigits (dropPlus s) with
  | some n => if n < 2 ^ 32 then some (UInt32.ofNat n) else none
  | none => none

/-- `str::parse::<i32>`. -/
def parseI32 (s : Str) : Option Int :=
  let signed : Int × Str := match s with
    | '+' :: rest => (1, rest)
    | '-' :: rest => (-1, rest)
    | _ => (1, s)
  match parseDigits signed.2 with
  | some n =>
      let value := signed.1 * n
      if -2 ^ 31 ≤ value ∧ value < 2 ^ 31 then some value else none
  | none => none

/-- `&s[n..]`, which panics when `n` is no char boundary. -/
def sliceFrom (s : Str) (n : Nat) : Option Str :=
  if CharBoundary s n then some (dropBytes s n) else none

/-- A run of characters with `p` ends where the first one without it stands. -/
theorem span_block {α : Type} (p : α → Bool) (front back : List α)
    (inside : ∀ a ∈ front, p a = true) (outside : ∀ a ∈ back, p a = false) :
    (front ++ back).takeWhile p = front ∧ (front ++ back).dropWhile p = back := by
  have stop : back.takeWhile p = [] ∧ back.dropWhile p = back := by
    cases back with
    | nil => exact ⟨rfl, rfl⟩
    | cons a back =>
        have first := outside a (by simp)
        simp [first]
  rw [List.takeWhile_append_of_pos inside, List.dropWhile_append_of_pos inside, stop.1, stop.2]
  exact ⟨List.append_nil _, rfl⟩

theorem parseDigits_toDigits (n : Nat) : parseDigits (Nat.toDigits 10 n) = some n := by
  have digits : (Nat.toDigits 10 n).all Char.isDigit = true := by
    rw [List.all_eq_true]
    intro c member
    exact Nat.isDigit_of_mem_toDigits (by decide) (by decide) member
  have nonempty : (Nat.toDigits 10 n).isEmpty = false := by
    simp
  simp only [parseDigits, nonempty, digits, Bool.false_eq_true, ↓reduceIte,
    Nat.ofDigitChars_ten_toDigits]

theorem dropPlus_toDigits (n : Nat) : dropPlus (Nat.toDigits 10 n) = Nat.toDigits 10 n := by
  unfold dropPlus
  split
  · rename_i rest shape
    have first : '+' ∈ Nat.toDigits 10 n := by
      rw [shape]
      exact List.mem_cons_self
    have digit := Nat.isDigit_of_mem_toDigits (by decide) (by decide) first
    exact absurd digit (by decide)
  · rfl

/-- A printed `u32` reads back. -/
theorem parseU32_toDigits (n : UInt32) : parseU32 (Nat.toDigits 10 n.toNat) = some n := by
  have small : n.toNat < 2 ^ 32 := UInt32.toNat_lt n
  simp only [parseU32, dropPlus_toDigits, parseDigits_toDigits, small, ↓reduceIte,
    UInt32.ofNat_toNat]

/-- Text is trimmed when neither end is white space. -/
theorem trim_eq_self_iff (s : Str) :
    trim s = s ↔ (∀ c ∈ s.head?, isWhitespace c = false) ∧
      ∀ c ∈ s.getLast?, isWhitespace c = false := by
  unfold trim
  constructor
  · intro same
    have front : s.dropWhile isWhitespace = s := by
      apply (List.dropWhile_suffix isWhitespace).eq_of_length_le
      have shorter :=
        (List.rdropWhile_prefix isWhitespace (l := s.dropWhile isWhitespace)).length_le
      rwa [same] at shorter
    rw [front] at same
    constructor
    · intro c first
      cases s with
      | nil => cases first
      | cons d s =>
          cases first
          have stays := List.dropWhile_eq_self_iff.mp front (by simp)
          simpa using stays
    · intro c last
      have nonempty : s ≠ [] := List.ne_nil_of_mem (List.mem_of_getLast? last)
      rw [List.getLast?_eq_getLast_of_ne_nil nonempty] at last
      cases last
      simpa using List.rdropWhile_eq_self_iff.mp same nonempty
  · rintro ⟨first, last⟩
    have front : s.dropWhile isWhitespace = s := by
      rw [List.dropWhile_eq_self_iff]
      intro positive
      cases s with
      | nil => simp at positive
      | cons c s => simpa using first c rfl
    rw [front, List.rdropWhile_eq_self_iff]
    intro nonempty
    simpa using last _ (List.getLast?_eq_getLast_of_ne_nil nonempty)

theorem trim_trim (s : Str) : trim (trim s) = trim s := by
  rw [trim_eq_self_iff]
  constructor
  · intro c first
    obtain ⟨t, shape⟩ := List.head?_eq_some_iff.mp first
    obtain ⟨tail, same⟩ := List.rdropWhile_prefix isWhitespace (l := s.dropWhile isWhitespace)
    have stop := List.head?_dropWhile_not isWhitespace s
    rw [← same, ← trim, shape] at stop
    exact stop
  · intro c last
    have nonempty : trim s ≠ [] := List.ne_nil_of_mem (List.mem_of_getLast? last)
    rw [List.getLast?_eq_getLast_of_ne_nil nonempty] at last
    cases last
    exact Bool.eq_false_iff.mpr
      (List.rdropWhile_last_not isWhitespace (s.dropWhile isWhitespace) nonempty)

end EraOne.Scan
