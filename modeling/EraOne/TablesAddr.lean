import EraOne.Scan

set_option autoImplicit false

/- A1 addresses of `era-tables-core`: reading, printing and the rewriting of row numbers in
formulas. `u32` arithmetic wraps, as in a release build. -/
namespace EraOne.Tables

open Scan

/-- The parts of the standard library that the tables code calls and that are left open here:
Unicode case mapping and `f64`. -/
structure Runtime where
  /-- `char::to_uppercase`; `str::to_uppercase` maps it over the string. -/
  upperChar : Char → Str
  /-- `str::to_lowercase`. -/
  lower : Str → Str
  F64 : Type
  /-- `str::parse::<f64>`. -/
  parse : Str → Option F64
  /-- `format!("{v}")`. -/
  display : F64 → Str
  /-- `v as i64`. -/
  toI64 : F64 → Int
  zero : F64
  /-- `n as f64` for a count. -/
  ofCount : Nat → F64
  sum : List F64 → F64
  sub : F64 → F64 → F64
  mul : F64 → F64 → F64
  div : F64 → F64 → F64
  round : F64 → F64
  /-- `10f64.powi(n)`. -/
  powTen : Int → F64
  infinity : F64
  negInfinity : F64
  min : F64 → F64 → F64
  max : F64 → F64 → F64
  lt : F64 → F64 → Bool
  le : F64 → F64 → Bool
  ne : F64 → F64 → Bool
  /-- `v.abs() < 1e-9`. -/
  absLtEps : F64 → Bool
  /-- `v.abs() >= 1e-9`, false on NaN like the comparison above. -/
  absGeEps : F64 → Bool

/-- Case mapping of ASCII, and the stability of upper case that the Unicode standard states. -/
structure Runtime.Lawful (rt : Runtime) : Prop where
  ascii : ∀ c : Char, c.toNat < 128 → rt.upperChar c = [c.toUpper]
  stable : ∀ c : Char, (rt.upperChar c).flatMap rt.upperChar = rt.upperChar c

def Runtime.upper (rt : Runtime) (s : Str) : Str := s.flatMap rt.upperChar

def readInt : Str → Option Int
  | '-' :: digits => (parseDigits digits).map fun n => -(n : Int)
  | digits => (parseDigits (dropPlus digits)).map fun n => (n : Int)

/-- ASCII text and whole numbers, for runs on concrete sheets. -/
def Runtime.plain : Runtime where
  upperChar := fun c => [c.toUpper]
  lower := fun s => s.map Char.toLower
  F64 := Int
  parse := readInt
  display := fun n => n.repr.toList
  toI64 := id
  zero := 0
  ofCount := fun n => n
  sum := List.sum
  sub := fun a b => a - b
  mul := fun a b => a * b
  div := fun a b => a / b
  round := id
  powTen := fun n => 10 ^ n.toNat
  infinity := 10 ^ 18
  negInfinity := -10 ^ 18
  min := fun a b => if a ≤ b then a else b
  max := fun a b => if a ≤ b then b else a
  lt := fun a b => a < b
  le := fun a b => a ≤ b
  ne := fun a b => a ≠ b
  absLtEps := fun a => a = 0
  absGeEps := fun a => a ≠ 0

theorem Runtime.plain_lawful : Runtime.plain.Lawful where
  ascii := fun _ _ => rfl
  stable := by
    intro c
    simp [Runtime.plain]

variable (rt : Runtime)

/-- The loop over the letters of an address. -/
def columnNumber (letters : Str) : UInt32 :=
  letters.foldl (fun cols c => cols * 26 + UInt32.ofNat (c.toNat - 64)) 0

def parseAddr (addr : Str) : Option (UInt32 × UInt32) :=
  let addr := rt.upper addr
  let cols := columnNumber (addr.takeWhile Char.isAlpha)
  match parseU32 (addr.dropWhile Char.isAlpha) with
  | some row => if cols = 0 ∨ row = 0 then none else some (cols, row)
  | none => none

def parseA1Range (range : Str) : Option ((UInt32 × UInt32) × (UInt32 × UInt32)) :=
  let s := rt.upper (trim range)
  let ends := match splitOnce [':'] s with
    | some halves => (trim halves.1, trim halves.2)
    | none => (s, s)
  match parseAddr rt ends.1, parseAddr rt ends.2 with
  | some start, some stop => some (start, stop)
  | _, _ => none

/-- The loop of `addr_of`, which puts the last letter first. -/
def columnLettersLoop : Nat → Nat → Str → Str
  | 0, _, s => s
  | fuel + 1, n, s =>
      if n > 0 then columnLettersLoop fuel ((n - 1) / 26) (Char.ofNat (65 + (n - 1) % 26) :: s)
      else s

def columnLetters (col : UInt32) : Str := columnLettersLoop col.toNat col.toNat []

def addrOf (col row : UInt32) : Str := columnLetters col ++ Nat.toDigits 10 row.toNat

/-- The row `r` after the shift; a reference to the deleted row itself stays. -/
def shiftRow (atRow : UInt32) (delta : Int) (r : UInt32) : UInt32 :=
  if delta > 0 ∧ r ≥ atRow then r + UInt32.ofInt delta
  else if delta < 0 ∧ r > atRow then r - UInt32.ofInt (-delta)
  else r

/-- The loop of `shift_formula_rows`. Bytes that are no ASCII letters are pushed one by one as
characters, so that a character beyond ASCII comes out as its UTF-8 bytes. -/
def shiftFormulaLoop (atRow : UInt32) (delta : Int) : Nat → Str → Str
  | 0, _ => []
  | _, [] => []
  | fuel + 1, c :: s =>
      if c.isAlpha then
        let letters := (c :: s).takeWhile Char.isAlpha
        let rest := (c :: s).dropWhile Char.isAlpha
        let digits := rest.takeWhile Char.isDigit
        let number := match parseU32 digits with
          | some r => Nat.toDigits 10 (shiftRow atRow delta r).toNat
          | none => digits
        letters ++ number ++ shiftFormulaLoop atRow delta fuel (rest.dropWhile Char.isDigit)
      else
        (String.utf8EncodeChar c).map (fun b => Char.ofNat b.toNat) ++
          shiftFormulaLoop atRow delta fuel s

def shiftFormulaRows (formula : Str) (atRow : UInt32) (delta : Int) : Str :=
  shiftFormulaLoop atRow delta formula.length formula

variable {rt}

theorem upper_upper (lawful : rt.Lawful) (s : Str) : rt.upper (rt.upper s) = rt.upper s := by
  simp only [Runtime.upper, List.flatMap_assoc, lawful.stable]

/-- Reading an address does not depend on its case. -/
theorem parseAddr_upper (lawful : rt.Lawful) (addr : Str) :
    parseAddr rt (rt.upper addr) = parseAddr rt addr := by
  simp only [parseAddr, upper_upper lawful]

theorem upper_fixed (lawful : rt.Lawful) (s : Str)
    (fixed : ∀ c ∈ s, c.toNat < 128 ∧ c.toUpper = c) : rt.upper s = s := by
  induction s with
  | nil => rfl
  | cons c s ih =>
      obtain ⟨ascii, same⟩ := fixed c (by simp)
      have rest := ih (fun d member => fixed d (by simp [member]))
      simp only [Runtime.upper, List.flatMap_cons] at rest ⊢
      rw [lawful.ascii c ascii, same, rest]
      rfl

/-- Column value of a letter string, without the wrap. -/
def columnValue (letters : Str) (start : Nat) : Nat :=
  letters.foldl (fun cols c => cols * 26 + (c.toNat - 64)) start

theorem columnNumber_eq (letters : Str) :
    columnNumber letters = UInt32.ofNat (columnValue letters 0) := by
  have general (s : Str) (n : Nat) :
      s.foldl (fun (cols : UInt32) c => cols * 26 + UInt32.ofNat (c.toNat - 64)) (UInt32.ofNat n) =
        UInt32.ofNat (columnValue s n) := by
    induction s generalizing n with
    | nil => rfl
    | cons c s ih =>
        rw [List.foldl_cons, columnValue, List.foldl_cons, ← columnValue, ← ih]
        congr 1
        rw [UInt32.ofNat_add, UInt32.ofNat_mul]
        rfl
  exact general letters 0

theorem columnLetter (n : Nat) (small : n < 26) :
    (Char.ofNat (65 + n)).toNat = 65 + n ∧ (Char.ofNat (65 + n)).isUpper = true := by
  interval_cases n <;> decide

/-- The letters printed for a column read back as the column. -/
theorem columnValue_loop (fuel n : Nat) (s : Str) (enough : n ≤ fuel) :
    columnValue (columnLettersLoop fuel n s) 0 = columnValue s n := by
  induction fuel generalizing n s with
  | zero =>
      have zero : n = 0 := by omega
      rw [zero, columnLettersLoop]
  | succ fuel ih =>
      rw [columnLettersLoop]
      split
      · rename_i positive
        have digit : (n - 1) % 26 < 26 := Nat.mod_lt _ (by decide)
        rw [ih _ _ (by omega)]
        simp only [columnValue, List.foldl_cons, (columnLetter _ digit).1]
        congr 1
        omega
      · rename_i zero
        rw [show n = 0 by omega]

theorem columnLettersLoop_upper (fuel n : Nat) (s : Str) (upper : ∀ c ∈ s, c.isUpper = true) :
    ∀ c ∈ columnLettersLoop fuel n s, c.isUpper = true := by
  induction fuel generalizing n s with
  | zero => exact upper
  | succ fuel ih =>
      rw [columnLettersLoop]
      split
      · apply ih
        intro c member
        rcases List.mem_cons.mp member with rfl | member
        · exact (columnLetter _ (Nat.mod_lt _ (by decide))).2
        · exact upper c member
      · exact upper

theorem columnLetters_upper (col : UInt32) : ∀ c ∈ columnLetters col, c.isUpper = true :=
  columnLettersLoop_upper _ _ _ (by simp)

theorem columnNumber_letters (col : UInt32) : columnNumber (columnLetters col) = col := by
  rw [columnNumber_eq, columnLetters, columnValue_loop _ _ _ (Nat.le_refl _)]
  exact UInt32.ofNat_toNat

theorem isUpper_bounds (c : Char) (upper : c.isUpper = true) : 65 ≤ c.toNat ∧ c.toNat ≤ 90 := by
  simpa [Char.isUpper, UInt32.le_iff_toNat_le] using upper

theorem isUpper_isAlpha (c : Char) (upper : c.isUpper = true) : c.isAlpha = true := by
  simp [Char.isAlpha, upper]

theorem isDigit_not_isAlpha (c : Char) (digit : c.isDigit = true) : c.isAlpha = false := by
  have bounds : 48 ≤ c.toNat ∧ c.toNat ≤ 57 := Char.isDigit_iff_toNat.mp digit
  have size : c.val.toNat = c.toNat := rfl
  simp only [Char.isAlpha, Char.isUpper, Char.isLower, UInt32.le_iff_toNat_le, size,
    Bool.or_eq_false_iff, decide_eq_false_iff_not]
  constructor <;> simp <;> omega

/-- Column letters before digits are upper case already, and the letters end where the digits
start. -/
theorem letters_digits_shape (lawful : rt.Lawful) (col : UInt32) (digits : Str)
    (numeric : ∀ c ∈ digits, c.isDigit = true) :
    rt.upper (columnLetters col ++ digits) = columnLetters col ++ digits ∧
      (columnLetters col ++ digits).takeWhile Char.isAlpha = columnLetters col ∧
      (columnLetters col ++ digits).dropWhile Char.isAlpha = digits := by
  have letters := columnLetters_upper col
  have alpha : ∀ c ∈ columnLetters col, c.isAlpha = true :=
    fun c member => isUpper_isAlpha c (letters c member)
  refine ⟨?_, span_block Char.isAlpha _ _ alpha
    (fun c member => isDigit_not_isAlpha c (numeric c member))⟩
  · apply upper_fixed lawful
    intro c member
    rcases List.mem_append.mp member with letter | digit
    · have bounds := isUpper_bounds c (letters c letter)
      exact ⟨by omega, Char.toUpper_eq_of_not_isLower
        (Char.not_isLower_of_isUpper (letters c letter))⟩
    · have bounds : 48 ≤ c.toNat ∧ c.toNat ≤ 57 := Char.isDigit_iff_toNat.mp (numeric c digit)
      have other := isDigit_not_isAlpha c (numeric c digit)
      rw [Char.isAlpha, Bool.or_eq_false_iff] at other
      exact ⟨by omega, Char.toUpper_eq_of_not_isLower (by simp [other.2])⟩

theorem addrOf_shape (lawful : rt.Lawful) (col row : UInt32) :
    rt.upper (addrOf col row) = addrOf col row ∧
      (addrOf col row).takeWhile Char.isAlpha = columnLetters col ∧
      (addrOf col row).dropWhile Char.isAlpha = Nat.toDigits 10 row.toNat := by
  apply letters_digits_shape lawful
  intro c member
  exact Nat.isDigit_of_mem_toDigits (by decide) (by decide) member

/-- Printing and reading an address are inverse. -/
theorem parseAddr_addrOf (lawful : rt.Lawful) (col row : UInt32) (hcol : col ≠ 0)
    (hrow : row ≠ 0) : parseAddr rt (addrOf col row) = some (col, row) := by
  obtain ⟨fixed, front, back⟩ := addrOf_shape lawful col row
  simp only [parseAddr, fixed, front, back, columnNumber_letters, parseU32_toDigits, hcol, hrow,
    or_self, ↓reduceIte]

end EraOne.Tables
