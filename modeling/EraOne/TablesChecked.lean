import EraOne.Checked
import EraOne.TablesOdsTotal
import EraOne.TablesProtect

set_option autoImplicit false

/- Addresses, row and column edits and ranges with every `u32` operation checked, and when no check
fails. -/
namespace EraOne.Tables

open Scan EratSheet Checked

/-! ### Numbers -/

def mulU32 (a b : UInt32) : Option UInt32 :=
  if a.toNat * b.toNat < 2 ^ 32 then some (a * b) else none

/-- An index of an inserted row or column or behind it moves on. -/
theorem computes_insertAt (n i : UInt32) :
    Computes (if i ≥ n then addU32 i 1 else some i) (i ≠ lastIndex)
      (if i ≥ n then i + 1 else i) := by
  have last : lastIndex.toNat = 4294967295 := rfl
  have bound := i.toNat_lt
  refine ((computes_ite (i.toNat + (1 : UInt32).toNat < 2 ^ 32) (i + 1)).ite (i ≥ n)
    (computes_some i)).congr ?_
  rw [UInt32.toNat_one, Ne, ← UInt32.toNat_inj, last]
  constructor
  · rintro ⟨small, -⟩ same
    have inside : i ≥ n := UInt32.le_iff_toNat_le.mpr (by have := n.toNat_lt; omega)
    have fits := small inside
    omega
  · intro other
    exact ⟨fun _ => by omega, fun _ => trivial⟩

/-- An index behind a deleted row or column moves back. -/
theorem computes_deleteAt (n i : UInt32) :
    Computes (if i > n then subU32 i 1 else some i) True (if i > n then i - 1 else i) := by
  refine ((computes_ite (1 ≤ i) (i - 1)).ite (i > n) (computes_some i)).congr
    (iff_of_true ⟨fun above => ?_, fun _ => trivial⟩ trivial)
  rw [UInt32.le_iff_toNat_le, UInt32.toNat_one]
  have := UInt32.lt_iff_toNat_lt.mp above
  omega

/-- The loop over the letters of an address, checked. -/
def columnNumberChecked (letters : Str) : Option UInt32 :=
  letters.foldlM (fun cols c => (mulU32 cols 26).bind fun shifted =>
    addU32 shifted (UInt32.ofNat (c.toNat - 64))) 0

theorem le_columnValue (letters : Str) (start : Nat) : start ≤ columnValue letters start := by
  induction letters generalizing start with
  | nil => exact le_refl start
  | cons c letters ih =>
      have more := ih (start * 26 + (c.toNat - 64))
      rw [columnValue, List.foldl_cons, ← columnValue]
      omega

theorem computes_columnNumber (letters : Str) :
    Computes (columnNumberChecked letters) (columnValue letters 0 < 2 ^ 32)
      (columnNumber letters) := by
  have general (s : Str) (n : Nat) (small : n < 2 ^ 32) :
      Computes (s.foldlM (fun cols c => (mulU32 cols 26).bind fun shifted =>
        addU32 shifted (UInt32.ofNat (c.toNat - 64))) (UInt32.ofNat n))
        (columnValue s n < 2 ^ 32)
          (s.foldl (fun cols c => cols * 26 + UInt32.ofNat (c.toNat - 64)) (UInt32.ofNat n)) := by
    induction s generalizing n with
    | nil => exact (computes_some _).congr (iff_of_true trivial small)
    | cons c s ih =>
        have letter : c.toNat - 64 < 2 ^ 32 := by
          have valid : c.toNat < 0xD800 ∨ 0xDFFF < c.toNat ∧ c.toNat < 0x110000 := c.valid
          omega
        have digit : (UInt32.ofNat (c.toNat - 64)).toNat = c.toNat - 64 :=
          UInt32.toNat_ofNat_of_lt' letter
        have number : (UInt32.ofNat n).toNat = n := UInt32.toNat_ofNat_of_lt' small
        have grows := le_columnValue s (n * 26 + (c.toNat - 64))
        have step : columnValue (c :: s) n = columnValue s (n * 26 + (c.toNat - 64)) := rfl
        have shifted :
            Computes (mulU32 (UInt32.ofNat n) 26) (n * 26 < 2 ^ 32) (UInt32.ofNat (n * 26)) := by
          have product := computes_ite ((UInt32.ofNat n).toNat * (26 : UInt32).toNat < 2 ^ 32)
            (UInt32.ofNat n * 26)
          rw [number, show (26 : UInt32).toNat = 26 from rfl] at product
          rw [UInt32.ofNat_mul]
          unfold mulU32
          rw [number]
          exact product
        have added : Computes (addU32 (UInt32.ofNat (n * 26)) (UInt32.ofNat (c.toNat - 64)))
            (n * 26 % 2 ^ 32 + (c.toNat - 64) < 2 ^ 32)
            (UInt32.ofNat (n * 26 + (c.toNat - 64))) := by
          have sum :=
            computes_ite
              ((UInt32.ofNat (n * 26)).toNat + (UInt32.ofNat (c.toNat - 64)).toNat < 2 ^ 32)
            (UInt32.ofNat (n * 26) + UInt32.ofNat (c.toNat - 64))
          rw [digit, UInt32.toNat_ofNat', ← UInt32.ofNat_add] at sum
          unfold addU32
          rw [digit, UInt32.toNat_ofNat', ← UInt32.ofNat_add]
          exact sum
        have letter_ :
            Computes ((mulU32 (UInt32.ofNat n) 26).bind fun shifted =>
              addU32 shifted (UInt32.ofNat (c.toNat - 64)))
            (n * 26 < 2 ^ 32 ∧ n * 26 % 2 ^ 32 + (c.toNat - 64) < 2 ^ 32)
              (UInt32.ofNat (n * 26 + (c.toNat - 64))) :=
          shifted.bind added
        have same : UInt32.ofNat n * 26 + UInt32.ofNat (c.toNat - 64) = UInt32.ofNat
            (n * 26 + (c.toNat - 64)) := by
          rw [UInt32.ofNat_add, UInt32.ofNat_mul]
          rfl
        rw [List.foldlM_cons, List.foldl_cons, step, same]
        by_cases room : n * 26 + (c.toNat - 64) < 2 ^ 32
        · refine (letter_.bind (ih _ room)).congr (and_iff_right ⟨by omega, ?_⟩)
          rw [Nat.mod_eq_of_lt (by omega)]
          exact room
        · refine ⟨fun fits => absurd fits (by omega), fun _ => ?_⟩
          rw [letter_.stops fun both => room (by have := Nat.mod_eq_of_lt both.1; omega)]
          rfl
  exact general letters 0 (by decide)

section

variable (rt : Runtime)

/-! ### Addresses -/

/-- `parse_addr`, and `col_row`, checked. -/
def parseAddrChecked (addr : Str) : Option (Option (UInt32 × UInt32)) :=
  let addr := rt.upper addr
  (columnNumberChecked (addr.takeWhile Char.isAlpha)).map fun cols =>
    match parseU32 (addr.dropWhile Char.isAlpha) with
    | some row => if cols = 0 ∨ row = 0 then none else some (cols, row)
    | none => none

/-- The letters that an address begins with are a number of 32 bits. -/
def ColumnFits (addr : Str) : Prop :=
  columnValue ((rt.upper addr).takeWhile Char.isAlpha) 0 < 2 ^ 32

theorem computes_parseAddr (addr : Str) :
    Computes (parseAddrChecked rt addr) (ColumnFits rt addr) (parseAddr rt addr) :=
  (computes_columnNumber _).map _

/-- Two addresses, of which the second is not read where the first is none. -/
def cornersChecked (a b : Str) : Option (Option ((UInt32 × UInt32) × (UInt32 × UInt32))) :=
  (parseAddrChecked rt a).bind fun start => start.elim (some none) fun start =>
    (parseAddrChecked rt b).map fun stop => stop.map fun stop => (start, stop)

def corners (a b : Str) : Option ((UInt32 × UInt32) × (UInt32 × UInt32)) :=
  (parseAddr rt a).elim none fun start => (parseAddr rt b).map fun stop => (start, stop)

def CornersFit (a b : Str) : Prop := ColumnFits rt a ∧ ((parseAddr rt a).isSome → ColumnFits rt b)

theorem computes_corners (a b : Str) :
    Computes (cornersChecked rt a b) (CornersFit rt a b) (corners rt a b) :=
  (computes_parseAddr rt a).bind
    ((computes_elim _ none fun start => (computes_parseAddr rt b).map _).congr
    ⟨fun all some_ =>
      by obtain ⟨start, found⟩ := Option.isSome_iff_exists.mp some_; exact all start found,
      fun fits start found => fits (Option.isSome_of_mem found)⟩)

/-- `parse_a1_range`, checked. -/
def parseA1RangeChecked (range : Str) : Option (Option ((UInt32 × UInt32) × (UInt32 × UInt32))) :=
  let s := rt.upper (trim range)
  let ends := match splitOnce [':'] s with
    | some halves => (trim halves.1, trim halves.2)
    | none => (s, s)
  cornersChecked rt ends.1 ends.2

/-- The two corners of a range as they are written. -/
def rangeEnds (range : Str) : Str × Str :=
  match splitOnce [':'] (rt.upper (trim range)) with
  | some halves => (trim halves.1, trim halves.2)
  | none => (rt.upper (trim range), rt.upper (trim range))

theorem parseA1Range_ends (range : Str) :
    parseA1Range rt range =
      match parseAddr rt (rangeEnds rt range).1, parseAddr rt (rangeEnds rt range).2 with
      | some start, some stop => some (start, stop)
      | _, _ => none := rfl

theorem computes_parseA1Range (range : Str) :
    Computes (parseA1RangeChecked rt range)
      (CornersFit rt (rangeEnds rt range).1 (rangeEnds rt range).2) (parseA1Range rt range) := by
  have value :
      parseA1Range rt range = corners rt (rangeEnds rt range).1 (rangeEnds rt range).2 := by
    rw [parseA1Range_ends]
    unfold corners
    cases parseAddr rt (rangeEnds rt range).1 with
    | none => rfl
    | some start => cases parseAddr rt (rangeEnds rt range).2 <;> rfl
  rw [value]
  exact computes_corners rt _ _

/-- `expand_range`, checked. -/
def expandRangeChecked (range : Str) : Option (List Str) :=
  match range.splitOn ':' with
  | [single] => some [rt.upper single]
  | first :: second :: _ =>
      (cornersChecked rt first second).bind fun found => found.elim (some []) fun ends =>
        ((spanU32 (min ends.1.1 ends.2.1) (max ends.1.1 ends.2.1)).flatMap fun c =>
          (spanU32 (min ends.1.2 ends.2.2) (max ends.1.2 ends.2.2)).map fun r =>
            (c, r)).mapM fun position =>
            formatAddrChecked position.1 position.2
  | [] => some []

/-- The corners of the range that a formula names, if it names two. -/
def FormulaRangeFits (range : Str) : Prop :=
  ∀ first second rest, range.splitOn ':' = first :: second :: rest → CornersFit rt first second

theorem expandRange_corners (range first second : Str) (rest : List Str)
    (shape : range.splitOn ':' = first :: second :: rest) :
    expandRange rt range = (corners rt first second).elim [] fun ends =>
      ((spanU32 (min ends.1.1 ends.2.1) (max ends.1.1 ends.2.1)).flatMap fun c =>
        (spanU32 (min ends.1.2 ends.2.2) (max ends.1.2 ends.2.2)).map fun r =>
          (c, r)).map fun position =>
          addrOf position.1 position.2 := by
  unfold expandRange corners colRow
  rw [shape]
  dsimp only
  cases parseAddr rt first with
  | none => rfl
  | some start =>
      cases parseAddr rt second with
      | none => rfl
      | some stop =>
          dsimp only [Option.elim_some, Option.map_some]
          rw [List.map_flatMap]
          congr 1
          funext c
          rw [List.map_map]
          rfl

theorem computes_expandRange (range : Str) :
    Computes (expandRangeChecked rt range) (FormulaRangeFits rt range) (expandRange rt range) := by
  have printed (positions : List (UInt32 × UInt32)) :
      Computes (positions.mapM fun position => formatAddrChecked position.1 position.2) True
        (positions.map fun position => addrOf position.1 position.2) := by
    refine ⟨fun _ => ?_, fun fails => absurd trivial fails⟩
    induction positions with
    | nil => rfl
    | cons position positions ih =>
        rw [List.mapM_cons, ih, formatAddrChecked_eq]
        rfl
  have single (few : ∀ first second rest, range.splitOn ':' ≠ first :: second :: rest)
      (same : expandRangeChecked rt range = some (expandRange rt range)) :
      Computes (expandRangeChecked rt range) (FormulaRangeFits rt range)
        (expandRange rt range) := by
    rw [same]
    exact (computes_some _).congr
      (iff_of_true trivial fun first second rest shape => absurd shape (few first second rest))
  cases shape : range.splitOn ':' with
  | nil =>
      apply single
      · rw [shape]
        exact fun first second rest => (List.cons_ne_nil first (second :: rest)).symm
      · rw [expandRangeChecked, expandRange, shape]
  | cons first rest =>
      cases rest with
      | nil =>
          apply single
          · rw [shape]
            exact fun _ second rest same =>
              (List.cons_ne_nil second rest).symm (List.cons.inj same).2
          · rw [expandRangeChecked, expandRange, shape]
      | cons second rest =>
          rw [expandRange_corners rt range first second rest shape]
          unfold expandRangeChecked FormulaRangeFits
          rw [shape]
          refine ((computes_corners rt first second).bind
            (computes_elim _ [] fun ends => printed _)).congr ?_
          constructor
          · rintro ⟨fits, -⟩ first' second' rest' same
            obtain ⟨front, tail⟩ := List.cons.inj same
            rw [← front, ← (List.cons.inj tail).1]
            exact fits
          · intro all
            exact ⟨all first second rest rfl, fun _ _ => trivial⟩

/-! ### Row and column edits -/

/-- One row number of a formula, checked. -/
def shiftRowChecked (atRow : UInt32) (delta : Int) (r : UInt32) : Option UInt32 :=
  if delta > 0 ∧ r ≥ atRow then addU32 r (UInt32.ofInt delta)
  else if delta < 0 ∧ r > atRow then subU32 r (UInt32.ofInt (-delta))
  else some r

theorem computes_shiftRow (atRow : UInt32) (delta : Int) (unit : delta = 1 ∨ delta = -1)
    (r : UInt32) :
    Computes (shiftRowChecked atRow delta r) (delta = 1 → r ≠ lastIndex)
      (shiftRow atRow delta r) := by
  unfold shiftRowChecked shiftRow
  rcases unit with rfl | rfl
  · have up := computes_insertAt atRow r
    simp only [gt_iff_lt, Int.zero_lt_one, true_and, show ¬ (1 : Int) < 0 by decide, false_and,
      if_false, show UInt32.ofInt 1 = 1 from rfl]
    exact up.congr ⟨fun fits _ => fits, fun fits => fits trivial⟩
  · have down := computes_deleteAt atRow r
    simp only [gt_iff_lt, show ¬ (0 : Int) < -1 by decide, false_and, if_false,
      show (-1 : Int) < 0 by decide, true_and,
      show UInt32.ofInt (- -1) = 1 from rfl]
    exact down.congr (iff_of_true trivial fun never => absurd never (by decide))

/-- The loop of `shift_formula_rows`, checked. -/
def shiftFormulaLoopChecked (atRow : UInt32) (delta : Int) : Nat → Str → Option Str
  | 0, _ => some []
  | _, [] => some []
  | fuel + 1, c :: s =>
      if c.isAlpha then
        let letters := (c :: s).takeWhile Char.isAlpha
        let rest := (c :: s).dropWhile Char.isAlpha
        let digits := rest.takeWhile Char.isDigit
        ((parseU32 digits).elim (some digits) fun r => (shiftRowChecked atRow delta r).map fun r =>
          Nat.toDigits 10 r.toNat).bind
          fun number => (shiftFormulaLoopChecked atRow delta fuel (rest.dropWhile Char.isDigit)).map
            fun later => letters ++ number ++ later
      else
        (shiftFormulaLoopChecked atRow delta fuel s).map fun later =>
          (String.utf8EncodeChar c).map (fun b => Char.ofNat b.toNat) ++ later

/-- The row numbers that `shift_formula_rows` reads. -/
def rowReferencesLoop : Nat → Str → List UInt32
  | 0, _ => []
  | _, [] => []
  | fuel + 1, c :: s =>
      if c.isAlpha then
        let rest := (c :: s).dropWhile Char.isAlpha
        (parseU32 (rest.takeWhile Char.isDigit)).toList ++ rowReferencesLoop fuel
          (rest.dropWhile Char.isDigit)
      else rowReferencesLoop fuel s

def rowReferences (formula : Str) : List UInt32 := rowReferencesLoop formula.length formula

theorem computes_shiftFormulaLoop (atRow : UInt32) (delta : Int) (unit : delta = 1 ∨ delta = -1)
    (fuel : Nat) (s : Str) :
    Computes (shiftFormulaLoopChecked atRow delta fuel s)
      (delta = 1 → lastIndex ∉ rowReferencesLoop fuel s)
      (shiftFormulaLoop atRow delta fuel s) := by
  induction fuel generalizing s with
  | zero => exact (computes_some _).congr (iff_of_true trivial fun _ => List.not_mem_nil)
  | succ fuel ih =>
      cases s with
      | nil => exact (computes_some _).congr (iff_of_true trivial fun _ => List.not_mem_nil)
      | cons c s =>
          rw [shiftFormulaLoopChecked, shiftFormulaLoop, rowReferencesLoop]
          by_cases letter : c.isAlpha = true
          · rw [if_pos letter, if_pos letter, if_pos letter]
            dsimp only
            generalize (c :: s).dropWhile Char.isAlpha = rest
            have later := ih (rest.dropWhile Char.isDigit)
            cases parseU32 (rest.takeWhile Char.isDigit) with
            | none => exact later.map _
            | some r =>
                have number :=
                  (computes_shiftRow atRow delta unit r).map fun r => Nat.toDigits 10 r.toNat
                refine (number.bind (later.map _)).congr ?_
                rw [Option.toList_some, List.singleton_append, List.mem_cons, not_or, ← imp_and, Ne,
                  @eq_comm _ r]
          · rw [if_neg letter, if_neg letter, if_neg letter]
            exact (ih s).map _

/-- `shift_formula_rows`, checked. -/
def shiftFormulaRowsChecked (formula : Str) (atRow : UInt32) (delta : Int) : Option Str :=
  shiftFormulaLoopChecked atRow delta formula.length formula

theorem computes_shiftFormulaRows (formula : Str) (atRow : UInt32) (delta : Int)
    (unit : delta = 1 ∨ delta = -1) :
    Computes (shiftFormulaRowsChecked formula atRow delta)
      (delta = 1 → lastIndex ∉ rowReferences formula)
      (shiftFormulaRows formula atRow delta) :=
  computes_shiftFormulaLoop atRow delta unit formula.length formula

def shiftCellChecked (cell : Cell) (row : UInt32) (delta : Int) : Option Cell :=
  if cell.formula.isEmpty then some cell
  else (shiftFormulaRowsChecked cell.formula row delta).map fun formula =>
    { cell with formula := formula }

theorem computes_shiftCell (cell : Cell) (row : UInt32) (delta : Int)
    (unit : delta = 1 ∨ delta = -1) :
    Computes (shiftCellChecked cell row delta) (delta = 1 → lastIndex ∉ rowReferences cell.formula)
      (shiftCell cell row delta) := by
  unfold shiftCellChecked shiftCell
  by_cases empty : cell.formula.isEmpty = true
  · rw [if_pos empty, if_pos empty, List.isEmpty_iff.mp empty]
    exact (computes_some cell).congr (iff_of_true trivial fun _ => List.not_mem_nil)
  · rw [if_neg empty, if_neg empty]
    exact (computes_shiftFormulaRows cell.formula row delta unit).map _

/-- The address that a moved cell is written to. -/
theorem computes_formatAddr (col row : UInt32) :
    Computes (formatAddrChecked col row) True (addrOf col row) := by
  rw [formatAddrChecked_eq]
  exact computes_some _

/-- The loop bodies of the row and column edits, checked. -/
def insertRowCellChecked (row : UInt32) (addr : Str) (cell : Cell) : Option (Option (Str × Cell)) :=
  (parseAddrChecked rt addr).bind fun position =>
    position.elim (some (some (addr, cell))) fun at_ =>
    (if at_.2 ≥ row then addU32 at_.2 1 else some at_.2).bind fun newR =>
      (shiftCellChecked cell row 1).bind fun cell =>
        (formatAddrChecked at_.1 newR).map fun addr => some (addr, cell)

def deleteRowCellChecked (row : UInt32) (addr : Str) (cell : Cell) : Option (Option (Str × Cell)) :=
  (parseAddrChecked rt addr).bind fun position =>
    position.elim (some (some (addr, cell))) fun at_ =>
    if at_.2 = row then some none
    else
      (if at_.2 > row then subU32 at_.2 1 else some at_.2).bind fun newR =>
        (shiftCellChecked cell row (-1)).bind fun cell =>
          (formatAddrChecked at_.1 newR).map fun addr => some (addr, cell)

def insertColCellChecked (col : UInt32) (addr : Str) (cell : Cell) : Option (Option (Str × Cell)) :=
  (parseAddrChecked rt addr).bind fun position =>
    position.elim (some (some (addr, cell))) fun at_ =>
    (if at_.1 ≥ col then addU32 at_.1 1 else some at_.1).bind fun newC =>
      (formatAddrChecked newC at_.2).map fun addr => some (addr, cell)

def deleteColCellChecked (col : UInt32) (addr : Str) (cell : Cell) : Option (Option (Str × Cell)) :=
  (parseAddrChecked rt addr).bind fun position =>
    position.elim (some (some (addr, cell))) fun at_ =>
    if at_.1 = col then some none
    else
      (if at_.1 > col then subU32 at_.1 1 else some at_.1).bind fun newC =>
        (formatAddrChecked newC at_.2).map fun addr => some (addr, cell)

/-- An inserted row moves no cell of the last row, and no row number of a formula beyond it. -/
def InsertRowFits (addr : Str) (cell : Cell) : Prop :=
  ColumnFits rt addr ∧
    ∀ at_ ∈ parseAddr rt addr, at_.2 ≠ lastIndex ∧ lastIndex ∉ rowReferences cell.formula

def InsertColFits (addr : Str) : Prop :=
  ColumnFits rt addr ∧ ∀ at_ ∈ parseAddr rt addr, at_.1 ≠ lastIndex

theorem computes_insertRowCell (row : UInt32) (addr : Str) (cell : Cell) :
    Computes (insertRowCellChecked rt row addr cell) (InsertRowFits rt addr cell)
      (insertRowCell rt row addr cell) := by
  have value :
      insertRowCell rt row addr cell = (parseAddr rt addr).elim (some (addr, cell)) fun at_ =>
      some (addrOf at_.1 (if at_.2 ≥ row then at_.2 + 1 else at_.2), shiftCell cell row 1) := by
    unfold insertRowCell
    cases parseAddr rt addr <;> rfl
  rw [value]
  refine (computes_parseAddr rt addr).bind (computes_elim _ _ fun at_ => ?_)
  refine ((computes_insertAt row at_.2).bind ((computes_shiftCell cell row 1 (.inl rfl)).bind
    ((computes_formatAddr at_.1 _).map _))).congr ?_
  exact ⟨fun fits => ⟨fits.1, fits.2.1 rfl⟩, fun fits => ⟨fits.1, fun _ => fits.2, trivial⟩⟩

theorem computes_deleteRowCell (row : UInt32) (addr : Str) (cell : Cell) :
    Computes (deleteRowCellChecked rt row addr cell) (ColumnFits rt addr)
      (deleteRowCell rt row addr cell) := by
  have value :
      deleteRowCell rt row addr cell = (parseAddr rt addr).elim (some (addr, cell)) fun at_ =>
      if at_.2 = row then none
      else some (addrOf at_.1 (if at_.2 > row then at_.2 - 1 else at_.2),
        shiftCell cell row (-1)) := by
    unfold deleteRowCell
    cases parseAddr rt addr <;> rfl
  rw [value]
  refine ((computes_parseAddr rt addr).bind (computes_elim _ _ fun at_ => ?_)).congr
    (and_iff_left fun _ _ => trivial)
  refine ((computes_some none).ite (at_.2 = row) ((computes_deleteAt row at_.2).bind
    ((computes_shiftCell cell row (-1) (.inr rfl)).bind
      ((computes_formatAddr at_.1 _).map _)))).congr (iff_of_true ?_ trivial)
  exact ⟨fun _ => trivial, fun _ => ⟨trivial, fun never => absurd never (by decide), trivial⟩⟩

theorem computes_insertColCell (col : UInt32) (addr : Str) (cell : Cell) :
    Computes (insertColCellChecked rt col addr cell) (InsertColFits rt addr)
      (insertColCell rt col addr cell) := by
  have value :
      insertColCell rt col addr cell = (parseAddr rt addr).elim (some (addr, cell)) fun at_ =>
      some (addrOf (if at_.1 ≥ col then at_.1 + 1 else at_.1) at_.2, cell) := by
    unfold insertColCell
    cases parseAddr rt addr <;> rfl
  rw [value]
  refine (computes_parseAddr rt addr).bind (computes_elim _ _ fun at_ => ?_)
  exact ((computes_insertAt col at_.1).bind
    ((computes_formatAddr _ at_.2).map fun addr => some (addr, cell))).congr
    (and_iff_left trivial)

theorem computes_deleteColCell (col : UInt32) (addr : Str) (cell : Cell) :
    Computes (deleteColCellChecked rt col addr cell) (ColumnFits rt addr)
      (deleteColCell rt col addr cell) := by
  have value :
      deleteColCell rt col addr cell = (parseAddr rt addr).elim (some (addr, cell)) fun at_ =>
      if at_.1 = col then none
      else some (addrOf (if at_.1 > col then at_.1 - 1 else at_.1) at_.2, cell) := by
    unfold deleteColCell
    cases parseAddr rt addr <;> rfl
  rw [value]
  refine ((computes_parseAddr rt addr).bind (computes_elim _ _ fun at_ => ?_)).congr
    (and_iff_left fun _ _ => trivial)
  refine ((computes_some none).ite (at_.1 = col) ((computes_deleteAt col at_.1).bind
    ((computes_formatAddr _ at_.2).map _))).congr (iff_of_true ?_ trivial)
  exact ⟨fun _ => trivial, fun _ => ⟨trivial, trivial⟩⟩

/-- The loop of the row and column edits, checked. -/
def rebuildChecked (move : Str → Cell → Option (Option (Str × Cell))) (cells : StrMap Cell) :
    Option (StrMap Cell) :=
  cells.toList.foldlM (fun next entry => (move entry.1 entry.2).map fun moved =>
    match moved with
    | some moved => next.insert moved.1 moved.2
    | none => next) ∅

theorem computes_rebuild {move : Str → Cell → Option (Option (Str × Cell))}
    {fits : Str → Cell → Prop} {moved : Str → Cell → Option (Str × Cell)}
    (each : ∀ addr cell, Computes (move addr cell) (fits addr cell) (moved addr cell))
    (cells : StrMap Cell) :
    Computes (rebuildChecked move cells) (∀ entry ∈ cells.toList, fits entry.1 entry.2)
      (rebuild moved cells) :=
  computes_foldlM_forall (fun _ entry => (each entry.1 entry.2).map _) cells.toList ∅

/-! ### Sorting -/

def maxRowChecked (cells : StrMap Cell) : Option UInt32 :=
  cells.toList.foldlM (fun most entry => (parseAddrChecked rt entry.1).map fun position =>
    match position with
    | some (_, r) => max most r
    | none => most) 0

def rowCellsChecked (cells : StrMap Cell) (row : UInt32) : Option RowCells :=
  cells.toList.foldlM (fun found entry => (parseAddrChecked rt entry.1).map fun position =>
    match position with
    | some (c, r) => if r = row then found.insert c entry.2 else found
    | none => found) ∅

/-- The cells past the last row. -/
def keptChecked (cells : StrMap Cell) (last : UInt32) : Option (StrMap Cell) :=
  cells.toList.foldlM (fun next entry => (parseAddrChecked rt entry.1).map fun position =>
    match position with
    | some (_, r) => if r > last then next.insert entry.1 entry.2 else next
    | none => next) ∅

/-- The numbers of `1u32..` that `zip` draws, one more than there are rows. Each is drawn by adding
one to it. -/
def drawNumbers (rows : Nat) : Option (List UInt32) :=
  (List.range' 1 (rows + 1)).mapM fun number => (addU32 (UInt32.ofNat number) 1).map fun _ =>
    UInt32.ofNat number

/-- The last loop of `sort_rows_by_col`. -/
def placeRows (rows : List ((UInt32 × RowCells) × UInt32)) (kept : StrMap Cell) : StrMap Cell :=
  rows.foldl (fun next row => row.1.2.toList.foldl
    (fun next entry => next.insert (addrOf entry.1 row.2) entry.2) next) kept

/-- What `sort_rows_by_col` makes of the cells, checked. -/
def sortCellsChecked (cells : StrMap Cell) (last col : UInt32) (ascending : Bool) :
    Option (StrMap Cell) :=
  ((List.range' 1 last.toNat).mapM fun r =>
    (rowCellsChecked rt cells (UInt32.ofNat r)).map fun row => (UInt32.ofNat r, row)).bind
      fun rows => (keptChecked rt cells last).bind fun kept =>
        (drawNumbers rows.length).map fun numbers =>
          placeRows ((rows.mergeSort (sortLe rt col ascending)).zip numbers) kept

/-- The letters of every key fit. -/
def KeysFit (cells : StrMap Cell) : Prop := ∀ entry ∈ cells.toList, ColumnFits rt entry.1

theorem computes_maxRow (cells : StrMap Cell) :
    Computes (maxRowChecked rt cells) (KeysFit rt cells) (maxRow rt cells) :=
  computes_foldlM_forall (fun _ entry => (computes_parseAddr rt entry.1).map _) cells.toList 0

theorem computes_rowCells (cells : StrMap Cell) (row : UInt32) :
    Computes (rowCellsChecked rt cells row) (KeysFit rt cells) (rowCells rt cells row) :=
  computes_foldlM_forall (fun _ entry => (computes_parseAddr rt entry.1).map _) cells.toList ∅

theorem computes_drawNumbers (rows : Nat) :
    Computes (drawNumbers rows) (rows + 2 < 2 ^ 32)
      ((List.range' 1 (rows + 1)).map UInt32.ofNat) := by
  refine (computes_mapM (fun number =>
    (computes_ite ((UInt32.ofNat number).toNat + (1 : UInt32).toNat < 2 ^ 32) _).map
      fun _ => UInt32.ofNat number) _).congr ?_
  simp only [UInt32.toNat_ofNat', UInt32.toNat_one, List.mem_range'_1]
  constructor
  · intro all
    by_contra many
    have drawn := all (2 ^ 32 - 1) (by omega)
    omega
  · intro room number inside
    rw [Nat.mod_eq_of_lt (by omega)]
    omega

/-- The rows take the numbers from 1 on; the last number drawn finds no row. -/
theorem zip_numbers {α : Type} (rows : List α) (start count : Nat) (enough : rows.length ≤ count) :
    rows.zip ((List.range' start count).map UInt32.ofNat) =
      (rows.zipIdx start).map fun row => (row.1, UInt32.ofNat row.2) := by
  induction rows generalizing start count with
  | nil => rfl
  | cons row rows ih =>
      obtain ⟨count, rfl⟩ : ∃ less, count = less + 1 :=
        ⟨count - 1, by rw [List.length_cons] at enough; omega⟩
      rw [List.range'_succ, List.map_cons, List.zip_cons_cons, List.zipIdx_cons, List.map_cons,
        ih (start + 1) count (Nat.le_of_succ_le_succ enough)]

theorem computes_sortCells (cells : StrMap Cell) (col : UInt32) (ascending : Bool)
    (fit : KeysFit rt cells) :
    Computes (sortCellsChecked rt cells (maxRow rt cells) col ascending)
      ((maxRow rt cells).toNat + 2 < 2 ^ 32) (sortCells rt cells col ascending) := by
  have rows := computes_mapM (fun r => (computes_rowCells rt cells (UInt32.ofNat r)).map
    fun row => (UInt32.ofNat r, row)) (List.range' 1 (maxRow rt cells).toNat)
  have kept : Computes (keptChecked rt cells (maxRow rt cells)) (KeysFit rt cells) _ :=
    computes_foldlM_forall (fun _ entry => (computes_parseAddr rt entry.1).map _) cells.toList ∅
  have written : Computes (sortCellsChecked rt cells (maxRow rt cells) col ascending) _ _ :=
    rows.bind (kept.bind ((computes_drawNumbers _).map _))
  rw [zip_numbers _ 1 _ (by simp), placeRows, List.foldl_map, List.length_map,
    List.length_range'] at written
  refine written.congr ?_
  exact ⟨fun fits => fits.2.2, fun room => ⟨fun _ _ => fit, fit, room⟩⟩

/-! ### Printing and reading -/

variable {rt}

/-- The letters of a column read as that column, which is a number of 32 bits. -/
theorem columnFits_addrOf (lawful : rt.Lawful) (col row : UInt32) :
    ColumnFits rt (addrOf col row) := by
  obtain ⟨fixed, front, -⟩ := addrOf_shape lawful col row
  unfold ColumnFits
  rw [fixed, front, columnLetters, columnValue_loop _ _ _ le_rfl]
  exact col.toNat_lt

theorem parseAddrChecked_addrOf (lawful : rt.Lawful) (col row : UInt32) (hcol : col ≠ 0)
    (hrow : row ≠ 0) : parseAddrChecked rt (addrOf col row) = some (some (col, row)) := by
  rw [(computes_parseAddr rt _).passes (columnFits_addrOf lawful col row),
    parseAddr_addrOf lawful col row hcol hrow]

/-- Printing an address and reading it again overflows nowhere and gives the position back, so that
no two positions share an address; whatever spelling is read, what is printed for it is read as the
same position. -/
theorem address_codec (lawful : rt.Lawful) :
    (∀ col row, col ≠ 0 → row ≠ 0 →
      (formatAddrChecked col row).bind (parseAddrChecked rt) = some (some (col, row))) ∧
    Function.Injective (fun position : UInt32 × UInt32 => addrOf position.1 position.2) ∧
    ∀ addr position, parseAddr rt addr = some position →
      parseAddrChecked rt (addrOf position.1 position.2) = some (some position) := by
  refine ⟨?_, ?_, ?_⟩
  · intro col row hcol hrow
    rw [formatAddrChecked_eq, Option.bind_some]
    exact parseAddrChecked_addrOf lawful col row hcol hrow
  · intro a b same
    exact addrOf_inj lawful a b same
  · intro addr position parsed
    obtain ⟨hcol, hrow⟩ := parseAddr_ne_zero addr position parsed
    exact parseAddrChecked_addrOf lawful position.1 position.2 hcol hrow

theorem address_codec_plain :
    (formatAddrChecked 703 4294967295).bind (parseAddrChecked .plain) = some
    (some (703, 4294967295)) ∧
      parseAddrChecked .plain (addrOf 26 7) = some (some (26, 7)) :=
  ⟨(address_codec Runtime.plain_lawful).1 703 4294967295 (by decide) (by decide),
    (address_codec Runtime.plain_lawful).2.2 "z007".toList (26, 7) (by decide)⟩

example : addrOf 702 1 = "ZZ1".toList ∧ addrOf 703 1 = "AAA1".toList := by decide

end

end EraOne.Tables
