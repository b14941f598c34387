import EraOne.Literals
import EraOne.TablesOds
import EraOne.TablesShift

set_option autoImplicit false

/- The reader of `content.xml` with every slice, position and counter checked, and when no check
fails. -/
namespace EraOne.Tables

open Scan

/-! ### Checked slices and counters -/

/-- A position of a text, as a `usize`. -/
def position (n : Nat) : Option Nat := if n < 2 ^ 64 then some n else none

/-- `str::find`. -/
def findAt (pattern s : Str) : Option Nat :=
  (splitOnce pattern s).map fun halves => byteLen halves.1

/-- `&s[..n]`. -/
def sliceTo (s : Str) (n : Nat) : Option Str :=
  if CharBoundary s n then some (takeBytes s n) else none

/-- `&s[n..m]`. -/
def slice (s : Str) (n m : Nat) : Option Str := (sliceTo s m).bind fun front => sliceFrom front n

def addU32 (a b : UInt32) : Option UInt32 :=
  if a.toNat + b.toNat < 2 ^ 32 then some (a + b) else none

def subU32 (a b : UInt32) : Option UInt32 := if b ≤ a then some (a - b) else none

/-- The text `rest` stands at position `n` of `s`. -/
def At (s : Str) (n : Nat) (rest : Str) : Prop := ∃ front, s = front ++ rest ∧ byteLen front = n

section At

variable {s rest : Str} {n : Nat}

theorem At.start (s : Str) : At s 0 s := ⟨[], rfl, rfl⟩

theorem At.sliceFrom (here : At s n rest) : Scan.sliceFrom s n = some rest := by
  obtain ⟨front, rfl, rfl⟩ := here
  have cut : CharBoundary (front ++ rest) (byteLen front) :=
    (charBoundary_iff _ _).mpr ⟨front, rest, rfl, rfl⟩
  rw [Scan.sliceFrom, if_pos cut, dropBytes_front]

theorem At.length (here : At s n rest) : n + byteLen rest = byteLen s := by
  obtain ⟨front, rfl, rfl⟩ := here
  exact (byteLen_append front rest).symm

theorem At.position (here : At s n rest) (small : byteLen s < 2 ^ 63) : position n = some n := by
  have bound := here.length
  exact if_pos (by omega)

theorem At.skip {front back : Str} (here : At s n (front ++ back)) :
    At s (n + byteLen front) back := by
  obtain ⟨before, rfl, rfl⟩ := here
  exact ⟨before ++ front, (List.append_assoc _ _ _).symm, byteLen_append before front⟩

theorem At.slice {front back : Str} (here : At s n (front ++ back)) :
    Tables.slice s n (n + byteLen front) = some front := by
  obtain ⟨before, rfl, rfl⟩ := here
  have whole : before ++ (front ++ back) = (before ++ front) ++ back :=
    (List.append_assoc _ _ _).symm
  have size := byteLen_append before front
  have cut : CharBoundary (before ++ (front ++ back)) (byteLen before + byteLen front) :=
    (charBoundary_iff _ _).mpr ⟨before ++ front, back, whole, size⟩
  have inner : At (before ++ front) (byteLen before) front := ⟨before, rfl, rfl⟩
  rw [Tables.slice, sliceTo, if_pos cut, whole, ← size, takeBytes_front, Option.bind_some,
    inner.sliceFrom]

theorem sliceTo_front (front back : Str) :
    sliceTo (front ++ back) (byteLen front) = some front := by
  have cut : CharBoundary (front ++ back) (byteLen front) :=
    (charBoundary_iff _ _).mpr ⟨front, back, rfl, rfl⟩
  rw [sliceTo, if_pos cut, takeBytes_front]

end At

/-! ### Attributes, texts and addresses -/

/-- The value between the quotes that open behind a match. -/
def attrQuoted (chunk pattern : Str) (idx : Nat) (quote : Char) : Option (Option Str) := do
  let behind ← position (idx + byteLen pattern)
  let rest ← sliceFrom chunk behind
  match findAt [quote] rest with
  | some stop => (sliceTo rest stop).map some
  | none => some none

/-- `attr_value`, checked. -/
def attrValueChecked (chunk name : Str) : Option (Option Str) :=
  match findAt (name ++ "=\"".toList) chunk with
  | some idx => attrQuoted chunk (name ++ "=\"".toList) idx '"'
  | none =>
      match findAt (name ++ "='".toList) chunk with
      | some idx => attrQuoted chunk (name ++ "='".toList) idx '\''
      | none => some none

/-- `attr_u32`, checked. -/
def attrU32Checked (chunk name : Str) : Option (Option UInt32) :=
  (attrValueChecked chunk name).map fun value => value.bind parseU32

/-- `extract_tag_text`, checked. -/
def extractTagTextChecked (chunk tag : Str) : Option (Option Str) :=
  match findAt ('<' :: tag) chunk with
  | none => some none
  | some idx => do
      let behind ← position (idx + byteLen ('<' :: tag))
      let after ← sliceFrom chunk behind
      match findAt ['>'] after with
      | none => some none
      | some gt => do
          let opened ← sliceTo after gt
          if opened.getLast? = some '/' then some (some [])
          else do
            let inside ← position (gt + 1)
            let rest ← sliceFrom after inside
            match findAt ("</".toList ++ tag ++ ['>']) rest with
            | none => some none
            | some stop => (sliceTo rest stop).map some

/-- The loop of `format_addr`, checked. -/
def formatAddrLoopChecked : Nat → UInt32 → Str → Option Str
  | 0, _, _ => none
  | fuel + 1, n, s =>
      if n > 0 then do
        let m ← subU32 n 1
        formatAddrLoopChecked fuel (m / 26) (Char.ofNat (65 + (m % 26).toNat) :: s)
      else some s

/-- `format_addr`, checked. -/
def formatAddrChecked (col row : UInt32) : Option Str :=
  (formatAddrLoopChecked (col.toNat + 1) col []).map fun letters =>
    letters ++ Nat.toDigits 10 row.toNat

section Found

variable {pattern s front back : Str}

theorem findAt_none (absent : splitOnce pattern s = none) : findAt pattern s = none := by
  rw [findAt, absent, Option.map_none]

theorem findAt_some (found : splitOnce pattern s = some (front, back)) :
    findAt pattern s = some (byteLen front) := by
  rw [findAt, found, Option.map_some]

/-- What stands at a match and behind it. -/
theorem At.found {text : Str} {n : Nat} (here : At text n s)
    (found : splitOnce pattern s = some (front, back)) :
    At text (n + byteLen front + byteLen pattern) back ∧
      Tables.slice text n (n + byteLen front) = some front := by
  rw [splitOnce_append pattern s front back found] at here
  exact ⟨here.skip.skip, here.slice⟩

theorem sliceTo_found (found : splitOnce pattern s = some (front, back)) :
    sliceTo s (byteLen front) = some front := by
  rw [splitOnce_append pattern s front back found]
  exact sliceTo_front front _

theorem sliceTo_match (found : splitOnce pattern s = some (front, back)) :
    sliceTo s (byteLen front + byteLen pattern) = some (front ++ pattern) := by
  rw [splitOnce_append pattern s front back found, ← List.append_assoc, ← byteLen_append]
  exact sliceTo_front (front ++ pattern) back

theorem byteLen_found (found : splitOnce pattern s = some (front, back)) :
    byteLen front + byteLen pattern + byteLen back = byteLen s := by
  rw [splitOnce_append pattern s front back found, byteLen_append, byteLen_append]
  omega

theorem length_found (found : splitOnce pattern s = some (front, back)) :
    front.length + pattern.length + back.length = s.length := by
  rw [splitOnce_append pattern s front back found, List.length_append, List.length_append]
  omega

end Found

theorem attrQuoted_eq (chunk pattern front rest : Str) (quote : Char)
    (small : byteLen chunk < 2 ^ 63) (found : splitOnce pattern chunk = some (front, rest)) :
    attrQuoted chunk pattern (byteLen front) quote = some
      ((splitOnce [quote] rest).map Prod.fst) := by
  have behind := ((At.start chunk).found found).1
  rw [Nat.zero_add] at behind
  unfold attrQuoted
  rw [behind.position small, Option.bind_eq_bind, Option.bind_some, behind.sliceFrom,
    Option.bind_eq_bind, Option.bind_some]
  cases stop : splitOnce [quote] rest with
  | none => rw [findAt_none stop, Option.map_none]
  | some halves =>
      rw [findAt_some stop]
      dsimp only
      rw [sliceTo_found stop, Option.map_some, Option.map_some]

theorem attrValueChecked_eq (chunk name : Str) (small : byteLen chunk < 2 ^ 63) :
    attrValueChecked chunk name = some (odsAttrValue chunk name) := by
  unfold attrValueChecked odsAttrValue
  cases double : splitOnce (name ++ "=\"".toList) chunk with
  | some halves =>
      rw [findAt_some double]
      exact attrQuoted_eq chunk _ _ _ '"' small double
  | none =>
      rw [findAt_none double]
      cases single : splitOnce (name ++ "='".toList) chunk with
      | some halves =>
          rw [findAt_some single]
          exact attrQuoted_eq chunk _ _ _ '\'' small single
      | none => rw [findAt_none single]

theorem attrU32Checked_eq (chunk name : Str) (small : byteLen chunk < 2 ^ 63) :
    attrU32Checked chunk name = some (attrU32 chunk name) := by
  rw [attrU32Checked, attrValueChecked_eq chunk name small, Option.map_some]
  rfl

theorem extractTagTextChecked_eq (chunk tag : Str) (small : byteLen chunk < 2 ^ 63) :
    extractTagTextChecked chunk tag = some (extractTagText chunk tag) := by
  unfold extractTagTextChecked extractTagText
  cases opened : splitOnce ('<' :: tag) chunk with
  | none =>
      rw [findAt_none opened]
      rfl
  | some first =>
      have behind := ((At.start chunk).found opened).1
      have size := byteLen_found opened
      rw [Nat.zero_add] at behind
      simp only [findAt_some opened, behind.position small, behind.sliceFrom, Option.bind_eq_bind,
        Option.bind_some]
      cases closed : splitOnce ['>'] first.2 with
      | none =>
          rw [findAt_none closed]
          rfl
      | some second =>
          have inside := ((At.start first.2).found closed).1
          rw [Nat.zero_add, show byteLen ['>'] = 1 from rfl] at inside
          simp only [findAt_some closed, sliceTo_found closed, inside.position (by omega),
            inside.sliceFrom, Option.bind_some]
          by_cases alone : second.1.getLast? = some '/'
          · rw [if_pos alone, if_pos alone]
            rfl
          · rw [if_neg alone, if_neg alone]
            cases text : splitOnce ("</".toList ++ tag ++ ['>']) second.2 with
            | none =>
                rw [findAt_none text]
                rfl
            | some third =>
                rw [findAt_some text]
                dsimp only
                rw [sliceTo_found text]
                rfl

theorem formatAddrLoopChecked_eq (fuel : Nat) (n : UInt32) (s : Str) (enough : n.toNat ≤ fuel) :
    formatAddrLoopChecked (fuel + 1) n s = some (columnLettersLoop fuel n.toNat s) := by
  induction fuel generalizing n s with
  | zero =>
      have zero : ¬n > 0 := by
        rw [gt_iff_lt, UInt32.lt_iff_toNat_lt, UInt32.toNat_zero]
        omega
      rw [formatAddrLoopChecked, if_neg zero]
      rfl
  | succ fuel ih =>
      rw [formatAddrLoopChecked, columnLettersLoop]
      by_cases positive : n > 0
      · have above := UInt32.lt_iff_toNat_lt.mp positive
        rw [UInt32.toNat_zero] at above
        have one : (1 : UInt32) ≤ n := by
          rw [UInt32.le_iff_toNat_le, UInt32.toNat_one]
          omega
        have less : (n - 1).toNat = n.toNat - 1 := by
          rw [UInt32.toNat_sub_of_le _ _ one, UInt32.toNat_one]
        have inner := ih ((n - 1) / 26) (Char.ofNat (65 + ((n - 1) % 26).toNat) :: s) (by
          rw [UInt32.toNat_div, less]
          have quotient := Nat.div_le_self (n.toNat - 1) (UInt32.toNat 26)
          omega)
        rw [if_pos positive, if_pos above, subU32, if_pos one, Option.bind_eq_bind,
          Option.bind_some, inner, UInt32.toNat_div, UInt32.toNat_mod, less]
        rfl
      · have zero : n.toNat = 0 := by
          rw [gt_iff_lt, UInt32.lt_iff_toNat_lt, UInt32.toNat_zero] at positive
          omega
        rw [if_neg positive, if_neg (by omega)]

theorem formatAddrChecked_eq (col row : UInt32) :
    formatAddrChecked col row = some (addrOf col row) := by
  rw [formatAddrChecked, formatAddrLoopChecked_eq _ _ _ le_rfl, Option.map_some]
  rfl

/-! ### A cell -/

/-- The tag of a cell, as the reader takes it off a row. -/
structure CellTag where
  covered : Bool
  /-- From the name of the tag to its `>`. -/
  text : Str
  deriving DecidableEq, Repr

namespace CellTag

variable (t : CellTag)

def attrs : Str := trimEndMatches '/' t.text

def columns : UInt32 := (attrU32 t.attrs "table:number-columns-repeated".toList).getD 1

def colSpan : UInt32 := (attrU32 t.attrs "table:number-columns-spanned".toList).getD 1

def rowSpan : UInt32 := (attrU32 t.attrs "table:number-rows-spanned".toList).getD 1

/-- Nothing is read behind the tag. -/
def Alone : Prop := t.text.getLast? = some '/' ∨ t.covered = true

instance : Decidable t.Alone := inferInstanceAs (Decidable (_ ∨ _))

/-- The last column and row of a merged cell are counted without an overflow. -/
def SpanFits (row col : Nat) : Prop :=
  t.colSpan > 1 ∨ t.rowSpan > 1 → col + t.colSpan.toNat < 2 ^ 32 ∧ row + t.rowSpan.toNat < 2 ^ 32

/-- A tag that is read without an overflow or an underflow: it is not bare, and the columns fit. -/
structure Fits (row col : Nat) : Prop where
  notBare : t.text ≠ []
  span : t.covered = false → t.SpanFits row col
  column : col + t.columns.toNat < 2 ^ 32

end CellTag

/-- `value` of a cell, checked. -/
def odsValueChecked (attrs inner : Str) : Option Str := do
  let given ← attrValueChecked attrs "office:value".toList
  let given ← match given with
    | some value => some (some value)
    | none => attrValueChecked attrs "office:string-value".toList
  let value := (given.map xmlUnescape).getD []
  if value.isEmpty then do
    let text ← extractTagTextChecked inner "text:p".toList
    match text with
    | some p => some (xmlUnescape (stripInnerTags p))
    | none => some value
  else some value

/-- The end of a merge, `col + col_span - 1` and `row + row_span - 1`. -/
def spanEndChecked (start span : UInt32) : Option UInt32 :=
  (addU32 start span).bind fun stop => subU32 stop 1

/-- The entry of a cell with a value or a formula, checked. -/
def insertCellChecked (row col : UInt32) (value formula : Str) (cells : StrMap Cell) :
    Option (StrMap Cell) :=
  if ¬ value.isEmpty ∨ ¬ formula.isEmpty then
    (formatAddrChecked col row).map fun addr =>
      cells.insert addr { value := value, formula := formula }
  else some cells

/-- The merge of a cell with a span, checked. -/
def addMergeChecked (row col colSpan rowSpan : UInt32) (merges : List Str) : Option (List Str) :=
  if colSpan > 1 ∨ rowSpan > 1 then do
    let lastCol ← spanEndChecked col colSpan
    let lastRow ← spanEndChecked row rowSpan
    let stop ← formatAddrChecked lastCol lastRow
    let start ← formatAddrChecked col row
    some (merges ++ [start ++ ':' :: stop])
  else some merges

/-- What a cell that is not covered adds, checked. -/
def readTableCellChecked (row col colSpan rowSpan : UInt32) (attrs inner : Str) (read : ReadTable) :
    Option ReadTable := do
  let formula ← attrValueChecked attrs "table:formula".toList
  let value ← odsValueChecked attrs inner
  let cells ← insertCellChecked row col value ((formula.map normalizeOdsFormula).getD []) read.1
  let merges ← addMergeChecked row col colSpan rowSpan read.2
  some (cells, merges)

theorem odsValueChecked_eq (attrs inner : Str) (small : byteLen attrs < 2 ^ 63)
    (small' : byteLen inner < 2 ^ 63) :
    odsValueChecked attrs inner = some (odsValue attrs inner) := by
  have paragraph (value : Str) : (if value.isEmpty then
      (extractTagTextChecked inner "text:p".toList).bind fun text => match text with
        | some p => some (xmlUnescape (stripInnerTags p))
        | none => some value
      else some value) = some (if value.isEmpty then match extractTagText inner "text:p".toList with
        | some p => xmlUnescape (stripInnerTags p)
        | none => value
      else value) := by
    rw [extractTagTextChecked_eq inner _ small', Option.bind_some]
    split
    · cases extractTagText inner "text:p".toList with
      | none => rfl
      | some p => rfl
    · rfl
  unfold odsValueChecked odsValue
  simp only [attrValueChecked_eq attrs _ small, Option.bind_eq_bind, Option.bind_some]
  cases odsAttrValue attrs "office:value".toList with
  | none => exact paragraph _
  | some value => exact paragraph _

theorem addU32_iff (a b out : UInt32) :
    addU32 a b = some out ↔ a.toNat + b.toNat < 2 ^ 32 ∧ a + b = out := by
  unfold addU32
  split
  · rename_i fits
    rw [Option.some.injEq]
    exact (and_iff_right fits).symm
  · rename_i beyond
    exact iff_of_false (by simp) fun both => beyond both.1

theorem toNat_add_of_fits (a b : UInt32) (fits : a.toNat + b.toNat < 2 ^ 32) :
    (a + b).toNat = a.toNat + b.toNat := by
  rw [UInt32.toNat_add, Nat.mod_eq_of_lt fits]

theorem spanEndChecked_iff (start span : UInt32) (positive : 0 < start) (out : UInt32) :
    spanEndChecked start span = some out ↔ start.toNat + span.toNat < 2 ^ 32 ∧
      start + span - 1 = out := by
  have above := UInt32.lt_iff_toNat_lt.mp positive
  rw [UInt32.toNat_zero] at above
  unfold spanEndChecked
  rw [Option.bind_eq_some_iff]
  simp only [addU32_iff, and_assoc]
  constructor
  · rintro ⟨sum, fits, rfl, ends⟩
    have one : (1 : UInt32) ≤ start + span := by
      rw [UInt32.le_iff_toNat_le, UInt32.toNat_one, toNat_add_of_fits _ _ fits]
      omega
    rw [subU32, if_pos one, Option.some.injEq] at ends
    exact ⟨fits, ends⟩
  · rintro ⟨fits, ends⟩
    have one : (1 : UInt32) ≤ start + span := by
      rw [UInt32.le_iff_toNat_le, UInt32.toNat_one, toNat_add_of_fits _ _ fits]
      omega
    refine ⟨start + span, fits, rfl, ?_⟩
    rw [subU32, if_pos one, ends]

theorem insertCellChecked_eq (row col : UInt32) (value formula : Str) (cells : StrMap Cell) :
    insertCellChecked row col value formula cells =
      some (if ¬ value.isEmpty ∨ ¬ formula.isEmpty then
        cells.insert (addrOf col row) { value := value, formula := formula } else cells) := by
  unfold insertCellChecked
  rw [formatAddrChecked_eq]
  split
  · rfl
  · rfl

theorem addMergeChecked_iff (row col colSpan rowSpan : UInt32) (merges out : List Str)
    (rowPos : 0 < row) (colPos : 0 < col) :
    addMergeChecked row col colSpan rowSpan merges = some out ↔
      (colSpan > 1 ∨ rowSpan > 1 →
        col.toNat + colSpan.toNat < 2 ^ 32 ∧ row.toNat + rowSpan.toNat < 2 ^ 32) ∧
      (if colSpan > 1 ∨ rowSpan > 1 then
        merges ++ [addrOf col row ++ ':' :: addrOf (col + colSpan - 1) (row + rowSpan - 1)]
      else merges) = out := by
  unfold addMergeChecked
  by_cases spans : colSpan > 1 ∨ rowSpan > 1
  · rw [if_pos spans, if_pos spans]
    simp only [Option.bind_eq_bind, formatAddrChecked_eq, Option.bind_some, Option.bind_eq_some_iff,
      spanEndChecked_iff _ _ colPos, spanEndChecked_iff _ _ rowPos, Option.some.injEq]
    constructor
    · rintro ⟨lastCol, ⟨colFits, rfl⟩, lastRow, ⟨rowFits, rfl⟩, rfl⟩
      exact ⟨fun _ => ⟨colFits, rowFits⟩, rfl⟩
    · rintro ⟨fits, rfl⟩
      exact ⟨_, ⟨(fits spans).1, rfl⟩, _, ⟨(fits spans).2, rfl⟩, rfl⟩
  · rw [if_neg spans, if_neg spans, Option.some.injEq]
    exact ⟨fun same => ⟨fun some_ => absurd some_ spans, same⟩, And.right⟩

theorem readTableCellChecked_iff (t : CellTag) (row col : UInt32) (inner : Str)
    (read out : ReadTable) (small : byteLen t.attrs < 2 ^ 63) (small' : byteLen inner < 2 ^ 63)
    (rowPos : 0 < row) (colPos : 0 < col) :
    readTableCellChecked row col t.colSpan t.rowSpan t.attrs inner read = some out ↔
      t.SpanFits row.toNat col.toNat ∧ readTableCell row col t.attrs inner read = out := by
  unfold readTableCellChecked
  simp only [attrValueChecked_eq t.attrs _ small, odsValueChecked_eq t.attrs inner small small',
    insertCellChecked_eq, Option.bind_eq_bind, Option.bind_some, Option.bind_eq_some_iff,
    addMergeChecked_iff _ _ _ _ _ _ rowPos colPos, Option.some.injEq]
  constructor
  · rintro ⟨merges, ⟨fits, rfl⟩, rfl⟩
    exact ⟨fits, rfl⟩
  · rintro ⟨fits, rfl⟩
    exact ⟨_, ⟨fits, rfl⟩, rfl⟩

/-! ### The cells of a row -/

def tagName (covered : Bool) : Str := if covered then coveredTag else cellTag

/-- The next tag of a cell: where it stands, and whether the cell is a covered one. -/
def nextTag (rest : Str) : Option (Nat × Bool) :=
  match findAt cellTag rest, findAt coveredTag rest with
  | some a, some b => if a ≤ b then some (a, false) else some (b, true)
  | some a, none => some (a, false)
  | none, some b => some (b, true)
  | none, none => none

/-- `self_closing`; the byte before the `>` is read at `gt - 1`. -/
def selfClosingChecked (after inTag : Str) (gt : Nat) : Option Bool :=
  if inTag.getLast? = some '/' then some true
  else if gt = 0 then none
  else some ((after.flatMap String.utf8EncodeChar)[gt - 1]? = some 47)

/-- What stands before the closing tag, nothing where there is none. -/
def elementBody (xml close : Str) (bodyStart : Nat) : Option Str := do
  let inside ← sliceFrom xml bodyStart
  match findAt close inside with
  | some rel => slice xml bodyStart (bodyStart + rel)
  | none => some []

/-- Where the search goes on behind the closing tag. -/
def elementEnd (xml close : Str) (bodyStart : Nat) : Option (Option Nat) := do
  let inside ← sliceFrom xml bodyStart
  match findAt close inside with
  | some rel => (position (bodyStart + rel + byteLen close)).map some
  | none => some none

/-- `cell_inner`, `row_body`. -/
def bodyUnless (alone : Bool) (xml close : Str) (bodyStart : Nat) : Option Str :=
  if alone then some [] else elementBody xml close bodyStart

/-- The next `search`, none where the loop ends. -/
def searchUnless (alone : Bool) (xml close : Str) (bodyStart : Nat) : Option (Option Nat) :=
  if alone then some (some bodyStart) else elementEnd xml close bodyStart

/-- What a cell adds, nothing if it is covered. -/
def cellUnless (covered : Bool) (row col colSpan rowSpan : UInt32) (attrs inner : Str)
    (read : ReadTable) :
    Option ReadTable :=
  if covered then some read else readTableCellChecked row col colSpan rowSpan attrs inner read

/-- A round behind the `>` of a tag: the next column, what is read and the next `search`. -/
def cellRoundChecked (rowXml : Str) (row col : UInt32) (after : Str) (behind gt : Nat)
    (covered : Bool) (read : ReadTable) : Option (UInt32 × ReadTable × Option Nat) := do
  let inTag ← sliceTo after gt
  let selfClosing ← selfClosingChecked after inTag gt
  let colRepeat ← attrU32Checked (trimEndMatches '/' inTag) "table:number-columns-repeated".toList
  let colSpan ← attrU32Checked (trimEndMatches '/' inTag) "table:number-columns-spanned".toList
  let rowSpan ← attrU32Checked (trimEndMatches '/' inTag) "table:number-rows-spanned".toList
  let bodyStart ← position (behind + gt + 1)
  let inner ← bodyUnless (selfClosing || covered) rowXml cellClose bodyStart
  let next ← cellUnless covered row col (colSpan.getD 1) (rowSpan.getD 1)
      (trimEndMatches '/' inTag) inner read
  let col ← addU32 col (colRepeat.getD 1)
  let search ← searchUnless (selfClosing || covered) rowXml cellClose bodyStart
  some (col, next, search)

/-- The loop of `parse_row_cells`, checked. -/
def rowCellsLoopChecked (rowXml : Str) (row : UInt32) :
    Nat → Nat → UInt32 → ReadTable → Option ReadTable
  | 0, _, _, _ => none
  | fuel + 1, search, col, read =>
      if search < byteLen rowXml then do
        let rest ← sliceFrom rowXml search
        match nextTag rest with
        | none => some read
        | some (rel, covered) => do
            let behind ← position (search + rel + byteLen (tagName covered))
            let after ← sliceFrom rowXml behind
            if ¬ (after.head?.any fun c => " \n\t\r>/".toList.contains c) then
              rowCellsLoopChecked rowXml row fuel behind col read
            else
              match findAt ['>'] after with
              | none => some read
              | some gt => do
                  let round ← cellRoundChecked rowXml row col after behind gt covered read
                  match round.2.2 with
                  | some search => rowCellsLoopChecked rowXml row fuel search round.1 round.2.1
                  | none => some round.2.1
      else some read

/-- `parse_row_cells`, checked. -/
def parseRowCellsChecked (rowXml : Str) (row : UInt32) (read : ReadTable) : Option ReadTable :=
  rowCellsLoopChecked rowXml row (rowXml.length + 1) 0 1 read

/-- The tags the loop takes off the rest of a row. -/
def cellTags : Nat → Str → List CellTag
  | 0, _ => []
  | fuel + 1, rest =>
      match nextCell rest with
      | none => []
      | some (covered, after) =>
          if ¬ (after.head?.any fun c => " \n\t\r>/".toList.contains c) then cellTags fuel after
          else
            match splitOnce ['>'] after with
            | none => []
            | some (text, inside) =>
                ⟨covered, text⟩ ::
                  if (⟨covered, text⟩ : CellTag).Alone then cellTags fuel inside
                  else
                    match splitOnce cellClose inside with
                    | some halves => cellTags fuel halves.2
                    | none => []

/-- Every tag of a row is read without an overflow or an underflow. -/
def CellsFit (row : Nat) : Nat → List CellTag → Prop
  | _, [] => True
  | col, t :: tags => t.Fits row col ∧ CellsFit row (col + t.columns.toNat) tags

section Round

variable {rowXml rest after text inside : Str} {behind : Nat}

theorem nextCell_none (none : nextCell rest = none) : nextTag rest = Option.none := by
  unfold nextCell at none
  unfold nextTag
  cases cell : splitOnce cellTag rest with
  | none =>
      cases covered : splitOnce coveredTag rest with
      | none => rw [findAt_none cell, findAt_none covered]
      | some second =>
          rw [cell, covered] at none
          cases none
  | some first =>
      cases covered : splitOnce coveredTag rest with
      | none =>
          rw [cell, covered] at none
          cases none
      | some second =>
          rw [cell, covered] at none
          dsimp only at none
          split at none
          · cases none
          · cases none

/-- Of two starts of a text the shorter one has fewer bytes. -/
theorem byteLen_le_iff (s t front back : Str) (same : s ++ front = t ++ back) :
    byteLen s ≤ byteLen t ↔ s.length ≤ t.length := by
  have strict (u v : Str) (starts : u <+: v) (shorter : u.length < v.length) :
      byteLen u < byteLen v := by
    obtain ⟨tail, rfl⟩ := starts
    cases tail with
    | nil =>
        rw [List.append_nil] at shorter
        omega
    | cons c tail =>
        have positive := Char.utf8Size_pos c
        rw [byteLen_append, byteLen_cons]
        omega
  constructor
  · intro le
    by_contra longer
    have before : t <+: s ++ front := by
      rw [same]
      exact List.prefix_append _ _
    have starts := List.prefix_of_prefix_length_le before (List.prefix_append s front) (by omega)
    have less := strict t s starts (by omega)
    omega
  · intro le
    have before : s <+: t ++ back := by
      rw [← same]
      exact List.prefix_append _ _
    obtain ⟨tail, rfl⟩ := List.prefix_of_prefix_length_le before (List.prefix_append t back) le
    rw [byteLen_append]
    omega

theorem nextCell_some (covered : Bool) (found : nextCell rest = some (covered, after)) :
    ∃ front, splitOnce (tagName covered) rest = some (front, after) ∧
      nextTag rest = some (byteLen front, covered) := by
  unfold nextCell at found
  unfold nextTag
  cases cell : splitOnce cellTag rest with
  | none =>
      cases covers : splitOnce coveredTag rest with
      | none =>
          rw [cell, covers] at found
          cases found
      | some second =>
          rw [cell, covers] at found
          cases found
          exact ⟨second.1, covers, by rw [findAt_none cell, findAt_some covers]⟩
  | some first =>
      cases covers : splitOnce coveredTag rest with
      | none =>
          rw [cell, covers] at found
          cases found
          exact ⟨first.1, cell, by rw [findAt_some cell, findAt_none covers]⟩
      | some second =>
          have order := byteLen_le_iff first.1 second.1 _ _
            ((splitOnce_append _ _ _ _ cell).symm.trans (splitOnce_append _ _ _ _ covers))
          rw [cell, covers] at found
          rw [findAt_some cell, findAt_some covers]
          dsimp only at found ⊢
          by_cases le : first.1.length ≤ second.1.length
          · rw [if_pos le] at found
            rw [if_pos (order.mpr le)]
            cases found
            exact ⟨first.1, cell, rfl⟩
          · rw [if_neg le] at found
            rw [if_neg (mt order.mp le)]
            cases found
            exact ⟨second.1, covers, rfl⟩

theorem slash_of_byte (c : Char) (byte : (47 : UInt8) ∈ String.utf8EncodeChar c) : c = '/' := by
  have pushed : Char.ofNat 47 ∈ pushedBytes c := List.mem_map.mpr ⟨47, byte, rfl⟩
  by_cases ascii : c.toNat < 128
  · rw [pushedBytes_ascii c ascii, List.mem_singleton] at pushed
    exact pushed.symm
  · have code := pushedBytes_beyond c _ (by omega) pushed
    exact absurd code (by decide)

theorem length_bytes (s : Str) : (s.flatMap String.utf8EncodeChar).length = byteLen s := by
  induction s with
  | nil => rfl
  | cons c s ih =>
      rw [List.flatMap_cons, List.length_append, String.length_utf8EncodeChar, ih, byteLen_cons]

/-- The byte before the `>` says nothing that the text of the tag does not; a bare tag has none. -/
theorem selfClosingChecked_eq (found : splitOnce ['>'] after = some (text, inside)) :
    selfClosingChecked after text (byteLen text) =
      if text = [] then none else some (decide (text.getLast? = some '/')) := by
  unfold selfClosingChecked
  by_cases slash : text.getLast? = some '/'
  · have some_ : text ≠ [] := by
      rintro rfl
      cases slash
    rw [if_pos slash, if_neg some_, decide_eq_true slash]
  · rw [if_neg slash]
    by_cases empty : text = []
    · rw [if_pos empty, empty, byteLen_nil, if_pos rfl]
    · have positive : byteLen text ≠ 0 := fun zero => empty (eq_nil_of_byteLen text zero)
      rw [if_neg empty, if_neg positive, decide_eq_false slash, Option.some.injEq,
        decide_eq_false_iff_not]
      intro byte
      obtain ⟨start, c, rfl⟩ := (List.eq_nil_or_concat' text).resolve_left empty
      have positive := Char.utf8Size_pos c
      have size : byteLen (start ++ [c]) = byteLen start + c.utf8Size := by
        rw [byteLen_append, byteLen_cons, byteLen_nil, Nat.add_zero]
      have length := length_bytes start
      rw [splitOnce_append _ _ _ _ found, List.append_assoc, List.flatMap_append,
        List.singleton_append, List.flatMap_cons, size, List.getElem?_append_right (by omega),
        List.getElem?_append_left (by rw [String.length_utf8EncodeChar]; omega)] at byte
      apply slash
      rw [slash_of_byte c (List.mem_of_getElem? byte), List.getLast?_concat]

theorem elementBody_eq (close : Str) (here : At rowXml behind inside) :
    elementBody rowXml close behind = some (((splitOnce close inside).map Prod.fst).getD []) := by
  unfold elementBody
  rw [here.sliceFrom, Option.bind_eq_bind, Option.bind_some]
  cases closed : splitOnce close inside with
  | none =>
      rw [findAt_none closed]
      rfl
  | some halves =>
      rw [findAt_some closed]
      exact (here.found closed).2

theorem elementEnd_eq (close : Str) (small : byteLen rowXml < 2 ^ 63)
    (here : At rowXml behind inside) :
    elementEnd rowXml close behind =
      some ((splitOnce close inside).map fun halves =>
        behind + byteLen halves.1 + byteLen close) := by
  unfold elementEnd
  rw [here.sliceFrom, Option.bind_eq_bind, Option.bind_some]
  cases closed : splitOnce close inside with
  | none =>
      rw [findAt_none closed]
      rfl
  | some halves =>
      rw [findAt_some closed]
      dsimp only
      rw [(here.found closed).1.position small]
      rfl

theorem bodyUnless_eq (alone : Bool) (close : Str) (here : At rowXml behind inside) :
    bodyUnless alone rowXml close behind =
      some (if alone then [] else ((splitOnce close inside).map Prod.fst).getD []) := by
  unfold bodyUnless
  rw [elementBody_eq close here]
  split
  · rfl
  · rfl

theorem searchUnless_eq (alone : Bool) (close : Str) (small : byteLen rowXml < 2 ^ 63)
    (here : At rowXml behind inside) :
    searchUnless alone rowXml close behind =
      some (if alone then some behind
        else (splitOnce close inside).map fun halves =>
          behind + byteLen halves.1 + byteLen close) := by
  unfold searchUnless
  rw [elementEnd_eq close small here]
  split
  · rfl
  · rfl

theorem byteLen_attrs (t : CellTag) : byteLen t.attrs ≤ byteLen t.text := by
  obtain ⟨tail, whole⟩ : t.attrs <+: t.text := List.rdropWhile_prefix _ _
  rw [← whole, byteLen_append]
  omega

/-- What the round of a tag reads. -/
def CellTag.readInto (t : CellTag) (row col : UInt32) (inside : Str) (read : ReadTable) :
    ReadTable :=
  if t.covered then read
  else readTableCell row col t.attrs
    (if t.Alone then [] else ((splitOnce cellClose inside).map Prod.fst).getD []) read

theorem byteLen_inner (inside : Str) (alone : Prop) [Decidable alone] (close : Str) :
    byteLen (if alone then [] else ((splitOnce close inside).map Prod.fst).getD []) ≤ byteLen
      inside := by
  split
  · exact Nat.zero_le _
  · cases closed : splitOnce close inside with
    | none => exact Nat.zero_le _
    | some halves =>
        have size := byteLen_found closed
        show byteLen halves.1 ≤ byteLen inside
        omega

theorem cellUnless_iff (t : CellTag) (row col : UInt32) (inside : Str) (read out : ReadTable)
    (small : byteLen t.attrs < 2 ^ 63) (small' : byteLen inside < 2 ^ 63) (rowPos : 0 < row)
    (colPos : 0 < col) :
    cellUnless t.covered row col t.colSpan t.rowSpan t.attrs
        (if t.Alone then [] else ((splitOnce cellClose inside).map Prod.fst).getD []) read = some
          out ↔
      (t.covered = false → t.SpanFits row.toNat col.toNat) ∧
        t.readInto row col inside read = out := by
  have inner := byteLen_inner inside t.Alone cellClose
  unfold cellUnless CellTag.readInto
  generalize (if t.Alone then [] else ((splitOnce cellClose inside).map Prod.fst).getD []) =
    body at inner ⊢
  cases t.covered with
  | true => simp
  | false =>
      rw [if_neg Bool.false_ne_true, if_neg Bool.false_ne_true,
        readTableCellChecked_iff t row col body read out small (by omega) rowPos colPos]
      simp

theorem cellRoundChecked_iff (row col : UInt32) (covered : Bool) (read : ReadTable)
    (out : UInt32 × ReadTable × Option Nat) (small : byteLen rowXml < 2 ^ 63)
    (here : At rowXml behind after) (found : splitOnce ['>'] after = some (text, inside))
    (rowPos : 0 < row) (colPos : 0 < col) :
    cellRoundChecked rowXml row col after behind (byteLen text) covered read = some out ↔
      (⟨covered, text⟩ : CellTag).Fits row.toNat col.toNat ∧
        (col + (⟨covered, text⟩ : CellTag).columns,
          (⟨covered, text⟩ : CellTag).readInto row col inside read,
          if (⟨covered, text⟩ : CellTag).Alone then some (behind + byteLen text + 1)
          else (splitOnce cellClose inside).map fun halves =>
            behind + byteLen text + 1 + byteLen halves.1 + byteLen cellClose) = out := by
  have bound := here.length
  have size := byteLen_found found
  have attrs := byteLen_attrs ⟨covered, text⟩
  have start := (here.found found).1
  rw [show byteLen ['>'] = 1 from rfl] at start size
  have small' : byteLen (trimEndMatches '/' text) < 2 ^ 63 :=
    Nat.lt_of_le_of_lt attrs (by show byteLen text < _; omega)
  have alone : (decide (text.getLast? = some '/') || covered) =
      decide (⟨covered, text⟩ : CellTag).Alone := by
    rw [Bool.eq_iff_iff, decide_eq_true_iff, Bool.or_eq_true, decide_eq_true_iff]
    exact Iff.rfl
  have cell (next : ReadTable) :=
    cellUnless_iff ⟨covered, text⟩ row col inside read next small' (by omega)
      rowPos colPos
  unfold cellRoundChecked
  simp only [sliceTo_found found, selfClosingChecked_eq found, Option.bind_eq_bind,
    Option.bind_some]
  by_cases bare : text = []
  · rw [if_pos bare, Option.bind_none]
    exact iff_of_false (Option.some_ne_none out).symm fun fits => fits.1.notBare bare
  · have columns := attrU32Checked_eq _ "table:number-columns-repeated".toList small'
    have cols := attrU32Checked_eq _ "table:number-columns-spanned".toList small'
    have rows := attrU32Checked_eq _ "table:number-rows-spanned".toList small'
    have body := bodyUnless_eq (decide (⟨covered, text⟩ : CellTag).Alone) cellClose start
    have search := searchUnless_eq (decide (⟨covered, text⟩ : CellTag).Alone) cellClose small start
    simp only [decide_eq_true_iff] at body search
    rw [if_neg bare, Option.bind_some, columns, Option.bind_some, cols, Option.bind_some, rows,
      Option.bind_some, start.position small, Option.bind_some, alone, body, Option.bind_some,
      search]
    simp only [Option.bind_some, Option.bind_eq_some_iff, addU32_iff, Option.some.injEq]
    constructor
    · rintro ⟨next, read_, _, ⟨column, rfl⟩, rfl⟩
      obtain ⟨span, rfl⟩ := (cell next).mp read_
      exact ⟨⟨bare, span, column⟩, rfl⟩
    · rintro ⟨fits, rfl⟩
      exact ⟨_, (cell _).mpr ⟨fits.span, rfl⟩, _, ⟨fits.column, rfl⟩, rfl⟩

theorem pos_add (a b : UInt32) (positive : 0 < a) (fits : a.toNat + b.toNat < 2 ^ 32) :
    0 < a + b := by
  rw [UInt32.lt_iff_toNat_lt, UInt32.toNat_zero] at positive ⊢
  rw [toNat_add_of_fits a b fits]
  omega

/-- The loop over the rest of a row reads what it did, exactly if every tag is read without an
overflow. -/
theorem rowCellsLoopChecked_iff (row : UInt32) (fuel search : Nat) (rest : Str) (col : UInt32)
    (read out : ReadTable) (small : byteLen rowXml < 2 ^ 63) (rowPos : 0 < row)
    (enough : rest.length ≤ fuel) (here : At rowXml search rest) (colPos : 0 < col) :
    rowCellsLoopChecked rowXml row (fuel + 1) search col read = some out ↔
      CellsFit row.toNat col.toNat (cellTags fuel rest) ∧
        rowCellsLoop row fuel rest col read = out := by
  induction fuel generalizing search rest col read with
  | zero =>
      have bound := here.length
      have none : rest = [] := List.length_eq_zero_iff.mp (Nat.le_zero.mp enough)
      rw [none, byteLen_nil] at bound
      rw [rowCellsLoopChecked, if_neg (by omega), Option.some.injEq]
      exact (and_iff_right trivial).symm
  | succ fuel ih =>
      have bound := here.length
      rw [rowCellsLoopChecked, cellTags, rowCellsLoop]
      by_cases empty : rest = []
      · have none : nextCell rest = none := by
          rw [empty]
          rfl
        rw [empty, byteLen_nil] at bound
        rw [if_neg (by omega), none, Option.some.injEq]
        exact (and_iff_right trivial).symm
      · have positive : byteLen rest ≠ 0 := fun zero => empty (eq_nil_of_byteLen rest zero)
        rw [if_pos (by omega), here.sliceFrom, Option.bind_eq_bind, Option.bind_some]
        cases next : nextCell rest with
        | none =>
            rw [nextCell_none next]
            dsimp only
            rw [Option.some.injEq]
            exact (and_iff_right trivial).symm
        | some tag =>
            obtain ⟨covered, after⟩ := tag
            obtain ⟨front, found, at_⟩ := nextCell_some covered next
            have behind := (here.found found).1
            have shorter := length_found found
            have named : 0 < (tagName covered).length := by
              cases covered
              · decide
              · decide
            rw [at_]
            dsimp only
            rw [behind.position small, Option.bind_eq_bind, Option.bind_some, behind.sliceFrom,
              Option.bind_eq_bind, Option.bind_some]
            by_cases other : ¬ (after.head?.any fun c => " \n\t\r>/".toList.contains c) = true
            · rw [if_pos other, if_pos other, if_pos other]
              exact ih _ after col read (by omega) behind colPos
            · rw [if_neg other, if_neg other, if_neg other]
              cases closed : splitOnce ['>'] after with
              | none =>
                  rw [findAt_none closed]
                  dsimp only
                  rw [Option.some.injEq]
                  exact (and_iff_right trivial).symm
              | some halves =>
                  obtain ⟨text, inside⟩ := halves
                  have start := (behind.found closed).1
                  have shorter' := length_found closed
                  have round (r : UInt32 × ReadTable × Option Nat) :=
                    cellRoundChecked_iff row col covered read r small behind closed rowPos colPos
                  rw [findAt_some closed]
                  dsimp only
                  by_cases fits : (⟨covered, text⟩ : CellTag).Fits row.toNat col.toNat
                  · have next := toNat_add_of_fits _ _ fits.column
                    have above := pos_add _ _ colPos fits.column
                    rw [(round _).mpr ⟨fits, rfl⟩, Option.bind_some, CellsFit, and_iff_right fits,
                      ← next]
                    by_cases alone : (⟨covered, text⟩ : CellTag).Alone
                    · have either : text.getLast? = some '/' ∨ covered = true := alone
                      have later :=
                        ih _ inside _ ((⟨covered, text⟩ : CellTag).readInto row col inside read)
                          (by omega)
                        start above
                      rw [if_pos alone, if_pos alone, if_pos either]
                      exact later
                    · have neither : ¬(text.getLast? = some '/' ∨ covered = true) := alone
                      rw [if_neg alone, if_neg alone, if_neg neither]
                      cases ended : splitOnce cellClose inside with
                      | none =>
                          dsimp only [Option.map_none]
                          rw [Option.some.injEq, CellsFit, and_iff_right trivial, CellTag.readInto,
                            ended]
                          rfl
                      | some halves =>
                          have behind' := (start.found ended).1
                          have shorter'' := length_found ended
                          have later := ih _ halves.2 _
                            ((⟨covered, text⟩ : CellTag).readInto row col inside read)
                            (by omega) behind' above
                          rw [CellTag.readInto, ended] at later
                          dsimp only [Option.map_some]
                          rw [CellTag.readInto, ended]
                          exact later
                  · have none : cellRoundChecked rowXml row col after
                        (search + byteLen front + byteLen (tagName covered))
                        (byteLen text) covered read = Option.none := by
                      rw [Option.eq_none_iff_forall_ne_some]
                      intro r read_
                      exact fits ((round r).mp read_).1
                    rw [none, Option.bind_none]
                    exact iff_of_false (Option.some_ne_none out).symm fun both => fits both.1.1

theorem parseRowCellsChecked_iff (row : UInt32) (read out : ReadTable)
    (small : byteLen rowXml < 2 ^ 63) (rowPos : 0 < row) :
    parseRowCellsChecked rowXml row read = some out ↔
      CellsFit row.toNat 1 (cellTags rowXml.length rowXml) ∧ parseRowCells rowXml row read = out :=
  rowCellsLoopChecked_iff row rowXml.length 0 rowXml 1 read out small rowPos le_rfl
    (At.start rowXml) (by decide)

end Round

/-! ### The rows of a table -/

/-- The tag of a row up to its `>`, and the cells of the row. -/
structure RowTag where
  attrs : Str
  body : Str
  deriving DecidableEq, Repr

def RowTag.rows (t : RowTag) : UInt32 :=
  (attrU32 t.attrs "table:number-rows-repeated".toList).getD 1

/-- A row and its repeats are counted without an overflow, and the cells fit in the last of them. -/
structure RowTag.Fits (t : RowTag) (row : Nat) : Prop where
  count : row + t.rows.toNat < 2 ^ 32
  cells : t.rows ≠ 0 → CellsFit (row + t.rows.toNat - 1) 1 (cellTags t.body.length t.body)

def RowsFit : Nat → List RowTag → Prop
  | _, [] => True
  | row, t :: tags => t.Fits row ∧ RowsFit (row + t.rows.toNat) tags

/-- The loop over the repeats of a row, checked. -/
def repeatRowsChecked (rowBody : Str) (row rowRepeat : UInt32) (read : ReadTable) :
    Option ReadTable :=
  (List.range rowRepeat.toNat).foldlM (fun read off => do
    let at_ ← addU32 row (UInt32.ofNat off)
    parseRowCellsChecked rowBody at_ read) read

/-- `self_closing` of a row. -/
def rowAlone (attrs opened : Str) : Bool :=
  attrs.getLast? = some '/' || "/>".toList.isSuffixOf opened

/-- A round behind the `>` of a row's tag: the next row, what is read and the next `search`. -/
def rowRoundChecked (body : Str) (row : UInt32) (after : Str) (behind gt : Nat) (read : ReadTable) :
    Option (UInt32 × ReadTable × Option Nat) := do
  let attrs ← sliceTo after gt
  let opened ← sliceTo after (gt + 1)
  let rowRepeat ← attrU32Checked attrs "table:number-rows-repeated".toList
  let bodyStart ← position (behind + gt + 1)
  let rowBody ← bodyUnless (rowAlone attrs opened) body rowClose bodyStart
  let next ← repeatRowsChecked rowBody row (rowRepeat.getD 1) read
  let row ← addU32 row (rowRepeat.getD 1)
  let search ← searchUnless (rowAlone attrs opened) body rowClose bodyStart
  some (row, next, search)

/-- The loop of `parse_table_body`, checked. -/
def tableBodyLoopChecked (body : Str) : Nat → Nat → UInt32 → ReadTable → Option ReadTable
  | 0, _, _, _ => none
  | fuel + 1, search, row, read => do
      let rest ← sliceFrom body search
      match findAt rowTag rest with
      | none => some read
      | some rel => do
          let behind ← position (search + rel + byteLen rowTag)
          let after ← sliceFrom body behind
          match findAt ['>'] after with
          | none => some read
          | some gt => do
              let round ← rowRoundChecked body row after behind gt read
              match round.2.2 with
              | some search => tableBodyLoopChecked body fuel search round.1 round.2.1
              | none => some round.2.1

/-- `parse_table_body`, checked. -/
def parseTableBodyChecked (body : Str) : Option ReadTable :=
  tableBodyLoopChecked body (body.length + 1) 0 1 (∅, [])

/-- A row whose tag ends before `inside`. -/
def readRowTag (attrs inside : Str) : RowTag :=
  ⟨attrs, if attrs.getLast? = some '/' then []
    else ((splitOnce rowClose inside).map Prod.fst).getD []⟩

/-- The tags the loop takes off the rest of a table. -/
def rowTags : Nat → Str → List RowTag
  | 0, _ => []
  | fuel + 1, rest =>
      match splitOnce rowTag rest with
      | none => []
      | some (_, after) =>
          match splitOnce ['>'] after with
          | none => []
          | some (attrs, inside) =>
              readRowTag attrs inside ::
                if attrs.getLast? = some '/' then rowTags fuel inside
                else
                  match splitOnce rowClose inside with
                  | some halves => rowTags fuel halves.2
                  | none => []

section Rows

variable {body after attrs inside : Str} {behind : Nat}

/-- Cells that fit in a row fit in every row before it. -/
theorem cellsFit_of_le (row row' col : Nat) (tags : List CellTag) (order : row ≤ row')
    (fits : CellsFit row' col tags) :
    CellsFit row col tags := by
  induction tags generalizing col with
  | nil => exact trivial
  | cons t tags ih =>
      obtain ⟨first, later⟩ := fits
      refine ⟨⟨first.notBare, ?_, first.column⟩, ih _ later⟩
      intro plain spans
      have span := first.span plain spans
      exact ⟨span.1, by omega⟩

theorem foldlM_range (rowBody : Str) (row : UInt32) (n : Nat) (read out : ReadTable)
    (small : byteLen rowBody < 2 ^ 63) (rowPos : 0 < row) (fits : row.toNat + n < 2 ^ 32) :
    (List.range n).foldlM (fun read off => (addU32 row (UInt32.ofNat off)).bind fun at_ =>
        parseRowCellsChecked rowBody at_ read) read = some out ↔
      (∀ off < n, CellsFit (row.toNat + off) 1 (cellTags rowBody.length rowBody)) ∧
        (List.range n).foldl (fun read off => parseRowCells rowBody (row + UInt32.ofNat off) read)
          read = out := by
  induction n generalizing out with
  | zero => simp
  | succ n ih =>
      have size : (UInt32.ofNat n).toNat = n :=
        UInt32.toNat_ofNat_of_lt' (by show n < 2 ^ 32; omega)
      have sum := toNat_add_of_fits row (UInt32.ofNat n) (by omega)
      have above := pos_add row (UInt32.ofNat n) rowPos (by omega)
      have counted : addU32 row (UInt32.ofNat n) = some (row + UInt32.ofNat n) :=
        (addU32_iff _ _ _).mpr ⟨by omega, rfl⟩
      rw [List.range_succ, List.foldlM_append, List.foldl_append, List.foldl_cons, List.foldl_nil,
        Option.bind_eq_bind, Option.bind_eq_some_iff]
      simp only [fun middle => ih middle (by omega), List.foldlM_cons, List.foldlM_nil, counted,
        Option.bind_some, Option.bind_eq_bind, Option.pure_def, Option.bind_eq_some_iff,
        parseRowCellsChecked_iff _ _ _ small above, sum, size, Option.some.injEq]
      constructor
      · rintro ⟨middle, ⟨earlier, rfl⟩, last, ⟨here, rfl⟩, rfl⟩
        refine ⟨fun off before => ?_, rfl⟩
        by_cases final : off = n
        · rw [final]
          exact here
        · exact earlier off (by omega)
      · rintro ⟨all, rfl⟩
        exact ⟨_, ⟨fun off before => all off (by omega), rfl⟩, _, ⟨all n (by omega), rfl⟩, rfl⟩

theorem repeatRowsChecked_iff (t : RowTag) (row : UInt32) (read out : ReadTable)
    (small : byteLen t.body < 2 ^ 63) (rowPos : 0 < row)
    (count : row.toNat + t.rows.toNat < 2 ^ 32) :
    repeatRowsChecked t.body row t.rows read = some out ↔
      t.Fits row.toNat ∧
        (List.range t.rows.toNat).foldl
          (fun read off => parseRowCells t.body (row + UInt32.ofNat off) read) read =
          out := by
  have each := foldlM_range t.body row t.rows.toNat read out small rowPos count
  have none : t.rows ≠ 0 ↔ 0 < t.rows.toNat := by
    rw [← UInt32.toNat_inj.ne, UInt32.toNat_zero]
    omega
  refine each.trans (and_congr_left fun _ => ?_)
  constructor
  · intro all
    refine ⟨count, fun some_ => ?_⟩
    have last := all (t.rows.toNat - 1) (by have := none.mp some_; omega)
    rwa [← Nat.add_sub_assoc (none.mp some_)] at last
  · intro fits off before
    exact cellsFit_of_le _ _ 1 _ (by omega) (fits.cells (none.mpr (by omega)))

theorem rowAlone_eq (attrs : Str) :
    rowAlone attrs (attrs ++ ['>']) = decide (attrs.getLast? = some '/') := by
  unfold rowAlone
  by_cases slash : attrs.getLast? = some '/'
  · rw [decide_eq_true slash, Bool.true_or]
  · rw [decide_eq_false slash, Bool.false_or, List.isSuffixOf, List.reverse_append,
      Bool.eq_false_iff]
    intro ends
    obtain ⟨tail, whole⟩ := List.isPrefixOf_iff_prefix.mp ends
    rw [show ("/>".toList).reverse = ['>', '/'] by decide, List.reverse_singleton,
      List.singleton_append, List.cons_append, List.cons.injEq] at whole
    apply slash
    rw [← List.head?_reverse, ← whole.2]
    rfl

/-- What the round of a row reads. -/
def RowTag.readInto (t : RowTag) (row : UInt32) (read : ReadTable) : ReadTable :=
  (List.range t.rows.toNat).foldl
    (fun read off => parseRowCells t.body (row + UInt32.ofNat off) read) read

theorem rowRoundChecked_iff (row : UInt32) (read : ReadTable)
    (out : UInt32 × ReadTable × Option Nat) (small : byteLen body < 2 ^ 63)
    (here : At body behind after) (found : splitOnce ['>'] after = some (attrs, inside))
    (rowPos : 0 < row) :
    rowRoundChecked body row after behind (byteLen attrs) read = some out ↔
      (readRowTag attrs inside).Fits row.toNat ∧
        (row + (readRowTag attrs inside).rows, (readRowTag attrs inside).readInto row read,
          if attrs.getLast? = some '/' then some (behind + byteLen attrs + 1)
          else (splitOnce rowClose inside).map fun halves =>
            behind + byteLen attrs + 1 + byteLen halves.1 + byteLen rowClose) = out := by
  have bound := here.length
  have size := byteLen_found found
  have start := (here.found found).1
  have opened := sliceTo_match found
  rw [show byteLen ['>'] = 1 from rfl] at start size opened
  have repeats := attrU32Checked_eq attrs "table:number-rows-repeated".toList (by omega)
  have rowBody := bodyUnless_eq (decide (attrs.getLast? = some '/')) rowClose start
  have search := searchUnless_eq (decide (attrs.getLast? = some '/')) rowClose small start
  have inner := byteLen_inner inside (attrs.getLast? = some '/') rowClose
  have counted (next : ReadTable) := repeatRowsChecked_iff (readRowTag attrs inside) row read next
    (Nat.lt_of_le_of_lt inner (by omega)) rowPos
  simp only [decide_eq_true_iff] at rowBody search
  unfold rowRoundChecked
  simp only [sliceTo_found found, opened, repeats, start.position small, rowAlone_eq, rowBody,
    search, Option.bind_eq_bind, Option.bind_some, Option.bind_eq_some_iff, addU32_iff,
    Option.some.injEq]
  constructor
  · rintro ⟨next, read_, _, ⟨count, rfl⟩, rfl⟩
    obtain ⟨fits, rfl⟩ := (counted next count).mp read_
    exact ⟨fits, rfl⟩
  · rintro ⟨fits, rfl⟩
    exact ⟨_, (counted _ fits.count).mpr ⟨fits, rfl⟩, _, ⟨fits.count, rfl⟩, rfl⟩

/-- The loop over the rest of a table reads what it did, exactly if every row is read without an
overflow. -/
theorem tableBodyLoopChecked_iff (fuel search : Nat) (rest : Str) (row : UInt32)
    (read out : ReadTable) (small : byteLen body < 2 ^ 63) (enough : rest.length ≤ fuel)
    (here : At body search rest) (rowPos : 0 < row) :
    tableBodyLoopChecked body (fuel + 1) search row read = some out ↔
      RowsFit row.toNat (rowTags fuel rest) ∧ tableBodyLoop fuel rest row read = out := by
  induction fuel generalizing search rest row read with
  | zero =>
      have none : rest = [] := List.length_eq_zero_iff.mp (Nat.le_zero.mp enough)
      have absent : findAt rowTag rest = Option.none := by
        rw [none]
        rfl
      rw [tableBodyLoopChecked, here.sliceFrom, Option.bind_eq_bind, Option.bind_some, absent]
      dsimp only
      rw [Option.some.injEq]
      exact (and_iff_right trivial).symm
  | succ fuel ih =>
      rw [tableBodyLoopChecked, rowTags, tableBodyLoop, here.sliceFrom, Option.bind_eq_bind,
        Option.bind_some]
      cases found : splitOnce rowTag rest with
      | none =>
          rw [findAt_none found]
          dsimp only
          rw [Option.some.injEq]
          exact (and_iff_right trivial).symm
      | some halves =>
          obtain ⟨front, after⟩ := halves
          have behind := (here.found found).1
          have shorter := length_found found
          have named : 0 < rowTag.length := by decide
          rw [findAt_some found]
          dsimp only
          rw [behind.position small, Option.bind_eq_bind, Option.bind_some, behind.sliceFrom,
            Option.bind_eq_bind, Option.bind_some]
          cases closed : splitOnce ['>'] after with
          | none =>
              rw [findAt_none closed]
              dsimp only
              rw [Option.some.injEq]
              exact (and_iff_right trivial).symm
          | some halves =>
              obtain ⟨attrs, inside⟩ := halves
              have start := (behind.found closed).1
              have shorter' := length_found closed
              have round (r : UInt32 × ReadTable × Option Nat) :=
                rowRoundChecked_iff row read r small behind closed rowPos
              rw [findAt_some closed]
              dsimp only
              by_cases fits : (readRowTag attrs inside).Fits row.toNat
              · have next := toNat_add_of_fits _ _ fits.count
                have above := pos_add _ _ rowPos fits.count
                rw [(round _).mpr ⟨fits, rfl⟩, Option.bind_some, RowsFit, and_iff_right fits,
                  ← next]
                by_cases alone : attrs.getLast? = some '/'
                · have later := ih _ inside _ ((readRowTag attrs inside).readInto row read)
                    (by omega) start above
                  rw [if_pos alone, if_pos alone, if_pos alone]
                  exact later
                · rw [if_neg alone, if_neg alone, if_neg alone]
                  cases ended : splitOnce rowClose inside with
                  | none =>
                      dsimp only [Option.map_none]
                      rw [Option.some.injEq, RowsFit, and_iff_right trivial, RowTag.readInto,
                        readRowTag, ended]
                      rfl
                  | some halves =>
                      have behind' := (start.found ended).1
                      have shorter'' := length_found ended
                      have later := ih _ halves.2 _ ((readRowTag attrs inside).readInto row read)
                        (by omega) behind'
                        above
                      rw [RowTag.readInto, readRowTag, ended] at later
                      dsimp only [Option.map_some]
                      rw [RowTag.readInto, readRowTag, ended]
                      exact later
              · have none : rowRoundChecked body row after (search + byteLen front + byteLen rowTag)
                    (byteLen attrs) read =
                      Option.none := by
                  rw [Option.eq_none_iff_forall_ne_some]
                  intro r read_
                  exact fits ((round r).mp read_).1
                rw [none, Option.bind_none]
                exact iff_of_false (Option.some_ne_none out).symm fun both => fits both.1.1

theorem parseTableBodyChecked_iff (body : Str) (out : ReadTable) (small : byteLen body < 2 ^ 63) :
    parseTableBodyChecked body = some out ↔ RowsFit 1 (rowTags body.length body) ∧
      parseTableBody body = out :=
  tableBodyLoopChecked_iff body.length 0 body 1 _ out small le_rfl (At.start body) (by decide)

end Rows

/-! ### The tables of a document -/

/-- The name of a table, checked. -/
def tableNameChecked (attrs : Str) (count : Nat) : Option Str := do
  let given ← attrValueChecked attrs "table:name".toList
  let given ← match given with
    | some name => some (some name)
    | none => attrValueChecked attrs "name".toList
  match given with
  | some name => some name
  | none => (position (count + 1)).map fun n => "Sheet".toList ++ Nat.toDigits 10 n

/-- The loop of `parse_ods_tables`, checked. -/
def odsTablesLoopChecked (content : Str) : Nat → Nat → List SheetTab → Option (List SheetTab)
  | 0, _, _ => none
  | fuel + 1, searchFrom, tabs => do
      let rest ← sliceFrom content searchFrom
      match findAt tableTag rest with
      | none => some tabs
      | some rel => do
          let behind ← position (searchFrom + rel + byteLen tableTag)
          let after ← sliceFrom content behind
          if ¬ (after.head?.any fun c => " \n\t\r>".toList.contains c) then
            odsTablesLoopChecked content fuel behind tabs
          else
            match findAt ['>'] after with
            | none => some tabs
            | some gt => do
                let attrs ← sliceTo after gt
                let name ← tableNameChecked attrs tabs.length
                let bodyStart ← position (behind + gt + 1)
                let inside ← sliceFrom content bodyStart
                match findAt tableClose inside with
                | none => some tabs
                | some endRel => do
                    let body ← slice content bodyStart (bodyStart + endRel)
                    let read ← parseTableBodyChecked body
                    let next ← position (bodyStart + endRel + byteLen tableClose)
                    odsTablesLoopChecked content fuel next
                      (tabs ++ [{ name := xmlUnescape name, cells := read.1, merges := read.2 }])

/-- `parse_ods_tables`, checked. -/
def parseOdsTablesChecked (content : Str) : Option (List SheetTab) :=
  odsTablesLoopChecked content (content.length + 1) 0 []

/-- The bodies of the tables the loop finds. -/
def tableBodies : Nat → Str → List Str
  | 0, _ => []
  | fuel + 1, rest =>
      match splitOnce tableTag rest with
      | none => []
      | some (_, after) =>
          if ¬ (after.head?.any fun c => " \n\t\r>".toList.contains c) then tableBodies fuel after
          else
            match splitOnce ['>'] after with
            | none => []
            | some (_, inside) =>
                match splitOnce tableClose inside with
                | none => []
                | some (body, later) => body :: tableBodies fuel later

/-- In every table of a document the rows and cells are read without an overflow or an underflow. -/
def OdsFits (content : Str) : Prop :=
  ∀ body ∈ tableBodies content.length content, RowsFit 1 (rowTags body.length body)

section Tables

variable {content : Str}

theorem tableNameChecked_eq (attrs : Str) (count : Nat) (small : byteLen attrs < 2 ^ 63)
    (few : count < 2 ^ 63) :
    tableNameChecked attrs count =
      some (((odsAttrValue attrs "table:name".toList).or (odsAttrValue attrs "name".toList)).getD
        ("Sheet".toList ++ Nat.toDigits 10 (count + 1))) := by
  have counted : position (count + 1) = some (count + 1) := if_pos (by omega)
  unfold tableNameChecked
  simp only [attrValueChecked_eq attrs _ small, Option.bind_eq_bind, Option.bind_some, counted]
  cases odsAttrValue attrs "table:name".toList with
  | none =>
      cases odsAttrValue attrs "name".toList with
      | none => rfl
      | some name => rfl
  | some name => rfl

/-- The loop over the rest of a document reads what it did, exactly if every table is read without
an overflow. -/
theorem odsTablesLoopChecked_iff (fuel search : Nat) (rest : Str) (tabs out : List SheetTab)
    (small : byteLen content < 2 ^ 63) (enough : rest.length ≤ fuel) (here : At content search rest)
    (few : tabs.length ≤ search) :
    odsTablesLoopChecked content (fuel + 1) search tabs = some out ↔
      (∀ body ∈ tableBodies fuel rest, RowsFit 1 (rowTags body.length body)) ∧
        odsTablesLoop fuel rest tabs = out := by
  induction fuel generalizing search rest tabs with
  | zero =>
      have none : rest = [] := List.length_eq_zero_iff.mp (Nat.le_zero.mp enough)
      have absent : findAt tableTag rest = Option.none := by
        rw [none]
        rfl
      rw [odsTablesLoopChecked, here.sliceFrom, Option.bind_eq_bind, Option.bind_some, absent]
      dsimp only
      rw [Option.some.injEq]
      exact (and_iff_right (by simp [tableBodies])).symm
  | succ fuel ih =>
      have bound := here.length
      rw [odsTablesLoopChecked, tableBodies, odsTablesLoop, here.sliceFrom, Option.bind_eq_bind,
        Option.bind_some]
      cases found : splitOnce tableTag rest with
      | none =>
          rw [findAt_none found]
          dsimp only
          rw [Option.some.injEq]
          exact (and_iff_right (by simp)).symm
      | some halves =>
          obtain ⟨front, after⟩ := halves
          have behind := (here.found found).1
          have shorter := length_found found
          have named : 0 < tableTag.length := by decide
          rw [findAt_some found]
          dsimp only
          rw [behind.position small, Option.bind_eq_bind, Option.bind_some, behind.sliceFrom,
            Option.bind_eq_bind, Option.bind_some]
          by_cases other : ¬ (after.head?.any fun c => " \n\t\r>".toList.contains c) = true
          · rw [if_pos other, if_pos other, if_pos other]
            exact ih _ after tabs (by omega) behind (by omega)
          · rw [if_neg other, if_neg other, if_neg other]
            cases closed : splitOnce ['>'] after with
            | none =>
                rw [findAt_none closed]
                dsimp only
                rw [Option.some.injEq]
                exact (and_iff_right (by simp)).symm
            | some halves =>
                obtain ⟨attrs, inside⟩ := halves
                have start := (behind.found closed).1
                have shorter' := length_found closed
                have size := byteLen_found closed
                have within := behind.length
                rw [show byteLen ['>'] = 1 from rfl] at start
                have name := tableNameChecked_eq attrs tabs.length (by omega) (by omega)
                rw [findAt_some closed]
                dsimp only
                rw [sliceTo_found closed, Option.bind_some, name, Option.bind_some,
                  start.position small, Option.bind_some, start.sliceFrom, Option.bind_some]
                cases ended : splitOnce tableClose inside with
                | none =>
                    rw [findAt_none ended]
                    dsimp only
                    rw [Option.some.injEq]
                    exact (and_iff_right (by simp)).symm
                | some halves =>
                    obtain ⟨body, later⟩ := halves
                    have next := start.found ended
                    have shorter'' := length_found ended
                    have size' := byteLen_found ended
                    have tagged : 1 ≤ byteLen tableTag := by decide
                    have table (read : ReadTable) := parseTableBodyChecked_iff body read (by omega)
                    rw [findAt_some ended]
                    dsimp only
                    rw [next.2, Option.bind_some, next.1.position small]
                    by_cases fits : RowsFit 1 (rowTags body.length body)
                    · have after_ (tab : SheetTab) := ih _ later (tabs ++ [tab]) (by omega) next.1
                        (by rw [List.length_append, List.length_singleton]; omega)
                      rw [(table _).mpr ⟨fits, rfl⟩, Option.bind_some, Option.bind_some, after_,
                        List.forall_mem_cons, and_iff_right fits]
                    · have none : parseTableBodyChecked body = Option.none := by
                        rw [Option.eq_none_iff_forall_ne_some]
                        intro read read_
                        exact fits ((table read).mp read_).1
                      rw [none, Option.bind_none, List.forall_mem_cons]
                      exact iff_of_false (Option.some_ne_none out).symm fun both => fits both.1.1

theorem parseOdsTablesChecked_iff (content : Str) (out : List SheetTab)
    (small : byteLen content < 2 ^ 63) :
    parseOdsTablesChecked content = some out ↔ OdsFits content ∧ parseOdsTables content = out :=
  odsTablesLoopChecked_iff content.length 0 content [] out small le_rfl (At.start content) le_rfl

/-- The import of a document ends without a panic exactly if no cell tag it reads is bare and its
counters fit. -/
theorem parseOdsTables_total_iff (content : Str) (small : byteLen content < 2 ^ 63) :
    (∃ tabs, parseOdsTablesChecked content = some tabs) ↔ OdsFits content := by
  simp only [parseOdsTablesChecked_iff content _ small]
  constructor
  · rintro ⟨_, fits, -⟩
    exact fits
  · intro fits
    exact ⟨_, fits, rfl⟩

/-- A table of two rows, of which the second stands twice, with a merged cell. -/
def sampleOds : Str :=
  ("<table:table table:name=\"é\"><table:table-row><table:table-cell office:value=\"1\"/></table:table-row>" ++
    "<table:table-row table:number-rows-repeated=\"2\"><table:table-cell table:number-columns-spanned=\"2\">" ++
    "<text:p>x</text:p></table:table-cell><table:covered-table-cell/></table:table-row></table:table>").toList

theorem byteLen_sampleOds : byteLen sampleOds < 2 ^ 63 := by
  have spelled : sampleOds = _ := spell_append (spell_append String.toList_ofList)
  rw [spelled]
  decide +kernel

theorem sampleOds_ends : (parseOdsTablesChecked sampleOds).isSome = true := by
  have spelled : sampleOds = _ := spell_append (spell_append String.toList_ofList)
  rw [spelled]
  decide +kernel

theorem sampleOds_fits : OdsFits sampleOds :=
  (parseOdsTables_total_iff sampleOds byteLen_sampleOds).mp
    (Option.isSome_iff_exists.mp sampleOds_ends)

def bareOds : Str :=
  ("<table:table table:name=\"S\"><table:table-row><table:table-cell><text:p>x</text:p></table:table-cell>" ++
    "</table:table-row></table:table>").toList

/-- Of a bare cell tag the reader takes the byte at `gt - 1` with `gt = 0`. -/
theorem bareOds_underflows : ¬∃ tabs, parseOdsTablesChecked bareOds = some tabs := by
  have none : (parseOdsTablesChecked bareOds).isSome = false := by
    have spelled : bareOds = _ := spell_append String.toList_ofList
    rw [spelled]
    decide +kernel
  rintro ⟨tabs, read⟩
  rw [read] at none
  cases none

end Tables

end EraOne.Tables
