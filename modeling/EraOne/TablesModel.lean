import EraOne.TablesAddr

set_option autoImplicit false

/- Workbook model of `model.rs`. The cells of the active tab are kept twice, at the top level
and in the tab; the methods keep the source's order of updates. -/
namespace EraOne.Tables

structure Cell where
  value : Str := []
  formula : Str := []
  format : Str := []
  bold : Bool := false
  align : Str := []
  wrap : Bool := false
  border : Bool := false
  borderSides : Str := []
  note : Str := []
  deriving DecidableEq, Repr

structure ChartSpec where
  chartType : Str
  range : Str
  title : Str
  deriving DecidableEq, Repr

/-- A tab. The two JSON fields are only stored, as their text. -/
structure SheetTab where
  name : Str
  cells : StrMap Cell
  charts : List ChartSpec := []
  protected_ : Bool := false
  freezeRows : UInt32 := 0
  freezeCols : UInt32 := 0
  merges : List Str := []
  protectedRanges : List Str := []
  filterCriteria : Option Str := none
  scenarios : Option Str := none
  deriving DecidableEq

structure EratSheet where
  id : Str
  tenantId : Str
  driveObjectId : Str
  format : Str
  name : Str
  rows : UInt32
  cols : UInt32
  cells : StrMap Cell
  sheets : List SheetTab
  activeSheet : Nat
  deriving DecidableEq

namespace EratSheet

def tabCells (sheet : EratSheet) (i : Nat) : StrMap Cell :=
  (sheet.sheets[i]?.map (·.cells)).getD ∅

def editTab (sheet : EratSheet) (i : Nat) (edit : SheetTab → SheetTab) : EratSheet :=
  { sheet with sheets := sheet.sheets.modify i edit }

/-- An index past the tabs falls back to the first. -/
def clampActive (sheet : EratSheet) : EratSheet :=
  if sheet.activeSheet ≥ sheet.sheets.length then { sheet with activeSheet := 0 } else sheet

def syncActiveFromTab (sheet : EratSheet) : EratSheet :=
  if sheet.sheets.isEmpty then sheet
  else
    let sheet := sheet.clampActive
    { sheet with cells := sheet.tabCells sheet.activeSheet }

def flushActiveToTab (sheet : EratSheet) : EratSheet :=
  if sheet.sheets.isEmpty then sheet
  else
    let sheet := sheet.clampActive
    sheet.editTab sheet.activeSheet fun tab => { tab with cells := sheet.cells }

/-- A workbook without tabs gets one, with the top-level cells. -/
def ensureTab (sheet : EratSheet) : EratSheet :=
  if sheet.sheets.isEmpty then
    { sheet with sheets := [{ name := "Sheet1".toList, cells := sheet.cells }], activeSheet := 0 }
  else sheet

/-- An empty active tab is seeded from the top-level cells, for old single-sheet files. -/
def seedTab (sheet : EratSheet) : EratSheet :=
  if (sheet.tabCells sheet.activeSheet).isEmpty ∧ ¬ sheet.cells.isEmpty then
    sheet.editTab sheet.activeSheet fun tab => { tab with cells := sheet.cells }
  else sheet

def normalizeTabs (sheet : EratSheet) : EratSheet :=
  sheet.ensureTab.clampActive.seedTab.syncActiveFromTab

def empty : EratSheet :=
  syncActiveFromTab
    { id := [], tenantId := [], driveObjectId := [], format := "erat".toList
      name := "sheet.erat".toList, rows := 10000, cols := 621, cells := ∅
      sheets := [{ name := "Sheet1".toList, cells := ∅ }], activeSheet := 0 }

/-- The end of the cell setters: both copies get the cell. -/
def putCell (sheet : EratSheet) (key : Str) (cell : Cell) : EratSheet :=
  editTab { sheet with cells := sheet.cells.insert key cell } sheet.activeSheet fun tab =>
    { tab with cells := tab.cells.insert key cell }

variable (rt : Runtime)

def setCell (sheet : EratSheet) (addr value formula : Str) : EratSheet :=
  let sheet := sheet.normalizeTabs
  let key := rt.upper addr
  let prev := sheet.cells[key]?.getD {}
  sheet.putCell key { prev with value := value, formula := formula }

/-- The optional fields of `SetCellStyle`. -/
structure StyleArgs where
  bold : Option Bool
  align : Option Str
  wrap : Option Bool
  border : Option Bool
  borderSides : Option Str
  note : Option Str
  deriving DecidableEq, Repr

def styleCell (style : StyleArgs) (cell : Cell) : Cell :=
  let cell := { cell with
    bold := style.bold.getD cell.bold
    align := style.align.getD cell.align
    wrap := style.wrap.getD cell.wrap }
  let cell := match style.border with
    | some true =>
        { cell with
          border := true
          borderSides := if cell.borderSides.isEmpty then "tblr".toList else cell.borderSides }
    | some false => { cell with border := false, borderSides := [] }
    | none => cell
  let cell := match style.borderSides with
    | some sides =>
        let cleaned := sides.filter (fun c => "tblr".toList.contains c)
        { cell with borderSides := cleaned, border := !cleaned.isEmpty }
    | none => cell
  { cell with note := style.note.getD cell.note }

def setCellStyle (sheet : EratSheet) (addr : Str) (style : StyleArgs) : EratSheet :=
  let sheet := sheet.normalizeTabs
  let key := rt.upper addr
  sheet.putCell key (styleCell style (sheet.cells[key]?.getD {}))

def setCellFormat (sheet : EratSheet) (addr format : Str) : EratSheet :=
  let sheet := sheet.normalizeTabs
  let key := rt.upper addr
  sheet.putCell key { sheet.cells[key]?.getD {} with format := format }

def clearCell (sheet : EratSheet) (addr : Str) : EratSheet :=
  let sheet := sheet.normalizeTabs
  let key := rt.upper addr
  editTab { sheet with cells := sheet.cells.erase key } sheet.activeSheet fun tab =>
    { tab with cells := tab.cells.erase key }

def switchSheet (sheet : EratSheet) (index : Nat) : EratSheet :=
  let sheet := sheet.normalizeTabs
  if index ≥ sheet.sheets.length then sheet
  else syncActiveFromTab { sheet.flushActiveToTab with activeSheet := index }

def addSheet (sheet : EratSheet) (name : Str) : EratSheet :=
  let sheet := sheet.normalizeTabs.flushActiveToTab
  syncActiveFromTab { sheet with
    sheets := sheet.sheets ++ [{ name := name, cells := ∅ }]
    activeSheet := sheet.sheets.length }

/-- The setters of the active tab's other fields. -/
def editActive (sheet : EratSheet) (edit : SheetTab → SheetTab) : EratSheet :=
  let sheet := sheet.normalizeTabs
  sheet.editTab sheet.activeSheet edit

def setSheetProtected (sheet : EratSheet) (isProtected : Bool) : EratSheet :=
  sheet.editActive fun tab => { tab with protected_ := isProtected }

def isActiveProtected (sheet : EratSheet) : Bool :=
  (sheet.sheets[sheet.activeSheet]?.map (·.protected_)).getD false

def setMerges (sheet : EratSheet) (merges : List Str) : EratSheet :=
  sheet.editActive fun tab => { tab with merges := merges }

def setProtectedRanges (sheet : EratSheet) (ranges : List Str) : EratSheet :=
  sheet.editActive fun tab => { tab with protectedRanges := ranges }

def activeProtectedRanges (sheet : EratSheet) : List Str :=
  (sheet.sheets[sheet.activeSheet]?.map (·.protectedRanges)).getD []

/-- Whether a position lies in a range, given by any two opposite corners. -/
def inRange (position : UInt32 × UInt32) (range : Str) : Bool :=
  match parseA1Range rt range with
  | some ((c1, r1), (c2, r2)) =>
      position.1 ≥ min c1 c2 ∧ position.1 ≤ max c1 c2 ∧
        position.2 ≥ min r1 r2 ∧ position.2 ≤ max r1 r2
  | none => false

def addrInProtectedRange (sheet : EratSheet) (addr : Str) : Bool :=
  match parseAddr rt addr with
  | some position => sheet.activeProtectedRanges.any (inRange rt position)
  | none => false

def setFreezePanes (sheet : EratSheet) (rows cols : UInt32) : EratSheet :=
  sheet.editActive fun tab => { tab with freezeRows := rows, freezeCols := cols }

def renameSheet (sheet : EratSheet) (index : Nat) (name : Str) : EratSheet :=
  sheet.normalizeTabs.editTab index fun tab => { tab with name := name }

/-- Where the tab at `i` stands after the tab at `from_` is moved to `to_`. -/
def movedIndex (from_ to_ i : Nat) : Nat :=
  if i = from_ then to_
  else if from_ < i ∧ to_ ≥ i then i - 1
  else if from_ > i ∧ to_ ≤ i then i + 1
  else i

def reorderSheet (sheet : EratSheet) (from_ to_ : Nat) : EratSheet :=
  let sheet := sheet.normalizeTabs
  if from_ ≥ sheet.sheets.length ∨ to_ ≥ sheet.sheets.length ∨ from_ = to_ then sheet
  else
    let sheet := sheet.flushActiveToTab
    match sheet.sheets[from_]? with
    | some tab =>
        syncActiveFromTab { sheet with
          sheets := (sheet.sheets.eraseIdx from_).insertIdx to_ tab
          activeSheet := movedIndex from_ to_ sheet.activeSheet }
    | none => sheet

/-- The loop of the row and column edits: every cell is moved, or dropped, on its own. -/
def rebuild (move : Str → Cell → Option (Str × Cell)) (cells : StrMap Cell) : StrMap Cell :=
  cells.toList.foldl
    (fun next entry =>
      match move entry.1 entry.2 with
      | some moved => next.insert moved.1 moved.2
      | none => next) ∅

def replaceCells (sheet : EratSheet) (cells : StrMap Cell) : EratSheet :=
  flushActiveToTab { sheet with cells := cells }

def shiftCell (cell : Cell) (row : UInt32) (delta : Int) : Cell :=
  if cell.formula.isEmpty then cell
  else { cell with formula := shiftFormulaRows cell.formula row delta }

def insertRowCell (row : UInt32) (addr : Str) (cell : Cell) : Option (Str × Cell) :=
  match parseAddr rt addr with
  | some (c, r) => some (addrOf c (if r ≥ row then r + 1 else r), shiftCell cell row 1)
  | none => some (addr, cell)

def deleteRowCell (row : UInt32) (addr : Str) (cell : Cell) : Option (Str × Cell) :=
  match parseAddr rt addr with
  | some (c, r) =>
      if r = row then none
      else some (addrOf c (if r > row then r - 1 else r), shiftCell cell row (-1))
  | none => some (addr, cell)

/-- Column edits leave formulas as they are. -/
def insertColCell (col : UInt32) (addr : Str) (cell : Cell) : Option (Str × Cell) :=
  match parseAddr rt addr with
  | some (c, r) => some (addrOf (if c ≥ col then c + 1 else c) r, cell)
  | none => some (addr, cell)

def deleteColCell (col : UInt32) (addr : Str) (cell : Cell) : Option (Str × Cell) :=
  match parseAddr rt addr with
  | some (c, r) =>
      if c = col then none else some (addrOf (if c > col then c - 1 else c) r, cell)
  | none => some (addr, cell)

def saturatingSucc (n : UInt32) : UInt32 := if n = UInt32.ofNat (2 ^ 32 - 1) then n else n + 1

def insertRow (sheet : EratSheet) (row : UInt32) : EratSheet :=
  let sheet := sheet.normalizeTabs
  if row = 0 then sheet
  else
    let sheet := sheet.replaceCells (rebuild (insertRowCell rt row) sheet.cells)
    { sheet with rows := saturatingSucc sheet.rows }

def deleteRow (sheet : EratSheet) (row : UInt32) : EratSheet :=
  let sheet := sheet.normalizeTabs
  if row = 0 then sheet
  else sheet.replaceCells (rebuild (deleteRowCell rt row) sheet.cells)

def insertCol (sheet : EratSheet) (col : UInt32) : EratSheet :=
  let sheet := sheet.normalizeTabs
  if col = 0 then sheet
  else
    let sheet := sheet.replaceCells (rebuild (insertColCell rt col) sheet.cells)
    { sheet with cols := saturatingSucc sheet.cols }

def deleteCol (sheet : EratSheet) (col : UInt32) : EratSheet :=
  let sheet := sheet.normalizeTabs
  if col = 0 then sheet
  else sheet.replaceCells (rebuild (deleteColCell rt col) sheet.cells)

/-- One row's cells by column. -/
abbrev RowCells := Std.ExtTreeMap UInt32 Cell compare

def maxRow (cells : StrMap Cell) : UInt32 :=
  cells.toList.foldl
    (fun most entry =>
      match parseAddr rt entry.1 with
      | some (_, r) => max most r
      | none => most) 0

def rowCells (cells : StrMap Cell) (row : UInt32) : RowCells :=
  cells.toList.foldl
    (fun found entry =>
      match parseAddr rt entry.1 with
      | some (c, r) => if r = row then found.insert c entry.2 else found
      | none => found) ∅

def sortKey (col : UInt32) (row : RowCells) : Str :=
  rt.lower ((row[col]?.map fun cell =>
    if cell.formula.isEmpty then cell.value else cell.formula).getD [])

/-- The comparison of `sort_by`, as "not greater". -/
def sortLe (col : UInt32) (ascending : Bool) (a b : UInt32 × RowCells) : Bool :=
  let cmp := compare (sortKey rt col a.2) (sortKey rt col b.2)
  if ascending then cmp.isLE else cmp.swap.isLE

def sortedRows (cells : StrMap Cell) (col : UInt32) (ascending : Bool) :
    List (UInt32 × RowCells) :=
  let rows := (List.range' 1 (maxRow rt cells).toNat).map fun r =>
    (UInt32.ofNat r, rowCells rt cells (UInt32.ofNat r))
  rows.mergeSort (sortLe rt col ascending)

/-- Rows past the last one stay, sorted rows are written at positions from 1 on. -/
def sortCells (cells : StrMap Cell) (col : UInt32) (ascending : Bool) : StrMap Cell :=
  let kept := cells.toList.foldl
    (fun (next : StrMap Cell) entry =>
      match parseAddr rt entry.1 with
      | some (_, r) => if r > maxRow rt cells then next.insert entry.1 entry.2 else next
      | none => next) ∅
  ((sortedRows rt cells col ascending).zipIdx 1).foldl
    (fun next row =>
      row.1.2.toList.foldl
        (fun next entry => next.insert (addrOf entry.1 (UInt32.ofNat row.2)) entry.2) next) kept

def sortRowsByCol (sheet : EratSheet) (col : UInt32) (ascending : Bool) : EratSheet :=
  let sheet := sheet.normalizeTabs
  if col = 0 then sheet
  else if maxRow rt sheet.cells = 0 then sheet
  else sheet.replaceCells (sortCells rt sheet.cells col ascending)

end EratSheet

end EraOne.Tables
