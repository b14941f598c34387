import EraOne.TablesCalc

set_option autoImplicit false

/- Sheet operations of `sync.rs` and the protection check made before them. -/
namespace EraOne.Tables

open EratSheet

inductive SheetOp where
  | setCell (addr value formula : Str)
  | clearCell (addr : Str)
  | setFormat (addr format : Str)
  | setCellStyle (addr : Str) (style : StyleArgs)
  | sortRange (col : UInt32) (ascending : Bool)
  | setFilterCriteria (criteria : Option Str)
  | switchSheet (index : Nat)
  | addSheet (name : Str)
  | renameSheet (index : Nat) (name : Str)
  | reorderSheet (from_ to_ : Nat)
  | insertRow (row : UInt32)
  | deleteRow (row : UInt32)
  | insertCol (col : UInt32)
  | deleteCol (col : UInt32)
  | protectSheet (isProtected : Bool)
  | freezePanes (rows cols : UInt32)
  | setMerges (merges : List Str)
  | setProtectedRanges (ranges : List Str)
  | setCharts (charts : List ChartSpec)
  | setScenarios (scenarios : Option Str)
  deriving DecidableEq, Repr

variable (rt : Runtime)

/-- Recalculate and copy the result into the active tab. -/
def recalcFlush (sheet : EratSheet) : Option EratSheet := do
  let sheet ← recalc rt sheet
  return sheet.flushActiveToTab

/-- `apply_op`; `none` when a recalculation panics. -/
def applyOp (sheet : EratSheet) (op : SheetOp) : Option EratSheet :=
  let sheet := sheet.normalizeTabs
  match op with
  | .setCell addr value formula => recalcFlush rt (sheet.setCell rt addr value formula)
  | .clearCell addr => recalcFlush rt (sheet.clearCell rt addr)
  -- Switching, adding and reordering recalculate without the flush.
  | .switchSheet index => recalc rt (sheet.switchSheet index)
  | .addSheet name =>
      let n := if (Scan.trim name).isEmpty then
          "Sheet".toList ++ Nat.toDigits 10 (sheet.sheets.length + 1)
        else name
      recalc rt (sheet.addSheet n)
  | .setFormat addr format => some (sheet.setCellFormat rt addr format).flushActiveToTab
  | .setCellStyle addr style => some (sheet.setCellStyle rt addr style).flushActiveToTab
  | .sortRange col ascending => recalcFlush rt (sheet.sortRowsByCol rt col ascending)
  | .setFilterCriteria criteria =>
      some (sheet.editActive fun tab => { tab with filterCriteria := criteria })
  | .setCharts charts => some (sheet.editActive fun tab => { tab with charts := charts })
  | .setScenarios scenarios =>
      some (sheet.editActive fun tab => { tab with scenarios := scenarios })
  | .renameSheet index name => some (sheet.renameSheet index name)
  | .reorderSheet from_ to_ => recalc rt (sheet.reorderSheet from_ to_)
  | .insertRow row => recalcFlush rt (sheet.insertRow rt row)
  | .deleteRow row => recalcFlush rt (sheet.deleteRow rt row)
  | .insertCol col => recalcFlush rt (sheet.insertCol rt col)
  | .deleteCol col => recalcFlush rt (sheet.deleteCol rt col)
  | .protectSheet isProtected => some (sheet.setSheetProtected isProtected)
  | .freezePanes rows cols => some (sheet.setFreezePanes rows cols)
  | .setMerges merges => some (sheet.setMerges merges)
  | .setProtectedRanges ranges => some (sheet.setProtectedRanges ranges)

/-- A protected tab blocks every op that edits cells; a protected range blocks only the ops that
name an address. -/
def blockedByProtect (sheet : EratSheet) (op : SheetOp) : Bool :=
  if sheet.isActiveProtected then
    match op with
    | .setCell .. | .clearCell .. | .setFormat .. | .setCellStyle .. | .sortRange ..
    | .insertRow .. | .deleteRow .. | .insertCol .. | .deleteCol .. => true
    | _ => false
  else
    match op with
    | .setCell addr _ _ | .clearCell addr | .setFormat addr _ | .setCellStyle addr _ =>
        sheet.addrInProtectedRange rt addr
    | _ => false

end EraOne.Tables
