import EraOne.TablesChecked

set_option autoImplicit false

/- Which runs of client ops overflow a `u32`: the formula engine, the protection check and the ops
with every operation checked, and the condition on a sheet and an op that keeps them all inside. -/
namespace EraOne.Tables

open Scan EratSheet Checked

section

variable (rt : Runtime)

/-! ### Formulas -/

/-- `eval_atom`, checked; the inner `none` is another panic. -/
def evalAtomChecked (cells : StrMap Cell) (atom : Str) : Option (Option Str) :=
  let a := trim atom
  if a.isEmpty then some (some [])
  else if quotedBy '"' a ∨ quotedBy '\'' a then some (unquote a)
  else
    match rt.parse a with
    | some n => some (some (formatNum rt n))
    | none => (parseAddrChecked rt a).map fun position =>
        if position.isSome then some (cellRaw rt cells a) else some a

/-- What is neither quoted nor a number is read as an address. -/
def AtomFits (atom : Str) : Prop :=
  trim atom ≠ [] → ¬ (quotedBy '"' (trim atom) ∨ quotedBy '\'' (trim atom)) →
    rt.parse (trim atom) = none → ColumnFits rt (trim atom)

theorem computes_evalAtom (cells : StrMap Cell) (atom : Str) :
    Computes (evalAtomChecked rt cells atom) (AtomFits rt atom) (evalAtom rt cells atom) := by
  unfold evalAtomChecked evalAtom AtomFits
  dsimp only
  generalize trim atom = a
  by_cases empty : a.isEmpty = true
  · rw [if_pos empty, if_pos empty]
    exact (computes_some _).congr
      (iff_of_true trivial fun filled => absurd (List.isEmpty_iff.mp empty) filled)
  rw [if_neg empty, if_neg empty]
  by_cases quoted : quotedBy '"' a ∨ quotedBy '\'' a
  · rw [if_pos quoted, if_pos quoted]
    exact (computes_some _).congr (iff_of_true trivial fun _ plain => absurd quoted plain)
  rw [if_neg quoted, if_neg quoted]
  have filled : a ≠ [] := fun nil => empty (List.isEmpty_iff.mpr nil)
  cases number : rt.parse a with
  | some n => exact (computes_some _).congr (iff_of_true trivial fun _ _ none_ => by cases none_)
  | none =>
      exact ((computes_parseAddr rt a).map _).congr
        ⟨fun fits _ _ _ => fits, fun fits => fits filled quoted rfl⟩

/-- Two evaluations, of which the second is not made where the first panics. -/
theorem computes_next {α β : Type} {first : Option (Option α)} {fits : Prop} {value : Option α}
    (computes : Computes first fits value) {next : α → Option (Option β)} {fits' : α → Prop}
    {value' : α → Option β} (each : ∀ a, Computes (next a) (fits' a) (value' a)) :
    Computes (first.bind fun found => found.elim (some none) next)
      (fits ∧ ∀ a ∈ value, fits' a) (value.bind value') := by
  have both : Computes (first.bind fun found => found.elim (some none) next)
      (fits ∧ ∀ a ∈ value, fits' a) (value.elim none value') :=
    computes.bind (computes_elim value none each)
  cases value <;> exact both

/-- `eval_cond`, checked. -/
def evalCondChecked (cells : StrMap Cell) (cond : Str) : Option (Option Bool) :=
  let c := trim cond
  match splitCond c comparisons with
  | some (op, left, right) =>
      (evalAtomChecked rt cells left).bind fun left => left.elim (some none) fun left =>
        (evalAtomChecked rt cells right).map fun right =>
          right.map fun right => compareValues rt op left right
  | none => (evalAtomChecked rt cells c).map fun v => v.map (truthy rt)

/-- The sides of the condition that are evaluated. -/
def CondFits (cells : StrMap Cell) (cond : Str) : Prop :=
  match splitCond (trim cond) comparisons with
  | some (_, left, right) => AtomFits rt left ∧ ∀ _ ∈ evalAtom rt cells left, AtomFits rt right
  | none => AtomFits rt (trim cond)

theorem computes_evalCond (cells : StrMap Cell) (cond : Str) :
    Computes (evalCondChecked rt cells cond) (CondFits rt cells cond) (evalCond rt cells cond) := by
  unfold evalCondChecked evalCond CondFits
  dsimp only
  cases splitCond (trim cond) comparisons with
  | none =>
      have value : (do let v ← evalAtom rt cells (trim cond); return truthy rt v) =
          (evalAtom rt cells (trim cond)).map (truthy rt) := by
        cases evalAtom rt cells (trim cond) <;> rfl
      rw [value]
      exact (computes_evalAtom rt cells (trim cond)).map _
  | some found =>
      obtain ⟨op, left, right⟩ := found
      have value : (do
            let left ← evalAtom rt cells left
            let right ← evalAtom rt cells right
            return compareValues rt op left right) =
          (evalAtom rt cells left).bind fun left =>
            (evalAtom rt cells right).map fun right => compareValues rt op left right := by
        cases evalAtom rt cells left <;> cases evalAtom rt cells right <;> rfl
      dsimp only
      rw [value]
      exact computes_next (computes_evalAtom rt cells left) fun _ =>
        (computes_evalAtom rt cells right).map _

/-- The `IF` branch of `eval_formula`, checked. -/
def evalIfChecked (cells : StrMap Cell) (args : List Str) : Option (Option Str) :=
  match args with
  | cond :: thenV :: rest =>
      (evalCondChecked rt cells cond).bind fun holds => holds.elim (some none) fun holds =>
        evalAtomChecked rt cells (if holds then thenV else rest.headD [])
  | _ => some (some [])

/-- The condition, and the argument that it chooses. -/
def IfFits (cells : StrMap Cell) (args : List Str) : Prop :=
  match args with
  | cond :: thenV :: rest =>
      CondFits rt cells cond ∧ ∀ holds ∈ evalCond rt cells cond,
        AtomFits rt (if holds then thenV else rest.headD [])
  | _ => True

theorem computes_evalIf (cells : StrMap Cell) (args : List Str) :
    Computes (evalIfChecked rt cells args) (IfFits rt cells args) (evalIf rt cells args) := by
  unfold evalIfChecked IfFits evalIf
  match args with
  | [] => exact computes_some _
  | [_] => exact computes_some _
  | cond :: thenV :: rest =>
      have value : (do
            if ← evalCond rt cells cond then evalAtom rt cells thenV
            else evalAtom rt cells (rest.headD [])) =
          (evalCond rt cells cond).bind fun holds =>
            evalAtom rt cells (if holds then thenV else rest.headD []) := by
        cases evalCond rt cells cond with
        | none => rfl
        | some holds => cases holds <;> rfl
      dsimp only
      rw [value]
      exact computes_next (computes_evalCond rt cells cond) fun holds =>
        computes_evalAtom rt cells _

/-- The calls that expand a range, checked. -/
def evalCountChecked (cells : StrMap Cell) (argsRaw : Str) : Option Str :=
  (expandRangeChecked rt (trim argsRaw)).map fun addrs =>
    let hits := addrs.filter fun a =>
      let raw := cellRaw rt cells a
      !raw.isEmpty && (rt.parse raw).isSome
    formatNum rt (rt.ofCount hits.length)

def evalCountifChecked (cells : StrMap Cell) (args : List Str) : Option Str :=
  match args with
  | range :: criteria :: _ =>
      (expandRangeChecked rt (trim range)).map fun addrs =>
        let hits := addrs.filter fun a =>
          countifMatch rt (cellRaw rt cells a) (unquoteCriteria criteria)
        formatNum rt (rt.ofCount hits.length)
  | _ => some []

def evalAggregateChecked (cells : StrMap Cell) (name argsRaw : Str) : Option Str :=
  (expandRangeChecked rt (trim argsRaw)).map fun addrs =>
    let nums := addrs.map (cellNum rt cells)
    if nums.isEmpty then ['0']
    else if name = "SUM".toList then formatNum rt (rt.sum nums)
    else if name = "AVERAGE".toList ∨ name = "AVG".toList then
      formatNum rt (rt.div (rt.sum nums) (rt.ofCount nums.length))
    else if name = "MIN".toList then formatNum rt (nums.foldl rt.min rt.infinity)
    else if name = "MAX".toList then formatNum rt (nums.foldl rt.max rt.negInfinity)
    else []

def evalCallChecked (cells : StrMap Cell) (name argsRaw : Str) : Option (Option Str) :=
  if name = "IF".toList then evalIfChecked rt cells (splitArgs argsRaw)
  else if name = "COUNT".toList then (evalCountChecked rt cells argsRaw).map some
  else if name = "COUNTIF".toList then
    (evalCountifChecked rt cells (splitArgs argsRaw)).map some
  else if name = "ROUND".toList then some (some (evalRound rt cells (splitArgs argsRaw)))
  else (evalAggregateChecked rt cells name argsRaw).map some

/-- What a call reads as addresses: the range it expands, and the parts of an `IF`. -/
def CallFits (cells : StrMap Cell) (name argsRaw : Str) : Prop :=
  if name = "IF".toList then IfFits rt cells (splitArgs argsRaw)
  else if name = "COUNT".toList then FormulaRangeFits rt (trim argsRaw)
  else if name = "COUNTIF".toList then
    ∀ range criteria rest, splitArgs argsRaw = range :: criteria :: rest →
      FormulaRangeFits rt (trim range)
  else if name = "ROUND".toList then True
  else FormulaRangeFits rt (trim argsRaw)

theorem computes_evalCountif (cells : StrMap Cell) (args : List Str) :
    Computes (evalCountifChecked rt cells args)
      (∀ range criteria rest, args = range :: criteria :: rest → FormulaRangeFits rt (trim range))
      (evalCountif rt cells args) := by
  unfold evalCountifChecked evalCountif
  match args with
  | [] | [_] =>
      refine (computes_some _).congr (iff_of_true trivial fun range criteria rest same => ?_)
      simp at same
  | range :: criteria :: rest =>
      refine ((computes_expandRange rt (trim range)).map _).congr ?_
      constructor
      · intro fits range' criteria' rest' same
        rw [← (List.cons.inj same).1]
        exact fits
      · intro all
        exact all range criteria rest rfl

theorem computes_evalCall (cells : StrMap Cell) (name argsRaw : Str) :
    Computes (evalCallChecked rt cells name argsRaw) (CallFits rt cells name argsRaw)
      (evalCall rt cells name argsRaw) := by
  unfold evalCallChecked CallFits evalCall
  split_ifs
  · exact computes_evalIf rt cells (splitArgs argsRaw)
  · exact ((computes_expandRange rt (trim argsRaw)).map _).map _
  · exact (computes_evalCountif rt cells (splitArgs argsRaw)).map _
  · exact computes_some _
  · exact ((computes_expandRange rt (trim argsRaw)).map _).map _

def evalFormulaChecked (cells : StrMap Cell) (formula : Str) : Option (Option Str) :=
  match splitCall rt formula with
  | some (some (name, argsRaw)) => evalCallChecked rt cells name argsRaw
  | some none => some (some [])
  | none => some none

def FormulaFits (cells : StrMap Cell) (formula : Str) : Prop :=
  match splitCall rt formula with
  | some (some (name, argsRaw)) => CallFits rt cells name argsRaw
  | _ => True

theorem computes_evalFormula (cells : StrMap Cell) (formula : Str) :
    Computes (evalFormulaChecked rt cells formula) (FormulaFits rt cells formula)
      (evalFormula rt cells formula) := by
  unfold evalFormulaChecked FormulaFits evalFormula
  cases splitCall rt formula with
  | none => exact computes_some _
  | some call =>
      cases call with
      | none => exact computes_some _
      | some call => exact computes_evalCall rt cells call.1 call.2

/-! ### Recalculation -/

/-- A recalculation under way: what it has made of the cells, and whether a formula panicked. -/
structure Pass where
  cells : StrMap Cell
  panicked : Bool := false

def setValue (cells : StrMap Cell) (addr val : Str) : StrMap Cell :=
  match cells[addr]? with
  | some cell => cells.insert addr { cell with value := val }
  | none => cells

/-- A formula's turn; a panic ends the pass and leaves the cells as they are. -/
def Pass.evaluated (pass : Pass) (addr : Str) (val : Option Str) : Pass :=
  match val with
  | some val => { pass with cells := setValue pass.cells addr val }
  | none => { pass with panicked := true }

def passStep (pass : Pass) (entry : Str × Str) : Pass :=
  if pass.panicked then pass else pass.evaluated entry.1 (evalFormula rt pass.cells entry.2)

def passStepChecked (pass : Pass) (entry : Str × Str) : Option Pass :=
  if pass.panicked then some pass
  else (evalFormulaChecked rt pass.cells entry.2).map fun val => pass.evaluated entry.1 val

def recalcPass (cells : StrMap Cell) : Pass :=
  (formulaEntries cells).foldl (passStep rt) ⟨cells, false⟩

def recalcPassChecked (cells : StrMap Cell) : Option Pass :=
  (formulaEntries cells).foldlM (passStepChecked rt) ⟨cells, false⟩

/-- The formulas up to the first that panics, each on the cells that the ones before it leave. -/
def RecalcFits (cells : StrMap Cell) : Prop :=
  ∀ front entry back, formulaEntries cells = front ++ entry :: back →
    (front.foldl (passStep rt) ⟨cells, false⟩).panicked = false →
      FormulaFits rt (front.foldl (passStep rt) ⟨cells, false⟩).cells entry.2

theorem computes_passStep (pass : Pass) (entry : Str × Str) :
    Computes (passStepChecked rt pass entry)
      (pass.panicked = false → FormulaFits rt pass.cells entry.2) (passStep rt pass entry) := by
  unfold passStepChecked passStep
  cases pass.panicked with
  | true => exact (computes_some pass).congr (iff_of_true trivial fun never => by cases never)
  | false =>
      exact ((computes_evalFormula rt pass.cells entry.2).map _).congr
        ⟨fun fits _ => fits, fun fits => fits rfl⟩

theorem computes_recalcPass (cells : StrMap Cell) :
    Computes (recalcPassChecked rt cells) (RecalcFits rt cells) (recalcPass rt cells) :=
  computes_foldlM (computes_passStep rt) (formulaEntries cells) ⟨cells, false⟩

theorem passStep_panicked (pass : Pass) (stopped : pass.panicked = true)
    (entries : List (Str × Str)) :
    entries.foldl (passStep rt) pass = pass := by
  induction entries with
  | nil => rfl
  | cons entry entries ih =>
      rw [List.foldl_cons, passStep, if_pos stopped]
      exact ih

theorem recalcStep_eq (cells : StrMap Cell) (entry : Str × Str) :
    recalcStep rt cells entry = (evalFormula rt cells entry.2).map (setValue cells entry.1) := by
  unfold recalcStep setValue
  cases evalFormula rt cells entry.2 with
  | none => rfl
  | some val => cases cells[entry.1]? <;> rfl

/-- A pass that no formula ends is the recalculation. -/
theorem recalcCells_eq (cells : StrMap Cell) :
    recalcCells rt cells =
      if (recalcPass rt cells).panicked then none else some (recalcPass rt cells).cells := by
  unfold recalcCells recalcPass
  generalize formulaEntries cells = entries
  induction entries generalizing cells with
  | nil => rfl
  | cons entry entries ih =>
      rw [List.foldlM_cons, List.foldl_cons]
      have turn : passStep rt ⟨cells, false⟩ entry =
          Pass.evaluated ⟨cells, false⟩ entry.1 (evalFormula rt cells entry.2) := rfl
      rw [turn, recalcStep_eq]
      cases evalFormula rt cells entry.2 with
      | none =>
          rw [Pass.evaluated, passStep_panicked rt _ rfl]
          rfl
      | some val => exact ih (setValue cells entry.1 val)

/-! ### The protection check -/

def inRangeChecked (position : UInt32 × UInt32) (range : Str) : Option Bool :=
  (parseA1RangeChecked rt range).map fun ends =>
    match ends with
    | some ((c1, r1), (c2, r2)) =>
        position.1 ≥ min c1 c2 ∧ position.1 ≤ max c1 c2 ∧
          position.2 ≥ min r1 r2 ∧ position.2 ≤ max r1 r2
    | none => false

/-- The loop over the ranges, which ends at the first that has the position. -/
def rangesChecked (position : UInt32 × UInt32) : List Str → Option Bool
  | [] => some false
  | range :: ranges => (inRangeChecked rt position range).bind fun inside =>
      if inside then some true else rangesChecked position ranges

def RangesFit (position : UInt32 × UInt32) : List Str → Prop
  | [] => True
  | range :: ranges =>
      CornersFit rt (rangeEnds rt range).1 (rangeEnds rt range).2 ∧
        (inRange rt position range = false → RangesFit position ranges)

theorem computes_ranges (position : UInt32 × UInt32) (ranges : List Str) :
    Computes (rangesChecked rt position ranges) (RangesFit rt position ranges)
      (ranges.any (inRange rt position)) := by
  induction ranges with
  | nil => exact computes_some false
  | cons range ranges ih =>
      have inside : Computes (inRangeChecked rt position range) _ (inRange rt position range) :=
        (computes_parseA1Range rt range).map _
      rw [rangesChecked, RangesFit, List.any_cons]
      refine inside.bind ?_
      cases inRange rt position range with
      | true => exact (computes_some true).congr (iff_of_true trivial fun never => by cases never)
      | false => exact ih.congr ⟨fun fits _ => fits, fun fits => fits rfl⟩

def addrInProtectedRangeChecked (sheet : EratSheet) (addr : Str) : Option Bool :=
  (parseAddrChecked rt addr).bind fun position => position.elim (some false) fun position =>
    rangesChecked rt position sheet.activeProtectedRanges

/-- The address, and the ranges up to the one that has it. -/
def AddrFits (sheet : EratSheet) (addr : Str) : Prop :=
  ColumnFits rt addr ∧
    ∀ position ∈ parseAddr rt addr, RangesFit rt position sheet.activeProtectedRanges

theorem computes_addrInProtectedRange (sheet : EratSheet) (addr : Str) :
    Computes (addrInProtectedRangeChecked rt sheet addr) (AddrFits rt sheet addr)
      (sheet.addrInProtectedRange rt addr) := by
  have value : sheet.addrInProtectedRange rt addr = (parseAddr rt addr).elim false fun position =>
      sheet.activeProtectedRanges.any (inRange rt position) := by
    unfold EratSheet.addrInProtectedRange
    cases parseAddr rt addr <;> rfl
  rw [value]
  exact (computes_parseAddr rt addr).bind
    (computes_elim _ false fun position => computes_ranges rt position sheet.activeProtectedRanges)

/-- `blocked_by_protect`, checked. -/
def blockedByProtectChecked (sheet : EratSheet) (op : SheetOp) : Option Bool :=
  if sheet.isActiveProtected then
    match op with
    | .setCell .. | .clearCell .. | .setFormat .. | .setCellStyle .. | .sortRange ..
    | .insertRow .. | .deleteRow .. | .insertCol .. | .deleteCol .. => some true
    | _ => some false
  else
    match op with
    | .setCell addr _ _ | .clearCell addr | .setFormat addr _ | .setCellStyle addr _ =>
        addrInProtectedRangeChecked rt sheet addr
    | _ => some false

/-- On a tab that is not protected, the address that the op names is read. -/
def GuardFits (sheet : EratSheet) (op : SheetOp) : Prop :=
  sheet.isActiveProtected = false → ∀ addr ∈ namedAddr op, AddrFits rt sheet addr

theorem computes_blockedByProtect (sheet : EratSheet) (op : SheetOp) :
    Computes (blockedByProtectChecked rt sheet op) (GuardFits rt sheet op)
      (blockedByProtect rt sheet op) := by
  unfold blockedByProtectChecked GuardFits blockedByProtect
  cases sheet.isActiveProtected with
  | true =>
      rw [if_pos rfl, if_pos rfl]
      cases op <;> exact (computes_some _).congr (iff_of_true trivial fun never => by cases never)
  | false =>
      rw [if_neg (by decide), if_neg (by decide)]
      have named (addr : Str) : Computes (addrInProtectedRangeChecked rt sheet addr)
          (false = false → ∀ a ∈ some addr, AddrFits rt sheet a)
          (sheet.addrInProtectedRange rt addr) :=
        (computes_addrInProtectedRange rt sheet addr).congr
          ⟨fun fits _ a member => Option.some.inj member ▸ fits, fun fits => fits rfl addr rfl⟩
      have unnamed :
          Computes (some false) (false = false → ∀ a ∈ (none : Option Str), AddrFits rt sheet a)
          false :=
        (computes_some false).congr (iff_of_true trivial fun _ a member => by cases member)
      cases op with
      | setCell addr _ _ | clearCell addr | setFormat addr _ | setCellStyle addr _ =>
          exact named addr
      | _ => exact unnamed

/-! ### Ops -/

/-- What an op does to the sheet before the recalculation. -/
def edited (sheet : EratSheet) : SheetOp → EratSheet
  | .setCell addr value formula => sheet.setCell rt addr value formula
  | .clearCell addr => sheet.clearCell rt addr
  | .switchSheet index => sheet.switchSheet index
  | .addSheet name =>
      let n := if (trim name).isEmpty then
          "Sheet".toList ++ Nat.toDigits 10 (sheet.sheets.length + 1)
        else name
      sheet.addSheet n
  | .setFormat addr format => (sheet.setCellFormat rt addr format).flushActiveToTab
  | .setCellStyle addr style => (sheet.setCellStyle rt addr style).flushActiveToTab
  | .sortRange col ascending => sheet.sortRowsByCol rt col ascending
  | .setFilterCriteria criteria =>
      sheet.editActive fun tab => { tab with filterCriteria := criteria }
  | .setCharts charts => sheet.editActive fun tab => { tab with charts := charts }
  | .setScenarios scenarios => sheet.editActive fun tab => { tab with scenarios := scenarios }
  | .renameSheet index name => sheet.renameSheet index name
  | .reorderSheet from_ to_ => sheet.reorderSheet from_ to_
  | .insertRow row => sheet.insertRow rt row
  | .deleteRow row => sheet.deleteRow rt row
  | .insertCol col => sheet.insertCol rt col
  | .deleteCol col => sheet.deleteCol rt col
  | .protectSheet isProtected => sheet.setSheetProtected isProtected
  | .freezePanes rows cols => sheet.setFreezePanes rows cols
  | .setMerges merges => sheet.setMerges merges
  | .setProtectedRanges ranges => sheet.setProtectedRanges ranges

/-- The ops that flush the recalculated cells to the tab. -/
def flushes : SheetOp → Bool
  | .setCell .. | .clearCell .. | .sortRange .. | .insertRow .. | .deleteRow .. | .insertCol ..
  | .deleteCol .. => true
  | _ => false

def recalculates : SheetOp → Bool
  | .switchSheet .. | .addSheet .. | .reorderSheet .. => true
  | op => flushes op

/-- The sheet after a recalculation; the flush is not reached where a formula panics. -/
def afterPass (sheet : EratSheet) (op : SheetOp) (pass : Pass) : EratSheet :=
  let sheet := { sheet with cells := pass.cells }
  if flushes op && !pass.panicked then sheet.flushActiveToTab else sheet

/-- The session's sheet after a client's op. -/
def served (sheet : EratSheet) (op : SheetOp) : EratSheet :=
  if blockedByProtect rt sheet op then sheet
  else
    let sheet := edited rt sheet.normalizeTabs op
    if recalculates op then afterPass sheet op (recalcPass rt sheet.cells) else sheet

theorem applyOp_eq (sheet : EratSheet) (op : SheetOp) :
    applyOp rt sheet op =
      if recalculates op then (recalc rt (edited rt sheet.normalizeTabs op)).map fun sheet =>
        if flushes op then sheet.flushActiveToTab else sheet
      else some (edited rt sheet.normalizeTabs op) := by
  have flushed (sheet : EratSheet) :
      recalcFlush rt sheet = (recalc rt sheet).map fun sheet => sheet.flushActiveToTab := by
    unfold recalcFlush
    cases recalc rt sheet <;> rfl
  have plain (sheet : EratSheet) : recalc rt sheet = (recalc rt sheet).map fun sheet => sheet := by
    rw [Option.map_id']
  cases op with
  | setCell | clearCell | sortRange | insertRow | deleteRow | insertCol | deleteCol =>
      exact flushed _
  | switchSheet | addSheet | reorderSheet => exact plain _
  | _ => rfl

/-- An op that passes the check and whose formulas do not panic is served as `applyOp` has it. -/
theorem served_of_applyOp (sheet result : EratSheet) (op : SheetOp)
    (free : blockedByProtect rt sheet op = false) (done : applyOp rt sheet op = some result) :
    served rt sheet op = result := by
  rw [applyOp_eq] at done
  rw [served, free, if_neg (by decide)]
  dsimp only
  by_cases again : recalculates op = true
  · rw [if_pos again] at done ⊢
    obtain ⟨cells, pass, rfl⟩ := Option.map_eq_some_iff.mp done
    obtain ⟨ended, shape⟩ := recalc_spec _ _ pass
    rw [recalcCells_eq] at ended
    split_ifs at ended with stopped
    rw [afterPass, Option.some.inj ended, ← shape, Bool.eq_false_of_not_eq_true stopped,
      Bool.not_false, Bool.and_true]
  · rw [if_neg again] at done ⊢
    exact Option.some.inj done

def insertRowChecked (sheet : EratSheet) (row : UInt32) : Option EratSheet :=
  let sheet := sheet.normalizeTabs
  if row = 0 then some sheet
  else (rebuildChecked (insertRowCellChecked rt row) sheet.cells).map fun cells =>
    let sheet := sheet.replaceCells cells
    { sheet with rows := EratSheet.saturatingSucc sheet.rows }

def deleteRowChecked (sheet : EratSheet) (row : UInt32) : Option EratSheet :=
  let sheet := sheet.normalizeTabs
  if row = 0 then some sheet
  else (rebuildChecked (deleteRowCellChecked rt row) sheet.cells).map sheet.replaceCells

def insertColChecked (sheet : EratSheet) (col : UInt32) : Option EratSheet :=
  let sheet := sheet.normalizeTabs
  if col = 0 then some sheet
  else (rebuildChecked (insertColCellChecked rt col) sheet.cells).map fun cells =>
    let sheet := sheet.replaceCells cells
    { sheet with cols := EratSheet.saturatingSucc sheet.cols }

def deleteColChecked (sheet : EratSheet) (col : UInt32) : Option EratSheet :=
  let sheet := sheet.normalizeTabs
  if col = 0 then some sheet
  else (rebuildChecked (deleteColCellChecked rt col) sheet.cells).map sheet.replaceCells

def sortRowsByColChecked (sheet : EratSheet) (col : UInt32) (ascending : Bool) : Option EratSheet :=
  let sheet := sheet.normalizeTabs
  if col = 0 then some sheet
  else (maxRowChecked rt sheet.cells).bind fun last =>
    if last = 0 then some sheet
    else (sortCellsChecked rt sheet.cells last col ascending).map sheet.replaceCells

/-- What an op does before the recalculation, checked. -/
def editedChecked (sheet : EratSheet) : SheetOp → Option EratSheet
  | .insertRow row => insertRowChecked rt sheet row
  | .deleteRow row => deleteRowChecked rt sheet row
  | .insertCol col => insertColChecked rt sheet col
  | .deleteCol col => deleteColChecked rt sheet col
  | .sortRange col ascending => sortRowsByColChecked rt sheet col ascending
  | op => some (edited rt sheet op)

/-- The keys that a row or column edit reads, what it moves, and the rows that sorting numbers. -/
def EditFits (cells : StrMap Cell) : SheetOp → Prop
  | .insertRow row => row ≠ 0 → ∀ entry ∈ cells.toList, InsertRowFits rt entry.1 entry.2
  | .deleteRow row => row ≠ 0 → KeysFit rt cells
  | .insertCol col => col ≠ 0 → ∀ entry ∈ cells.toList, InsertColFits rt entry.1
  | .deleteCol col => col ≠ 0 → KeysFit rt cells
  | .sortRange col _ => col ≠ 0 → KeysFit rt cells ∧ (maxRow rt cells).toNat + 2 < 2 ^ 32
  | _ => True

/-- An edit that argument 0 turns off. -/
theorem computes_unlessZero (n : UInt32) (sheet : EratSheet) {result : Option EratSheet}
    {fits : Prop} {value : EratSheet} (computes : Computes result fits value) :
    Computes (if n = 0 then some sheet else result) (n ≠ 0 → fits)
      (if n = 0 then sheet else value) :=
  ((computes_some sheet).ite (n = 0) computes).congr
    ⟨fun both => both.2, fun fits => ⟨fun _ => trivial, fits⟩⟩

theorem computes_edited (sheet : EratSheet) (op : SheetOp) :
    Computes (editedChecked rt sheet op) (EditFits rt sheet.normalizeTabs.cells op)
      (edited rt sheet op) := by
  cases op with
  | insertRow row =>
      exact computes_unlessZero row _
        ((computes_rebuild (computes_insertRowCell rt row) sheet.normalizeTabs.cells).map _)
  | deleteRow row =>
      exact computes_unlessZero row _
        ((computes_rebuild (computes_deleteRowCell rt row) sheet.normalizeTabs.cells).map _)
  | insertCol col =>
      exact computes_unlessZero col _
        ((computes_rebuild (computes_insertColCell rt col) sheet.normalizeTabs.cells).map _)
  | deleteCol col =>
      exact computes_unlessZero col _
        ((computes_rebuild (computes_deleteColCell rt col) sheet.normalizeTabs.cells).map _)
  | sortRange col ascending =>
      refine computes_unlessZero col _ ?_
      constructor
      · rintro ⟨keys, room⟩
        have sorted := computes_sortCells rt sheet.normalizeTabs.cells col ascending keys
        rw [(computes_maxRow rt _).passes keys, Option.bind_some, sorted.passes room]
        split <;> rfl
      · intro fails
        by_cases keys : KeysFit rt sheet.normalizeTabs.cells
        · have sorted := computes_sortCells rt sheet.normalizeTabs.cells col ascending keys
          have rows : maxRow rt sheet.normalizeTabs.cells ≠ 0 := fun none_ =>
            fails ⟨keys, by rw [none_]; decide⟩
          rw [(computes_maxRow rt _).passes keys, Option.bind_some, if_neg rows,
            sorted.stops fun room => fails ⟨keys, room⟩]
          rfl
        · rw [(computes_maxRow rt _).stops keys]
          rfl
  | _ => exact computes_some _

theorem normalizeTabs_normalizeTabs (sheet : EratSheet) :
    sheet.normalizeTabs.normalizeTabs = sheet.normalizeTabs :=
  normalizeTabs_of_mirror _ (mirror_normalizeTabs sheet)

/-! ### Runs -/

/-- A client's op served with every `u32` operation checked. -/
def servedChecked (sheet : EratSheet) (op : SheetOp) : Option EratSheet :=
  (blockedByProtectChecked rt sheet op).bind fun blocked =>
    if blocked then some sheet
    else (editedChecked rt sheet.normalizeTabs op).bind fun sheet =>
      if recalculates op then (recalcPassChecked rt sheet.cells).map (afterPass sheet op)
      else some sheet

/-- When an op overflows nothing: the protection check, the edit and the formulas read addresses
that fit, and the edit moves and numbers rows and columns that have a next one. -/
def OpFits (sheet : EratSheet) (op : SheetOp) : Prop :=
  GuardFits rt sheet op ∧
    (blockedByProtect rt sheet op = false →
      EditFits rt sheet.normalizeTabs.cells op ∧
        (recalculates op = true → RecalcFits rt (edited rt sheet.normalizeTabs op).cells))

theorem computes_served (sheet : EratSheet) (op : SheetOp) :
    Computes (servedChecked rt sheet op) (OpFits rt sheet op) (served rt sheet op) := by
  have edit := computes_edited rt sheet.normalizeTabs op
  rw [normalizeTabs_normalizeTabs] at edit
  unfold served
  refine (computes_blockedByProtect rt sheet op).bind ?_
  cases blockedByProtect rt sheet op with
  | true => exact (computes_some sheet).congr (iff_of_true trivial fun never => by cases never)
  | false =>
      have pass := ((computes_recalcPass rt (edited rt sheet.normalizeTabs op).cells).map
        (afterPass (edited rt sheet.normalizeTabs op) op)).ite (recalculates op = true)
          (computes_some (edited rt sheet.normalizeTabs op))
      refine (edit.bind pass).congr ?_
      exact ⟨fun fits _ => ⟨fits.1, fits.2.1⟩,
        fun fits => ⟨(fits rfl).1, (fits rfl).2, fun _ => trivial⟩⟩

/-- From any sheet, a run of client ops overflows nothing exactly if each op fits the sheet that
the ops before it leave. -/
theorem run_within_u32_iff (sheet : EratSheet) (ops : List SheetOp) :
    (ops.foldlM (servedChecked rt) sheet).isSome = true ↔
      ∀ front op back, ops = front ++ op :: back →
        OpFits rt (front.foldl (served rt) sheet) op :=
  (computes_foldlM (computes_served rt) ops sheet).isSome_iff

end

/-- Seven letters are a number beyond 32 bits, already in the protection check. -/
theorem seven_letters_overflow :
    ([SheetOp.setCell "ZZZZZZZ1".toList [] []].foldlM
      (servedChecked .plain) EratSheet.empty).isSome =
      false := by
  decide

end EraOne.Tables
