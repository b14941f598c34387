import EraOne.TablesStructure

set_option autoImplicit false

/- What the protection check protects. The check looks at the address an op names; the ops that
move whole rows and columns name none. -/
namespace EraOne.Tables

open Scan Maps EratSheet

/-- A cell is unchanged: equal but for its value, and equal altogether without a formula. -/
def Unchanged (before after : Option Cell) : Prop :=
  before.map Cell.unvalued = after.map Cell.unvalued ∧
    ∀ cell ∈ before, cell.formula = [] → after = some cell

instance (before after : Option Cell) : Decidable (Unchanged before after) :=
  inferInstanceAs (Decidable (_ ∧ ∀ _ ∈ before, _ → _))

variable (rt : Runtime)

/-- The addresses that protection covers: all of a protected tab, and the protected ranges. -/
def Covered (sheet : EratSheet) (key : Str) : Prop :=
  sheet.isActiveProtected = true ∨ sheet.addrInProtectedRange rt key = true

/-- The index of the active tab after the op; only reordering moves tabs. -/
def tabAfter (sheet : EratSheet) : SheetOp → Nat
  | .reorderSheet from_ to_ =>
      if from_ ≥ sheet.sheets.length ∨ to_ ≥ sheet.sheets.length ∨ from_ = to_ then
        sheet.activeSheet
      else movedIndex from_ to_ sheet.activeSheet
  | _ => sheet.activeSheet

/-- Covered cells of the tab that was active are unchanged, in the tab and, while it is still
active, at the top level. -/
def KeepsCovered (sheet : EratSheet) (op : SheetOp) (result : EratSheet) : Prop :=
  ∀ key, Covered rt sheet key →
    Unchanged sheet.normalizeTabs.cells[key]?
        (result.tabCells (tabAfter sheet.normalizeTabs op))[key]? ∧
      (result.activeSheet = tabAfter sheet.normalizeTabs op →
        Unchanged sheet.normalizeTabs.cells[key]? result.cells[key]?)

/-- The ops that move cells to other addresses, with an argument that is not ignored. -/
def MovesCells : SheetOp → Prop
  | .insertRow n | .deleteRow n | .insertCol n | .deleteCol n | .sortRange n _ => n ≠ 0
  | _ => False

variable {rt}

theorem Unchanged.refl (cell : Option Cell) : Unchanged cell cell :=
  ⟨rfl, fun _ found _ => found⟩

theorem Unchanged.trans {a b c : Option Cell} (first : Unchanged a b) (second : Unchanged b c) :
    Unchanged a c := by
  refine ⟨first.1.trans second.1, ?_⟩
  intro cell found plain
  exact second.2 cell (first.2 cell found plain) plain

/-- Recalculation changes values of formula cells only. -/
theorem unchanged_recalcCells (cells next : StrMap Cell) (pass : recalcCells rt cells = some next)
    (key : Str) : Unchanged cells[key]? next[key]? := by
  obtain ⟨outside, shape⟩ := recalcPass_frame _ cells next pass
  refine ⟨(shape key).symm, ?_⟩
  intro cell found plain
  rw [outside key, found]
  intro listed
  obtain ⟨entry, member, rfl⟩ := List.mem_map.mp listed
  obtain ⟨cell', found', formula, filled⟩ := (mem_formulaEntries cells entry.1 entry.2).mp member
  rw [found, Option.some.injEq] at found'
  subst found'
  exact filled (formula ▸ plain)

/-- What every edit of the grid in place comes to. -/
theorem keeps_of_recalcFlush (base edited result : EratSheet) (key : Str) (mirror : Mirror base)
    (done : recalcFlush rt edited = some result)
    (active : edited.activeSheet = base.activeSheet)
    (tabs : edited.sheets.length = base.sheets.length)
    (same : Unchanged base.cells[key]? edited.cells[key]?) :
    Unchanged base.cells[key]? (result.tabCells base.activeSheet)[key]? ∧
      Unchanged base.cells[key]? result.cells[key]? := by
  obtain ⟨pass, shape⟩ := recalcFlush_spec edited result done
  have inside := mirror.1
  have mirrored := mirror_recalcFlush edited result (by omega) done
  have still : result.activeSheet = base.activeSheet := by
    rw [shape, flushActiveToTab_activeSheet _ (by dsimp only; omega)]
    exact active
  have kept := same.trans (unchanged_recalcCells edited.cells result.cells pass key)
  rw [← still, ← mirrored.2]
  exact ⟨kept, kept⟩

/-- A key that protection covers is not the key of an address that the check lets through. -/
theorem covered_ne (lawful : rt.Lawful) (sheet : EratSheet) (key addr : Str)
    (open_ : sheet.isActiveProtected = false) (covered : Covered rt sheet key)
    (free : sheet.addrInProtectedRange rt addr = false) : key ≠ rt.upper addr := by
  rintro rfl
  rcases covered with whole | inside
  · rw [open_] at whole
    cases whole
  · unfold EratSheet.addrInProtectedRange at inside free
    rw [parseAddr_upper lawful, free] at inside
    cases inside

theorem getElem?_insert_ne (cells : StrMap Cell) (key other : Str) (cell : Cell)
    (apart : other ≠ key) : (cells.insert key cell)[other]? = cells[other]? := by
  rw [Std.ExtTreeMap.getElem?_insert]
  simp [Ne.symm apart]

theorem getElem?_erase_ne (cells : StrMap Cell) (key other : Str) (apart : other ≠ key) :
    (cells.erase key)[other]? = cells[other]? := by
  rw [Std.ExtTreeMap.getElem?_erase]
  simp [Ne.symm apart]

/-- Showing a tab without a flush leaves every tab as it is. -/
theorem keeps_of_recalc (base shown result : EratSheet) (key : Str) (tab : Nat)
    (mirror : Mirror shown) (tabs : shown.tabCells tab = base.cells)
    (done : recalc rt shown = some result) :
    Unchanged base.cells[key]? (result.tabCells tab)[key]? ∧
      (result.activeSheet = tab → Unchanged base.cells[key]? result.cells[key]?) := by
  obtain ⟨pass, shape⟩ := recalc_spec shown result done
  have tabsSame : result.tabCells tab = shown.tabCells tab := by
    rw [shape]
    rfl
  have activeSame : result.activeSheet = shown.activeSheet := by rw [shape]
  rw [tabsSame, tabs, activeSame]
  refine ⟨Unchanged.refl _, ?_⟩
  intro still
  have cells : shown.cells = base.cells := by rw [mirror.2, still, tabs]
  rw [← cells]
  exact unchanged_recalcCells shown.cells result.cells pass key

/-- Editing a tab's other fields changes no cell. -/
theorem keeps_of_editTab (base : EratSheet) (mirror : Mirror base) (i : Nat)
    (edit : SheetTab → SheetTab) (same : ∀ tab, (edit tab).cells = tab.cells) (key : Str) :
    Unchanged base.cells[key]? ((base.editTab i edit).tabCells base.activeSheet)[key]? ∧
      ((base.editTab i edit).activeSheet = base.activeSheet →
        Unchanged base.cells[key]? (base.editTab i edit).cells[key]?) := by
  rw [tabCells_editTab_of_cells base i _ edit same, ← mirror.2]
  exact ⟨Unchanged.refl _, fun _ => Unchanged.refl _⟩

theorem switchSheet_tabCells (sheet : EratSheet) (mirror : Mirror sheet) (index i : Nat) :
    (sheet.switchSheet index).tabCells i = sheet.tabCells i := by
  unfold EratSheet.switchSheet
  dsimp only
  rw [normalizeTabs_of_mirror sheet mirror, flushActiveToTab_of_mirror sheet mirror]
  split
  · rfl
  · rename_i inside
    rw [syncActiveFromTab_of_tabs _ (by dsimp only; omega)]
    simp [EratSheet.tabCells]

theorem addSheet_tabCells (sheet : EratSheet) (mirror : Mirror sheet) (name : Str) (i : Nat)
    (inside : i < sheet.sheets.length) : (sheet.addSheet name).tabCells i = sheet.tabCells i := by
  unfold EratSheet.addSheet
  dsimp only
  rw [normalizeTabs_of_mirror sheet mirror, flushActiveToTab_of_mirror sheet mirror,
    syncActiveFromTab_of_tabs _ (by simp)]
  simp [EratSheet.tabCells, List.getElem?_append_left inside]

theorem reorderSheet_tabCells (sheet : EratSheet) (mirror : Mirror sheet) (from_ to_ : Nat) :
    (sheet.reorderSheet from_ to_).tabCells (tabAfter sheet (.reorderSheet from_ to_)) =
      sheet.cells := by
  unfold EratSheet.reorderSheet tabAfter
  dsimp only
  rw [normalizeTabs_of_mirror sheet mirror, flushActiveToTab_of_mirror sheet mirror]
  by_cases still : from_ ≥ sheet.sheets.length ∨ to_ ≥ sheet.sheets.length ∨ from_ = to_
  · rw [if_pos still, if_pos still]
    exact mirror.2.symm
  rw [if_neg still, if_neg still]
  simp only [not_or, Nat.not_le] at still
  obtain ⟨source, target, -⟩ := still
  have found := List.getElem?_eq_getElem source
  have size := length_moved sheet.sheets from_ to_ sheet.sheets[from_] source target
  rw [found]
  dsimp only
  rw [syncActiveFromTab_of_tabs _ (by dsimp only; omega), EratSheet.tabCells]
  dsimp only
  rw [clampActive_sheets, getElem?_moved _ _ _ _ _ found target mirror.1]
  exact mirror.2.symm

/-- A cell setter that writes one key and keeps both copies together. -/
theorem keeps_of_putCell (base : EratSheet) (mirror : Mirror base) (key other : Str) (cell : Cell)
    (apart : other ≠ key) :
    Unchanged base.cells[other]?
        ((base.putCell key cell).flushActiveToTab.tabCells base.activeSheet)[other]? ∧
      Unchanged base.cells[other]? (base.putCell key cell).flushActiveToTab.cells[other]? := by
  have inside := mirror.1
  have length := putCell_length base key cell
  have active : (base.putCell key cell).activeSheet = base.activeSheet := rfl
  have mirrored := mirror_flushActiveToTab (base.putCell key cell) (by omega)
  have still : (base.putCell key cell).flushActiveToTab.activeSheet = base.activeSheet := by
    rw [flushActiveToTab_activeSheet _ (by omega), active]
  have cells : (base.putCell key cell).flushActiveToTab.cells[other]? = base.cells[other]? := by
    rw [flushActiveToTab_cells]
    exact getElem?_insert_ne base.cells key other cell apart
  have tab := mirrored.2
  rw [still] at tab
  rw [← tab, cells]
  exact ⟨Unchanged.refl _, Unchanged.refl _⟩

/-- The ops that name an address. -/
def namedAddr : SheetOp → Option Str
  | .setCell addr _ _ | .clearCell addr | .setFormat addr _ | .setCellStyle addr _ => some addr
  | _ => none

theorem unblocked_named (sheet : EratSheet) (op : SheetOp) (addr : Str)
    (named : namedAddr op = some addr) (free : blockedByProtect rt sheet op = false) :
    sheet.isActiveProtected = false ∧ sheet.addrInProtectedRange rt addr = false := by
  unfold blockedByProtect at free
  by_cases whole : sheet.isActiveProtected = true
  · rw [if_pos whole] at free
    cases op <;> simp [namedAddr] at named free
  · rw [if_neg whole] at free
    refine ⟨by simpa using whole, ?_⟩
    cases op with
    | setCell a _ _ | clearCell a | setFormat a _ | setCellStyle a _ =>
        simp only [namedAddr, Option.some.injEq] at named
        subst named
        exact free
    | _ => simp [namedAddr] at named

/-- Ops that move no cells keep what protection covers. -/
theorem keepsCovered_of_not_moves (lawful : rt.Lawful) (sheet result : EratSheet) (op : SheetOp)
    (still : ¬ MovesCells op) (free : blockedByProtect rt sheet op = false)
    (done : applyOp rt sheet op = some result) : KeepsCovered rt sheet op result := by
  intro key covered
  have mirror := mirror_normalizeTabs sheet
  have normal := normalizeTabs_of_mirror _ mirror
  have apart (addr : Str) (named : namedAddr op = some addr) : key ≠ rt.upper addr := by
    obtain ⟨open_, free⟩ := unblocked_named sheet op addr named free
    exact covered_ne lawful sheet key addr open_ covered free
  -- A structural op whose argument is 0 only recalculates.
  have idle (pass : recalcFlush rt sheet.normalizeTabs = some result) :
      Unchanged sheet.normalizeTabs.cells[key]?
          (result.tabCells sheet.normalizeTabs.activeSheet)[key]? ∧
        (result.activeSheet = sheet.normalizeTabs.activeSheet →
          Unchanged sheet.normalizeTabs.cells[key]? result.cells[key]?) := by
    obtain ⟨tab, top⟩ := keeps_of_recalcFlush _ _ result key mirror pass rfl rfl (Unchanged.refl _)
    exact ⟨tab, fun _ => top⟩
  generalize hbase : sheet.normalizeTabs = base at *
  cases op with
  | setCell addr value formula =>
      simp only [applyOp, hbase, EratSheet.setCell, normal] at done
      obtain ⟨tab, top⟩ := keeps_of_recalcFlush base _ result key mirror done rfl
        (putCell_length _ _ _) (by
          rw [EratSheet.putCell, editTab_cells, getElem?_insert_ne _ _ _ _ (apart addr rfl)]
          exact Unchanged.refl _)
      exact ⟨tab, fun _ => top⟩
  | clearCell addr =>
      simp only [applyOp, hbase, EratSheet.clearCell, normal] at done
      obtain ⟨tab, top⟩ := keeps_of_recalcFlush base _ result key mirror done rfl
        (editTab_length _ _ _) (by
          rw [editTab_cells, getElem?_erase_ne _ _ _ (apart addr rfl)]
          exact Unchanged.refl _)
      exact ⟨tab, fun _ => top⟩
  | setFormat addr format =>
      simp only [applyOp, hbase, EratSheet.setCellFormat, normal, Option.some.injEq] at done
      subst done
      obtain ⟨tab, top⟩ := keeps_of_putCell base mirror (rt.upper addr) key _ (apart addr rfl)
      exact ⟨tab, fun _ => top⟩
  | setCellStyle addr style =>
      simp only [applyOp, hbase, EratSheet.setCellStyle, normal, Option.some.injEq] at done
      subst done
      obtain ⟨tab, top⟩ := keeps_of_putCell base mirror (rt.upper addr) key _ (apart addr rfl)
      exact ⟨tab, fun _ => top⟩
  | switchSheet index =>
      simp only [applyOp, hbase] at done
      exact keeps_of_recalc base _ result key _ (switchSheet_of_mirror base mirror index).1
        ((switchSheet_tabCells base mirror index _).trans mirror.2.symm) done
  | addSheet name =>
      simp only [applyOp, hbase] at done
      exact keeps_of_recalc base _ result key _ (addSheet_of_mirror base mirror _).1
        ((addSheet_tabCells base mirror _ _ mirror.1).trans mirror.2.symm) done
  | reorderSheet from_ to_ =>
      simp only [applyOp, hbase] at done
      exact keeps_of_recalc base _ result key _ (reorderSheet_of_mirror base mirror from_ to_).1
        (reorderSheet_tabCells base mirror from_ to_) done
  | renameSheet index name =>
      simp only [applyOp, hbase, EratSheet.renameSheet, normal, Option.some.injEq] at done
      subst done
      refine keeps_of_editTab base mirror index _ ?_ key
      exact fun _ => rfl
  | insertRow n =>
      have zero : n = 0 := not_not.mp still
      simp only [applyOp, hbase, EratSheet.insertRow, normal, zero, ↓reduceIte] at done
      exact idle done
  | deleteRow n =>
      have zero : n = 0 := not_not.mp still
      simp only [applyOp, hbase, EratSheet.deleteRow, normal, zero, ↓reduceIte] at done
      exact idle done
  | insertCol n =>
      have zero : n = 0 := not_not.mp still
      simp only [applyOp, hbase, EratSheet.insertCol, normal, zero, ↓reduceIte] at done
      exact idle done
  | deleteCol n =>
      have zero : n = 0 := not_not.mp still
      simp only [applyOp, hbase, EratSheet.deleteCol, normal, zero, ↓reduceIte] at done
      exact idle done
  | sortRange n ascending =>
      have zero : n = 0 := not_not.mp still
      simp only [applyOp, hbase, EratSheet.sortRowsByCol, normal, zero, ↓reduceIte] at done
      exact idle done
  | _ =>
      simp only [applyOp, hbase, EratSheet.setSheetProtected, EratSheet.setFreezePanes,
        EratSheet.setMerges, EratSheet.setProtectedRanges, EratSheet.editActive, normal,
        Option.some.injEq] at done
      subst done
      refine keeps_of_editTab base mirror _ _ ?_ key
      exact fun _ => rfl

section Moved

/-- A second spelling of an address, with a leading zero before the row. -/
def aliasAddr (col row : UInt32) : Str := columnLetters col ++ '0' :: Nat.toDigits 10 row.toNat

theorem aliasAddr_shape (lawful : rt.Lawful) (col row : UInt32) :
    rt.upper (aliasAddr col row) = aliasAddr col row ∧
      (aliasAddr col row).takeWhile Char.isAlpha = columnLetters col ∧
      (aliasAddr col row).dropWhile Char.isAlpha = '0' :: Nat.toDigits 10 row.toNat := by
  apply letters_digits_shape lawful
  intro c member
  rcases List.mem_cons.mp member with rfl | member
  · rfl
  · exact Nat.isDigit_of_mem_toDigits (by decide) (by decide) member

theorem parseU32_alias (row : UInt32) :
    parseU32 ('0' :: Nat.toDigits 10 row.toNat) = some row := by
  have small : row.toNat < 2 ^ 32 := UInt32.toNat_lt row
  have digits : ('0' :: Nat.toDigits 10 row.toNat).all Char.isDigit = true := by
    rw [List.all_eq_true]
    intro c member
    rcases List.mem_cons.mp member with rfl | member
    · rfl
    · exact Nat.isDigit_of_mem_toDigits (by decide) (by decide) member
  have leading : parseDigits ('0' :: Nat.toDigits 10 row.toNat) = some row.toNat := by
    unfold parseDigits
    rw [if_neg (by simp), if_pos digits, Nat.ofDigitChars_cons]
    exact congrArg some Nat.ofDigitChars_ten_toDigits
  have signless : dropPlus ('0' :: Nat.toDigits 10 row.toNat) = '0' :: Nat.toDigits 10 row.toNat :=
    rfl
  simp only [parseU32, signless, leading, small, ↓reduceIte, UInt32.ofNat_toNat]

theorem parseAddr_alias (lawful : rt.Lawful) (col row : UInt32) (hcol : col ≠ 0) (hrow : row ≠ 0) :
    parseAddr rt (aliasAddr col row) = some (col, row) := by
  obtain ⟨fixed, front, back⟩ := aliasAddr_shape lawful col row
  simp only [parseAddr, fixed, front, back, columnNumber_letters, parseU32_alias, hcol, hrow,
    or_self, ↓reduceIte]

/-- The second spelling is never the one that is printed. -/
theorem aliasAddr_ne_addrOf (lawful : rt.Lawful) (col row col' row' : UInt32) :
    aliasAddr col row ≠ addrOf col' row' := by
  intro same
  obtain ⟨-, -, back⟩ := aliasAddr_shape lawful col row
  obtain ⟨-, -, back'⟩ := addrOf_shape lawful col' row'
  rw [same, back'] at back
  have rows : parseU32 (Nat.toDigits 10 row'.toNat) = some row := by
    rw [back, parseU32_alias]
  rw [parseU32_toDigits, Option.some.injEq] at rows
  rw [rows] at back
  have length := congrArg List.length back
  simp at length

theorem moveOf_plain (op : SheetOp) (key : Str) (cell : Cell) (moved : Str × Cell)
    (plain : cell.formula = []) (move : moveOf rt op key cell = some moved) : moved.2 = cell := by
  have still (row : UInt32) (delta : Int) : shiftCell cell row delta = cell := by
    rw [shiftCell, plain]
    rfl
  cases op with
  | insertRow n | insertCol n | deleteRow n | deleteCol n =>
      simp only [moveOf, insertRowCell, insertColCell, deleteRowCell, deleteColCell, still] at move
      split at move
      · simp only [Option.ite_none_left_eq_some, Option.some.injEq] at move
        grind
      · cases move
        rfl
  | _ =>
      simp only [moveOf, Option.map_eq_some_iff] at move
      obtain ⟨k, -, rfl⟩ := move
      rfl

theorem mem_sortCells (lawful : rt.Lawful) (cells : StrMap Cell) (col : UInt32) (ascending : Bool)
    (entry : Str × Cell) (member : entry ∈ (sortCells rt cells col ascending).toList) :
    (∃ c r, entry.1 = addrOf c r) ∧ ∃ old, (old, entry.2) ∈ cells.toList := by
  rw [sortCells_eq] at member
  have written := mem_of_mem_toList_ofList _ _ member
  simp only [writeRows, List.mem_flatMap, List.mem_map] at written
  obtain ⟨_, ⟨row, listed, rfl⟩, placed, inRow, rfl⟩ := written
  refine ⟨⟨_, _, rfl⟩, ?_⟩
  have sorted : row.1 ∈ sortedRows rt cells col ascending := List.fst_mem_of_mem_zipIdx listed
  rw [sortedRows, List.mem_mergeSort, List.mem_map] at sorted
  obtain ⟨r, -, same⟩ := sorted
  rw [← same, Std.ExtTreeMap.mem_toList_iff_getElem?_eq_some, rowCells_getElem? lawful,
    canonicalCells, rebuild_eq_ofList, ← Std.ExtTreeMap.mem_toList_iff_getElem?_eq_some] at inRow
  have source := mem_of_mem_toList_ofList _ _ inRow
  simp only [List.mem_filterMap, Option.map_eq_some_iff] at source
  obtain ⟨old, member, position, -, same⟩ := source
  exact ⟨old.1, by rw [← (Prod.mk.inj same).2]; exact member⟩

/-- What is in the tab after cells were moved: known cells under printed addresses. -/
theorem moved_mem (lawful : rt.Lawful) (cells : StrMap Cell) (op : SheetOp) (moves : MovesCells op)
    (parsed : ∀ entry ∈ cells.toList, (parseAddr rt entry.1).isSome = true)
    (plain : ∀ entry ∈ cells.toList, entry.2.formula = []) (filled : maxRow rt cells ≠ 0)
    (entry : Str × Cell) (member : entry ∈ (structuralCells rt cells op).toList) :
    (∃ col row, entry.1 = addrOf col row) ∧ entry.2.formula = [] := by
  have rebuilt (inside : entry ∈ (rebuild (moveOf rt op) cells).toList) :
      (∃ col row, entry.1 = addrOf col row) ∧ entry.2.formula = [] := by
    rw [rebuild_eq_ofList] at inside
    have written := mem_of_mem_toList_ofList _ _ inside
    obtain ⟨old, listed, move⟩ := List.mem_filterMap.mp written
    obtain ⟨position, found⟩ := Option.isSome_iff_exists.mp (parsed old listed)
    have key : (moveOf rt op old.1 old.2).map (fun e => (e.1, payload e.2)) = _ :=
      moveOf_spec op old.1 old.2
    rw [move] at key
    simp only [Option.map_some, newKey, found, Option.map_map] at key
    obtain ⟨target, -, same⟩ := Option.map_eq_some_iff.mp key.symm
    refine ⟨⟨target.1, target.2, (Prod.mk.inj same).1.symm⟩, ?_⟩
    rw [moveOf_plain op old.1 old.2 entry (plain old listed) move]
    exact plain old listed
  cases op with
  | insertRow n | deleteRow n | insertCol n | deleteCol n =>
      rw [structuralCells, if_neg moves] at member
      exact rebuilt member
  | sortRange n ascending =>
      rw [structuralCells, if_neg (not_or.mpr ⟨moves, filled⟩)] at member
      obtain ⟨address, old, listed⟩ := mem_sortCells lawful cells n ascending entry member
      exact ⟨address, plain (old, entry.2) listed⟩
  | _ => exact absurd moves id

end Moved

/-- A sheet with the given protected ranges and one cell without a formula. -/
def guardedSheet (ranges : List Str) (key : Str) : EratSheet :=
  { EratSheet.empty with
    cells := Std.ExtTreeMap.ofList [(key, {})] compare
    sheets := [{ name := "Sheet1".toList, cells := Std.ExtTreeMap.ofList [(key, {})] compare
                 protectedRanges := ranges }]
    activeSheet := 0 }

theorem corner_inRange (start stop : UInt32 × UInt32) (range : Str)
    (parsed : parseA1Range rt range = some (start, stop)) : inRange rt start range = true := by
  rw [inRange, parsed]
  simp only [UInt32.min_def, UInt32.max_def, UInt32.le_iff_toNat_le, decide_eq_true_eq, ge_iff_le]
  refine ⟨?_, ?_, ?_, ?_⟩ <;> split <;> omega

theorem parseA1Range_start (range : Str) (start stop : UInt32 × UInt32)
    (parsed : parseA1Range rt range = some (start, stop)) : start.1 ≠ 0 ∧ start.2 ≠ 0 := by
  unfold parseA1Range at parsed
  dsimp only at parsed
  split at parsed
  · rename_i first last
    cases parsed
    exact parseAddr_ne_zero _ _ first
  · cases parsed

theorem recalcFlush_plain (sheet : EratSheet) (mirror : Mirror sheet)
    (plain : ∀ entry ∈ sheet.cells.toList, entry.2.formula = []) :
    recalcFlush rt sheet = some sheet := by
  have fresh : Fresh rt sheet.cells := fun entry member filled => absurd (plain entry member) filled
  have pass := (recalcCells_eq_self_iff sheet.cells).mpr fresh
  unfold recalcFlush recalc
  rw [pass]
  exact congrArg some (flushActiveToTab_of_mirror sheet mirror)

theorem blocked_of_moves (sheet : EratSheet) (op : SheetOp) (moves : MovesCells op)
    (locked : sheet.isActiveProtected = true) : blockedByProtect rt sheet op = true := by
  unfold blockedByProtect
  rw [if_pos locked]
  cases op with
  | insertRow | deleteRow | insertCol | deleteCol | sortRange => rfl
  | _ => exact absurd moves id

theorem not_blocked_of_moves (sheet : EratSheet) (op : SheetOp) (moves : MovesCells op)
    (unlocked : sheet.isActiveProtected = false) : blockedByProtect rt sheet op = false := by
  unfold blockedByProtect
  rw [if_neg (by simp [unlocked])]
  cases op with
  | insertRow | deleteRow | insertCol | deleteCol | sortRange => rfl
  | _ => exact absurd moves id

/-- Moving cells moves a cell of a protected range, whatever the range is. -/
theorem moves_break (lawful : rt.Lawful) (op : SheetOp) (moves : MovesCells op)
    (ranges : List Str) (range : Str) (member : range ∈ ranges)
    (valid : parseA1Range rt range ≠ none) :
    ∃ sheet result : EratSheet, sheet.isActiveProtected = false ∧
      sheet.activeProtectedRanges = ranges ∧ blockedByProtect rt sheet op = false ∧
      applyOp rt sheet op = some result ∧ ¬ KeepsCovered rt sheet op result := by
  obtain ⟨⟨start, stop⟩, parsed⟩ := Option.ne_none_iff_exists'.mp valid
  obtain ⟨col, row⟩ := parseA1Range_start range start stop parsed
  have address := parseAddr_alias lawful start.1 start.2 col row
  generalize hkey : aliasAddr start.1 start.2 = key at address
  have mirror : Mirror (guardedSheet ranges key) := ⟨Nat.zero_lt_one, rfl⟩
  have normal := normalizeTabs_of_mirror _ mirror
  have only : ∀ entry ∈ (guardedSheet ranges key).cells.toList, entry = (key, {}) := by
    intro entry listed
    have written : entry ∈ [(key, ({} : Cell))] := mem_of_mem_toList_ofList _ _ listed
    exact List.mem_singleton.mp written
  have present : (guardedSheet ranges key).cells[key]? = some {} := by
    simp [guardedSheet, Std.ExtTreeMap.ofList_singleton]
  have filled : maxRow rt (guardedSheet ranges key).cells ≠ 0 := by
    intro zero
    have unread := (maxRow_eq_zero_iff _).mp zero key
      ((mem_keys_iff _ key).mpr ⟨{}, Std.ExtTreeMap.mem_toList_iff_getElem?_eq_some.mpr present⟩)
    rw [address] at unread
    cases unread
  have covered : Covered rt (guardedSheet ranges key) key := by
    refine Or.inr ?_
    rw [EratSheet.addrInProtectedRange, address]
    exact List.any_eq_true.mpr ⟨range, member, corner_inRange start stop range parsed⟩
  have edit : ∃ edited, structural rt (guardedSheet ranges key) op = some edited := by
    cases op with
    | insertRow | deleteRow | insertCol | deleteCol | sortRange => exact ⟨_, rfl⟩
    | _ => exact absurd moves id
  obtain ⟨edited, edit⟩ := edit
  obtain ⟨cells, mirrored, active⟩ := structural_spec _ edited op edit
  rw [normal] at cells active
  have after := moved_mem lawful (guardedSheet ranges key).cells op moves
    (by
      intro entry listed
      rw [only entry listed, address]
      rfl)
    (by
      intro entry listed
      rw [only entry listed]) filled
  rw [← cells] at after
  refine ⟨guardedSheet ranges key, edited, rfl, rfl, not_blocked_of_moves _ op moves rfl, ?_, ?_⟩
  · rw [applyOp_structural _ edited op edit]
    exact recalcFlush_plain edited mirrored fun entry listed => (after entry listed).2
  · intro keeps
    have still : tabAfter (guardedSheet ranges key) op = (guardedSheet ranges key).activeSheet := by
      cases op with
      | reorderSheet => exact absurd moves id
      | _ => rfl
    have top := (keeps key covered).2
    rw [normal, still] at top
    obtain ⟨shape, -⟩ := top active
    rw [present, Option.map_some, eq_comm, Option.map_eq_some_iff] at shape
    obtain ⟨cell, found, -⟩ := shape
    obtain ⟨⟨c, r, printed⟩, -⟩ :=
      after (key, cell) (Std.ExtTreeMap.mem_toList_iff_getElem?_eq_some.mpr found)
    exact aliasAddr_ne_addrOf lawful start.1 start.2 c r (hkey.trans printed)

/-- Given the protection of the active tab and an op, every op that is let through keeps what is
covered on every sheet exactly when the op moves no cells, or the whole tab is protected, or no
protected range can be read. -/
theorem protection_effective_iff (lawful : rt.Lawful) (op : SheetOp) (isProtected : Bool)
    (ranges : List Str) :
    (∀ sheet result : EratSheet, sheet.isActiveProtected = isProtected →
      sheet.activeProtectedRanges = ranges → blockedByProtect rt sheet op = false →
      applyOp rt sheet op = some result → KeepsCovered rt sheet op result) ↔
      (MovesCells op → isProtected = true ∨ ∀ range ∈ ranges, parseA1Range rt range = none) := by
  constructor
  · intro keeps moves
    by_contra unguarded
    simp only [not_or, not_forall, Bool.not_eq_true] at unguarded
    obtain ⟨open_, range, member, valid⟩ := unguarded
    obtain ⟨sheet, result, unprotected, same, free, done, broken⟩ :=
      moves_break lawful op moves ranges range member valid
    exact broken (keeps sheet result (unprotected.trans open_.symm) same free done)
  · intro guarded sheet result whole same free done
    by_cases moves : MovesCells op
    · have unblocked : isProtected = false := by
        by_contra locked
        rw [blocked_of_moves sheet op moves (by simpa [whole] using locked)] at free
        cases free
      intro key covered
      rcases covered with all | inside
      · rw [whole, unblocked] at all
        cases all
      · have unread := (guarded moves).resolve_left (by simp [unblocked])
        rw [EratSheet.addrInProtectedRange, same] at inside
        split at inside
        · obtain ⟨range, member, found⟩ := List.any_eq_true.mp inside
          rw [inRange, unread range member] at found
          cases found
        · cases inside
    · exact keepsCovered_of_not_moves lawful sheet result op moves free done

/-- Setting the cell beside a protected one. -/
theorem protection_effective_beside :
    KeepsCovered Runtime.plain (guardedSheet ["A1:A1".toList] "A1".toList)
      (.setCell "B1".toList "5".toList [])
      ((applyOp Runtime.plain (guardedSheet ["A1:A1".toList] "A1".toList)
        (.setCell "B1".toList "5".toList [])).get (by decide)) :=
  (protection_effective_iff Runtime.plain_lawful (.setCell "B1".toList "5".toList []) false
    ["A1:A1".toList]).mpr (fun moves => absurd moves id) _ _ rfl rfl (by decide)
    (Option.some_get _).symm

/-- Inserting a row moves the protected cell. -/
theorem insertRow_moves_protected :
    ¬ ∀ (rt : Runtime) (sheet result : EratSheet) (op : SheetOp), rt.Lawful →
      (∀ isProtected, op ≠ .protectSheet isProtected) →
      (∀ ranges, op ≠ .setProtectedRanges ranges) → blockedByProtect rt sheet op = false →
      applyOp rt sheet op = some result → KeepsCovered rt sheet op result := by
  intro all
  have kept := all Runtime.plain (guardedSheet ["A1:A1".toList] "A1".toList)
    ((applyOp Runtime.plain (guardedSheet ["A1:A1".toList] "A1".toList) (.insertRow 1)).get
      (by decide)) (.insertRow 1) Runtime.plain_lawful (by simp) (by simp) (by decide)
    (Option.some_get _).symm "A1".toList (Or.inr (by decide))
  have tab := kept.1
  revert tab
  decide

end EraOne.Tables
