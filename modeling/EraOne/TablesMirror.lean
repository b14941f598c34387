import EraOne.TablesRecalc
import EraOne.Runs

set_option autoImplicit false

/- The two copies of the active tab's cells. Most ops end by copying the recalculated cells into
the tab; switching, adding and reordering tabs recalculate after their last copy. -/
namespace EraOne.Tables

open Runs EratSheet

/-- The active index is a tab, and the top-level cells are that tab's cells. -/
def Mirror (sheet : EratSheet) : Prop :=
  sheet.activeSheet < sheet.sheets.length ∧ sheet.cells = sheet.tabCells sheet.activeSheet

instance (sheet : EratSheet) : Decidable (Mirror sheet) :=
  inferInstanceAs (Decidable (_ ∧ _))

theorem tabCells_editTab (sheet : EratSheet) (i j : Nat) (edit : SheetTab → SheetTab) :
    (sheet.editTab i edit).tabCells j =
      if i = j then (sheet.sheets[j]?.map fun tab => (edit tab).cells).getD ∅
      else sheet.tabCells j := by
  simp only [EratSheet.tabCells, EratSheet.editTab, List.getElem?_modify]
  split
  · cases sheet.sheets[j]? <;> rfl
  · cases sheet.sheets[j]? <;> rfl

/-- Edits of a tab's other fields leave all cells alone. -/
theorem tabCells_editTab_of_cells (sheet : EratSheet) (i j : Nat) (edit : SheetTab → SheetTab)
    (same : ∀ tab, (edit tab).cells = tab.cells) :
    (sheet.editTab i edit).tabCells j = sheet.tabCells j := by
  rw [tabCells_editTab]
  simp only [same, EratSheet.tabCells, ite_self]

@[simp] theorem editTab_length (sheet : EratSheet) (i : Nat) (edit : SheetTab → SheetTab) :
    (sheet.editTab i edit).sheets.length = sheet.sheets.length := by
  simp [EratSheet.editTab]

@[simp] theorem editTab_cells (sheet : EratSheet) (i : Nat) (edit : SheetTab → SheetTab) :
    (sheet.editTab i edit).cells = sheet.cells := rfl

@[simp] theorem editTab_activeSheet (sheet : EratSheet) (i : Nat) (edit : SheetTab → SheetTab) :
    (sheet.editTab i edit).activeSheet = sheet.activeSheet := rfl

theorem clampActive_lt (sheet : EratSheet) (tabs : 0 < sheet.sheets.length) :
    sheet.clampActive.activeSheet < sheet.clampActive.sheets.length := by
  unfold EratSheet.clampActive
  split
  · exact tabs
  · omega

@[simp] theorem clampActive_sheets (sheet : EratSheet) :
    sheet.clampActive.sheets = sheet.sheets := by
  unfold EratSheet.clampActive
  split <;> rfl

@[simp] theorem clampActive_cells (sheet : EratSheet) : sheet.clampActive.cells = sheet.cells := by
  unfold EratSheet.clampActive
  split <;> rfl

theorem clampActive_of_lt (sheet : EratSheet) (inside : sheet.activeSheet < sheet.sheets.length) :
    sheet.clampActive = sheet := by
  unfold EratSheet.clampActive
  rw [if_neg (by omega)]

theorem syncActiveFromTab_of_tabs (sheet : EratSheet) (tabs : 0 < sheet.sheets.length) :
    sheet.syncActiveFromTab = { sheet.clampActive with
      cells := sheet.clampActive.tabCells sheet.clampActive.activeSheet } := by
  unfold EratSheet.syncActiveFromTab
  rw [if_neg (by simpa using List.ne_nil_of_length_pos tabs)]

theorem flushActiveToTab_of_tabs (sheet : EratSheet) (tabs : 0 < sheet.sheets.length) :
    sheet.flushActiveToTab = sheet.clampActive.editTab sheet.clampActive.activeSheet
      fun tab => { tab with cells := sheet.clampActive.cells } := by
  unfold EratSheet.flushActiveToTab
  rw [if_neg (by simpa using List.ne_nil_of_length_pos tabs)]

theorem mirror_syncActiveFromTab (sheet : EratSheet) (tabs : 0 < sheet.sheets.length) :
    Mirror sheet.syncActiveFromTab := by
  rw [syncActiveFromTab_of_tabs sheet tabs]
  exact ⟨clampActive_lt sheet tabs, rfl⟩

theorem mirror_flushActiveToTab (sheet : EratSheet) (tabs : 0 < sheet.sheets.length) :
    Mirror sheet.flushActiveToTab := by
  have inside := clampActive_lt sheet tabs
  rw [flushActiveToTab_of_tabs sheet tabs]
  refine ⟨by simpa using inside, ?_⟩
  rw [editTab_activeSheet, tabCells_editTab, if_pos rfl, List.getElem?_eq_getElem inside]
  rfl

theorem ensureTab_tabs (sheet : EratSheet) : 0 < sheet.ensureTab.sheets.length := by
  unfold EratSheet.ensureTab
  split
  · simp
  · rename_i nonempty
    exact List.length_pos_of_ne_nil (by simpa using nonempty)

@[simp] theorem seedTab_length (sheet : EratSheet) :
    sheet.seedTab.sheets.length = sheet.sheets.length := by
  unfold EratSheet.seedTab
  split
  · exact editTab_length sheet _ _
  · rfl

theorem mirror_normalizeTabs (sheet : EratSheet) : Mirror sheet.normalizeTabs := by
  have tabs := ensureTab_tabs sheet
  unfold EratSheet.normalizeTabs
  exact mirror_syncActiveFromTab _ (by simpa using tabs)

/-- Normalising does nothing to mirrored cells. -/
theorem normalizeTabs_of_mirror (sheet : EratSheet) (mirror : Mirror sheet) :
    sheet.normalizeTabs = sheet := by
  obtain ⟨inside, same⟩ := mirror
  have tabs : 0 < sheet.sheets.length := by omega
  have ensured : sheet.ensureTab = sheet := by
    unfold EratSheet.ensureTab
    rw [if_neg (by simpa using List.ne_nil_of_length_pos tabs)]
  have seeded : sheet.seedTab = sheet := by
    unfold EratSheet.seedTab
    rw [if_neg (by rw [← same]; simp)]
  unfold EratSheet.normalizeTabs
  rw [ensured, clampActive_of_lt sheet inside, seeded, syncActiveFromTab_of_tabs sheet tabs,
    clampActive_of_lt sheet inside, ← same]

theorem flushActiveToTab_activeSheet (sheet : EratSheet)
    (inside : sheet.activeSheet < sheet.sheets.length) :
    sheet.flushActiveToTab.activeSheet = sheet.activeSheet := by
  rw [flushActiveToTab_of_tabs sheet (by omega), clampActive_of_lt sheet inside,
    editTab_activeSheet]

theorem flushActiveToTab_of_mirror (sheet : EratSheet) (mirror : Mirror sheet) :
    sheet.flushActiveToTab = sheet := by
  obtain ⟨inside, same⟩ := mirror
  rw [flushActiveToTab_of_tabs sheet (by omega), clampActive_of_lt sheet inside]
  unfold EratSheet.editTab
  have tab : sheet.sheets.modify sheet.activeSheet (fun tab => { tab with cells := sheet.cells }) =
      sheet.sheets := by
    apply List.ext_getElem?
    intro i
    rw [List.getElem?_modify]
    split
    · rename_i here
      subst here
      rw [same, EratSheet.tabCells, List.getElem?_eq_getElem inside]
      rfl
    · cases sheet.sheets[i]? <;> rfl
  rw [tab]

/-- Moving a tab takes every tab to its moved index. -/
theorem getElem?_moved {α : Type} (l : List α) (from_ to_ i : Nat) (a : α)
    (found : l[from_]? = some a) (target : to_ < l.length) (inside : i < l.length) :
    ((l.eraseIdx from_).insertIdx to_ a)[movedIndex from_ to_ i]? = l[i]? := by
  obtain ⟨source, rfl⟩ := List.getElem?_eq_some_iff.mp found
  have size := List.length_eraseIdx_of_lt source
  unfold movedIndex
  by_cases moved : i = from_
  · subst moved
    rw [if_pos rfl, List.getElem?_insertIdx_self, if_pos (by omega)]
    exact found.symm
  rw [if_neg moved]
  by_cases left : from_ < i ∧ to_ ≥ i
  · rw [if_pos left, List.getElem?_insertIdx_of_lt (by omega),
      List.getElem?_eraseIdx_of_ge (by omega), show i - 1 + 1 = i by omega]
  rw [if_neg left]
  by_cases right : from_ > i ∧ to_ ≤ i
  · rw [if_pos right, List.getElem?_insertIdx_of_gt (by omega), Nat.add_sub_cancel,
      List.getElem?_eraseIdx_of_lt (by omega)]
  rw [if_neg right]
  by_cases before : i < to_
  · rw [List.getElem?_insertIdx_of_lt before, List.getElem?_eraseIdx_of_lt (by omega)]
  · rw [List.getElem?_insertIdx_of_gt (by omega), List.getElem?_eraseIdx_of_ge (by omega),
      show i - 1 + 1 = i by omega]

theorem length_moved {α : Type} (l : List α) (from_ to_ : Nat) (a : α) (source : from_ < l.length)
    (target : to_ < l.length) : ((l.eraseIdx from_).insertIdx to_ a).length = l.length := by
  have size := List.length_eraseIdx_of_lt source
  rw [List.length_insertIdx_of_le_length (by omega)]
  omega

theorem movedIndex_lt (from_ to_ i n : Nat) (target : to_ < n) (source : from_ < n)
    (inside : i < n) : movedIndex from_ to_ i < n := by
  unfold movedIndex
  split
  · exact target
  · split
    · omega
    · split <;> omega

/-- Switching keeps the mirror and shows the cells of the tab switched to. -/
theorem switchSheet_of_mirror (sheet : EratSheet) (mirror : Mirror sheet) (index : Nat) :
    Mirror (sheet.switchSheet index) ∧ (sheet.switchSheet index).cells =
      if index < sheet.sheets.length then sheet.tabCells index else sheet.cells := by
  unfold EratSheet.switchSheet
  dsimp only
  rw [normalizeTabs_of_mirror sheet mirror, flushActiveToTab_of_mirror sheet mirror]
  by_cases outside : index ≥ sheet.sheets.length
  · rw [if_pos outside, if_neg (by omega)]
    exact ⟨mirror, rfl⟩
  · rw [if_neg outside, if_pos (by omega)]
    have inside : { sheet with activeSheet := index }.activeSheet < sheet.sheets.length := by
      dsimp only
      omega
    refine ⟨mirror_syncActiveFromTab _ (by dsimp only; omega), ?_⟩
    rw [syncActiveFromTab_of_tabs _ (by dsimp only; omega), clampActive_of_lt _ inside]
    rfl

theorem addSheet_of_mirror (sheet : EratSheet) (mirror : Mirror sheet) (name : Str) :
    Mirror (sheet.addSheet name) ∧ (sheet.addSheet name).cells = ∅ := by
  unfold EratSheet.addSheet
  dsimp only
  rw [normalizeTabs_of_mirror sheet mirror, flushActiveToTab_of_mirror sheet mirror]
  refine ⟨mirror_syncActiveFromTab _ (by simp), ?_⟩
  rw [syncActiveFromTab_of_tabs _ (by simp), clampActive_of_lt _ (by simp)]
  simp [EratSheet.tabCells]

/-- Reordering keeps the mirror and the tab that is shown. -/
theorem reorderSheet_of_mirror (sheet : EratSheet) (mirror : Mirror sheet) (from_ to_ : Nat) :
    Mirror (sheet.reorderSheet from_ to_) ∧
      (sheet.reorderSheet from_ to_).cells = sheet.cells := by
  unfold EratSheet.reorderSheet
  dsimp only
  rw [normalizeTabs_of_mirror sheet mirror, flushActiveToTab_of_mirror sheet mirror]
  by_cases still : from_ ≥ sheet.sheets.length ∨ to_ ≥ sheet.sheets.length ∨ from_ = to_
  · rw [if_pos still]
    exact ⟨mirror, rfl⟩
  rw [if_neg still]
  simp only [not_or, Nat.not_le] at still
  obtain ⟨source, target, -⟩ := still
  have found := List.getElem?_eq_getElem source
  rw [found]
  dsimp only
  have size := length_moved sheet.sheets from_ to_ sheet.sheets[from_] source target
  have inside := movedIndex_lt from_ to_ sheet.activeSheet _ target source mirror.1
  refine ⟨mirror_syncActiveFromTab _ (by dsimp only; omega), ?_⟩
  rw [syncActiveFromTab_of_tabs _ (by dsimp only; omega),
    clampActive_of_lt _ (by dsimp only; omega)]
  simp only [EratSheet.tabCells]
  rw [getElem?_moved _ _ _ _ _ found target mirror.1]
  exact mirror.2.symm

/-- Edits of the active tab's other fields keep the mirror. -/
theorem mirror_editTab (sheet : EratSheet) (mirror : Mirror sheet) (i : Nat)
    (edit : SheetTab → SheetTab) (same : ∀ tab, (edit tab).cells = tab.cells) :
    Mirror (sheet.editTab i edit) := by
  refine ⟨by simpa using mirror.1, ?_⟩
  rw [editTab_activeSheet, tabCells_editTab_of_cells sheet i _ edit same]
  exact mirror.2

theorem mirror_editActive (sheet : EratSheet) (mirror : Mirror sheet)
    (edit : SheetTab → SheetTab) (same : ∀ tab, (edit tab).cells = tab.cells) :
    Mirror (sheet.editActive edit) := by
  unfold EratSheet.editActive
  dsimp only
  rw [normalizeTabs_of_mirror sheet mirror]
  exact mirror_editTab sheet mirror _ edit same

variable {rt : Runtime}

/-- A recalculation without a flush keeps the mirror exactly on fresh cells. -/
theorem mirror_recalc_iff (sheet result : EratSheet) (mirror : Mirror sheet)
    (done : recalc rt sheet = some result) : Mirror result ↔ Fresh rt sheet.cells := by
  obtain ⟨pass, shape⟩ := recalc_spec sheet result done
  have tab : Mirror result ↔ result.cells = sheet.cells := by
    rw [shape]
    simp only [Mirror, mirror.2]
    exact and_iff_right mirror.1
  rw [tab, ← recalcCells_eq_self_iff, pass, Option.some.injEq]

theorem mirror_recalcFlush (sheet result : EratSheet) (tabs : 0 < sheet.sheets.length)
    (done : recalcFlush rt sheet = some result) : Mirror result := by
  rw [(recalcFlush_spec sheet result done).2]
  exact mirror_flushActiveToTab _ tabs

@[simp] theorem flushActiveToTab_length (sheet : EratSheet) :
    sheet.flushActiveToTab.sheets.length = sheet.sheets.length := by
  unfold EratSheet.flushActiveToTab
  split
  · rfl
  · simp

@[simp] theorem replaceCells_length (sheet : EratSheet) (cells : StrMap Cell) :
    (sheet.replaceCells cells).sheets.length = sheet.sheets.length := by
  simp [EratSheet.replaceCells]

@[simp] theorem putCell_length (sheet : EratSheet) (key : Str) (cell : Cell) :
    (sheet.putCell key cell).sheets.length = sheet.sheets.length := by
  simp [EratSheet.putCell]

theorem normalizeTabs_tabs (sheet : EratSheet) : 0 < sheet.normalizeTabs.sheets.length :=
  Nat.zero_lt_of_lt (mirror_normalizeTabs sheet).1

/-- The sheet handed to the recalculation has a tab to copy the result into. -/
theorem edited_tabs (sheet : EratSheet) (op : SheetOp) (result : EratSheet)
    (edits : EditsGrid op) (done : applyOp rt sheet op = some result) :
    ∃ edited : EratSheet, 0 < edited.sheets.length ∧ recalcFlush rt edited = some result := by
  have tabs := normalizeTabs_tabs sheet.normalizeTabs
  cases op with
  | setCell addr value formula =>
      exact ⟨_, by simpa [EratSheet.setCell] using tabs, done⟩
  | clearCell addr => exact ⟨_, by simpa [EratSheet.clearCell] using tabs, done⟩
  | sortRange col ascending =>
      refine ⟨_, ?_, done⟩
      unfold EratSheet.sortRowsByCol
      dsimp only
      split
      · exact tabs
      · split
        · exact tabs
        · simpa using tabs
  | insertRow row =>
      refine ⟨_, ?_, done⟩
      unfold EratSheet.insertRow
      dsimp only
      split
      · exact tabs
      · simpa using tabs
  | deleteRow row =>
      refine ⟨_, ?_, done⟩
      unfold EratSheet.deleteRow
      dsimp only
      split
      · exact tabs
      · simpa using tabs
  | insertCol col =>
      refine ⟨_, ?_, done⟩
      unfold EratSheet.insertCol
      dsimp only
      split
      · exact tabs
      · simpa using tabs
  | deleteCol col =>
      refine ⟨_, ?_, done⟩
      unfold EratSheet.deleteCol
      dsimp only
      split
      · exact tabs
      · simpa using tabs
  | _ => exact absurd edits id

variable (rt) in
/-- The tab that is shown after the op, before the recalculation, is fresh. Only the ops that
recalculate without a flush ask for it; an added tab is empty. -/
def ShowsFreshTab (sheet : EratSheet) : SheetOp → Prop
  | .switchSheet index =>
      Fresh rt (if index < sheet.sheets.length then sheet.tabCells index else sheet.cells)
  | .reorderSheet _ _ => Fresh rt sheet.cells
  | _ => True

instance (sheet : EratSheet) (op : SheetOp) : Decidable (ShowsFreshTab rt sheet op) :=
  match op with
  | .switchSheet index => inferInstanceAs (Decidable (Fresh rt
      (if index < sheet.sheets.length then sheet.tabCells index else sheet.cells)))
  | .reorderSheet _ _ => inferInstanceAs (Decidable (Fresh rt sheet.cells))
  | .setCell .. | .clearCell .. | .setFormat .. | .setCellStyle .. | .sortRange ..
  | .setFilterCriteria .. | .addSheet .. | .renameSheet .. | .insertRow .. | .deleteRow ..
  | .insertCol .. | .deleteCol .. | .protectSheet .. | .freezePanes .. | .setMerges ..
  | .setProtectedRanges .. | .setCharts .. | .setScenarios .. => inferInstanceAs (Decidable True)

theorem fresh_empty : Fresh rt (∅ : StrMap Cell) := by
  intro entry member
  have found := Std.ExtTreeMap.mem_toList_iff_getElem?_eq_some.mp member
  simp at found

/-- An op keeps the mirror exactly when the tab it shows without a flush is fresh. -/
theorem mirror_applyOp_iff (sheet result : EratSheet) (op : SheetOp) (mirror : Mirror sheet)
    (done : applyOp rt sheet op = some result) : Mirror result ↔ ShowsFreshTab rt sheet op := by
  have same := normalizeTabs_of_mirror sheet mirror
  have grid (edits : EditsGrid op) : Mirror result := by
    obtain ⟨edited, tabs, pass⟩ := edited_tabs sheet op result edits done
    exact mirror_recalcFlush edited result tabs pass
  cases op with
  | setCell | clearCell | sortRange | insertRow | deleteRow | insertCol | deleteCol =>
      exact iff_of_true (grid trivial) trivial
  | switchSheet index =>
      simp only [applyOp, same] at done
      obtain ⟨shown, cells⟩ := switchSheet_of_mirror sheet mirror index
      rw [mirror_recalc_iff _ result shown done, cells]
      rfl
  | reorderSheet from_ to_ =>
      simp only [applyOp, same] at done
      obtain ⟨shown, cells⟩ := reorderSheet_of_mirror sheet mirror from_ to_
      rw [mirror_recalc_iff _ result shown done, cells]
      rfl
  | addSheet name =>
      simp only [applyOp, same] at done
      obtain ⟨shown, cells⟩ := addSheet_of_mirror sheet mirror
        (if (Scan.trim name).isEmpty then
          "Sheet".toList ++ Nat.toDigits 10 (sheet.sheets.length + 1) else name)
      rw [mirror_recalc_iff _ result shown done, cells]
      exact iff_of_true fresh_empty trivial
  | setFormat addr format =>
      simp only [applyOp, Option.some.injEq] at done
      subst done
      refine iff_of_true (mirror_flushActiveToTab _ ?_) trivial
      simpa [EratSheet.setCellFormat] using normalizeTabs_tabs sheet.normalizeTabs
  | setCellStyle addr style =>
      simp only [applyOp, Option.some.injEq] at done
      subst done
      refine iff_of_true (mirror_flushActiveToTab _ ?_) trivial
      simpa [EratSheet.setCellStyle] using normalizeTabs_tabs sheet.normalizeTabs
  | renameSheet index name =>
      simp only [applyOp, same, Option.some.injEq, EratSheet.renameSheet] at done
      subst done
      exact iff_of_true (mirror_editTab sheet mirror index _ (fun _ => rfl)) trivial
  | _ =>
      simp only [applyOp, same, Option.some.injEq] at done
      subst done
      exact iff_of_true (mirror_editActive sheet mirror _ (fun _ => rfl)) trivial

variable (rt) in
/-- One op of a run; a panic ends the run. -/
def sheetStep (state : Option EratSheet) (op : SheetOp) : Option EratSheet :=
  state.bind fun sheet => applyOp rt sheet op

variable (rt) in
/-- The op returns. -/
def Returns (state : Option EratSheet) (op : SheetOp) : Prop := (sheetStep rt state op).isSome

def Mirrored (state : Option EratSheet) : Prop := ∀ sheet ∈ state, Mirror sheet

instance (state : Option EratSheet) : Decidable (Mirrored state) :=
  inferInstanceAs (Decidable (∀ _ ∈ state, _))

instance (state : Option EratSheet) (op : SheetOp) : Decidable (Returns rt state op) :=
  inferInstanceAs (Decidable (_ = true))

variable (rt) in
def ShowsFresh (state : Option EratSheet) (op : SheetOp) : Prop :=
  ∀ sheet ∈ state, ShowsFreshTab rt sheet op

instance (state : Option EratSheet) (op : SheetOp) : Decidable (ShowsFresh rt state op) :=
  inferInstanceAs (Decidable (∀ _ ∈ state, _))

theorem mirrored_step_iff (state : Option EratSheet) (op : SheetOp) (mirrored : Mirrored state)
    (returns : Returns rt state op) :
    Mirrored (sheetStep rt state op) ↔ ShowsFresh rt state op := by
  obtain ⟨result, done⟩ := Option.isSome_iff_exists.mp returns
  obtain ⟨sheet, rfl, applied⟩ := Option.bind_eq_some_iff.mp done
  have one := mirror_applyOp_iff sheet result op (mirrored sheet rfl) applied
  rw [done]
  simpa [Mirrored, ShowsFresh] using one

/-- From a mirrored workbook, a run that returns keeps the mirror in every state exactly when every
`SwitchSheet` and `ReorderSheet` of it shows a tab whose formula values are up to date. -/
theorem active_mirror_iff (sheet : EratSheet) (ops : List SheetOp) (mirror : Mirror sheet)
    (returns : Guarded (sheetStep rt) (Returns rt) (some sheet) ops) :
    Always (sheetStep rt) Mirrored (some sheet) ops ↔
      Guarded (sheetStep rt) (ShowsFresh rt) (some sheet) ops :=
  always_iff_guarded_of_allowed (sheetStep rt) Mirrored (Returns rt) (ShowsFresh rt)
    mirrored_step_iff (some sheet) ops (by simpa [Mirrored] using mirror) returns

/-- Adding a tab and coming back to values that are up to date. -/
theorem active_mirror_switch_back :
    Always (sheetStep Runtime.plain) Mirrored (some EratSheet.empty)
      [.setCell "A1".toList "5".toList [], .setCell "B1".toList [] "=SUM(A1:A1)".toList,
        .addSheet [], .switchSheet 0] := by
  apply (active_mirror_iff EratSheet.empty _ (by decide) ?_).mpr
  · simp only [guarded_cons]
    exact ⟨by decide, by decide, by decide, by decide, guarded_nil _ _ _⟩
  · simp only [guarded_cons]
    exact ⟨by decide, by decide, by decide, by decide, guarded_nil _ _ _⟩

/-- `A1` is stale when the tab is shown again: its new value reaches one copy only. -/
theorem active_mirror_broken :
    ¬ ∀ (rt : Runtime) (ops : List SheetOp), rt.Lawful →
      Guarded (sheetStep rt) (Returns rt) (some EratSheet.empty) ops →
      Always (sheetStep rt) Mirrored (some EratSheet.empty) ops := by
  intro all
  have mirrored := all Runtime.plain
    [.setCell "A1".toList [] "=SUM(B1:B1)".toList, .setCell "B1".toList [] "=SUM(C1:C1)".toList,
      .setCell "C1".toList "5".toList [], .switchSheet 0] Runtime.plain_lawful (by
    simp only [guarded_cons]
    exact ⟨by decide, by decide, by decide, by decide, guarded_nil _ _ _⟩)
  have last := mirrored.last
  revert last
  decide

end EraOne.Tables
