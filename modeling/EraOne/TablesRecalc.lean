import EraOne.TablesSync

set_option autoImplicit false

/- The one pass of `recalc`. Each formula cell is evaluated once, in map order, on the values
the pass has reached by then. -/
namespace EraOne.Tables

open Scan EratSheet

variable (rt : Runtime)

/-- The cell an atom names, unless the atom is a text or a number. -/
def atomRefs (atom : Str) : List Str :=
  let a := trim atom
  if a.isEmpty ∨ quotedBy '"' a ∨ quotedBy '\'' a ∨ (rt.parse a).isSome then []
  else if (colRow rt a).isSome then [rt.upper a]
  else []

def condRefs (cond : Str) : List Str :=
  match splitCond (trim cond) comparisons with
  | some (_, left, right) => atomRefs rt left ++ atomRefs rt right
  | none => atomRefs rt (trim cond)

def rangeRefs (range : Str) : List Str := (expandRange rt (trim range)).map rt.upper

def callRefs (name argsRaw : Str) : List Str :=
  if name = "IF".toList then
    match splitArgs argsRaw with
    | cond :: thenV :: rest =>
        condRefs rt cond ++ atomRefs rt thenV ++ atomRefs rt (rest.headD [])
    | _ => []
  else if name = "COUNTIF".toList then
    match splitArgs argsRaw with
    | range :: _ :: _ => rangeRefs rt range
    | _ => []
  else if name = "ROUND".toList then
    match splitArgs argsRaw with
    | number :: _ => [rt.upper (trim number)]
    | [] => []
  else rangeRefs rt argsRaw

/-- The keys of the cells a formula reads. -/
def refs (formula : Str) : List Str :=
  match splitCall rt formula with
  | some (some (name, argsRaw)) => callRefs rt name argsRaw
  | _ => []

/-- Every formula cell holds the value its formula has on the cells as they are. -/
def Fresh (cells : StrMap Cell) : Prop :=
  ∀ entry ∈ cells.toList, entry.2.formula ≠ [] →
    evalFormula rt cells entry.2.formula = some entry.2.value

/-- A formula cell reads other formula cells only if they come earlier in map order. -/
def ReadsBackwards (cells : StrMap Cell) : Prop :=
  ∀ entry ∈ formulaEntries cells, ∀ other ∈ formulaEntries cells,
    other.1 ∈ refs rt entry.2 → compare other.1 entry.1 = .lt

/-- No chain of references leads from a formula cell back to it: the formula cells can be ranked
so that each reads only lower ones. -/
def Acyclic (cells : StrMap Cell) : Prop :=
  ∃ rank : Str → Nat, ∀ entry ∈ formulaEntries cells, ∀ other ∈ formulaEntries cells,
    other.1 ∈ refs rt entry.2 → rank other.1 < rank entry.1

instance (cells : StrMap Cell) : Decidable (Fresh rt cells) :=
  inferInstanceAs (Decidable (∀ _ ∈ _, _ → _))

instance (cells : StrMap Cell) : Decidable (ReadsBackwards rt cells) :=
  inferInstanceAs (Decidable (∀ _ ∈ _, ∀ _ ∈ _, _ → _))

variable {rt}

/-- Two sheets show one value at `key`. -/
def SameValue (a b : StrMap Cell) (key : Str) : Prop :=
  a[key]?.map (·.value) = b[key]?.map (·.value)

theorem cellRaw_congr (a b : StrMap Cell) (addr : Str) (same : SameValue a b (rt.upper addr)) :
    cellRaw rt a addr = cellRaw rt b addr := by
  unfold cellRaw
  rw [same]

theorem cellNum_congr (a b : StrMap Cell) (addr : Str) (same : SameValue a b (rt.upper addr)) :
    cellNum rt a addr = cellNum rt b addr := by
  have bound (m : StrMap Cell) : m[rt.upper addr]?.bind (fun cell => rt.parse cell.value) =
      (m[rt.upper addr]?.map (·.value)).bind rt.parse := by
    cases m[rt.upper addr]? <;> rfl
  unfold cellNum
  rw [bound a, bound b, same]

theorem evalAtom_congr (a b : StrMap Cell) (atom : Str)
    (same : ∀ key ∈ atomRefs rt atom, SameValue a b key) :
    evalAtom rt a atom = evalAtom rt b atom := by
  unfold evalAtom
  dsimp only
  split
  · rfl
  · rename_i nonempty
    split
    · rfl
    · rename_i unquoted
      split
      · rfl
      · rename_i text
        split
        · rename_i address
          have listed : rt.upper (trim atom) ∈ atomRefs rt atom := by
            simp only [atomRefs]
            rw [if_neg (by simp_all), if_pos address]
            exact List.mem_singleton.mpr rfl
          rw [cellRaw_congr a b _ (same _ listed)]
        · rfl

theorem evalCond_congr (a b : StrMap Cell) (cond : Str)
    (same : ∀ key ∈ condRefs rt cond, SameValue a b key) :
    evalCond rt a cond = evalCond rt b cond := by
  unfold evalCond
  unfold condRefs at same
  dsimp only
  split
  · rename_i op left right found
    rw [found] at same
    rw [evalAtom_congr a b left (fun key member => same key (by simp [member])),
      evalAtom_congr a b right (fun key member => same key (by simp [member]))]
  · rename_i found
    rw [found] at same
    rw [evalAtom_congr a b (trim cond) same]

theorem range_congr (a b : StrMap Cell) (range : Str)
    (same : ∀ key ∈ rangeRefs rt range, SameValue a b key) :
    ∀ addr ∈ expandRange rt (trim range), SameValue a b (rt.upper addr) :=
  fun _ member => same _ (List.mem_map_of_mem member)

theorem evalIf_congr (a b : StrMap Cell) (cond thenV : Str) (rest : List Str)
    (same : ∀ key ∈ condRefs rt cond ++ atomRefs rt thenV ++ atomRefs rt (rest.headD []),
      SameValue a b key) :
    evalIf rt a (cond :: thenV :: rest) = evalIf rt b (cond :: thenV :: rest) := by
  have onCond := evalCond_congr a b cond fun key member =>
    same key (List.mem_append_left _ (List.mem_append_left _ member))
  have onThen := evalAtom_congr a b thenV fun key member =>
    same key (List.mem_append_left _ (List.mem_append_right _ member))
  have onElse := evalAtom_congr a b (rest.headD []) fun key member =>
    same key (List.mem_append_right _ member)
  simp only [evalIf]
  rw [onCond, onThen, onElse]

theorem evalCount_congr (a b : StrMap Cell) (argsRaw : Str)
    (same : ∀ key ∈ rangeRefs rt argsRaw, SameValue a b key) :
    evalCount rt a argsRaw = evalCount rt b argsRaw := by
  have values := range_congr a b argsRaw same
  have hits := List.filter_congr (l := expandRange rt (trim argsRaw))
    (p := fun addr => !(cellRaw rt a addr).isEmpty && (rt.parse (cellRaw rt a addr)).isSome)
    (q := fun addr => !(cellRaw rt b addr).isEmpty && (rt.parse (cellRaw rt b addr)).isSome)
    (fun addr member => by rw [cellRaw_congr a b addr (values addr member)])
  unfold evalCount
  rw [hits]

theorem evalCountif_congr (a b : StrMap Cell) (range criteria : Str) (rest : List Str)
    (same : ∀ key ∈ rangeRefs rt range, SameValue a b key) :
    evalCountif rt a (range :: criteria :: rest) = evalCountif rt b
      (range :: criteria :: rest) := by
  have values := range_congr a b range same
  have hits := List.filter_congr (l := expandRange rt (trim range))
    (p := fun addr => countifMatch rt (cellRaw rt a addr) (unquoteCriteria criteria))
    (q := fun addr => countifMatch rt (cellRaw rt b addr) (unquoteCriteria criteria))
    (fun addr member => by rw [cellRaw_congr a b addr (values addr member)])
  simp only [evalCountif]
  rw [hits]

theorem evalAggregate_congr (a b : StrMap Cell) (name argsRaw : Str)
    (same : ∀ key ∈ rangeRefs rt argsRaw, SameValue a b key) :
    evalAggregate rt a name argsRaw = evalAggregate rt b name argsRaw := by
  have values := range_congr a b argsRaw same
  have nums : (expandRange rt (trim argsRaw)).map (cellNum rt a) =
      (expandRange rt (trim argsRaw)).map (cellNum rt b) :=
    List.map_congr_left fun addr member => cellNum_congr a b addr (values addr member)
  unfold evalAggregate
  rw [nums]

/-- Evaluation reads the cells of `callRefs` and no others. -/
theorem evalCall_congr (a b : StrMap Cell) (name argsRaw : Str)
    (same : ∀ key ∈ callRefs rt name argsRaw, SameValue a b key) :
    evalCall rt a name argsRaw = evalCall rt b name argsRaw := by
  unfold evalCall
  unfold callRefs at same
  by_cases isIf : name = "IF".toList
  · rw [if_pos isIf, if_pos isIf]
    rw [if_pos isIf] at same
    cases shape : splitArgs argsRaw with
    | nil => rfl
    | cons cond more =>
        cases more with
        | nil => rfl
        | cons thenV rest =>
            rw [shape] at same
            exact evalIf_congr a b cond thenV rest same
  rw [if_neg isIf, if_neg isIf]
  rw [if_neg isIf] at same
  by_cases isCount : name = "COUNT".toList
  · rw [if_pos isCount, if_pos isCount]
    rw [if_neg (by rw [isCount]; decide), if_neg (by rw [isCount]; decide)] at same
    rw [evalCount_congr a b argsRaw same]
  rw [if_neg isCount, if_neg isCount]
  by_cases isCountif : name = "COUNTIF".toList
  · rw [if_pos isCountif, if_pos isCountif]
    rw [if_pos isCountif] at same
    cases shape : splitArgs argsRaw with
    | nil => rfl
    | cons range more =>
        cases more with
        | nil => rfl
        | cons criteria rest =>
            rw [shape] at same
            rw [evalCountif_congr a b range criteria rest same]
  rw [if_neg isCountif, if_neg isCountif]
  rw [if_neg isCountif] at same
  by_cases isRound : name = "ROUND".toList
  · rw [if_pos isRound, if_pos isRound]
    rw [if_pos isRound] at same
    cases shape : splitArgs argsRaw with
    | nil => rfl
    | cons number rest =>
        rw [shape] at same
        simp only [evalRound]
        rw [cellNum_congr a b (trim number) (same _ (List.mem_singleton.mpr rfl))]
  rw [if_neg isRound, if_neg isRound]
  rw [if_neg isRound] at same
  rw [evalAggregate_congr a b name argsRaw same]

theorem evalFormula_congr (a b : StrMap Cell) (formula : Str)
    (same : ∀ key ∈ refs rt formula, SameValue a b key) :
    evalFormula rt a formula = evalFormula rt b formula := by
  unfold evalFormula
  unfold refs at same
  split
  · rename_i name argsRaw found
    rw [found] at same
    exact evalCall_congr a b name argsRaw same
  · rfl
  · rfl

/-- A cell but for its value. -/
def Cell.unvalued (cell : Cell) : Cell := { cell with value := [] }

/-- The two maps differ at most in the values of their cells. -/
def SameButValues (a b : StrMap Cell) : Prop :=
  ∀ key : Str, a[key]?.map Cell.unvalued = b[key]?.map Cell.unvalued

/-- A step of the pass gives one cell its formula's value and touches no other. -/
theorem recalcStep_spec (cells next : StrMap Cell) (entry : Str × Str)
    (step : recalcStep rt cells entry = some next) :
    (∀ key, key ≠ entry.1 → next[key]? = cells[key]?) ∧ SameButValues next cells ∧
      ∀ cell, cells[entry.1]? = some cell → ∃ val, evalFormula rt cells entry.2 = some val ∧
        next[entry.1]? = some { cell with value := val } := by
  unfold recalcStep at step
  split at step
  · rename_i val evaluated
    split at step
    · rename_i cell found
      rw [Option.some.injEq] at step
      subst step
      refine ⟨?_, ?_, ?_⟩
      · intro key other
        rw [Std.ExtTreeMap.getElem?_insert]
        simp [Ne.symm other]
      · intro key
        rw [Std.ExtTreeMap.getElem?_insert]
        by_cases here : entry.1 = key
        · subst here
          rw [found]
          simp [Cell.unvalued]
        · simp [here]
      · intro cell' found'
        rw [found, Option.some.injEq] at found'
        subst found'
        exact ⟨val, evaluated, by simp⟩
    · rename_i absent
      rw [Option.some.injEq] at step
      subst step
      refine ⟨fun _ _ => rfl, fun _ => rfl, ?_⟩
      intro cell found
      rw [absent] at found
      cases found
  · cases step

/-- What a pass leaves alone: every cell outside its entries, and everything but values. -/
theorem recalcPass_frame (entries : List (Str × Str)) (cells next : StrMap Cell)
    (pass : entries.foldlM (recalcStep rt) cells = some next) :
    (∀ key, key ∉ entries.map Prod.fst → next[key]? = cells[key]?) ∧ SameButValues next cells := by
  induction entries generalizing cells with
  | nil =>
      have same : cells = next := by simpa using pass
      subst same
      exact ⟨fun _ _ => rfl, fun _ => rfl⟩
  | cons entry rest ih =>
      rw [List.foldlM_cons] at pass
      obtain ⟨middle, step, pass⟩ := Option.bind_eq_some_iff.mp pass
      obtain ⟨others, shape, -⟩ := recalcStep_spec cells middle entry step
      obtain ⟨outside, shape'⟩ := ih middle pass
      refine ⟨?_, fun key => (shape' key).trans (shape key)⟩
      intro key absent
      rw [List.map_cons, List.mem_cons, not_or] at absent
      rw [outside key absent.2, others key absent.1]

/-- If no entry reads itself or a later entry, every entry ends with the value of its formula on
the final cells. -/
theorem recalcPass_values (entries : List (Str × Str)) (cells next : StrMap Cell)
    (pass : entries.foldlM (recalcStep rt) cells = some next)
    (distinct : (entries.map Prod.fst).Nodup)
    (present : ∀ entry ∈ entries, cells[entry.1]?.isSome)
    (own : ∀ entry ∈ entries, entry.1 ∉ refs rt entry.2)
    (later : entries.Pairwise fun entry other => other.1 ∉ refs rt entry.2) :
    ∀ entry ∈ entries, ∃ cell, next[entry.1]? = some cell ∧
      evalFormula rt next entry.2 = some cell.value := by
  induction entries generalizing cells with
  | nil => simp
  | cons first rest ih =>
      have whole := recalcPass_frame (first :: rest) cells next pass
      rw [List.foldlM_cons] at pass
      obtain ⟨middle, step, pass⟩ := Option.bind_eq_some_iff.mp pass
      obtain ⟨others, -, written⟩ := recalcStep_spec cells middle first step
      obtain ⟨fresh, distinct⟩ := List.nodup_cons.mp distinct
      obtain ⟨ahead, later⟩ := List.pairwise_cons.mp later
      have tail := recalcPass_frame rest middle next pass
      intro entry member
      rcases List.mem_cons.mp member with rfl | member
      · obtain ⟨cell, found⟩ := Option.isSome_iff_exists.mp (present entry (by simp))
        obtain ⟨val, evaluated, stored⟩ := written cell found
        refine ⟨{ cell with value := val }, ?_, ?_⟩
        · rw [tail.1 entry.1 fresh, stored]
        · rw [← evaluated]
          apply evalFormula_congr
          intro key read
          unfold SameValue
          rw [whole.1 key]
          intro listed
          rcases List.mem_cons.mp listed with rfl | listed
          · exact own entry (by simp) read
          · obtain ⟨other, inRest, rfl⟩ := List.mem_map.mp listed
            exact ahead other inRest read
      · apply ih middle pass distinct _ _ later entry member
        · intro other inRest
          have apart : other.1 ≠ first.1 := by
            intro same
            exact fresh (same ▸ List.mem_map_of_mem inRest)
          rw [others other.1 apart]
          exact present other (by simp [inRest])
        · intro other inRest
          exact own other (by simp [inRest])

theorem mem_formulaEntries (cells : StrMap Cell) (key formula : Str) :
    (key, formula) ∈ formulaEntries cells ↔
      ∃ cell, cells[key]? = some cell ∧ cell.formula = formula ∧ formula ≠ [] := by
  simp only [formulaEntries, List.mem_map, List.mem_filter, Prod.exists, Prod.mk.injEq,
    Std.ExtTreeMap.mem_toList_iff_getElem?_eq_some]
  constructor
  · rintro ⟨k, cell, ⟨found, filled⟩, rfl, rfl⟩
    exact ⟨cell, found, rfl, by simpa using filled⟩
  · rintro ⟨cell, found, rfl, filled⟩
    exact ⟨key, cell, ⟨found, by simpa using filled⟩, rfl, rfl⟩

theorem mem_formulaEntries_congr (a b : StrMap Cell) (same : SameButValues a b)
    (entry : Str × Str) : entry ∈ formulaEntries a ↔ entry ∈ formulaEntries b := by
  have formulas (key : Str) : a[key]?.map (·.formula) = b[key]?.map (·.formula) := by
    have shape := congrArg (Option.map (·.formula)) (same key)
    simpa [Option.map_map, Function.comp_def, Cell.unvalued] using shape
  have holds (m : StrMap Cell) : entry ∈ formulaEntries m ↔
      m[entry.1]?.map (·.formula) = some entry.2 ∧ entry.2 ≠ [] := by
    rw [show entry = (entry.1, entry.2) from rfl, mem_formulaEntries]
    simp only [Option.map_eq_some_iff]
    constructor
    · rintro ⟨cell, found, formula, filled⟩
      exact ⟨⟨cell, found, formula⟩, filled⟩
    · rintro ⟨⟨cell, found, formula⟩, filled⟩
      exact ⟨cell, found, formula, filled⟩
  rw [holds a, holds b, formulas]

theorem formulaEntries_ordered (cells : StrMap Cell) :
    (formulaEntries cells).Pairwise fun a b => compare a.1 b.1 = .lt := by
  unfold formulaEntries
  rw [List.pairwise_map]
  exact (Std.ExtTreeMap.ordered_keys_toList).sublist List.filter_sublist

theorem formulaEntries_nodup (cells : StrMap Cell) :
    ((formulaEntries cells).map Prod.fst).Nodup := by
  rw [List.Nodup, List.pairwise_map]
  refine (formulaEntries_ordered cells).imp ?_
  intro a b less same
  rw [same] at less
  simp at less

theorem formulaEntries_present (cells : StrMap Cell) :
    ∀ entry ∈ formulaEntries cells, cells[entry.1]?.isSome := by
  intro entry member
  obtain ⟨cell, found, -⟩ := (mem_formulaEntries cells entry.1 entry.2).mp member
  rw [found]
  rfl

theorem recalcCells_sameButValues (cells next : StrMap Cell)
    (pass : recalcCells rt cells = some next) : SameButValues next cells :=
  (recalcPass_frame _ cells next pass).2

/-- When formulas read backwards only, one pass reaches a state where every value is right. -/
theorem recalcCells_fresh (cells next : StrMap Cell) (pass : recalcCells rt cells = some next)
    (backwards : ReadsBackwards rt next) : Fresh rt next := by
  have entries := mem_formulaEntries_congr next cells (recalcCells_sameButValues cells next pass)
  have own : ∀ entry ∈ formulaEntries cells, entry.1 ∉ refs rt entry.2 := by
    intro entry member read
    have less :=
      backwards entry ((entries entry).mpr member) entry ((entries entry).mpr member) read
    simp at less
  have later : (formulaEntries cells).Pairwise fun entry other => other.1 ∉ refs rt entry.2 := by
    refine List.Pairwise.imp_of_mem ?_ (formulaEntries_ordered cells)
    intro entry other member member' less read
    have back :=
      backwards entry ((entries entry).mpr member) other ((entries other).mpr member') read
    have self := Std.TransCmp.lt_trans less back
    simp at self
  have values := recalcPass_values _ cells next pass (formulaEntries_nodup cells)
    (formulaEntries_present cells) own later
  intro entry member filled
  have found := Std.ExtTreeMap.mem_toList_iff_getElem?_eq_some.mp member
  have listed : (entry.1, entry.2.formula) ∈ formulaEntries cells :=
    (entries _).mp ((mem_formulaEntries next _ _).mpr ⟨entry.2, found, rfl, filled⟩)
  obtain ⟨cell, found', evaluated⟩ := values _ listed
  rw [found, Option.some.injEq] at found'
  rw [evaluated, found']

theorem insert_same (cells : StrMap Cell) (key : Str) (cell : Cell)
    (found : cells[key]? = some cell) : cells.insert key cell = cells := by
  apply Std.ExtTreeMap.ext_getElem?
  intro k
  rw [Std.ExtTreeMap.getElem?_insert]
  by_cases here : key = k
  · subst here
    simp [found]
  · simp [here]

/-- A step changes nothing exactly when the cell already has the value of its formula. -/
theorem recalcStep_eq_self_iff (cells : StrMap Cell) (entry : Str × Str) (cell : Cell)
    (found : cells[entry.1]? = some cell) :
    recalcStep rt cells entry = some cells ↔ evalFormula rt cells entry.2 = some cell.value := by
  constructor
  · intro step
    obtain ⟨val, evaluated, stored⟩ := (recalcStep_spec cells cells entry step).2.2 cell found
    rw [found, Option.some.injEq] at stored
    rw [evaluated, stored]
  · intro evaluated
    simp only [recalcStep, evaluated, found]
    rw [insert_same cells entry.1 cell found]

theorem recalcPass_eq_self_iff (entries : List (Str × Str)) (cells : StrMap Cell)
    (distinct : (entries.map Prod.fst).Nodup)
    (present : ∀ entry ∈ entries, cells[entry.1]?.isSome) :
    entries.foldlM (recalcStep rt) cells = some cells ↔
      ∀ entry ∈ entries, recalcStep rt cells entry = some cells := by
  induction entries with
  | nil => simp
  | cons first rest ih =>
      obtain ⟨fresh, distinct⟩ := List.nodup_cons.mp distinct
      have ih := ih distinct (fun entry member => present entry (by simp [member]))
      rw [List.foldlM_cons]
      constructor
      · intro pass
        obtain ⟨middle, step, pass⟩ := Option.bind_eq_some_iff.mp pass
        -- The rest leaves the first cell alone, so the first step must have done so too.
        have still : middle = cells := by
          apply Std.ExtTreeMap.ext_getElem?
          intro key
          by_cases here : key = first.1
          · rw [here, (recalcPass_frame rest middle cells pass).1 first.1 fresh]
          · exact (recalcStep_spec cells middle first step).1 key here
        subst still
        intro entry member
        rcases List.mem_cons.mp member with rfl | member
        · exact step
        · exact ih.mp pass entry member
      · intro all
        rw [all first (by simp)]
        exact ih.mpr fun entry member => all entry (by simp [member])

/-- Recalculating changes nothing exactly on fresh cells. -/
theorem recalcCells_eq_self_iff (cells : StrMap Cell) :
    recalcCells rt cells = some cells ↔ Fresh rt cells := by
  rw [recalcCells, recalcPass_eq_self_iff _ cells (formulaEntries_nodup cells)
    (formulaEntries_present cells)]
  constructor
  · intro all entry member filled
    have found := Std.ExtTreeMap.mem_toList_iff_getElem?_eq_some.mp member
    exact (recalcStep_eq_self_iff cells (entry.1, entry.2.formula) entry.2 found).mp
      (all _ ((mem_formulaEntries cells _ _).mpr ⟨entry.2, found, rfl, filled⟩))
  · intro fresh entry member
    obtain ⟨cell, found, formula, filled⟩ := (mem_formulaEntries cells entry.1 entry.2).mp member
    rw [recalcStep_eq_self_iff cells entry cell found, ← formula]
    exact fresh (entry.1, cell) (Std.ExtTreeMap.mem_toList_iff_getElem?_eq_some.mpr found)
      (formula ▸ filled)

/-- The ops that edit cells of the active tab and recalculate it. -/
def EditsGrid : SheetOp → Prop
  | .setCell .. | .clearCell .. | .sortRange .. | .insertRow .. | .deleteRow .. | .insertCol ..
  | .deleteCol .. => True
  | _ => False

@[simp] theorem flushActiveToTab_cells (sheet : EratSheet) :
    sheet.flushActiveToTab.cells = sheet.cells := by
  unfold EratSheet.flushActiveToTab EratSheet.clampActive EratSheet.editTab
  split
  · rfl
  · dsimp only
    split <;> rfl

theorem recalc_spec (sheet result : EratSheet) (done : recalc rt sheet = some result) :
    recalcCells rt sheet.cells = some result.cells ∧
      result = { sheet with cells := result.cells } := by
  obtain ⟨cells, pass, rest⟩ := Option.bind_eq_some_iff.mp done
  rw [Option.pure_def, Option.some.injEq] at rest
  subst rest
  exact ⟨pass, rfl⟩

theorem recalcFlush_spec (sheet result : EratSheet) (done : recalcFlush rt sheet = some result) :
    recalcCells rt sheet.cells = some result.cells ∧
      result = EratSheet.flushActiveToTab { sheet with cells := result.cells } := by
  obtain ⟨middle, pass, rest⟩ := Option.bind_eq_some_iff.mp done
  rw [Option.pure_def, Option.some.injEq] at rest
  obtain ⟨values, shape⟩ := recalc_spec sheet middle pass
  subst rest
  rw [flushActiveToTab_cells, ← shape]
  exact ⟨values, rfl⟩

theorem applyOp_recalculates (sheet result : EratSheet) (op : SheetOp) (edits : EditsGrid op)
    (done : applyOp rt sheet op = some result) :
    ∃ edited, recalcFlush rt edited = some result := by
  cases op with
  | setCell | clearCell | sortRange | insertRow | deleteRow | insertCol | deleteCol =>
      simp only [applyOp] at done
      exact ⟨_, done⟩
  | _ => exact absurd edits id

/-- After an edit of the grid every formula cell has the value of its formula, provided formulas
read other formula cells only where these come earlier in map order. -/
theorem recalc_complete_backwards (sheet result : EratSheet) (op : SheetOp) (edits : EditsGrid op)
    (done : applyOp rt sheet op = some result) (backwards : ReadsBackwards rt result.cells) :
    Fresh rt result.cells ∧ recalc rt result = some result := by
  obtain ⟨edited, pass⟩ := applyOp_recalculates sheet result op edits done
  have fresh := recalcCells_fresh edited.cells result.cells (recalcFlush_spec edited result pass).1
    backwards
  refine ⟨fresh, ?_⟩
  rw [recalc, (recalcCells_eq_self_iff result.cells).mpr fresh]
  rfl

/-- A workbook with one tab of given cells. -/
def oneTab (entries : List (Str × Cell)) : EratSheet :=
  { EratSheet.empty with
    cells := Std.ExtTreeMap.ofList entries compare
    sheets := [{ name := "Sheet1".toList, cells := Std.ExtTreeMap.ofList entries compare }] }

def formulaCell (value formula : String) : Cell :=
  { value := value.toList, formula := formula.toList }

/-- `C1` reads `B1`, `B1` reads `A1`: a new `A1` reaches both. -/
theorem recalc_complete_chain :
    Fresh Runtime.plain (oneTab [("A1".toList, formulaCell "5" ""),
      ("B1".toList, formulaCell "5" "=SUM(A1:A1)"),
      ("C1".toList, formulaCell "5" "=SUM(B1:B1)")]).cells :=
  (@recalc_complete_backwards Runtime.plain
    (oneTab [("B1".toList, formulaCell "0" "=SUM(A1:A1)"),
      ("C1".toList, formulaCell "0" "=SUM(B1:B1)")]) _ (.setCell "a1".toList "5".toList [])
    trivial (by decide) (by decide)).1

/-- `A1` reads `B1`, `B1` reads `C1`: a new `C1` reaches `B1` only. -/
theorem recalc_incomplete :
    ¬ ∀ (rt : Runtime) (sheet result : EratSheet) (op : SheetOp), rt.Lawful → EditsGrid op →
      Acyclic rt sheet.cells → Acyclic rt result.cells → applyOp rt sheet op = some result →
      Fresh rt result.cells := by
  intro all
  have stale := all Runtime.plain
    (oneTab [("A1".toList, formulaCell "0" "=SUM(B1:B1)"),
      ("B1".toList, formulaCell "0" "=SUM(C1:C1)")])
    (oneTab [("A1".toList, formulaCell "0" "=SUM(B1:B1)"),
      ("B1".toList, formulaCell "5" "=SUM(C1:C1)"), ("C1".toList, formulaCell "5" "")])
    (.setCell "C1".toList "5".toList []) Runtime.plain_lawful trivial
    ⟨fun key => if key = "A1".toList then 1 else 0, by decide⟩
    ⟨fun key => if key = "A1".toList then 1 else 0, by decide⟩ (by decide)
  revert stale
  decide

end EraOne.Tables
