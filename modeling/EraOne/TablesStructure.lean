import EraOne.TablesMirror
import EraOne.Maps

set_option autoImplicit false

/- Structural edits: inserting and deleting rows and columns, and sorting. Each writes the cells
again under the address their key parses to, so that keys of one position end up as one cell. -/
namespace EraOne.Tables

open Scan Runs Maps EratSheet

/-- What a structural edit has to keep of a cell. Row edits rewrite formulas. -/
def payload (cell : Cell) : Cell := { cell with formula := [] }

def contents (entries : List (Str × Cell)) : Multiset Cell :=
  Multiset.ofList (entries.map fun entry => payload entry.2)

variable (rt : Runtime)

/-- The edit of a structural op, before the recalculation. -/
def structural (sheet : EratSheet) : SheetOp → Option EratSheet
  | .insertRow row => some (sheet.normalizeTabs.insertRow rt row)
  | .deleteRow row => some (sheet.normalizeTabs.deleteRow rt row)
  | .insertCol col => some (sheet.normalizeTabs.insertCol rt col)
  | .deleteCol col => some (sheet.normalizeTabs.deleteCol rt col)
  | .sortRange col ascending => some (sheet.normalizeTabs.sortRowsByCol rt col ascending)
  | _ => none

/-- The address lies in the row or column that the op deletes. -/
def inDeleted (op : SheetOp) (key : Str) : Bool :=
  match op, parseAddr rt key with
  | .deleteRow row, some position => position.2 = row
  | .deleteCol col, some position => position.1 = col
  | _, _ => false

/-- The active tab has the same cells after the structural edit, but for those deleted. -/
def KeepsCells (sheet : EratSheet) (op : SheetOp) : Prop :=
  ∀ edited ∈ structural rt sheet op,
    contents (edited.tabCells edited.activeSheet).toList =
      contents (sheet.normalizeTabs.cells.toList.filter fun entry => !inDeleted rt op entry.1)

/-- Of the positions that `counts` admits, none is the address of two cells. -/
def OnePerPosition (cells : StrMap Cell) (counts : UInt32 × UInt32 → Bool) : Prop :=
  ∀ a ∈ cells.keys, ∀ b ∈ cells.keys, ∀ position ∈ parseAddr rt a,
    position ∈ parseAddr rt b → counts position = true → a = b

def lastIndex : UInt32 := 4294967295

/-- The cells whose column or row is the last `u32`, which an insertion wraps to 0, find no cell
under the address with 0. -/
def RoomToWrap (cells : StrMap Cell) (atLast : UInt32 × UInt32 → Bool)
    (wrapped : UInt32 × UInt32 → Str) : Prop :=
  ∀ key ∈ cells.keys, ∀ position ∈ parseAddr rt key,
    atLast position = true → cells[wrapped position]? = none

/-- When a structural edit keeps every cell. Sorting also loses the cells whose key does not parse,
unless no key parses. -/
def Separate (cells : StrMap Cell) : SheetOp → Prop
  | .insertRow row =>
      row ≠ 0 → OnePerPosition rt cells (fun _ => true) ∧
        RoomToWrap rt cells (fun p => p.2 = lastIndex) (fun p => addrOf p.1 0)
  | .insertCol col =>
      col ≠ 0 → OnePerPosition rt cells (fun _ => true) ∧
        RoomToWrap rt cells (fun p => p.1 = lastIndex) (fun p => addrOf 0 p.2)
  | .deleteRow row => row ≠ 0 → OnePerPosition rt cells (fun p => p.2 ≠ row)
  | .deleteCol col => col ≠ 0 → OnePerPosition rt cells (fun p => p.1 ≠ col)
  | .sortRange col _ =>
      col ≠ 0 → (∀ key ∈ cells.keys, parseAddr rt key = none) ∨
        (∀ key ∈ cells.keys, (parseAddr rt key).isSome = true) ∧
          OnePerPosition rt cells (fun _ => true)
  | _ => True

variable {rt}

/-- `applyOp` makes the structural edit and recalculates. -/
theorem applyOp_structural (sheet edited : EratSheet) (op : SheetOp)
    (edit : structural rt sheet op = some edited) :
    applyOp rt sheet op = recalcFlush rt edited := by
  cases op with
  | insertRow | deleteRow | insertCol | deleteCol | sortRange =>
      simp only [structural, Option.some.injEq] at edit
      subst edit
      rfl
  | _ => cases edit

theorem parseAddr_ne_zero (key : Str) (position : UInt32 × UInt32)
    (parsed : parseAddr rt key = some position) : position.1 ≠ 0 ∧ position.2 ≠ 0 := by
  unfold parseAddr at parsed
  dsimp only at parsed
  split at parsed
  · split at parsed
    · cases parsed
    · rename_i valid
      cases parsed
      simpa [not_or] using valid
  · cases parsed

theorem addrOf_inj (lawful : rt.Lawful) (a b : UInt32 × UInt32)
    (same : addrOf a.1 a.2 = addrOf b.1 b.2) : a = b := by
  obtain ⟨-, front, back⟩ := addrOf_shape lawful a.1 a.2
  obtain ⟨-, front', back'⟩ := addrOf_shape lawful b.1 b.2
  rw [same, front'] at front
  rw [same, back'] at back
  have col : columnNumber (columnLetters a.1) = columnNumber (columnLetters b.1) := by rw [front]
  have row : parseU32 (Nat.toDigits 10 a.2.toNat) = parseU32 (Nat.toDigits 10 b.2.toNat) := by
    rw [back]
  rw [columnNumber_letters, columnNumber_letters] at col
  rw [parseU32_toDigits, parseU32_toDigits, Option.some.injEq] at row
  exact Prod.ext col row

/-- An address with a 0 in it is no address. -/
theorem parseAddr_addrOf_eq_none_iff (lawful : rt.Lawful) (col row : UInt32) :
    parseAddr rt (addrOf col row) = none ↔ col = 0 ∨ row = 0 := by
  obtain ⟨fixed, front, back⟩ := addrOf_shape lawful col row
  simp only [parseAddr, fixed, front, back, columnNumber_letters, parseU32_toDigits]
  split
  · rename_i zero
    simp [zero]
  · rename_i zero
    simp [zero]

theorem rebuild_eq_ofList (move : Str → Cell → Option (Str × Cell)) (cells : StrMap Cell) :
    rebuild move cells =
      Std.ExtTreeMap.ofList (cells.toList.filterMap fun e => move e.1 e.2) compare := by
  refine foldl_insert_eq_ofList _ _ _ ?_
  intro next entry
  cases move entry.1 entry.2 <;> rfl

section Relocate

variable (rt) in
/-- The new key of a cell, from the new position of its address. -/
def newKey (place : UInt32 × UInt32 → Option (UInt32 × UInt32)) (key : Str) : Option Str :=
  match parseAddr rt key with
  | some position => (place position).map fun p => addrOf p.1 p.2
  | none => some key

variable {place : UInt32 × UInt32 → Option (UInt32 × UInt32)}

/-- The surviving cells of a loop over the cells are distinct exactly when their new keys are. -/
theorem contents_rebuild_iff (move : Str → Cell → Option (Str × Cell)) (cells : StrMap Cell)
    (moves : ∀ key cell, (move key cell).map (fun e => (e.1, payload e.2)) =
      (newKey rt place key).map fun k => (k, payload cell)) :
    contents (rebuild move cells).toList =
        contents (cells.toList.filter fun e => (newKey rt place e.1).isSome) ↔
      ∀ a ∈ cells.keys, ∀ b ∈ cells.keys, ∀ k ∈ newKey rt place a,
        k ∈ newKey rt place b → a = b := by
  have looked : (cells.toList.filterMap fun e => move e.1 e.2).map (fun e => payload e.2) =
      (cells.toList.filter fun e => (newKey rt place e.1).isSome).map fun e => payload e.2 := by
    rw [List.map_filterMap, ← List.filterMap_eq_filter, List.map_filterMap]
    congr 1
    funext entry
    have same := congrArg (Option.map Prod.snd) (moves entry.1 entry.2)
    simp only [Option.map_map, Function.comp_def] at same
    rw [same]
    cases found : newKey rt place entry.1 <;> simp [Option.guard, found]
  have keys : (cells.toList.filterMap fun e => move e.1 e.2).map Prod.fst =
      cells.keys.filterMap (newKey rt place) := by
    rw [List.map_filterMap, ← Std.ExtTreeMap.map_fst_toList_eq_keys, List.filterMap_map]
    congr 1
    funext entry
    have same := congrArg (Option.map Prod.fst) (moves entry.1 entry.2)
    simpa [Option.map_map, Function.comp_def] using same
  rw [contents, contents, Multiset.coe_eq_coe, rebuild_eq_ofList, ← looked,
    map_toList_ofList_perm_iff, keys]
  exact nodup_filterMap_iff _ _ Std.ExtTreeMap.nodup_keys

/-- New keys are distinct exactly when surviving positions are and nothing wraps onto a cell. -/
theorem newKey_apart_iff (lawful : rt.Lawful) (cells : StrMap Cell)
    (injective : ∀ p q target, p.1 ≠ 0 ∧ p.2 ≠ 0 → q.1 ≠ 0 ∧ q.2 ≠ 0 → target ∈ place p →
      target ∈ place q → p = q) :
    (∀ a ∈ cells.keys, ∀ b ∈ cells.keys, ∀ k ∈ newKey rt place a,
        k ∈ newKey rt place b → a = b) ↔
      OnePerPosition rt cells (fun p => (place p).isSome) ∧
        ∀ key ∈ cells.keys, ∀ position ∈ parseAddr rt key, ∀ target ∈ place position,
          target.1 = 0 ∨ target.2 = 0 → cells[addrOf target.1 target.2]? = none := by
  constructor
  · intro apart
    refine ⟨?_, ?_⟩
    · intro a memberA b memberB position parsedA parsedB survives
      obtain ⟨target, placed⟩ := Option.isSome_iff_exists.mp survives
      refine apart a memberA b memberB (addrOf target.1 target.2) ?_ ?_
      · simp [newKey, Option.mem_def.mp parsedA, placed]
      · simp [newKey, Option.mem_def.mp parsedB, placed]
    · intro key member position parsed target placed zero
      by_contra occupied
      have invalid := (parseAddr_addrOf_eq_none_iff lawful target.1 target.2).mpr zero
      have listed : addrOf target.1 target.2 ∈ cells.keys := by
        rw [Std.ExtTreeMap.mem_keys, ← Std.ExtTreeMap.isSome_getElem?_iff_mem]
        exact Option.isSome_iff_ne_none.mpr occupied
      have same := apart key member _ listed (addrOf target.1 target.2)
        (by simp [newKey, Option.mem_def.mp parsed, Option.mem_def.mp placed])
        (by simp [newKey, invalid])
      rw [same, invalid] at parsed
      cases parsed
  · rintro ⟨single, room⟩ a memberA b memberB k newA newB
    have wraps (key other : Str) (member : key ∈ cells.keys) (listed : other ∈ cells.keys)
        (position : UInt32 × UInt32) (parsed : parseAddr rt key = some position)
        (unparsed : parseAddr rt other = none) (target : UInt32 × UInt32)
        (placed : target ∈ place position) (same : addrOf target.1 target.2 = other) : False := by
      rw [← same] at unparsed
      have zero := (parseAddr_addrOf_eq_none_iff lawful _ _).mp unparsed
      have free := room key member position parsed target placed zero
      rw [same] at free
      rw [Std.ExtTreeMap.mem_keys, ← Std.ExtTreeMap.isSome_getElem?_iff_mem, free] at listed
      cases listed
    unfold newKey at newA newB
    cases parsedA : parseAddr rt a with
    | some p =>
        simp only [parsedA, Option.mem_def, Option.map_eq_some_iff] at newA
        obtain ⟨target, placed, rfl⟩ := newA
        cases parsedB : parseAddr rt b with
        | some q =>
            simp only [parsedB, Option.mem_def, Option.map_eq_some_iff] at newB
            obtain ⟨target', placed', same⟩ := newB
            obtain rfl := addrOf_inj lawful _ _ same
            obtain rfl := injective p q _ (parseAddr_ne_zero a p parsedA)
              (parseAddr_ne_zero b q parsedB) placed placed'
            exact single a memberA b memberB p parsedA parsedB (by simp [placed])
        | none =>
            simp only [parsedB, Option.mem_def, Option.some.injEq] at newB
            exact (wraps a b memberA memberB p parsedA parsedB target placed newB.symm).elim
    | none =>
        simp only [parsedA, Option.mem_def, Option.some.injEq] at newA
        cases parsedB : parseAddr rt b with
        | some q =>
            simp only [parsedB, Option.mem_def, Option.map_eq_some_iff] at newB
            obtain ⟨target, placed, same⟩ := newB
            exact (wraps b a memberB memberA q parsedB parsedA target placed
              (same.trans newA.symm)).elim
        | none =>
            simp only [parsedB, Option.mem_def, Option.some.injEq] at newB
            rw [newA, newB]

end Relocate

/-- The index `i` after an insertion before `n`. -/
def insertAt (n i : UInt32) : UInt32 := if i ≥ n then i + 1 else i

/-- The index `i` after the deletion of `n`. -/
def deleteAt (n i : UInt32) : UInt32 := if i > n then i - 1 else i

theorem insertAt_toNat (n i : UInt32) :
    (insertAt n i).toNat = if n.toNat ≤ i.toNat then (i.toNat + 1) % 2 ^ 32 else i.toNat := by
  unfold insertAt
  simp only [ge_iff_le, UInt32.le_iff_toNat_le]
  split
  · exact UInt32.toNat_add i 1
  · rfl

theorem deleteAt_toNat (n i : UInt32) :
    (deleteAt n i).toNat = if n.toNat < i.toNat then i.toNat - 1 else i.toNat := by
  unfold deleteAt
  simp only [gt_iff_lt, UInt32.lt_iff_toNat_lt]
  split
  · rename_i later
    exact UInt32.toNat_sub_of_le i 1 (UInt32.le_iff_toNat_le.mpr (by simp; omega))
  · rfl

theorem insertAt_inj (n a b : UInt32) (validA : a ≠ 0) (validB : b ≠ 0)
    (same : insertAt n a = insertAt n b) : a = b := by
  have smallA := UInt32.toNat_lt a
  have smallB := UInt32.toNat_lt b
  rw [← UInt32.toNat_inj, insertAt_toNat, insertAt_toNat] at same
  simp only [← UInt32.toNat_inj, ne_eq, UInt32.toNat_zero] at *
  split at same <;> split at same <;> omega

theorem insertAt_eq_zero_iff (n i : UInt32) (valid : i ≠ 0) :
    insertAt n i = 0 ↔ i = lastIndex := by
  have last : lastIndex.toNat = 2 ^ 32 - 1 := rfl
  have small := UInt32.toNat_lt n
  have small' := UInt32.toNat_lt i
  rw [← UInt32.toNat_inj, insertAt_toNat, ← UInt32.toNat_inj, last, UInt32.toNat_zero]
  rw [ne_eq, ← UInt32.toNat_inj, UInt32.toNat_zero] at valid
  split <;> omega

theorem deleteAt_inj (n a b : UInt32) (keptA : a ≠ n) (keptB : b ≠ n)
    (same : deleteAt n a = deleteAt n b) : a = b := by
  rw [← UInt32.toNat_inj, deleteAt_toNat, deleteAt_toNat] at same
  simp only [← UInt32.toNat_inj, ne_eq] at *
  split at same <;> split at same <;> omega

theorem deleteAt_ne_zero (n i : UInt32) (valid : i ≠ 0) (nonzero : n ≠ 0) :
    deleteAt n i ≠ 0 := by
  rw [ne_eq, ← UInt32.toNat_inj, deleteAt_toNat]
  simp only [← UInt32.toNat_inj, ne_eq, UInt32.toNat_zero] at *
  split <;> omega

theorem payload_shiftCell (cell : Cell) (row : UInt32) (delta : Int) :
    payload (shiftCell cell row delta) = payload cell := by
  unfold shiftCell
  split <;> rfl

/-- The new position that a row or column edit gives to a position. -/
def placeOf (op : SheetOp) (position : UInt32 × UInt32) : Option (UInt32 × UInt32) :=
  match op with
  | .insertRow n => some (position.1, insertAt n position.2)
  | .insertCol n => some (insertAt n position.1, position.2)
  | .deleteRow n => if position.2 = n then none else some (position.1, deleteAt n position.2)
  | .deleteCol n => if position.1 = n then none else some (deleteAt n position.1, position.2)
  | _ => some position

variable (rt) in
/-- The loop body of a row or column edit. -/
def moveOf : SheetOp → Str → Cell → Option (Str × Cell)
  | .insertRow n => insertRowCell rt n
  | .insertCol n => insertColCell rt n
  | .deleteRow n => deleteRowCell rt n
  | .deleteCol n => deleteColCell rt n
  | _ => fun key cell => (newKey rt some key).map fun k => (k, cell)

theorem moveOf_spec (op : SheetOp) (key : Str) (cell : Cell) :
    (moveOf rt op key cell).map (fun e => (e.1, payload e.2)) =
      (newKey rt (placeOf op) key).map fun k => (k, payload cell) := by
  unfold newKey
  cases op with
  | insertRow n =>
      simp only [moveOf, placeOf, insertRowCell, insertAt]
      cases parseAddr rt key <;> simp [payload_shiftCell]
  | insertCol n =>
      simp only [moveOf, placeOf, insertColCell, insertAt]
      cases parseAddr rt key <;> simp
  | deleteRow n =>
      simp only [moveOf, placeOf, deleteRowCell, deleteAt]
      cases parseAddr rt key with
      | none => rfl
      | some position =>
          dsimp only
          split <;> simp [payload_shiftCell]
  | deleteCol n =>
      simp only [moveOf, placeOf, deleteColCell, deleteAt]
      cases parseAddr rt key with
      | none => rfl
      | some position =>
          dsimp only
          split <;> simp
  | _ =>
      simp only [moveOf, placeOf, newKey]
      cases parseAddr rt key <;> simp

theorem newKey_isSome (op : SheetOp) (key : Str) :
    (newKey rt (placeOf op) key).isSome = !inDeleted rt op key := by
  unfold newKey inDeleted
  cases parsed : parseAddr rt key with
  | none => cases op <;> rfl
  | some position =>
      cases op with
      | deleteRow n =>
          dsimp only [placeOf]
          split <;> simp_all
      | deleteCol n =>
          dsimp only [placeOf]
          split <;> simp_all
      | _ => rfl

theorem placeOf_inj (op : SheetOp) (p q target : UInt32 × UInt32) (validP : p.1 ≠ 0 ∧ p.2 ≠ 0)
    (validQ : q.1 ≠ 0 ∧ q.2 ≠ 0) (placed : target ∈ placeOf op p)
    (placed' : target ∈ placeOf op q) :
    p = q := by
  have same : placeOf op p = placeOf op q :=
    (Option.mem_def.mp placed).trans (Option.mem_def.mp placed').symm
  cases op with
  | insertRow n =>
      simp only [placeOf, Option.some.injEq, Prod.mk.injEq] at same
      exact Prod.ext same.1 (insertAt_inj n _ _ validP.2 validQ.2 same.2)
  | insertCol n =>
      simp only [placeOf, Option.some.injEq, Prod.mk.injEq] at same
      exact Prod.ext (insertAt_inj n _ _ validP.1 validQ.1 same.1) same.2
  | deleteRow n =>
      simp only [placeOf] at same placed placed'
      by_cases keptP : p.2 = n
      · simp [keptP] at placed
      by_cases keptQ : q.2 = n
      · simp [keptQ] at placed'
      simp only [keptP, keptQ, ↓reduceIte, Option.some.injEq, Prod.mk.injEq] at same
      exact Prod.ext same.1 (deleteAt_inj n _ _ keptP keptQ same.2)
  | deleteCol n =>
      simp only [placeOf] at same placed placed'
      by_cases keptP : p.1 = n
      · simp [keptP] at placed
      by_cases keptQ : q.1 = n
      · simp [keptQ] at placed'
      simp only [keptP, keptQ, ↓reduceIte, Option.some.injEq, Prod.mk.injEq] at same
      exact Prod.ext (deleteAt_inj n _ _ keptP keptQ same.1) same.2
  | _ => exact Option.some.inj same

/-- A row or column edit keeps every cell exactly when no two of its new keys meet. -/
theorem contents_moveOf_iff (lawful : rt.Lawful) (op : SheetOp) (cells : StrMap Cell) :
    contents (rebuild (moveOf rt op) cells).toList =
        contents (cells.toList.filter fun e => !inDeleted rt op e.1) ↔
      OnePerPosition rt cells (fun p => (placeOf op p).isSome) ∧
        ∀ key ∈ cells.keys, ∀ position ∈ parseAddr rt key, ∀ target ∈ placeOf op position,
          target.1 = 0 ∨ target.2 = 0 → cells[addrOf target.1 target.2]? = none := by
  rw [← newKey_apart_iff lawful cells (placeOf_inj op),
    ← contents_rebuild_iff (moveOf rt op) cells (moveOf_spec op)]
  simp only [newKey_isSome]

section Sorting

variable (rt) in
/-- The cells whose key parses, under the address it parses to. -/
def canonicalCells (cells : StrMap Cell) : StrMap Cell :=
  rebuild (fun key cell => (parseAddr rt key).map fun p => (addrOf p.1 p.2, cell)) cells

theorem rebuild_congr (f g : Str → Cell → Option (Str × Cell)) (cells : StrMap Cell)
    (same : ∀ entry ∈ cells.toList, f entry.1 entry.2 = g entry.1 entry.2) :
    rebuild f cells = rebuild g cells := by
  unfold rebuild
  apply List.foldl_ext
  intro next entry member
  rw [same entry member]

theorem mem_keys_iff (cells : StrMap Cell) (key : Str) :
    key ∈ cells.keys ↔ ∃ cell, (key, cell) ∈ cells.toList := by
  rw [← Std.ExtTreeMap.map_fst_toList_eq_keys, List.mem_map]
  constructor
  · rintro ⟨entry, member, rfl⟩
    exact ⟨entry.2, member⟩
  · rintro ⟨cell, member⟩
    exact ⟨_, member, rfl⟩

theorem le_max_both (a b : UInt32) : a ≤ max a b ∧ b ≤ max a b := by
  simp only [UInt32.max_def, UInt32.le_iff_toNat_le]
  split <;> omega

/-- The loop of `maxRow` is bounded below by its start and by every row that it sees. -/
theorem maxRow_loop (entries : List (Str × Cell)) (start : UInt32) :
    let most := entries.foldl (fun (most : UInt32) (entry : Str × Cell) =>
      match parseAddr rt entry.1 with
      | some (_, r) => max most r
      | none => most) start
    start ≤ most ∧ ∀ entry ∈ entries, ∀ p ∈ parseAddr rt entry.1, p.2 ≤ most := by
  induction entries generalizing start with
  | nil => simp
  | cons entry entries ih =>
      rw [List.foldl_cons]
      cases found : parseAddr rt entry.1 with
      | none =>
          obtain ⟨first, rest⟩ := ih start
          refine ⟨first, ?_⟩
          rintro other listed p parsedOther
          rcases List.mem_cons.mp listed with rfl | listed
          · rw [found] at parsedOther
            cases parsedOther
          · exact rest other listed p parsedOther
      | some q =>
          obtain ⟨first, rest⟩ := ih (max start q.2)
          refine ⟨UInt32.le_trans (le_max_both start q.2).1 first, ?_⟩
          rintro other listed p parsedOther
          rcases List.mem_cons.mp listed with rfl | listed
          · rw [found] at parsedOther
            cases parsedOther
            exact UInt32.le_trans (le_max_both start q.2).2 first
          · exact rest other listed p parsedOther

theorem le_maxRow (cells : StrMap Cell) (key : Str) (member : key ∈ cells.keys)
    (position : UInt32 × UInt32) (parsed : parseAddr rt key = some position) :
    position.2 ≤ maxRow rt cells := by
  obtain ⟨cell, listed⟩ := (mem_keys_iff cells key).mp member
  exact (maxRow_loop cells.toList 0).2 _ listed position parsed

theorem maxRow_eq_zero_iff (cells : StrMap Cell) :
    maxRow rt cells = 0 ↔ ∀ key ∈ cells.keys, parseAddr rt key = none := by
  constructor
  · intro zero key member
    cases parsed : parseAddr rt key with
    | none => rfl
    | some position =>
        have bound := le_maxRow cells key member position parsed
        rw [zero] at bound
        exact absurd (UInt32.le_zero_iff.mp bound) (parseAddr_ne_zero key position parsed).2
  · intro unparsed
    unfold maxRow
    rw [List.foldl_ext _ (fun most _ => most) 0, List.foldl_fixed]
    intro most entry member
    rw [unparsed entry.1 ((mem_keys_iff cells entry.1).mpr ⟨entry.2, member⟩)]

/-- The two loops write the same cells of the row, one by column and one by address. -/
theorem rowCells_loop (lawful : rt.Lawful) (row : UInt32) (entries : List (Str × Cell))
    (found : RowCells) (next : StrMap Cell) (agree : ∀ c, found[c]? = next[addrOf c row]?) : ∀ c,
    (entries.foldl (fun (found : RowCells) (entry : Str × Cell) =>
      match parseAddr rt entry.1 with
      | some (c, r) => if r = row then found.insert c entry.2 else found
      | none => found) found)[c]? =
    (entries.foldl (fun (next : StrMap Cell) (entry : Str × Cell) =>
      match (parseAddr rt entry.1).map fun p => (addrOf p.1 p.2, entry.2) with
      | some moved => next.insert moved.1 moved.2
      | none => next) next)[addrOf c row]? := by
  induction entries generalizing found next with
  | nil => exact agree
  | cons entry entries ih =>
      rw [List.foldl_cons, List.foldl_cons]
      apply ih
      intro c
      cases parseAddr rt entry.1 with
      | none => exact agree c
      | some p =>
          have address : addrOf p.1 p.2 = addrOf c row ↔ p = (c, row) :=
            ⟨addrOf_inj lawful p (c, row), fun same => by rw [same]⟩
          dsimp only [Option.map_some]
          rw [Std.ExtTreeMap.getElem?_insert]
          simp only [Std.LawfulEqCmp.compare_eq_iff_eq, address]
          split
          · rename_i here
            rw [Std.ExtTreeMap.getElem?_insert]
            simp [Prod.ext_iff, here, agree]
          · rename_i other
            rw [if_neg (fun same => other (congrArg Prod.snd same))]
            exact agree c

theorem rowCells_getElem? (lawful : rt.Lawful) (cells : StrMap Cell) (row col : UInt32) :
    (rowCells rt cells row)[col]? = (canonicalCells rt cells)[addrOf col row]? := by
  unfold rowCells canonicalCells rebuild
  exact rowCells_loop lawful row cells.toList ∅ ∅ (by simp) col

theorem mem_canonicalCells (cells : StrMap Cell) (key : Str) :
    key ∈ canonicalCells rt cells ↔
      ∃ old ∈ cells.keys, ∃ position ∈ parseAddr rt old, key = addrOf position.1 position.2 := by
  rw [canonicalCells, rebuild_eq_ofList, mem_ofList_iff, List.map_filterMap]
  simp only [List.mem_filterMap, Option.map_map, Option.map_eq_some_iff, Function.comp_apply,
    mem_keys_iff]
  constructor
  · rintro ⟨entry, member, position, parsed, rfl⟩
    exact ⟨entry.1, ⟨entry.2, member⟩, position, parsed, rfl⟩
  · rintro ⟨old, ⟨cell, member⟩, position, parsed, rfl⟩
    exact ⟨(old, cell), member, position, parsed, rfl⟩

/-- The entries that rows are written as. -/
def writeRows (rows : List (Nat × RowCells)) : List (Str × Cell) :=
  rows.flatMap fun row => row.2.toList.map fun e => (addrOf e.1 (UInt32.ofNat row.1), e.2)

theorem nodup_writeRows (lawful : rt.Lawful) (rows : List (Nat × RowCells))
    (distinct : (rows.map Prod.fst).Nodup) (small : ∀ row ∈ rows, row.1 < 2 ^ 32) :
    ((writeRows rows).map Prod.fst).Nodup := by
  rw [writeRows, List.map_flatMap, List.nodup_flatMap]
  simp only [List.map_map]
  constructor
  · intro row member
    refine List.Nodup.map_on ?_ (nodup_keys_toList row.2).of_map
    intro a memberA b memberB same
    have columns := addrOf_inj lawful (a.1, UInt32.ofNat row.1) (b.1, UInt32.ofNat row.1) same
    have column : a.1 = b.1 := (Prod.mk.inj columns).1
    exact List.inj_on_of_nodup_map (nodup_keys_toList row.2) memberA memberB column
  · refine (List.pairwise_map.mp distinct).imp_of_mem ?_
    intro a b memberA memberB apart key inA inB
    obtain ⟨entryA, -, rfl⟩ := List.mem_map.mp inA
    obtain ⟨entryB, -, same⟩ := List.mem_map.mp inB
    have positions := addrOf_inj lawful (entryB.1, UInt32.ofNat b.1) (entryA.1, UInt32.ofNat a.1)
      same
    have rows := congrArg (fun p : UInt32 × UInt32 => p.2.toNat) positions
    simp only [UInt32.toNat_ofNat', Nat.mod_eq_of_lt (small a memberA),
      Nat.mod_eq_of_lt (small b memberB)] at rows
    exact apart rows.symm

theorem map_writeRows (rows : List (Nat × RowCells)) :
    (writeRows rows).map (fun e => payload e.2) =
      (rows.map Prod.snd).flatMap fun row => row.toList.map fun e => payload e.2 := by
  rw [writeRows, List.map_flatMap, List.flatMap_map]
  simp only [List.map_map, Function.comp_def]

theorem writeRows_perm (lawful : rt.Lawful) (cells : StrMap Cell) :
    (writeRows ((List.range' 1 (maxRow rt cells).toNat).map fun r =>
      (r, rowCells rt cells (UInt32.ofNat r)))).Perm (canonicalCells rt cells).toList := by
  have size := UInt32.toNat_lt (maxRow rt cells)
  have distinct := nodup_writeRows lawful
    ((List.range' 1 (maxRow rt cells).toNat).map fun r => (r, rowCells rt cells (UInt32.ofNat r)))
    (by simp [List.nodup_range', Function.comp_def]) (by
      intro row member
      obtain ⟨r, inside, rfl⟩ := List.mem_map.mp member
      rw [List.mem_range'_1] at inside
      dsimp only
      omega)
  rw [List.perm_ext_iff_of_nodup distinct.of_map (nodup_keys_toList _).of_map]
  rintro ⟨key, cell⟩
  rw [Std.ExtTreeMap.mem_toList_iff_getElem?_eq_some]
  simp only [writeRows, List.mem_flatMap, List.mem_map, List.mem_range'_1]
  constructor
  · rintro ⟨_, ⟨r, -, rfl⟩, entry, member, same⟩
    obtain ⟨rfl, rfl⟩ := Prod.mk.inj same
    rw [← rowCells_getElem? lawful]
    exact Std.ExtTreeMap.mem_toList_iff_getElem?_eq_some.mp member
  · intro found
    have present : key ∈ canonicalCells rt cells :=
      Std.ExtTreeMap.isSome_getElem?_iff_mem.mp (by rw [found]; rfl)
    obtain ⟨old, member, position, parsed, rfl⟩ := (mem_canonicalCells cells key).mp present
    have bound := UInt32.le_iff_toNat_le.mp (le_maxRow cells old member position parsed)
    have valid := (parseAddr_ne_zero old position parsed).2
    rw [ne_eq, ← UInt32.toNat_inj, UInt32.toNat_zero] at valid
    refine ⟨_, ⟨position.2.toNat, by omega, rfl⟩, (position.1, cell), ?_, ?_⟩
    · rw [Std.ExtTreeMap.mem_toList_iff_getElem?_eq_some, UInt32.ofNat_toNat,
        rowCells_getElem? lawful, found]
    · rw [UInt32.ofNat_toNat]

theorem sortCells_eq (cells : StrMap Cell) (col : UInt32) (ascending : Bool) :
    sortCells rt cells col ascending = Std.ExtTreeMap.ofList
      (writeRows (((sortedRows rt cells col ascending).zipIdx 1).map fun row =>
        (row.2, row.1.2))) compare := by
  unfold sortCells
  dsimp only
  -- No cell stands past the last row, so the first loop keeps none.
  rw [List.foldl_ext _ (fun next _ => next) ∅, List.foldl_fixed]
  · rw [Std.ExtTreeMap.ofList_eq_foldl, writeRows, List.foldl_flatMap, List.foldl_map]
    simp only [List.foldl_map]
  · intro next entry member
    cases parsed : parseAddr rt entry.1 with
    | none => rfl
    | some position =>
        have bound := le_maxRow cells entry.1 ((mem_keys_iff cells entry.1).mpr ⟨_, member⟩)
          position parsed
        dsimp only
        rw [if_neg (by simpa using bound)]

theorem sortedRows_perm (cells : StrMap Cell) (col : UInt32) (ascending : Bool) :
    (sortedRows rt cells col ascending).Perm
      ((List.range' 1 (maxRow rt cells).toNat).map fun r =>
        (UInt32.ofNat r, rowCells rt cells (UInt32.ofNat r))) := List.mergeSort_perm _ _

theorem length_sortedRows (cells : StrMap Cell) (col : UInt32) (ascending : Bool) :
    (sortedRows rt cells col ascending).length = (maxRow rt cells).toNat := by
  rw [(sortedRows_perm cells col ascending).length_eq, List.length_map, List.length_range']

/-- Sorted rows are written at different addresses. -/
theorem nodup_writeRows_sorted (lawful : rt.Lawful) (cells : StrMap Cell) (col : UInt32)
    (ascending : Bool) :
    ((writeRows (((sortedRows rt cells col ascending).zipIdx 1).map fun row =>
      (row.2, row.1.2))).map Prod.fst).Nodup := by
  have size := UInt32.toNat_lt (maxRow rt cells)
  have numbers : (((sortedRows rt cells col ascending).zipIdx 1).map fun row =>
      (row.2, row.1.2)).map Prod.fst = List.range' 1 (maxRow rt cells).toNat := by
    rw [List.map_map, ← length_sortedRows cells col ascending]
    exact List.zipIdx_map_snd 1 _
  apply nodup_writeRows lawful _ (numbers ▸ List.nodup_range')
  intro row member
  have inside := List.mem_map_of_mem (f := Prod.fst) member
  rw [numbers, List.mem_range'_1] at inside
  omega

/-- Sorting keeps what parses, at the positions it parses to. -/
theorem contents_sortCells (lawful : rt.Lawful) (cells : StrMap Cell) (col : UInt32)
    (ascending : Bool) :
    contents (sortCells rt cells col ascending).toList =
      contents (canonicalCells rt cells).toList := by
  have rows : (((sortedRows rt cells col ascending).zipIdx 1).map fun row =>
      (row.2, row.1.2)).map Prod.snd = (sortedRows rt cells col ascending).map Prod.snd := by
    conv_rhs => rw [← List.zipIdx_map_fst 1 (sortedRows rt cells col ascending)]
    rw [List.map_map, List.map_map]
    rfl
  rw [contents, contents, Multiset.coe_eq_coe, sortCells_eq]
  refine ((toList_ofList_perm _ (nodup_writeRows_sorted lawful cells col ascending)).map _).trans ?_
  refine List.Perm.trans ?_ ((writeRows_perm lawful cells).map _)
  rw [map_writeRows, map_writeRows, rows]
  refine (((sortedRows_perm cells col ascending).map Prod.snd).flatMap_right _).trans
    (List.Perm.of_eq ?_)
  rw [List.map_map, List.map_map]
  rfl

theorem contents_canonicalCells_iff (lawful : rt.Lawful) (cells : StrMap Cell) :
    contents (canonicalCells rt cells).toList = contents cells.toList ↔
      (∀ key ∈ cells.keys, (parseAddr rt key).isSome = true) ∧
        OnePerPosition rt cells (fun _ => true) := by
  -- With every key parsed, nothing is dropped, and nothing wraps.
  have parsed (all : ∀ key ∈ cells.keys, (parseAddr rt key).isSome = true) :
      contents (canonicalCells rt cells).toList = contents cells.toList ↔
        OnePerPosition rt cells (fun _ => true) := by
    have same : canonicalCells rt cells = rebuild (moveOf rt (.sortRange 1 true)) cells := by
      apply rebuild_congr
      intro entry member
      obtain ⟨position, found⟩ := Option.isSome_iff_exists.mp
        (all entry.1 ((mem_keys_iff cells entry.1).mpr ⟨_, member⟩))
      simp [moveOf, newKey, found]
    have exact_ := contents_moveOf_iff lawful (.sortRange 1 true) cells
    have nothing : (cells.toList.filter fun e => !inDeleted rt (.sortRange 1 true) e.1) =
        cells.toList := List.filter_eq_self.mpr (fun _ _ => rfl)
    rw [nothing, ← same] at exact_
    refine exact_.trans ⟨And.left, fun single => ⟨single, ?_⟩⟩
    intro key _ position found target placed zero
    cases placed
    have valid := parseAddr_ne_zero key position found
    rcases zero with zero | zero
    · exact absurd zero valid.1
    · exact absurd zero valid.2
  refine ⟨?_, fun ⟨all, single⟩ => (parsed all).mpr single⟩
  intro same
  have all : ∀ key ∈ cells.keys, (parseAddr rt key).isSome = true := by
    have size := (Multiset.coe_eq_coe.mp same).length_eq
    rw [List.length_map, List.length_map, Std.ExtTreeMap.length_toList, canonicalCells,
      rebuild_eq_ofList] at size
    have written := size ▸ Std.ExtTreeMap.size_ofList_le
    have full := List.filterMap_length_eq_length.mp
      (Nat.le_antisymm (List.length_filterMap_le _ _) written)
    intro key member
    obtain ⟨cell, listed⟩ := (mem_keys_iff cells key).mp member
    simpa using full _ listed
  exact ⟨all, (parsed all).mp same⟩

end Sorting

theorem contents_filter_of_none (cells : StrMap Cell) (op : SheetOp)
    (none_ : ∀ key, inDeleted rt op key = false) :
    contents (cells.toList.filter fun e => !inDeleted rt op e.1) = contents cells.toList := by
  rw [List.filter_eq_self.mpr]
  intro entry _
  rw [none_, Bool.not_false]

/-- No address lies in a row or column 0. -/
theorem inDeleted_zero (key : Str) :
    inDeleted rt (.deleteRow 0) key = false ∧ inDeleted rt (.deleteCol 0) key = false := by
  unfold inDeleted
  cases parsed : parseAddr rt key with
  | none => exact ⟨rfl, rfl⟩
  | some position =>
      have valid := parseAddr_ne_zero key position parsed
      exact ⟨by simpa using valid.2, by simpa using valid.1⟩

variable (rt) in
/-- The cells that a structural edit leaves in the active tab. -/
def structuralCells (cells : StrMap Cell) (op : SheetOp) : StrMap Cell :=
  match op with
  | .insertRow n | .deleteRow n | .insertCol n | .deleteCol n =>
      if n = 0 then cells else rebuild (moveOf rt op) cells
  | .sortRange n ascending =>
      if n = 0 ∨ maxRow rt cells = 0 then cells else sortCells rt cells n ascending
  | _ => cells

/-- A structural edit writes its cells to both copies of the active tab. -/
theorem structural_spec (sheet edited : EratSheet) (op : SheetOp)
    (edit : structural rt sheet op = some edited) :
    edited.cells = structuralCells rt sheet.normalizeTabs.cells op ∧ Mirror edited ∧
      edited.activeSheet = sheet.normalizeTabs.activeSheet := by
  have mirror := mirror_normalizeTabs sheet
  have normal := normalizeTabs_of_mirror _ mirror
  have replaced (cells : StrMap Cell) : Mirror (sheet.normalizeTabs.replaceCells cells) ∧
      (sheet.normalizeTabs.replaceCells cells).activeSheet = sheet.normalizeTabs.activeSheet := by
    have tabs := mirror.1
    exact ⟨mirror_flushActiveToTab _ (by dsimp only; omega), flushActiveToTab_activeSheet _ tabs⟩
  cases op with
  | insertRow n | deleteRow n | insertCol n | deleteCol n =>
      simp only [structural, EratSheet.insertRow, EratSheet.deleteRow, EratSheet.insertCol,
        EratSheet.deleteCol, normal, Option.some.injEq] at edit
      simp only [structuralCells, moveOf]
      split at edit
      · rename_i zero
        rw [if_pos zero, ← edit]
        exact ⟨rfl, mirror, rfl⟩
      · rename_i nonzero
        rw [if_neg nonzero, ← edit]
        exact ⟨flushActiveToTab_cells _, replaced _⟩
  | sortRange n ascending =>
      simp only [structural, EratSheet.sortRowsByCol, normal, Option.some.injEq] at edit
      simp only [structuralCells]
      split at edit
      · rename_i zero
        rw [if_pos (Or.inl zero), ← edit]
        exact ⟨rfl, mirror, rfl⟩
      · rename_i nonzero
        split at edit
        · rename_i unparsed
          rw [if_pos (Or.inr unparsed), ← edit]
          exact ⟨rfl, mirror, rfl⟩
        · rename_i parsed
          rw [if_neg (not_or.mpr ⟨nonzero, parsed⟩), ← edit]
          exact ⟨flushActiveToTab_cells _, replaced _⟩
  | _ => cases edit

theorem room_insertRow_iff (cells : StrMap Cell) (n : UInt32) :
    (∀ key ∈ cells.keys, ∀ position ∈ parseAddr rt key,
      ∀ target ∈ placeOf (.insertRow n) position, target.1 = 0 ∨ target.2 = 0 →
        cells[addrOf target.1 target.2]? = none) ↔
      RoomToWrap rt cells (fun p => p.2 = lastIndex) (fun p => addrOf p.1 0) := by
  refine forall₂_congr fun key _ => forall₂_congr fun position parsed => ?_
  obtain ⟨col, row⟩ := parseAddr_ne_zero key position parsed
  have wraps := insertAt_eq_zero_iff n position.2 row
  simp only [placeOf, Option.mem_def, Option.some.injEq, forall_eq', col, false_or,
    decide_eq_true_eq]
  constructor
  · intro room last
    rw [← wraps.mpr last]
    exact room (wraps.mpr last)
  · intro room zero
    rw [zero]
    exact room (wraps.mp zero)

theorem room_insertCol_iff (cells : StrMap Cell) (n : UInt32) :
    (∀ key ∈ cells.keys, ∀ position ∈ parseAddr rt key,
      ∀ target ∈ placeOf (.insertCol n) position, target.1 = 0 ∨ target.2 = 0 →
        cells[addrOf target.1 target.2]? = none) ↔
      RoomToWrap rt cells (fun p => p.1 = lastIndex) (fun p => addrOf 0 p.2) := by
  refine forall₂_congr fun key _ => forall₂_congr fun position parsed => ?_
  obtain ⟨col, row⟩ := parseAddr_ne_zero key position parsed
  have wraps := insertAt_eq_zero_iff n position.1 col
  simp only [placeOf, Option.mem_def, Option.some.injEq, forall_eq', row, or_false,
    decide_eq_true_eq]
  constructor
  · intro room last
    rw [← wraps.mpr last]
    exact room (wraps.mpr last)
  · intro room zero
    rw [zero]
    exact room (wraps.mp zero)

/-- A deletion moves no position to 0. -/
theorem placeOf_delete_ne_zero (n : UInt32) (nonzero : n ≠ 0) (op : SheetOp)
    (deletes : op = .deleteRow n ∨ op = .deleteCol n) (position target : UInt32 × UInt32)
    (valid : position.1 ≠ 0 ∧ position.2 ≠ 0) (placed : target ∈ placeOf op position) :
    ¬ (target.1 = 0 ∨ target.2 = 0) := by
  rcases deletes with rfl | rfl
  · simp only [placeOf, Option.mem_def, Option.ite_none_left_eq_some, Option.some.injEq] at placed
    obtain ⟨-, rfl⟩ := placed
    exact not_or.mpr ⟨valid.1, deleteAt_ne_zero n _ valid.2 nonzero⟩
  · simp only [placeOf, Option.mem_def, Option.ite_none_left_eq_some, Option.some.injEq] at placed
    obtain ⟨-, rfl⟩ := placed
    exact not_or.mpr ⟨deleteAt_ne_zero n _ valid.1 nonzero, valid.2⟩

theorem structuralCells_keeps_iff (lawful : rt.Lawful) (cells : StrMap Cell) (op : SheetOp) :
    contents (structuralCells rt cells op).toList =
        contents (cells.toList.filter fun e => !inDeleted rt op e.1) ↔
      Separate rt cells op := by
  have moved := contents_moveOf_iff lawful op cells
  -- After a deletion only the positions matter.
  have room (n : UInt32) (nonzero : n ≠ 0) (deletes : op = .deleteRow n ∨ op = .deleteCol n) :
      ∀ key ∈ cells.keys, ∀ position ∈ parseAddr rt key, ∀ target ∈ placeOf op position,
        target.1 = 0 ∨ target.2 = 0 → cells[addrOf target.1 target.2]? = none := by
    intro key _ position parsed target placed zero
    exact absurd zero (placeOf_delete_ne_zero n nonzero op deletes position target
      (parseAddr_ne_zero key position parsed) placed)
  cases op with
  | insertRow n =>
      rw [structuralCells, Separate]
      by_cases zero : n = 0
      · simp [zero, contents_filter_of_none cells (.insertRow 0) fun _ => rfl]
      rw [if_neg zero, moved, room_insertRow_iff]
      simp only [ne_eq, zero, not_false_eq_true, forall_const]
      rfl
  | insertCol n =>
      rw [structuralCells, Separate]
      by_cases zero : n = 0
      · simp [zero, contents_filter_of_none cells (.insertCol 0) fun _ => rfl]
      rw [if_neg zero, moved, room_insertCol_iff]
      simp only [ne_eq, zero, not_false_eq_true, forall_const]
      rfl
  | deleteRow n =>
      rw [structuralCells, Separate]
      by_cases zero : n = 0
      · simp [zero, contents_filter_of_none cells (.deleteRow 0) fun key => (inDeleted_zero key).1]
      have counts : (fun p => (placeOf (.deleteRow n) p).isSome) =
          fun p : UInt32 × UInt32 => decide (p.2 ≠ n) := by
        funext p
        by_cases here : p.2 = n <;> simp [placeOf, here]
      rw [if_neg zero, moved, and_iff_left (room n zero (Or.inl rfl)), counts]
      exact ⟨fun single _ => single, fun single => single zero⟩
  | deleteCol n =>
      rw [structuralCells, Separate]
      by_cases zero : n = 0
      · simp [zero, contents_filter_of_none cells (.deleteCol 0) fun key => (inDeleted_zero key).2]
      have counts : (fun p => (placeOf (.deleteCol n) p).isSome) =
          fun p : UInt32 × UInt32 => decide (p.1 ≠ n) := by
        funext p
        by_cases here : p.1 = n <;> simp [placeOf, here]
      rw [if_neg zero, moved, and_iff_left (room n zero (Or.inr rfl)), counts]
      exact ⟨fun single _ => single, fun single => single zero⟩
  | sortRange n ascending =>
      simp only [structuralCells, Separate]
      rw [contents_filter_of_none cells (.sortRange n ascending) fun _ => rfl]
      by_cases zero : n = 0
      · simp [zero]
      by_cases unparsed : maxRow rt cells = 0
      · rw [if_pos (Or.inr unparsed), ← maxRow_eq_zero_iff]
        exact iff_of_true rfl fun _ => Or.inl unparsed
      rw [if_neg (not_or.mpr ⟨zero, unparsed⟩), contents_sortCells lawful,
        contents_canonicalCells_iff lawful, ← maxRow_eq_zero_iff]
      simp [zero, unparsed]
  | _ => exact iff_of_true (by rw [contents_filter_of_none _ _ fun _ => rfl]; rfl) trivial

/-- A structural edit keeps every cell exactly when the cells are separate before it. -/
theorem keepsCells_iff (lawful : rt.Lawful) (sheet : EratSheet) (op : SheetOp) :
    KeepsCells rt sheet op ↔ Separate rt sheet.normalizeTabs.cells op := by
  rw [← structuralCells_keeps_iff lawful]
  unfold KeepsCells
  cases edit : structural rt sheet op with
  | some edited =>
      obtain ⟨cells, mirror, -⟩ := structural_spec sheet edited op edit
      simp only [Option.mem_def, Option.some.injEq, forall_eq', ← mirror.2, cells]
  | none =>
      refine iff_of_true (by simp) ?_
      cases op with
      | insertRow | deleteRow | insertCol | deleteCol | sortRange => cases edit
      | _ => rw [contents_filter_of_none _ _ fun _ => rfl]; rfl

variable (rt) in
/-- A structural step of a run keeps every cell. -/
def StepKeepsCells (state : Option EratSheet) (op : SheetOp) : Prop :=
  ∀ sheet ∈ state, KeepsCells rt sheet op

variable (rt) in
/-- Before a structural step of a run, the cells of the active tab are separate. -/
def StepSeparate (state : Option EratSheet) (op : SheetOp) : Prop :=
  ∀ sheet ∈ state, Separate rt sheet.normalizeTabs.cells op

/-- Positions are many; what an address parses to is at most one. -/
instance (priority := 2000) decidableForallParsed (parsed : Option (UInt32 × UInt32))
    (p : UInt32 × UInt32 → Prop) [DecidablePred p] : Decidable (∀ position ∈ parsed, p position) :=
  Option.decidableForallMem parsed

instance (cells : StrMap Cell) (counts : UInt32 × UInt32 → Bool) :
    Decidable (OnePerPosition rt cells counts) :=
  inferInstanceAs (Decidable (∀ _ ∈ _, ∀ _ ∈ _, ∀ _ ∈ _, _ → _ → _))

instance (cells : StrMap Cell) (atLast : UInt32 × UInt32 → Bool)
    (wrapped : UInt32 × UInt32 → Str) : Decidable (RoomToWrap rt cells atLast wrapped) :=
  inferInstanceAs (Decidable (∀ _ ∈ _, ∀ _ ∈ _, _ → _))

instance (cells : StrMap Cell) (op : SheetOp) : Decidable (Separate rt cells op) :=
  match op with
  | .insertRow _ | .insertCol _ => inferInstanceAs (Decidable (_ → _ ∧ _))
  | .deleteRow _ | .deleteCol _ => inferInstanceAs (Decidable (_ → OnePerPosition ..))
  | .sortRange .. =>
      inferInstanceAs (Decidable (_ → (∀ _ ∈ _, _) ∨ (∀ _ ∈ _, _) ∧ OnePerPosition ..))
  | .setCell .. | .clearCell .. | .setFormat .. | .setCellStyle .. | .setFilterCriteria ..
  | .switchSheet .. | .addSheet .. | .renameSheet .. | .reorderSheet .. | .protectSheet ..
  | .freezePanes .. | .setMerges .. | .setProtectedRanges .. | .setCharts .. | .setScenarios .. =>
      inferInstanceAs (Decidable True)

instance (sheet : EratSheet) (op : SheetOp) : Decidable (KeepsCells rt sheet op) :=
  inferInstanceAs (Decidable (∀ _ ∈ _, _ = _))

instance (state : Option EratSheet) (op : SheetOp) : Decidable (StepKeepsCells rt state op) :=
  inferInstanceAs (Decidable (∀ _ ∈ state, _))

instance (state : Option EratSheet) (op : SheetOp) : Decidable (StepSeparate rt state op) :=
  inferInstanceAs (Decidable (∀ _ ∈ state, _))

/-- Along any run, every structural step keeps the cells of the active tab exactly when they are
separate before each of these steps. -/
theorem structural_steps_keep_cells_iff (lawful : rt.Lawful) (sheet : EratSheet)
    (ops : List SheetOp) :
    Guarded (sheetStep rt) (StepKeepsCells rt) (some sheet) ops ↔
      Guarded (sheetStep rt) (StepSeparate rt) (some sheet) ops := by
  refine forall₃_congr fun front op _ => ?_
  exact forall₂_congr fun state _ => keepsCells_iff lawful state op

/-- Two cells, an inserted row and a deleted column. -/
theorem structural_steps_keep_two_cells :
    Guarded (sheetStep Runtime.plain) (StepKeepsCells Runtime.plain) (some EratSheet.empty)
      [.setCell "A1".toList "x".toList [], .setCell "b2".toList "y".toList [], .insertRow 1,
        .deleteCol 2] := by
  apply (structural_steps_keep_cells_iff Runtime.plain_lawful EratSheet.empty _).mpr
  simp only [guarded_cons]
  exact ⟨by decide, by decide, by decide, by decide, guarded_nil _ _ _⟩

/-- `A1` and `A01` are two cells of one position, and the insertion keeps one of them. -/
theorem insertRow_loses_alias :
    ¬ ∀ (rt : Runtime) (ops : List SheetOp), rt.Lawful →
      Guarded (sheetStep rt) (StepKeepsCells rt) (some EratSheet.empty) ops := by
  intro all
  have kept := all Runtime.plain [.setCell "A1".toList "x".toList [],
    .setCell "A01".toList "y".toList [], .insertRow 1] Runtime.plain_lawful
  have last := kept [.setCell "A1".toList "x".toList [], .setCell "A01".toList "y".toList []]
    (.insertRow 1) (List.prefix_refl _)
  revert last
  decide

end EraOne.Tables
