import EraOne.StableSort
import EraOne.TablesStructure

set_option autoImplicit false

/- Sorting of rows in `model.rs`: the permutation that it applies. -/
namespace EraOne.Tables

open EratSheet Maps

variable {rt : Runtime}

/-- Keys that are addresses as `addr_of` writes them. -/
def CanonicalKeys (cells : StrMap Cell) : Prop :=
  ∀ key ∈ cells.keys, ∃ col row, col ≠ 0 ∧ row ≠ 0 ∧ key = addrOf col row

variable (rt) in
/-- The text that a row is sorted by. -/
def keyText (cells : StrMap Cell) (col row : UInt32) : Str :=
  rt.lower ((cells[addrOf col row]?.map fun cell => if cell.formula.isEmpty then cell.value
    else cell.formula).getD [])

/-- Ascending or descending texts. -/
def KeyOrder (ascending : Bool) (a b : Str) : Prop :=
  if ascending then (compare a b).isLE = true else (compare b a).isLE = true

theorem canonicalCells_of_keys (lawful : rt.Lawful) (cells : StrMap Cell)
    (canonical : CanonicalKeys cells) :
    canonicalCells rt cells = cells := by
  have kept : canonicalCells rt cells = rebuild (fun key cell => some (key, cell)) cells := by
    apply rebuild_congr
    intro entry member
    obtain ⟨col, row, hcol, hrow, shape⟩ :=
      canonical entry.1 ((mem_keys_iff cells entry.1).mpr ⟨_, member⟩)
    rw [shape, parseAddr_addrOf lawful col row hcol hrow]
    rfl
  rw [kept, rebuild_eq_ofList, List.filterMap_some]
  apply Std.ExtTreeMap.ext_toList
  exact toList_ofList_perm _ (nodup_keys_toList cells)

theorem sortKey_rowCells (lawful : rt.Lawful) (cells : StrMap Cell)
    (canonical : CanonicalKeys cells) (col row : UInt32) :
    sortKey rt col (rowCells rt cells row) = keyText rt cells col row := by
  unfold sortKey keyText
  rw [rowCells_getElem? lawful, canonicalCells_of_keys lawful cells canonical]

theorem sortLe_iff (col : UInt32) (ascending : Bool) (a b : UInt32 × RowCells) :
    sortLe rt col ascending a b = true ↔
      KeyOrder ascending (sortKey rt col a.2) (sortKey rt col b.2) := by
  unfold sortLe KeyOrder
  cases ascending with
  | true => exact Iff.rfl
  | false =>
      dsimp only
      rw [if_neg Bool.false_ne_true, if_neg Bool.false_ne_true, ← Std.OrientedCmp.eq_swap]

theorem keyOrder_total (ascending : Bool) (a b : Str) :
    KeyOrder ascending a b ∨ KeyOrder ascending b a := by
  have either : (compare a b).isLE = true ∨ (compare b a).isLE = true := by
    rw [@Std.OrientedCmp.eq_swap _ compare _ b a]
    cases compare a b with
    | lt => exact Or.inl rfl
    | eq => exact Or.inl rfl
    | gt => exact Or.inr rfl
  unfold KeyOrder
  cases ascending with
  | true => exact either
  | false => exact either.symm

theorem keyOrder_trans (ascending : Bool) (a b c : Str) (first : KeyOrder ascending a b)
    (second : KeyOrder ascending b c) :
    KeyOrder ascending a c := by
  unfold KeyOrder at *
  cases ascending with
  | true => exact Std.TransCmp.isLE_trans first second
  | false => exact Std.TransCmp.isLE_trans second first

/-- Equal texts are in order both ways. -/
theorem keyOrder_of_eq (ascending : Bool) (a b : Str) (same : a = b) : KeyOrder ascending a b := by
  rw [same]
  unfold KeyOrder
  cases ascending with
  | true => exact Std.ReflCmp.isLE_rfl
  | false => exact Std.ReflCmp.isLE_rfl

/-- A cell of the sorted rows stands where its row was put, in its old column. -/
theorem getElem?_sortCells (lawful : rt.Lawful) (cells : StrMap Cell) (col : UInt32)
    (ascending : Bool) (i : Nat) (row : UInt32 × RowCells)
    (placed : (sortedRows rt cells col ascending)[i]? = some row) (c : UInt32) :
    (sortCells rt cells col ascending)[addrOf c (UInt32.ofNat (i + 1))]? = row.2[c]? := by
  have small := UInt32.toNat_lt (maxRow rt cells)
  have size := @length_sortedRows rt cells col ascending
  apply Option.ext
  intro cell
  rw [← Std.ExtTreeMap.mem_toList_iff_getElem?_eq_some,
    ← Std.ExtTreeMap.mem_toList_iff_getElem?_eq_some, sortCells_eq,
      (toList_ofList_perm _ (nodup_writeRows_sorted lawful cells col ascending)).mem_iff, writeRows,
        List.mem_flatMap]
  constructor
  · rintro ⟨_, listed, written⟩
    obtain ⟨⟨other, n⟩, within, rfl⟩ := List.mem_map.mp listed
    obtain ⟨entry, member, same⟩ := List.mem_map.mp written
    obtain ⟨first, at_⟩ := List.mk_mem_zipIdx_iff_le_and_getElem?_sub.mp within
    obtain ⟨bound, -⟩ := List.getElem?_eq_some_iff.mp at_
    obtain ⟨inside, -⟩ := List.getElem?_eq_some_iff.mp placed
    obtain ⟨address, content⟩ := Prod.mk.inj same
    have position :=
      Prod.mk.inj (addrOf_inj lawful (entry.1, UInt32.ofNat n) (c, UInt32.ofNat (i + 1)) address)
    have number := congrArg UInt32.toNat position.2
    rw [UInt32.toNat_ofNat', UInt32.toNat_ofNat', Nat.mod_eq_of_lt (by omega),
      Nat.mod_eq_of_lt (by omega)] at number
    rw [number, Nat.add_sub_cancel, placed] at at_
    have whole : entry = (c, cell) := Prod.ext position.1 content
    rw [Option.some.inj at_, ← whole]
    exact member
  · intro member
    refine ⟨(i + 1, row.2), List.mem_map.mpr ⟨(row, i + 1), ?_, rfl⟩,
      List.mem_map.mpr ⟨(c, cell), member, rfl⟩⟩
    exact List.mk_mem_zipIdx_iff_le_and_getElem?_sub.mpr
      ⟨Nat.le_add_left 1 i, by rw [Nat.add_sub_cancel, placed]⟩

/-- A row of the sorted list is one of the rows that were read. -/
theorem exists_row (cells : StrMap Cell) (col : UInt32) (ascending : Bool) (row : UInt32 × RowCells)
    (member : row ∈ sortedRows rt cells col ascending) :
    row.1 ≠ 0 ∧ row.1 ≤ maxRow rt cells ∧ row.2 = rowCells rt cells row.1 := by
  have size := UInt32.toNat_lt (maxRow rt cells)
  obtain ⟨r, inside, rfl⟩ :=
    List.mem_map.mp ((sortedRows_perm cells col ascending).mem_iff.mp member)
  rw [List.mem_range'_1] at inside
  have exact_ : (UInt32.ofNat r).toNat = r := by
    rw [UInt32.toNat_ofNat', Nat.mod_eq_of_lt (by omega)]
  refine ⟨fun zero => ?_, UInt32.le_iff_toNat_le.mpr (by rw [exact_]; omega), rfl⟩
  have none_ : (UInt32.ofNat r).toNat = 0 := congrArg UInt32.toNat zero
  omega

theorem pairwise_sortedRows (cells : StrMap Cell) (col : UInt32) (ascending : Bool) :
    (sortedRows rt cells col ascending).Pairwise fun a b =>
      sortLe rt col ascending a b = true ∧ (sortLe rt col ascending b a = true → a.1 < b.1) := by
  have size := UInt32.toNat_lt (maxRow rt cells)
  have rising :
      ((List.range' 1 (maxRow rt cells).toNat).map fun r =>
        (UInt32.ofNat r, rowCells rt cells (UInt32.ofNat r))).Pairwise
      fun a b => a.1 < b.1 := by
    rw [List.pairwise_map]
    have numbers : (List.range' 1 (maxRow rt cells).toNat).Pairwise (· < ·) :=
      List.pairwise_lt_range' 1
    refine numbers.imp_of_mem ?_
    intro a b inA inB below
    rw [List.mem_range'_1] at inA inB
    rw [UInt32.lt_iff_toNat_lt, UInt32.toNat_ofNat', UInt32.toNat_ofNat',
      Nat.mod_eq_of_lt (by omega), Nat.mod_eq_of_lt (by omega)]
    exact below
  apply StableSort.pairwise_stable _ _ _ _ _ rising
  · refine rising.imp fun {a b} below same => ?_
    rw [same] at below
    exact absurd below (UInt32.lt_irrefl _)
  · intro a b
    rw [Bool.or_eq_true, sortLe_iff, sortLe_iff]
    exact keyOrder_total ascending _ _
  · intro a b c first second
    rw [sortLe_iff] at *
    exact keyOrder_trans ascending _ _ _ first second

/-- Without rows there are no cells. -/
theorem structuralCells_of_keys (lawful : rt.Lawful) (cells : StrMap Cell) (col : UInt32)
    (ascending : Bool) (column : col ≠ 0) (canonical : CanonicalKeys cells) :
    structuralCells rt cells (.sortRange col ascending) = sortCells rt cells col ascending := by
  unfold structuralCells
  dsimp only
  by_cases zero : maxRow rt cells = 0
  · rw [if_pos (Or.inr zero)]
    have nothing : sortedRows rt cells col ascending = [] := by
      apply List.eq_nil_of_length_eq_zero
      rw [length_sortedRows, zero]
      rfl
    have empty : cells = ∅ := by
      apply Std.ExtTreeMap.ext_getElem?
      intro key
      rw [Std.ExtTreeMap.getElem?_empty]
      by_contra some_
      obtain ⟨cell, found⟩ := Option.ne_none_iff_exists'.mp some_
      have member := (mem_keys_iff cells key).mpr
        ⟨cell, Std.ExtTreeMap.mem_toList_iff_getElem?_eq_some.mpr found⟩
      obtain ⟨c, r, hcol, hrow, shape⟩ := canonical key member
      have none_ := (maxRow_eq_zero_iff cells).mp zero key member
      rw [shape, parseAddr_addrOf lawful c r hcol hrow] at none_
      cases none_
    rw [sortCells_eq, nothing, empty]
    rfl
  · rw [if_neg (not_or.mpr ⟨column, zero⟩)]

variable (rt) in
/-- The old numbers of the rows, in their new order. -/
def rowOrder (cells : StrMap Cell) (col : UInt32) (ascending : Bool) : List UInt32 :=
  (sortedRows rt cells col ascending).map Prod.fst

theorem rowOrder_perm (cells : StrMap Cell) (col : UInt32) (ascending : Bool) :
    (rowOrder rt cells col ascending).Perm
    ((List.range' 1 (maxRow rt cells).toNat).map UInt32.ofNat) := by
  have perm := (@sortedRows_perm rt cells col ascending).map Prod.fst
  rw [List.map_map] at perm
  exact perm

theorem getElem?_rowOrder (lawful : rt.Lawful) (cells : StrMap Cell)
    (canonical : CanonicalKeys cells) (col : UInt32) (ascending : Bool) (i : Nat) (r : UInt32)
    (at_ : (rowOrder rt cells col ascending)[i]? = some r) (c : UInt32) :
    (sortCells rt cells col ascending)[addrOf c (UInt32.ofNat (i + 1))]? = cells[addrOf c r]? := by
  unfold rowOrder at at_
  rw [List.getElem?_map, Option.map_eq_some_iff] at at_
  obtain ⟨row, placed, number⟩ := at_
  obtain ⟨-, -, content⟩ := exists_row cells col ascending row (List.mem_of_getElem? placed)
  rw [getElem?_sortCells lawful cells col ascending i row placed, content, number,
    rowCells_getElem? lawful, canonicalCells_of_keys lawful cells canonical]

theorem exists_position (lawful : rt.Lawful) (cells : StrMap Cell) (canonical : CanonicalKeys cells)
    (col : UInt32) (ascending : Bool) (key : Str)
    (member : key ∈ (sortCells rt cells col ascending).keys) :
    ∃ c r, c ≠ 0 ∧ r ≠ 0 ∧ r ≤ maxRow rt cells ∧ key = addrOf c r := by
  have size := UInt32.toNat_lt (maxRow rt cells)
  obtain ⟨cell, listed⟩ := (mem_keys_iff _ key).mp member
  rw [sortCells_eq,
    (toList_ofList_perm _ (nodup_writeRows_sorted lawful cells col ascending)).mem_iff, writeRows,
    List.mem_flatMap] at listed
  obtain ⟨_, numbered, written⟩ := listed
  obtain ⟨⟨row, n⟩, within, rfl⟩ := List.mem_map.mp numbered
  obtain ⟨entry, inRow, same⟩ := List.mem_map.mp written
  obtain ⟨first, at_⟩ := List.mk_mem_zipIdx_iff_le_and_getElem?_sub.mp within
  obtain ⟨bound, -⟩ := List.getElem?_eq_some_iff.mp at_
  rw [length_sortedRows] at bound
  obtain ⟨-, -, content⟩ := exists_row cells col ascending row (List.mem_of_getElem? at_)
  have found : cells[addrOf entry.1 row.1]? = some entry.2 := by
    rw [← canonicalCells_of_keys lawful cells canonical, ← rowCells_getElem? lawful, ← content]
    exact Std.ExtTreeMap.mem_toList_iff_getElem?_eq_some.mp inRow
  obtain ⟨c, r, column, row', address⟩ := canonical _
    ((mem_keys_iff cells _).mpr ⟨entry.2, Std.ExtTreeMap.mem_toList_iff_getElem?_eq_some.mpr found⟩)
  have position := Prod.mk.inj (addrOf_inj lawful (entry.1, row.1) (c, r) address)
  have exact_ : (UInt32.ofNat n).toNat = n := by
    rw [UInt32.toNat_ofNat', Nat.mod_eq_of_lt (by omega)]
  refine ⟨entry.1, UInt32.ofNat n, position.1 ▸ column, fun zero => ?_,
    UInt32.le_iff_toNat_le.mpr (by rw [exact_]; omega),
    (Prod.mk.inj same).1.symm⟩
  have none_ : (UInt32.ofNat n).toNat = 0 := congrArg UInt32.toNat zero
  omega

theorem pairwise_rowOrder (lawful : rt.Lawful) (cells : StrMap Cell)
    (canonical : CanonicalKeys cells) (col : UInt32) (ascending : Bool) :
    (rowOrder rt cells col ascending).Pairwise fun a b =>
      KeyOrder ascending (keyText rt cells col a) (keyText rt cells col b) ∧
        (keyText rt cells col a = keyText rt cells col b → a < b) := by
  unfold rowOrder
  rw [List.pairwise_map]
  refine (pairwise_sortedRows cells col ascending).imp_of_mem ?_
  intro a b inA inB order
  obtain ⟨-, -, contentA⟩ := exists_row cells col ascending a inA
  obtain ⟨-, -, contentB⟩ := exists_row cells col ascending b inB
  rw [sortLe_iff, sortLe_iff, contentA, contentB, sortKey_rowCells lawful cells canonical,
    sortKey_rowCells lawful cells canonical] at order
  exact ⟨order.1, fun same => order.2 (keyOrder_of_eq ascending _ _ same.symm)⟩

theorem sortRowsByCol_cells (lawful : rt.Lawful) (sheet : EratSheet) (col : UInt32)
    (ascending : Bool) (column : col ≠ 0) (canonical : CanonicalKeys sheet.normalizeTabs.cells) :
    (sheet.sortRowsByCol rt col ascending).cells = sortCells rt sheet.normalizeTabs.cells col
    ascending ∧
      Mirror (sheet.sortRowsByCol rt col ascending) := by
  have again : sheet.normalizeTabs.sortRowsByCol rt col ascending = sheet.sortRowsByCol rt col
      ascending := by
    unfold EratSheet.sortRowsByCol
    rw [normalizeTabs_of_mirror _ (mirror_normalizeTabs sheet)]
  obtain ⟨sorted, mirror, -⟩ := @structural_spec rt sheet _ (.sortRange col ascending) rfl
  rw [again] at sorted mirror
  rw [sorted]
  exact ⟨structuralCells_of_keys lawful _ col ascending column canonical, mirror⟩

/-- Sorting puts the rows into one order, with all their cells: by the texts of the key column, and
as they were where the texts are equal. -/
theorem sortRowsByCol_spec (lawful : rt.Lawful) (sheet : EratSheet) (col : UInt32)
    (ascending : Bool) (column : col ≠ 0) (canonical : CanonicalKeys sheet.normalizeTabs.cells) :
    ∃ order : List UInt32,
      order.Perm ((List.range' 1 (maxRow rt sheet.normalizeTabs.cells).toNat).map UInt32.ofNat) ∧
      (∀ i r, order[i]? = some r →
        ∀ c, (sheet.sortRowsByCol rt col ascending).cells[addrOf c (UInt32.ofNat (i + 1))]? =
          sheet.normalizeTabs.cells[addrOf c r]?) ∧
      (∀ key ∈ (sheet.sortRowsByCol rt col ascending).cells.keys, ∃ c r, c ≠ 0 ∧ r ≠ 0 ∧
        r ≤ maxRow rt sheet.normalizeTabs.cells ∧ key = addrOf c r) ∧
      order.Pairwise (fun a b =>
        KeyOrder ascending (keyText rt sheet.normalizeTabs.cells col a)
          (keyText rt sheet.normalizeTabs.cells col b) ∧
          (keyText rt sheet.normalizeTabs.cells col a = keyText rt sheet.normalizeTabs.cells col b →
            a < b)) ∧
      Mirror (sheet.sortRowsByCol rt col ascending) := by
  obtain ⟨written, mirror⟩ := sortRowsByCol_cells lawful sheet col ascending column canonical
  rw [written]
  exact ⟨rowOrder rt sheet.normalizeTabs.cells col ascending, rowOrder_perm _ col ascending,
    getElem?_rowOrder lawful _ canonical col ascending,
    exists_position lawful _ canonical col ascending,
    pairwise_rowOrder lawful _ canonical col ascending, mirror⟩

/-- Two rows out of order. -/
def twoRows : EratSheet :=
  (EratSheet.empty.setCell Runtime.plain "A1".toList "pear".toList []).setCell Runtime.plain
    "A2".toList "apple".toList []

theorem fruit_sorted :
    ∃ order : List UInt32,
      order.Perm ((List.range' 1 (maxRow Runtime.plain twoRows.normalizeTabs.cells).toNat).map
        UInt32.ofNat) ∧
      (∀ i r, order[i]? = some r → ∀ c,
        (twoRows.sortRowsByCol Runtime.plain 1 true).cells[addrOf c (UInt32.ofNat (i + 1))]? =
          twoRows.normalizeTabs.cells[addrOf c r]?) ∧
      (∀ key ∈ (twoRows.sortRowsByCol Runtime.plain 1 true).cells.keys, ∃ c r, c ≠ 0 ∧ r ≠ 0 ∧
        r ≤ maxRow Runtime.plain twoRows.normalizeTabs.cells ∧ key = addrOf c r) ∧
      order.Pairwise (fun a b =>
        KeyOrder true (keyText Runtime.plain twoRows.normalizeTabs.cells 1 a)
          (keyText Runtime.plain twoRows.normalizeTabs.cells 1 b) ∧
          (keyText Runtime.plain twoRows.normalizeTabs.cells 1 a = keyText Runtime.plain
            twoRows.normalizeTabs.cells 1 b → a < b)) ∧
      Mirror (twoRows.sortRowsByCol Runtime.plain 1 true) := by
  apply sortRowsByCol_spec Runtime.plain_lawful twoRows 1 true (by decide)
  have keys : twoRows.normalizeTabs.cells.keys = ["A1".toList, "A2".toList] := by decide
  intro key member
  rw [keys, List.mem_cons, List.mem_singleton] at member
  cases member with
  | inl first => exact ⟨1, 1, by decide, by decide, by rw [first]; decide⟩
  | inr second => exact ⟨1, 2, by decide, by decide, by rw [second]; decide⟩

end EraOne.Tables
