import EraOne.DocsEdits
import EraOne.DocsText

set_option autoImplicit false

/- A range of marks that is transformed against an edit of the same text. -/
namespace EraOne.Docs

/-! ### Characters and their ends -/

/-- The byte at which a character ends. -/
def endByte (s : Str) (i : Nat) : Nat := byteLen (s.take (i + 1))

theorem charIndex_le_iff (s : Str) (n i : Nat) (inside : i < s.length) :
    charIndex s n ≤ i ↔ n < endByte s i := by
  rw [charIndex_eq]
  unfold endByte
  induction s generalizing n i with
  | nil => exact absurd inside (Nat.not_lt_zero i)
  | cons c s ih =>
      have positive := Char.utf8Size_pos c
      rw [List.take_succ_cons, byteLen_cons]
      by_cases fits : c.utf8Size ≤ n
      · rw [takeBytes_cons_of_le _ _ _ fits, List.length_cons]
        cases i with
        | zero =>
            rw [List.take_zero, byteLen_nil]
            omega
        | succ i =>
            have inner := ih (n - c.utf8Size) i (by simpa using inside)
            rw [Nat.add_le_add_iff_right, inner]
            omega
      · rw [takeBytes_cons_of_lt _ _ _ (by omega), List.length_nil]
        omega

theorem take_charIndex (s : Str) (n : Nat) : s.take (charIndex s n) = takeBytes s n := by
  have whole : (takeBytes s n ++ dropBytes s n).take (takeBytes s n).length = takeBytes s n :=
    List.take_left
  rwa [takeBytes_append_dropBytes, ← charIndex_eq] at whole

theorem byteLen_take_charIndex (s : Str) (n : Nat) :
    byteLen (s.take (charIndex s n)) = floorCharBoundary s n := by
  rw [take_charIndex, floorCharBoundary_eq]

theorem endByte_append_left (s t : Str) (i : Nat) (inside : i < s.length) :
    endByte (s ++ t) i = endByte s i := by
  unfold endByte
  rw [List.take_append_of_le_length (by omega)]

theorem endByte_append_right (s t : Str) (i : Nat) :
    endByte (s ++ t) (s.length + i) = byteLen s + endByte t i := by
  unfold endByte
  rw [Nat.add_assoc, List.take_length_add_append, byteLen_append]

theorem endByte_le (s : Str) (i : Nat) : endByte s i ≤ byteLen s := by
  have whole := congrArg byteLen (List.take_append_drop (i + 1) s)
  rw [byteLen_append] at whole
  unfold endByte
  omega

/-- Marking changes the characters of the range and no others. -/
theorem getElem?_markFlat (flat : List Marked) (i j k : Nat) (patch : MarksPatch) :
    (markFlat flat i j patch)[k]? =
      flat[k]?.map fun c => if i ≤ k ∧ k < j then (c.1, applyPatch c.2 patch) else c := by
  unfold markFlat
  cases Nat.le_total i j with
  | inl order =>
      have parts := mapIdx_range (fun c : Marked => (c.1, applyPatch c.2 patch)) flat i j order
      rw [Nat.max_eq_right order, ← parts, List.getElem?_mapIdx]
  | inr order =>
      have none : ¬(i ≤ k ∧ k < j) := by omega
      rw [Nat.max_eq_left order, List.drop_eq_nil_of_le (by rw [List.length_take]; omega),
        List.map_nil, List.append_nil, List.take_append_drop]
      simp only [none, if_false, Option.map_id']

/-- Marks that are set on a character over two ranges agree if both hold it or neither does, or if
the marks change nothing. -/
theorem marked_eq_iff (c : Marked) (patch : MarksPatch) (here there : Prop) [Decidable here]
    [Decidable there] :
    ((if here then (c.1, applyPatch c.2 patch) else c) = if there then (c.1, applyPatch c.2 patch)
      else c) ↔
      ((here ↔ there) ∨ applyPatch c.2 patch = c.2) := by
  have same : (c.1, applyPatch c.2 patch) = c ↔ applyPatch c.2 patch = c.2 := by
    constructor
    · intro eq
      exact congrArg Prod.snd eq
    · intro eq
      exact Prod.ext rfl eq
  by_cases first : here
  · by_cases second : there
    · simp [first, second]
    · simp [first, second, same]
  · by_cases second : there
    · simp [first, second, same, eq_comm (a := c)]
    · simp [first, second]

/-! ### The transformed range -/

/-- The range of `SetMarksRange` after it is transformed against an edit. -/
def transformedRange (start stop : Nat) : TextEdit → Nat × Nat
  | .insert oo ot _ => shiftRange start stop oo (asIsize (byteLen ot))
  | .delete ds de =>
      let delLen := asIsize (de - ds)
      let shifted := shiftRange start stop de (negIsize delLen)
      let range := clampMarks shifted.1 shifted.2 ds de (asUsize delLen)
      (min range.1 range.2, range.2)

theorem transformAgainst_setMarksRange (blockId : Str) (start stop : Nat) (marks : MarkArgs)
    (edit : TextEdit) :
    (DocOp.setMarksRange blockId start stop marks).transformAgainst (edit.toOp blockId) =
      .setMarksRange blockId (transformedRange start stop edit).1
        (transformedRange start stop edit).2 marks := by
  cases edit with
  | insert oo ot om => simp [TextEdit.toOp, DocOp.transformAgainst, transformedRange]
  | delete ds de => simp [TextEdit.toOp, DocOp.transformAgainst, transformedRange]

/-- A range holds the character that ends at `q`. -/
def Covers (range : Nat × Nat) (q : Nat) : Prop := range.1 < q ∧ q ≤ range.2

instance (range : Nat × Nat) (q : Nat) : Decidable (Covers range q) :=
  inferInstanceAs (Decidable (range.1 < q ∧ q ≤ range.2))

theorem asIsize_low (n : Nat) (low : n < 2 ^ 63) : asIsize n = n := if_pos low

theorem asIsize_high (n : Nat) (high : 2 ^ 63 ≤ n) : asIsize n = (n : Int) - 2 ^ 64 :=
  if_neg (Nat.not_lt.mpr high)

theorem asUsize_nat (n : Nat) (fits : n < 2 ^ 64) : asUsize n = n := by
  unfold asUsize
  omega

theorem asUsize_neg (n : Nat) (some_ : 0 < n) (fits : n ≤ 2 ^ 64) :
    asUsize (-(n : Int)) = 2 ^ 64 - n := by
  unfold asUsize
  omega

/-- What `shift_range` moves by: back by the length, or, if that does not fit an `isize`,
forward. -/
theorem negIsize_delLen (d : Nat) (some_ : 0 < d) (fits : d < 2 ^ 64) :
    (d ≤ 2 ^ 63 → negIsize (asIsize d) < 0 ∧ asUsize (negIsize (negIsize (asIsize d))) = d) ∧
      (2 ^ 63 < d → negIsize (asIsize d) = ((2 ^ 64 - d : Nat) : Int)) := by
  constructor
  · intro le
    by_cases low : d < 2 ^ 63
    · have once : negIsize (asIsize d) = -(d : Int) := by
        rw [asIsize_low d low, negIsize, asUsize_neg d some_ (by omega), asIsize_high _ (by omega)]
        omega
      have twice : negIsize (-(d : Int)) = d := by
        rw [negIsize, neg_neg, asUsize_nat d fits, asIsize_low d low]
      rw [once, twice, asUsize_nat d fits]
      exact ⟨by omega, rfl⟩
    · have top : d = 2 ^ 63 := by omega
      rw [top]
      decide
  · intro large
    have wraps : asIsize d = -((2 ^ 64 - d : Nat) : Int) := by
      rw [asIsize_high d (by omega)]
      omega
    rw [wraps, negIsize, neg_neg, asUsize_nat _ (by omega), asIsize_low _ (by omega)]

theorem asIsize_lt_iff (x y : Nat) (fits : x < 2 ^ 64) (fits' : y < 2 ^ 64) :
    asIsize x < asIsize y ↔ (x < 2 ^ 63 ↔ y < 2 ^ 63) ∧ x < y ∨ 2 ^ 63 ≤ x ∧ y < 2 ^ 63 := by
  by_cases low : x < 2 ^ 63
  · by_cases low' : y < 2 ^ 63
    · rw [asIsize_low x low, asIsize_low y low']
      omega
    · rw [asIsize_low x low, asIsize_high y (by omega)]
      omega
  · by_cases low' : y < 2 ^ 63
    · rw [asIsize_high x (by omega), asIsize_low y low']
      omega
    · rw [asIsize_high x (by omega), asIsize_high y (by omega)]
      omega

/-- `shift_range` at the end of a deletion of at most half the offsets. -/
theorem shiftOffset_back (de d x : Nat) (some_ : 0 < d) (le : d ≤ 2 ^ 63) (top : de < 2 ^ 64)
    (fits : x < 2 ^ 64) :
    shiftOffset de (negIsize (asIsize d)) x =
      if (x < 2 ^ 63 ↔ de < 2 ^ 63) ∧ x < de ∨ 2 ^ 63 ≤ x ∧ de < 2 ^ 63 then x else x - d := by
  have moves := (negIsize_delLen d some_ (by omega)).1 le
  unfold shiftOffset
  rw [moves.2, if_neg (show ¬negIsize (asIsize d) ≥ 0 by omega)]
  simp only [asIsize_lt_iff x de fits top]

theorem shiftOffset_forward (de d x : Nat) (large : 2 ^ 63 < d) (d_fits : d < 2 ^ 64)
    (top : de < 2 ^ 64) (fits : x < 2 ^ 64) :
    shiftOffset de (negIsize (asIsize d)) x =
      if (x < 2 ^ 63 ↔ de < 2 ^ 63) ∧ x < de ∨ 2 ^ 63 ≤ x ∧ de < 2 ^ 63 then x
        else min (x + (2 ^ 64 - d)) usizeMax := by
  have moves := (negIsize_delLen d (by omega) d_fits).2 large
  unfold shiftOffset
  rw [moves, if_pos (show ((2 ^ 64 - d : Nat) : Int) ≥ 0 by omega), asUsize_nat _ (by omega)]
  simp only [asIsize_lt_iff x de fits top]
  rfl
/-- A round trip through `isize` changes nothing. -/
theorem asUsize_asIsize (n : Nat) (fits : n < 2 ^ 64) : asUsize (asIsize n) = n := by
  by_cases low : n < 2 ^ 63
  · rw [asIsize_low n low, asUsize_nat n fits]
  · have wraps : asIsize n = -((2 ^ 64 - n : Nat) : Int) := by
      rw [asIsize_high n (by omega)]
      omega
    rw [wraps, asUsize_neg _ (by omega) (by omega)]
    omega

section Delete

variable (s e ds de q : Nat)

/-- What the clamp leaves of a shifted range. -/
def HeldClamped (s₁ e₁ : Nat) : Prop :=
  if s₁ < de ∧ ds < e₁ then min s₁ ds < q ∧ q ≤ max ds (e₁ - (de - ds)) else s₁ < q ∧ q ≤ e₁

theorem covers_clamped (s₁ e₁ : Nat) (less : ds < de) (fits : de < 2 ^ 64)
    (first : shiftOffset de (negIsize (asIsize (de - ds))) s = s₁)
    (second : shiftOffset de (negIsize (asIsize (de - ds))) e = e₁) :
    Covers (transformedRange s e (.delete ds de)) q ↔ HeldClamped ds de q s₁ e₁ := by
  unfold transformedRange shiftRange clampMarks Covers HeldClamped
  dsimp only
  rw [first, second, asUsize_asIsize _ (by omega)]
  split_ifs <;> dsimp only at * <;> omega

/-- Offsets below the end of a deletion stay, and so do those past half the offsets. -/
theorem shiftOffset_low (x : Nat) (less : ds < de) (low : de < 2 ^ 63) (fits : x < 2 ^ 64) :
    shiftOffset de (negIsize (asIsize (de - ds))) x = if x < de ∨ 2 ^ 63 ≤ x then x
      else x - (de - ds) := by
  rw [shiftOffset_back de (de - ds) x (by omega) (by omega) (by omega) fits]
  split_ifs <;> omega

/-- In front of a deletion that ends below half the offsets the range holds what it held. -/
theorem covers_front (less : ds < de) (low : de < 2 ^ 63) (sFits : s < 2 ^ 64) (eFits : e < 2 ^ 64)
    (front : q ≤ ds) : Covers (transformedRange s e (.delete ds de)) q ↔ Covers (s, e) q := by
  rw [covers_clamped s e ds de q _ _ less (by omega) (shiftOffset_low ds de s less low sFits)
    (shiftOffset_low ds de e less low eFits)]
  unfold HeldClamped Covers
  split_ifs <;> omega

/-- The characters behind a deletion that the range holds after it, by their new ends: those in
front of the deletion's start if the range ends with the deletion or before, those of the range
moved back by the deletion if it starts at least its length behind it, and otherwise those of the
range moved back twice (once where it ends past half the offsets). -/
def HeldBehind : Prop :=
  s < 2 ^ 63 ∧
    if e ≤ de then s < q ∧ q ≤ min e ds
    else if de + (de - ds) ≤ s then s < q + (de - ds) ∧ (q + (de - ds) ≤ e ∨ 2 ^ 63 ≤ e)
    else min s ds < q ∧ q ≤ max ds (e - if e < 2 ^ 63 then 2 * (de - ds) else de - ds)

theorem covers_behind (less : ds < de) (low : de < 2 ^ 63) (sFits : s < 2 ^ 64) (eFits : e < 2 ^ 64)
    (near : q < 2 ^ 63) : Covers (transformedRange s e (.delete ds de)) q ↔
    HeldBehind s e ds de q := by
  rw [covers_clamped s e ds de q _ _ less (by omega) (shiftOffset_low ds de s less (by omega) sFits)
    (shiftOffset_low ds de e less (by omega) eFits)]
  unfold HeldClamped HeldBehind
  split_ifs <;> omega

/-- What the range holds in front of a deletion that ends past half the offsets: the range moved
back by the deletion's length or, if that is past half the offsets too, moved forward. -/
def HeldFar : Prop :=
  if de - ds ≤ 2 ^ 63 then s < 2 ^ 63 ∧ s - (de - ds) < q ∧ (q ≤ e - (de - ds) ∨ 2 ^ 63 ≤ e)
  else s + (2 ^ 64 - (de - ds)) < q ∧ q ≤ e + (2 ^ 64 - (de - ds))

theorem covers_far (less : ds < de) (high : 2 ^ 63 ≤ de) (top : de < 2 ^ 64) (sFits : s < 2 ^ 64)
    (eFits : e < 2 ^ 64) (front : q ≤ ds) (near : q < 2 ^ 63) :
    Covers (transformedRange s e (.delete ds de)) q ↔ HeldFar s e ds de q := by
  by_cases back : de - ds ≤ 2 ^ 63
  · have moved (x : Nat) (fits : x < 2 ^ 64) : shiftOffset de (negIsize (asIsize (de - ds))) x =
        if 2 ^ 63 ≤ x ∧ x < de then x else x - (de - ds) := by
      rw [shiftOffset_back de (de - ds) x (by omega) back top fits]
      split_ifs <;> omega
    rw [covers_clamped s e ds de q _ _ less top (moved s sFits) (moved e eFits), HeldFar,
      if_pos back]
    unfold HeldClamped
    split_ifs <;> omega
  · have moved (x : Nat) (fits : x < 2 ^ 64) : shiftOffset de (negIsize (asIsize (de - ds))) x =
        if 2 ^ 63 ≤ x ∧ x < de then x else min (x + (2 ^ 64 - (de - ds))) usizeMax := by
      rw [shiftOffset_forward de (de - ds) x (by omega) (by omega) top fits]
      split_ifs <;> omega
    rw [covers_clamped s e ds de q _ _ less top (moved s sFits) (moved e eFits), HeldFar,
      if_neg back]
    unfold HeldClamped usizeMax
    split_ifs <;> omega

/-- Where nothing is deleted the range stays. -/
theorem covers_undeleted (none : de ≤ ds) (sFits : s < 2 ^ 64) (eFits : e < 2 ^ 64) :
    Covers (transformedRange s e (.delete ds de)) q ↔ Covers (s, e) q := by
  have still (x : Nat) (fits : x < 2 ^ 64) : shiftOffset de (negIsize (asIsize 0)) x = x := by
    have zero : negIsize (asIsize 0) = 0 := by decide
    have same : saturatingAdd x (asUsize 0) = x := by
      unfold saturatingAdd usizeMax
      rw [show asUsize 0 = 0 by decide]
      omega
    unfold shiftOffset
    rw [zero, same, if_pos le_rfl, ite_self]
  unfold transformedRange shiftRange clampMarks Covers
  dsimp only
  rw [Nat.sub_eq_zero_of_le none, still s sFits, still e eFits,
    show asUsize (asIsize 0) = 0 by decide]
  split_ifs <;> dsimp only at * <;> omega

end Delete

section Insert

variable (s e o q : Nat) (ot : Str) (om : Option InlineSpan)

theorem shiftOffset_insert (at_ len x : Nat) (short : len < 2 ^ 63) (top : at_ < 2 ^ 64)
    (fits : x < 2 ^ 64) :
    shiftOffset at_ (asIsize len) x =
      if (x < 2 ^ 63 ↔ at_ < 2 ^ 63) ∧ x < at_ ∨ 2 ^ 63 ≤ x ∧ at_ < 2 ^ 63 then x
        else min (x + len) usizeMax := by
  unfold shiftOffset saturatingAdd
  rw [asIsize_low len (by omega), if_pos (show (len : Int) ≥ 0 by omega),
    asUsize_nat len (by omega)]
  simp only [asIsize_lt_iff x at_ fits top]

/-- A character in front of an insertion keeps its place in the range, and one behind it moves
along. -/
theorem covers_insert (low : o < 2 ^ 63) (sFits : s < 2 ^ 64) (eFits : e < 2 ^ 64)
    (short : byteLen ot < 2 ^ 63) (near : q + byteLen ot < 2 ^ 63) :
    (q ≤ o → (Covers (transformedRange s e (.insert o ot om)) q ↔ Covers (s, e) q)) ∧
      (o < q →
        (Covers (transformedRange s e (.insert o ot om)) (q + byteLen ot) ↔ Covers (s, e) q)) := by
  have first := shiftOffset_insert o (byteLen ot) s short (by omega) sFits
  have second := shiftOffset_insert o (byteLen ot) e short (by omega) eFits
  unfold transformedRange shiftRange Covers usizeMax at *
  dsimp only
  rw [first, second]
  constructor
  · intro front
    split_ifs <;> dsimp only at * <;> omega
  · intro back
    split_ifs <;> dsimp only at * <;> omega

/-- An insertion past half the offsets moves the whole range, although it is made at the end. -/
theorem covers_insert_far (high : 2 ^ 63 ≤ o) (top : o < 2 ^ 64) (sFits : s < 2 ^ 64)
    (eFits : e < 2 ^ 64) (short : byteLen ot < 2 ^ 63) (near : q < 2 ^ 63) :
    Covers (transformedRange s e (.insert o ot om)) q ↔
      Covers (s + byteLen ot, e + byteLen ot) q := by
  have first := shiftOffset_insert o (byteLen ot) s short top sFits
  have second := shiftOffset_insert o (byteLen ot) e short top eFits
  unfold transformedRange shiftRange Covers usizeMax at *
  dsimp only
  rw [first, second]
  split_ifs <;> dsimp only at * <;> omega

end Insert

/-! ### The two ops on a block -/

/-- The spans of the block that ops on `blockId` address. -/
def blockInlines (doc : EradDocument) (blockId : Str) : Option (List InlineSpan) :=
  (doc.blocks.find? (fun b => b.id = blockId)).map (·.inlines)

/-- An edit of text, on spans. -/
def TextEdit.editSpans (inlines : List InlineSpan) : TextEdit → List InlineSpan
  | .insert offset text marks => insertTextPreserving inlines offset text marks
  | .delete start stop => deleteRangePreserving inlines start stop

theorem blockInlines_editBlock (doc : EradDocument) (blockId : Str)
    (edit : List InlineSpan → List InlineSpan) :
    blockInlines (editBlock doc blockId fun b => { b with inlines := edit b.inlines }) blockId =
      (blockInlines doc blockId).map edit := by
  unfold blockInlines editBlock
  dsimp only
  rw [find?_updateFirst _ _ _ (by simp), Option.map_map, Option.map_map]
  rfl

theorem blockInlines_applyOp (doc : EradDocument) (blockId : Str) (edit : TextEdit) :
    blockInlines (applyOp doc (edit.toOp blockId)) blockId = (blockInlines doc blockId).map
      edit.editSpans := by
  cases edit with
  | insert offset text m =>
      exact blockInlines_editBlock doc blockId fun l => insertTextPreserving l offset text m
  | delete ds de => exact blockInlines_editBlock doc blockId fun l => deleteRangePreserving l ds de

/-- The block after the edit and the transformed marks. -/
theorem blockInlines_edited (doc : EradDocument) (blockId : Str) (start stop : Nat)
    (marks : MarkArgs) (edit : TextEdit) :
    blockInlines (applyOp (applyOp doc (edit.toOp blockId))
        ((DocOp.setMarksRange blockId start stop marks).transformAgainst (edit.toOp blockId)))
          blockId =
      (blockInlines doc blockId).map fun inlines => applyMarksRange (edit.editSpans inlines)
        (transformedRange start stop edit).1 (transformedRange start stop edit).2 marks.patch := by
  have marked := blockInlines_editBlock (applyOp doc (edit.toOp blockId)) blockId fun l =>
    applyMarksRange l (transformedRange start stop edit).1
      (transformedRange start stop edit).2 marks.patch
  rw [blockInlines_applyOp, Option.map_map] at marked
  rw [transformAgainst_setMarksRange]
  exact marked

/-- After the edit, every character that remains has the marks it would have without the edit. -/
def Survives (inlines : List InlineSpan) (start stop : Nat) (patch : MarksPatch) (edit : TextEdit)
    (final : List InlineSpan) : Prop :=
  let plain := blockPlain inlines
  let marked := markFlat (flatten inlines) (charIndex plain start) (charIndex plain stop) patch
  match edit with
  | .insert offset text _ =>
      (flatten final).take (charIndex plain offset) = marked.take (charIndex plain offset) ∧
        (flatten final).drop (charIndex plain offset + text.length) = marked.drop
          (charIndex plain offset)
  | .delete ds de => flatten final = deleteFlat marked (charIndex plain ds) (charIndex plain de)

/-- The character that ends at `q` is not deleted. -/
def Remains (q : Nat) : TextEdit → Prop
  | .insert _ _ _ => True
  | .delete ds de => q ≤ ds ∨ de < q

/-- The range holds the character that ends at `q` before the edit as after it. -/
def HeldAlike (plain : Str) (start stop q : Nat) : TextEdit → Prop
  | .insert offset text _ =>
      offset < 2 ^ 63 ∨
        (Covers (start, stop) q ↔ Covers (start + byteLen text, stop + byteLen text) q)
  | .delete ds de =>
      de ≤ ds ∨
        (de < 2 ^ 63 ∧ (q ≤ ds ∨ (Covers (start, stop) q ↔
          HeldBehind start stop ds de
            (q - (floorCharBoundary plain de - floorCharBoundary plain ds))))) ∨
        (2 ^ 63 ≤ de ∧ (Covers (start, stop) q ↔ HeldFar start stop ds de q))

section Agreement

variable (patch : MarksPatch)

/-- A character that stands at one place before and at another after an edit has the same marks over
two ranges if both hold it or neither does, or if the marks change nothing. -/
theorem markFlat_agree_iff (flat after : List Marked) (a b a' b' i j : Nat)
    (same : after[j]? = flat[i]?) :
    (markFlat after a' b' patch)[j]? = (markFlat flat a b patch)[i]? ↔
      ∀ c, flat[i]? = some c → ((a ≤ i ∧ i < b) ↔ (a' ≤ j ∧ j < b')) ∨
        applyPatch c.2 patch = c.2 := by
  rw [getElem?_markFlat, getElem?_markFlat, same]
  cases flat[i]? with
  | none => simp
  | some c =>
      rw [Option.map_some, Option.map_some, Option.some.injEq, marked_eq_iff c patch,
        Iff.comm (a := a' ≤ j ∧ j < b')]
      simp

/-- The indices of a range hold a character as the offsets do. -/
theorem index_iff_covers (plain : Str) (start stop i : Nat) (inside : i < plain.length) :
    (charIndex plain start ≤ i ∧ i < charIndex plain stop) ↔
    Covers (start, stop) (endByte plain i) := by
  have first := charIndex_le_iff plain start i inside
  have second := charIndex_le_iff plain stop i inside
  unfold Covers
  omega

end Agreement

/-! ### Which marks survive -/

theorem take_eq_iff {α : Type} (l m : List α) (k : Nat) :
    l.take k = m.take k ↔ ∀ j < k, l[j]? = m[j]? := by
  rw [List.ext_getElem?_iff]
  constructor
  · intro same j before
    have here := same j
    rwa [List.getElem?_take_of_lt before, List.getElem?_take_of_lt before] at here
  · intro same j
    by_cases before : j < k
    · rw [List.getElem?_take_of_lt before, List.getElem?_take_of_lt before]
      exact same j before
    · rw [List.getElem?_take_eq_none (by omega), List.getElem?_take_eq_none (by omega)]

theorem drop_eq_iff {α : Type} (l m : List α) (a b : Nat) :
    l.drop a = m.drop b ↔ ∀ j, l[a + j]? = m[b + j]? := by
  rw [List.ext_getElem?_iff]
  simp only [List.getElem?_drop]

theorem endByte_drop (s : Str) (k i : Nat) (inside : k ≤ s.length) :
    endByte s (k + i) = byteLen (s.take k) + endByte (s.drop k) i := by
  have right := endByte_append_right (s.take k) (s.drop k) i
  rwa [List.take_append_drop, List.length_take, Nat.min_eq_left inside] at right

theorem endByte_take (s t : Str) (k i : Nat) (inside : k ≤ s.length) (before : i < k) :
    endByte (s.take k ++ t) i = endByte s i := by
  have size : i < (s.take k).length := by
    rw [List.length_take]
    omega
  rw [endByte_append_left _ _ _ size]
  have left := endByte_append_left (s.take k) (s.drop k) i size
  rw [List.take_append_drop] at left
  exact left.symm

/-- A range before an edit and after it, on a character at index `i` and then at index `j`. -/
def IndexAlike (plain after : Str) (start stop i j : Nat) (edit : TextEdit) : Prop :=
  (charIndex plain start ≤ i ∧ i < charIndex plain stop) ↔
    (charIndex after (transformedRange start stop edit).1 ≤ j ∧
      j < charIndex after (transformedRange start stop edit).2)

theorem indexAlike_iff (plain after : Str) (start stop i j : Nat) (edit : TextEdit)
    (inside : i < plain.length) (inside' : j < after.length) :
    IndexAlike plain after start stop i j edit ↔
      (Covers (start, stop) (endByte plain i) ↔
        Covers (transformedRange start stop edit) (endByte after j)) := by
  unfold IndexAlike
  rw [index_iff_covers plain start stop i inside, index_iff_covers after _ _ j inside']

section Insert

variable (plain text : Str) (om : Option InlineSpan) (offset start stop : Nat)

/-- The text after an insertion. -/
def insertedText : Str :=
  plain.take (charIndex plain offset) ++ (text ++ plain.drop (charIndex plain offset))

theorem insert_front_iff (sFits : start < 2 ^ 64) (eFits : stop < 2 ^ 64) (oFits : offset < 2 ^ 64)
    (short : byteLen plain + byteLen text < 2 ^ 63) (i : Nat) (front : i < charIndex plain offset) :
    IndexAlike plain (insertedText plain text offset) start stop i i (.insert offset text om) ↔
      HeldAlike plain start stop (endByte plain i) (.insert offset text om) := by
  have bound := charIndex_le plain offset
  have near := endByte_le plain i
  have before := (charIndex_le_iff plain offset i (by omega)).not.mp (by omega)
  have ends := endByte_take plain (text ++ plain.drop (charIndex plain offset))
    (charIndex plain offset) i bound front
  have inside : i < (insertedText plain text offset).length := by
    unfold insertedText
    rw [List.length_append, List.length_take]
    omega
  rw [indexAlike_iff plain _ start stop i i _ (by omega) inside, insertedText, ends, HeldAlike]
  by_cases low : offset < 2 ^ 63
  · have held :=
      (covers_insert start stop offset (endByte plain i) text om low sFits eFits (by omega)
        (by omega)).1
      (by omega)
    exact iff_of_true held.symm (Or.inl low)
  · have held :=
      covers_insert_far start stop offset (endByte plain i) text om (by omega) oFits sFits eFits
        (by omega) (by omega)
    rw [held]
    constructor
    · exact Or.inr
    · intro either
      exact either.resolve_left low

theorem insert_back_iff (sFits : start < 2 ^ 64) (eFits : stop < 2 ^ 64)
    (short : byteLen plain + byteLen text < 2 ^ 63) (i : Nat)
    (back : charIndex plain offset + i < plain.length) :
    IndexAlike plain (insertedText plain text offset) start stop (charIndex plain offset + i)
        (charIndex plain offset + text.length + i) (.insert offset text om) ↔
      HeldAlike plain start stop (endByte plain (charIndex plain offset + i))
        (.insert offset text om) := by
  have bound := charIndex_le plain offset
  have near := endByte_le plain (charIndex plain offset + i)
  have after := (charIndex_le_iff plain offset _ back).mp (by omega)
  have size : (plain.take (charIndex plain offset)).length = charIndex plain offset := by
    rw [List.length_take]
    omega
  have ends : endByte (insertedText plain text offset) (charIndex plain offset + text.length + i) =
      endByte plain (charIndex plain offset + i) + byteLen text := by
    have outer := endByte_append_right (plain.take (charIndex plain offset))
      (text ++ plain.drop (charIndex plain offset)) (text.length + i)
    rw [size, endByte_append_right] at outer
    rw [insertedText, Nat.add_assoc, outer, endByte_drop plain _ i bound]
    omega
  have inside :
      charIndex plain offset + text.length + i < (insertedText plain text offset).length := by
    unfold insertedText
    rw [List.length_append, List.length_append, List.length_take, List.length_drop]
    omega
  have low : offset < 2 ^ 63 := by omega
  have held :=
    (covers_insert start stop offset (endByte plain (charIndex plain offset + i)) text om low sFits
      eFits
    (by omega) (by omega)).2 after
  rw [indexAlike_iff plain _ start stop _ _ _ back inside, ends, HeldAlike]
  exact iff_of_true held.symm (Or.inl low)

end Insert

section Delete

variable (plain : Str) (ds de start stop : Nat)

/-- The text after a deletion. -/
def deletedText : Str :=
  plain.take (charIndex plain ds) ++ plain.drop (max (charIndex plain ds) (charIndex plain de))

theorem delete_front_iff (sFits : start < 2 ^ 64) (eFits : stop < 2 ^ 64) (top : de < 2 ^ 64)
    (short : byteLen plain < 2 ^ 63) (i : Nat) (front : i < charIndex plain ds) :
    IndexAlike plain (deletedText plain ds de) start stop i i (.delete ds de) ↔
      HeldAlike plain start stop (endByte plain i) (.delete ds de) := by
  have bound := charIndex_le plain ds
  have near := endByte_le plain i
  have before := (charIndex_le_iff plain ds i (by omega)).not.mp (by omega)
  have ends := endByte_take plain (plain.drop (max (charIndex plain ds) (charIndex plain de)))
    (charIndex plain ds) i
    bound front
  have inside : i < (deletedText plain ds de).length := by
    unfold deletedText
    rw [List.length_append, List.length_take]
    omega
  rw [indexAlike_iff plain _ start stop i i _ (by omega) inside, deletedText, ends, HeldAlike]
  by_cases less : ds < de
  · by_cases low : de < 2 ^ 63
    · have held := covers_front start stop ds de (endByte plain i) less low sFits eFits (by omega)
      exact iff_of_true held.symm (Or.inr (Or.inl ⟨low, Or.inl (by omega)⟩))
    · have held := covers_far start stop ds de (endByte plain i) less (by omega) top sFits eFits
        (by omega) (by omega)
      rw [held]
      constructor
      · intro alike
        exact Or.inr (Or.inr ⟨by omega, alike⟩)
      · intro cases_
        rcases cases_ with none | ⟨small, -⟩ | ⟨-, alike⟩
        · omega
        · exact absurd small low
        · exact alike
  · have held := covers_undeleted start stop ds de (endByte plain i) (by omega) sFits eFits
    exact iff_of_true held.symm (Or.inl (by omega))

theorem delete_back_iff (sFits : start < 2 ^ 64) (eFits : stop < 2 ^ 64)
    (short : byteLen plain < 2 ^ 63) (i : Nat)
    (back : max (charIndex plain ds) (charIndex plain de) + i < plain.length) :
    IndexAlike plain (deletedText plain ds de) start stop
      (max (charIndex plain ds) (charIndex plain de) + i)
        (charIndex plain ds + i) (.delete ds de) ↔
      HeldAlike plain start stop (endByte plain (max (charIndex plain ds) (charIndex plain de) + i))
        (.delete ds de) := by
  have bound := charIndex_le plain ds
  have near := endByte_le plain (max (charIndex plain ds) (charIndex plain de) + i)
  have after := (charIndex_le_iff plain de _ back).mp (by omega)
  have outside := (charIndex_le_iff plain ds _ back).mp (by omega)
  have size : (plain.take (charIndex plain ds)).length = charIndex plain ds := by
    rw [List.length_take]
    omega
  have ends : endByte (deletedText plain ds de) (charIndex plain ds + i) =
      endByte plain (max (charIndex plain ds) (charIndex plain de) + i) -
        (byteLen (plain.take (max (charIndex plain ds) (charIndex plain de))) -
          byteLen (plain.take (charIndex plain ds))) := by
    have outer := endByte_append_right (plain.take (charIndex plain ds))
      (plain.drop (max (charIndex plain ds) (charIndex plain de))) i
    have mono : byteLen (plain.take (charIndex plain ds)) ≤
        byteLen (plain.take (max (charIndex plain ds) (charIndex plain de))) := by
      have shape := List.take_append_drop (charIndex plain ds)
        (plain.take (max (charIndex plain ds) (charIndex plain de)))
      rw [List.take_take, Nat.min_eq_left (Nat.le_max_left _ _)] at shape
      rw [← shape, byteLen_append]
      omega
    rw [size] at outer
    rw [deletedText, outer, endByte_drop plain _ i (by omega)]
    omega
  have inside : charIndex plain ds + i < (deletedText plain ds de).length := by
    unfold deletedText
    rw [List.length_append, List.length_take, List.length_drop]
    omega
  rw [indexAlike_iff plain _ start stop _ _ _ back inside, ends, HeldAlike]
  by_cases less : ds < de
  · have order := charIndex_mono plain ds de (by omega)
    rw [Nat.max_eq_right order] at near after outside ⊢
    have held := covers_behind start stop ds de (endByte plain (charIndex plain de + i) -
      (floorCharBoundary plain de - floorCharBoundary plain ds)) less (by omega) sFits eFits
        (by omega)
    rw [byteLen_take_charIndex, byteLen_take_charIndex, held]
    constructor
    · intro alike
      exact Or.inr (Or.inl ⟨by omega, Or.inr alike⟩)
    · intro cases_
      rcases cases_ with none | ⟨-, front | alike⟩ | ⟨far, -⟩
      · omega
      · omega
      · exact alike
      · omega
  · have order := charIndex_mono plain de ds (by omega)
    rw [Nat.max_eq_left order, Nat.sub_self, Nat.sub_zero]
    have held := covers_undeleted start stop ds de (endByte plain (charIndex plain ds + i))
      (by omega) sFits eFits
    exact iff_of_true held.symm (Or.inl (by omega))

end Delete

/-- Every character that remains is held alike, or the marks change nothing on it. -/
def Kept (inlines : List InlineSpan) (start stop : Nat) (patch : MarksPatch) (edit : TextEdit) :
    Prop :=
  ∀ (i : Nat) (c : Marked), (flatten inlines)[i]? = some c →
    Remains (endByte (blockPlain inlines) i) edit →
    HeldAlike (blockPlain inlines) start stop (endByte (blockPlain inlines) i) edit ∨
      applyPatch c.2 patch = c.2

section Survive

variable (inlines : List InlineSpan) (start stop : Nat) (patch : MarksPatch)

theorem inside_of_getElem? (i : Nat) (c : Marked) (here : (flatten inlines)[i]? = some c) :
    i < (blockPlain inlines).length := by
  have inside := (List.getElem?_eq_some_iff.mp here).1
  rwa [length_flatten] at inside

theorem plain_inserted (offset : Nat) (text : Str) (om : Option InlineSpan) :
    blockPlain (insertTextPreserving inlines offset text om) = insertedText
      (blockPlain inlines) text offset := by
  have back : (takeBytes (blockPlain inlines) offset ++ dropBytes (blockPlain inlines) offset).drop
      (takeBytes (blockPlain inlines) offset).length = dropBytes (blockPlain inlines) offset :=
        List.drop_left
  rw [takeBytes_append_dropBytes, ← charIndex_eq] at back
  rw [insertTextPreserving_plain, insertedText, take_charIndex, back, List.append_assoc]

theorem plain_deleted (ds de : Nat) :
    blockPlain (deleteRangePreserving inlines ds de) = deletedText (blockPlain inlines) ds de := by
  have plain := congrArg (List.map Prod.fst) (flatten_deleteRangePreserving inlines ds de)
  rw [map_fst_flatten, deleteFlat, List.map_append, List.map_take, List.map_drop,
    map_fst_flatten] at plain
  exact plain

theorem survives_insert_iff (offset : Nat) (text : Str) (om : Option InlineSpan)
    (sFits : start < 2 ^ 64) (eFits : stop < 2 ^ 64) (oFits : offset < 2 ^ 64)
    (short : byteLen (blockPlain inlines) + byteLen text < 2 ^ 63) :
    Survives inlines start stop patch (.insert offset text om)
        (applyMarksRange (insertTextPreserving inlines offset text om)
          (transformedRange start stop (.insert offset text om)).1
          (transformedRange start stop (.insert offset text om)).2 patch) ↔
      Kept inlines start stop patch (.insert offset text om) := by
  obtain ⟨marks, -, flat⟩ := flatten_insertTextPreserving inlines offset text om
  have bound := charIndex_le (blockPlain inlines) offset
  have size := length_flatten inlines
  have length_front : ((flatten inlines).take (charIndex (blockPlain inlines) offset)).length =
      charIndex (blockPlain inlines) offset := by
    rw [List.length_take]
    omega
  have front (i : Nat) (before : i < charIndex (blockPlain inlines) offset) :
      (insertFlat (flatten inlines) (charIndex (blockPlain inlines) offset) text marks)[i]? =
        (flatten inlines)[i]? := by
    rw [insertFlat, List.append_assoc, List.getElem?_append_left (by omega),
      List.getElem?_take_of_lt before]
  have back (i : Nat) :
      (insertFlat (flatten inlines) (charIndex (blockPlain inlines) offset) text marks)[
        charIndex (blockPlain inlines) offset + text.length + i]? =
      (flatten inlines)[charIndex (blockPlain inlines) offset + i]? := by
    rw [insertFlat, List.getElem?_append_right (by rw [List.length_append, List.length_map]; omega),
      List.getElem?_drop, List.length_append, List.length_map, length_front]
    congr 1
    omega
  unfold Survives
  dsimp only
  rw [flatten_applyMarksRange, plain_inserted, flat, take_eq_iff, drop_eq_iff]
  constructor
  · rintro ⟨fronts, backs⟩ i c here -
    have inside := inside_of_getElem? inlines i c here
    by_cases before : i < charIndex (blockPlain inlines) offset
    · have agree :=
        (markFlat_agree_iff patch _ _ _ _ _ _ i i (front i before)).mp (fronts i before) c here
      exact agree.imp_left
        (insert_front_iff _ text om offset start stop sFits eFits oFits short i before).mp
    · obtain ⟨j, rfl⟩ := Nat.exists_eq_add_of_le (Nat.le_of_not_lt before)
      have agree := (markFlat_agree_iff patch _ _ _ _ _ _ _ _ (back j)).mp (backs j) c here
      exact agree.imp_left
        (insert_back_iff _ text om offset start stop sFits eFits short j inside).mp
  · intro kept
    constructor
    · intro i before
      apply (markFlat_agree_iff patch _ _ _ _ _ _ i i (front i before)).mpr
      intro c here
      exact (kept i c here trivial).imp_left
        (insert_front_iff _ text om offset start stop sFits eFits oFits short i before).mpr
    · intro i
      apply (markFlat_agree_iff patch _ _ _ _ _ _ _ _ (back i)).mpr
      intro c here
      have inside := inside_of_getElem? inlines _ c here
      exact (kept _ c here trivial).imp_left
        (insert_back_iff _ text om offset start stop sFits eFits short i inside).mpr

theorem length_markFlat (flat : List Marked) (i j : Nat) :
    (markFlat flat i j patch).length = flat.length := by
  unfold markFlat
  simp only [List.length_append, List.length_map, List.length_take, List.length_drop]
  omega

/-- A list is what is left of another without a middle part, front and back apart. -/
theorem eq_deleteFlat_iff (l flat : List Marked) (a b : Nat) (inside : a ≤ flat.length) :
    l = deleteFlat flat a b ↔ l.take a = flat.take a ∧ l.drop a = flat.drop (max a b) := by
  have front : (flat.take a).length = a := by
    rw [List.length_take]
    omega
  unfold deleteFlat
  constructor
  · intro eq
    rw [eq, List.take_append_of_le_length (by omega), List.take_of_length_le (by omega),
      List.drop_append_of_le_length (by omega), List.drop_eq_nil_of_le (by omega), List.nil_append]
    exact ⟨rfl, rfl⟩
  · rintro ⟨fronts, backs⟩
    rw [← fronts, ← backs, List.take_append_drop]

theorem survives_delete_iff (ds de : Nat) (sFits : start < 2 ^ 64) (eFits : stop < 2 ^ 64)
    (top : de < 2 ^ 64) (short : byteLen (blockPlain inlines) < 2 ^ 63) :
    Survives inlines start stop patch (.delete ds de)
        (applyMarksRange (deleteRangePreserving inlines ds de)
          (transformedRange start stop (.delete ds de)).1
            (transformedRange start stop (.delete ds de)).2 patch) ↔
      Kept inlines start stop patch (.delete ds de) := by
  have bound := charIndex_le (blockPlain inlines) ds
  have size := length_flatten inlines
  have length_front : ((flatten inlines).take (charIndex (blockPlain inlines) ds)).length =
      charIndex (blockPlain inlines) ds := by
    rw [List.length_take]
    omega
  have front (i : Nat) (before : i < charIndex (blockPlain inlines) ds) :
      (deleteFlat (flatten inlines) (charIndex (blockPlain inlines) ds)
        (charIndex (blockPlain inlines) de))[i]? =
          (flatten inlines)[i]? := by
    rw [deleteFlat, List.getElem?_append_left (by omega), List.getElem?_take_of_lt before]
  have back (i : Nat) :
      (deleteFlat (flatten inlines) (charIndex (blockPlain inlines) ds)
        (charIndex (blockPlain inlines) de))[
        charIndex (blockPlain inlines) ds + i]? =
      (flatten inlines)[max (charIndex (blockPlain inlines) ds)
        (charIndex (blockPlain inlines) de) + i]? := by
    rw [deleteFlat, List.getElem?_append_right (by omega), List.getElem?_drop, length_front,
      Nat.add_sub_cancel_left]
  unfold Survives
  dsimp only
  rw [flatten_applyMarksRange, plain_deleted, flatten_deleteRangePreserving,
    eq_deleteFlat_iff _ _ _ _
    (by rw [length_markFlat]; omega), take_eq_iff, drop_eq_iff]
  constructor
  · rintro ⟨fronts, backs⟩ i c here remains
    have inside := inside_of_getElem? inlines i c here
    have first := charIndex_le_iff (blockPlain inlines) ds i inside
    have second := charIndex_le_iff (blockPlain inlines) de i inside
    by_cases before : i < charIndex (blockPlain inlines) ds
    · have agree :=
        (markFlat_agree_iff patch _ _ _ _ _ _ i i (front i before)).mp (fronts i before) c here
      exact agree.imp_left (delete_front_iff _ ds de start stop sFits eFits top short i before).mp
    · have behind : max (charIndex (blockPlain inlines) ds)
          (charIndex (blockPlain inlines) de) ≤ i := by
        unfold Remains at remains
        omega
      obtain ⟨j, rfl⟩ := Nat.exists_eq_add_of_le behind
      have agree := (markFlat_agree_iff patch _ _ _ _ _ _ _ _ (back j)).mp (backs j) c here
      exact agree.imp_left (delete_back_iff _ ds de start stop sFits eFits short j inside).mp
  · intro kept
    constructor
    · intro i before
      apply (markFlat_agree_iff patch _ _ _ _ _ _ i i (front i before)).mpr
      intro c here
      have inside := inside_of_getElem? inlines i c here
      have first := charIndex_le_iff (blockPlain inlines) ds i inside
      exact (kept i c here (Or.inl (by omega))).imp_left
        (delete_front_iff _ ds de start stop sFits eFits top short i before).mpr
    · intro i
      apply (markFlat_agree_iff patch _ _ _ _ _ _ _ _ (back i)).mpr
      intro c here
      have inside := inside_of_getElem? inlines _ c here
      have second := charIndex_le_iff (blockPlain inlines) de _ inside
      exact (kept _ c here (Or.inr (by omega))).imp_left
        (delete_back_iff _ ds de start stop sFits eFits short i inside).mpr

end Survive

/-- The offsets of an edit are machine integers, and the text it leaves fits a string. -/
structure TextEdit.Fits (plain : Str) (edit : TextEdit) : Prop where
  offsets : match edit with
    | .insert offset _ _ => offset < 2 ^ 64
    | .delete _ stop => stop < 2 ^ 64
  text : match edit with
    | .insert _ text _ => byteLen plain + byteLen text < 2 ^ 63
    | .delete _ _ => byteLen plain < 2 ^ 63

/-- The marks of a range that is transformed against an edit reach the characters they reach without
the edit, and no others, exactly if the range holds every remaining character alike. -/
theorem marks_survive_iff (doc : EradDocument) (blockId : Str) (inlines : List InlineSpan)
    (start stop : Nat) (marks : MarkArgs) (edit : TextEdit)
    (found : blockInlines doc blockId = some inlines) (sFits : start < 2 ^ 64)
    (eFits : stop < 2 ^ 64) (fits : edit.Fits (blockPlain inlines)) :
    (∃ final, blockInlines (applyOp (applyOp doc (edit.toOp blockId))
        ((DocOp.setMarksRange blockId start stop marks).transformAgainst (edit.toOp blockId)))
          blockId = some final ∧
      Survives inlines start stop marks.patch edit final) ↔
      Kept inlines start stop marks.patch edit := by
  have edited := blockInlines_edited doc blockId start stop marks edit
  rw [found, Option.map_some] at edited
  have only (final : List InlineSpan) : (some (applyMarksRange (edit.editSpans inlines)
      (transformedRange start stop edit).1
        (transformedRange start stop edit).2 marks.patch) = some final ∧
        Survives inlines start stop marks.patch edit final) ↔
      (applyMarksRange (edit.editSpans inlines)
        (transformedRange start stop edit).1
          (transformedRange start stop edit).2 marks.patch = final ∧
        Survives inlines start stop marks.patch edit final) := by
    rw [Option.some.injEq]
  rw [edited]
  simp only [only, exists_eq_left']
  cases edit with
  | insert offset text om =>
      exact survives_insert_iff inlines start stop marks.patch offset text om sFits eFits
        fits.offsets fits.text
  | delete ds de =>
      exact survives_delete_iff inlines start stop marks.patch ds de sFits eFits fits.offsets
        fits.text

instance (inlines : List InlineSpan) (start stop : Nat) (patch : MarksPatch) :
    (edit : TextEdit) → (final : List InlineSpan) →
    Decidable (Survives inlines start stop patch edit final)
  | .insert _ _ _, _ => inferInstanceAs (Decidable (_ ∧ _))
  | .delete _ _, _ => inferInstanceAs (Decidable (_ = _))

def sampleDigits : List InlineSpan := [InlineSpan.plain "0123456789".toList]

def sampleDoc : EradDocument :=
  { EradDocument.empty "b1".toList with
    blocks := [{ Block.paragraph "b1".toList [] with inlines := sampleDigits }] }

def makeBold : MarkArgs :=
  ⟨some true, none, none, none, none, none, none, none, none, none, none⟩

theorem marks_survive_insert :
    ∃ final, blockInlines
      (applyOp (applyOp sampleDoc ((TextEdit.insert 2 "xy".toList none).toOp "b1".toList))
        ((DocOp.setMarksRange "b1".toList 1 8 makeBold).transformAgainst
          ((TextEdit.insert 2 "xy".toList none).toOp "b1".toList))) "b1".toList = some final ∧
      Survives sampleDigits 1 8 makeBold.patch (.insert 2 "xy".toList none) final :=
  (marks_survive_iff sampleDoc "b1".toList sampleDigits 1 8 makeBold (.insert 2 "xy".toList none)
    (by decide)
    (by decide) (by decide) ⟨by decide, by decide⟩).mpr fun _ _ _ _ => Or.inl (Or.inl (by decide))

/-- The digits from 6 on lose their marks: the range ends at 4 where it should end at 6. -/
theorem marks_lost_delete :
    ¬∃ final, blockInlines (applyOp (applyOp sampleDoc ((TextEdit.delete 2 4).toOp "b1".toList))
        ((DocOp.setMarksRange "b1".toList 1 8 makeBold).transformAgainst
          ((TextEdit.delete 2 4).toOp "b1".toList))) "b1".toList = some final ∧
      Survives sampleDigits 1 8 makeBold.patch (.delete 2 4) final := by
  have lost :
      ∀ final ∈ blockInlines (applyOp (applyOp sampleDoc ((TextEdit.delete 2 4).toOp "b1".toList))
      ((DocOp.setMarksRange "b1".toList 1 8 makeBold).transformAgainst
        ((TextEdit.delete 2 4).toOp "b1".toList))) "b1".toList,
      ¬Survives sampleDigits 1 8 makeBold.patch (.delete 2 4) final := by
    decide
  rintro ⟨final, found, survives⟩
  exact lost final found survives

end EraOne.Docs
