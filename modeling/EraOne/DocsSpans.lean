import EraOne.DocsModel

set_option autoImplicit false

/- Span editing of `spans.rs`, with the source's loops, and what each edit does to
the plain text of the span list. -/
namespace EraOne.Docs

open Weighted

/-- `str::char_indices`, the byte offset of each scalar value. -/
def charIndices : Nat → Str → List Nat
  | _, [] => []
  | first, c :: s => first :: charIndices (first + c.utf8Size) s

def floorCharBoundary (s : Str) (offset : Nat) : Nat :=
  if offset ≥ byteLen s then byteLen s
  else ((charIndices 0 s).takeWhile (· ≤ offset)).getLast?.getD 0

def blockPlain (inlines : List InlineSpan) : Str := inlines.flatMap (·.text)

def marksEq (a b : InlineSpan) : Bool :=
  a.bold == b.bold && a.italic == b.italic && a.underline == b.underline &&
    a.strike == b.strike && a.linkUrl == b.linkUrl && a.fontFamily == b.fontFamily &&
    a.fontSizePt == b.fontSizePt && a.color == b.color && a.highlight == b.highlight &&
    a.superscript == b.superscript && a.subscript == b.subscript

def withText (marks : InlineSpan) (text : Str) : InlineSpan := { marks with text := text }

/-- One turn of the loop in `coalesce_adjacent`. -/
def coalesceStep (out : List InlineSpan) (span : InlineSpan) : List InlineSpan :=
  if span.text.isEmpty then out
  else
    match out.getLast? with
    | some last =>
        if marksEq last span then out.dropLast ++ [{ last with text := last.text ++ span.text }]
        else out ++ [span]
    | none => out ++ [span]

def coalesceAdjacent (inlines : List InlineSpan) : List InlineSpan :=
  if inlines.isEmpty then inlines
  else
    let out := inlines.foldl coalesceStep []
    if out.isEmpty then [InlineSpan.plain []] else out

/-- The loop of `split_at` on the spans that start at byte `acc`. The index it
returns counts from the first of them. -/
def splitAtLoop (offset : Nat) : List InlineSpan → Nat → List InlineSpan × Nat
  | [], _ => ([], 0)
  | span :: rest, acc =>
      let len := byteLen span.text
      if acc + len = offset then (span :: rest, 1)
      else if acc + len > offset then
        let cut := floorCharBoundary span.text (offset - acc)
        let left := { span with text := takeBytes span.text cut }
        let right := withText left (dropBytes span.text cut)
        if left.text.isEmpty then (right :: rest, 0) else (left :: right :: rest, 1)
      else
        let next := splitAtLoop offset rest (acc + len)
        (span :: next.1, next.2 + 1)

/-- `split_at`: the new span list and the index of the span that starts at `offset`. -/
def splitAt (inlines : List InlineSpan) (offset : Nat) : List InlineSpan × Nat :=
  let plain := blockPlain inlines
  let offset := floorCharBoundary plain offset
  if offset = 0 then (inlines, 0)
  else if offset ≥ byteLen plain then (inlines, inlines.length)
  else splitAtLoop offset inlines 0

def splitInlinesAt (inlines : List InlineSpan) (offset : Nat) :
    List InlineSpan × List InlineSpan :=
  let split := splitAt inlines offset
  (coalesceAdjacent (split.1.take split.2), coalesceAdjacent (split.1.drop split.2))

structure MarksPatch where
  bold : Option Bool
  italic : Option Bool
  underline : Option Bool
  strike : Option Bool
  linkUrl : Option (Option Str)
  fontFamily : Option (Option Str)
  fontSizePt : Option (Option UInt32)
  color : Option (Option Str)
  highlight : Option (Option Str)
  superscript : Option Bool
  subscript : Option Bool
  deriving DecidableEq, Repr

def applyPatch (span : InlineSpan) (patch : MarksPatch) : InlineSpan where
  text := span.text
  bold := patch.bold.getD span.bold
  italic := patch.italic.getD span.italic
  underline := patch.underline.getD span.underline
  strike := patch.strike.getD span.strike
  linkUrl := patch.linkUrl.getD span.linkUrl
  fontFamily := patch.fontFamily.getD span.fontFamily
  fontSizePt := patch.fontSizePt.getD span.fontSizePt
  color := patch.color.getD span.color
  highlight := patch.highlight.getD span.highlight
  superscript := patch.superscript.getD span.superscript
  subscript := patch.subscript.getD span.subscript

def applyMarksRange (inlines : List InlineSpan) (start stop : Nat) (patch : MarksPatch) :
    List InlineSpan :=
  let plain := blockPlain inlines
  let start := floorCharBoundary plain start
  let stop := max (floorCharBoundary plain stop) start
  if start ≥ stop then inlines
  else
    let first := (splitAt inlines stop).1
    let left := splitAt first start
    let right := splitAt left.1 stop
    coalesceAdjacent (right.1.mapIdx fun i span =>
      if left.2 ≤ i ∧ i < right.2 then applyPatch span patch else span)

def insertTextPreserving (inlines : List InlineSpan) (offset : Nat) (text : Str)
    (typing : Option InlineSpan) : List InlineSpan :=
  if text.isEmpty then inlines
  else if inlines.isEmpty then
    [match typing with
      | some marks => withText marks text
      | none => InlineSpan.plain text]
  else
    let offset := floorCharBoundary (blockPlain inlines) offset
    let split := splitAt inlines offset
    let template :=
      match typing with
      | some marks => marks
      | none =>
          if split.2 > 0 then split.1[split.2 - 1]?.getD (InlineSpan.plain [])
          else split.1[split.2]?.getD (InlineSpan.plain [])
    coalesceAdjacent (split.1.take split.2 ++ [withText template text] ++ split.1.drop split.2)

def deleteRangePreserving (inlines : List InlineSpan) (start stop : Nat) : List InlineSpan :=
  let plain := blockPlain inlines
  let start := floorCharBoundary plain start
  let stop := max (floorCharBoundary plain stop) start
  if start ≥ stop then inlines
  else
    let first := (splitAt inlines stop).1
    let left := splitAt first start
    let right := splitAt left.1 stop
    -- `drain(start_idx..end_idx)`
    coalesceAdjacent (right.1.take left.2 ++ right.1.drop right.2)

theorem charIndices_takeWhile (s : Str) (offset : Nat) (first : Nat) (inside : offset < byteLen s) :
    ((charIndices first s).takeWhile (· ≤ first + offset)).getLast? =
      some (first + byteLen (takeBytes s offset)) := by
  induction s generalizing offset first with
  | nil => simp at inside
  | cons c s ih =>
      have positive := Char.utf8Size_pos c
      rw [byteLen_cons] at inside
      by_cases fits : c.utf8Size ≤ offset
      · have inner := ih (offset - c.utf8Size) (first + c.utf8Size) (by omega)
        rw [show first + c.utf8Size + (offset - c.utf8Size) = first + offset by omega] at inner
        rw [takeBytes_cons_of_le c s offset fits, byteLen_cons, charIndices,
          List.takeWhile_cons_of_pos (by simp), List.getLast?_cons, inner]
        simp only [Option.getD_some, Option.some.injEq]
        omega
      · rw [takeBytes_cons_of_lt c s offset (by omega), charIndices,
          List.takeWhile_cons_of_pos (by simp)]
        cases s with
        | nil => rfl
        | cons d s =>
            have after : ¬ (first + c.utf8Size ≤ first + offset) := by omega
            rw [charIndices, List.takeWhile_cons_of_neg (by simpa using after)]
            rfl

/-- Flooring an offset measures the prefix it cuts off. -/
theorem floorCharBoundary_eq (s : Str) (offset : Nat) :
    floorCharBoundary s offset = byteLen (takeBytes s offset) := by
  unfold floorCharBoundary
  split
  · rename_i past
    rw [takeBytes_of_le s offset past]
  · rename_i inside
    have last := charIndices_takeWhile s offset 0 (by omega)
    simp only [Nat.zero_add] at last
    rw [last]
    rfl

@[simp] theorem blockPlain_nil : blockPlain [] = [] := rfl

@[simp] theorem blockPlain_cons (span : InlineSpan) (rest : List InlineSpan) :
    blockPlain (span :: rest) = span.text ++ blockPlain rest := by
  simp only [blockPlain, List.flatMap_cons]

@[simp] theorem blockPlain_append (left right : List InlineSpan) :
    blockPlain (left ++ right) = blockPlain left ++ blockPlain right := by
  simp only [blockPlain, List.flatMap_append]

theorem coalesceStep_plain (out : List InlineSpan) (span : InlineSpan) :
    blockPlain (coalesceStep out span) = blockPlain out ++ span.text := by
  unfold coalesceStep
  split
  · rename_i empty
    rw [List.isEmpty_iff.mp empty, List.append_nil]
  · split
    · rename_i last found
      split
      · have shape := List.dropLast_append_getLast? last found
        conv_rhs => rw [← shape]
        simp
      · simp
    · simp

theorem coalesceAdjacent_plain (inlines : List InlineSpan) :
    blockPlain (coalesceAdjacent inlines) = blockPlain inlines := by
  have folded (spans out : List InlineSpan) :
      blockPlain (spans.foldl coalesceStep out) = blockPlain out ++ blockPlain spans := by
    induction spans generalizing out with
    | nil => simp
    | cons span rest ih =>
        rw [List.foldl_cons, ih, coalesceStep_plain, blockPlain_cons, List.append_assoc]
  have all := folded inlines []
  unfold coalesceAdjacent
  dsimp only
  split
  · rfl
  · split
    · rename_i empty
      rw [List.isEmpty_iff.mp empty] at all
      simpa [InlineSpan.plain] using all
    · simpa using all

/-- The loop of `split_at` cuts the text at `offset`, wherever the span borders are. -/
theorem splitAtLoop_plain (offset : Nat) (inlines : List InlineSpan) (acc : Nat)
    (reached : acc ≤ offset) :
    blockPlain ((splitAtLoop offset inlines acc).1.take (splitAtLoop offset inlines acc).2) =
        takeBytes (blockPlain inlines) (offset - acc) ∧
      blockPlain ((splitAtLoop offset inlines acc).1.drop (splitAtLoop offset inlines acc).2) =
        dropBytes (blockPlain inlines) (offset - acc) := by
  induction inlines generalizing acc with
  | nil => simp [splitAtLoop]
  | cons span rest ih =>
      unfold splitAtLoop
      dsimp only
      split
      · rename_i border
        have exact_ : offset - acc = byteLen span.text := by omega
        rw [exact_, blockPlain_cons, takeBytes_front, dropBytes_front]
        simp
      · split
        · rename_i inside
          have within := takeBytes_append_of_le span.text (blockPlain rest) (offset - acc)
            (by omega)
          have floor := takeBytes_floor span.text (offset - acc)
          rw [blockPlain_cons, within.1, within.2, floorCharBoundary_eq, floor.1, floor.2]
          split
          · rename_i empty
            simp [withText, List.isEmpty_iff.mp empty]
          · simp [withText]
        · rename_i notBorder notInside
          have next := ih (acc + byteLen span.text) (by omega)
          have shift : offset - acc = byteLen span.text + (offset - (acc + byteLen span.text)) := by
            omega
          rw [shift, blockPlain_cons, takeBytes_append, dropBytes_append, ← next.1, ← next.2]
          simp

theorem splitAtLoop_le (offset : Nat) (inlines : List InlineSpan) (acc : Nat) :
    (splitAtLoop offset inlines acc).2 ≤ (splitAtLoop offset inlines acc).1.length := by
  induction inlines generalizing acc with
  | nil => simp [splitAtLoop]
  | cons span rest ih =>
      have next := ih (acc + byteLen span.text)
      unfold splitAtLoop
      dsimp only
      split
      · simp
      · split
        · split <;> simp
        · simpa using next

/-- Spans wholly before `offset` are passed over. -/
theorem splitAtLoop_front (offset : Nat) (front back : List InlineSpan) (acc : Nat)
    (before : acc + byteLen (blockPlain front) < offset) :
    (splitAtLoop offset (front ++ back) acc).1 =
      front ++ (splitAtLoop offset back (acc + byteLen (blockPlain front))).1 := by
  induction front generalizing acc with
  | nil => simp
  | cons span rest ih =>
      rw [blockPlain_cons, byteLen_append] at before
      have next := ih (acc + byteLen span.text) (by omega)
      rw [List.cons_append, splitAtLoop]
      dsimp only
      rw [if_neg (by omega), if_neg (by omega), next, blockPlain_cons, byteLen_append,
        List.cons_append, Nat.add_assoc]

/-- `split_at` cuts the text at the boundary at or before `offset`. -/
theorem splitAt_plain (inlines : List InlineSpan) (offset : Nat) :
    blockPlain ((splitAt inlines offset).1.take (splitAt inlines offset).2) =
        takeBytes (blockPlain inlines) offset ∧
      blockPlain ((splitAt inlines offset).1.drop (splitAt inlines offset).2) =
        dropBytes (blockPlain inlines) offset := by
  have floor := takeBytes_floor (blockPlain inlines) offset
  unfold splitAt
  simp only [floorCharBoundary_eq]
  split
  · rename_i zero
    rw [zero, takeBytes_zero, dropBytes_zero] at floor
    exact ⟨floor.1, floor.2⟩
  · split
    · rename_i past
      rw [takeBytes_of_le _ _ past, dropBytes_of_le _ _ past] at floor
      simpa using floor
    · have cut := splitAtLoop_plain (byteLen (takeBytes (blockPlain inlines) offset)) inlines 0
        (Nat.zero_le _)
      rw [Nat.sub_zero, floor.1, floor.2] at cut
      exact cut

theorem splitAt_text (inlines : List InlineSpan) (offset : Nat) :
    blockPlain (splitAt inlines offset).1 = blockPlain inlines := by
  have cut := splitAt_plain inlines offset
  rw [← List.take_append_drop (splitAt inlines offset).2 (splitAt inlines offset).1,
    blockPlain_append, cut.1, cut.2, takeBytes_append_dropBytes]

theorem splitAt_le (inlines : List InlineSpan) (offset : Nat) :
    (splitAt inlines offset).2 ≤ (splitAt inlines offset).1.length := by
  unfold splitAt
  dsimp only
  split
  · simp
  · split
    · simp
    · exact splitAtLoop_le _ _ _

/-- A later cut leaves the spans before an earlier one as they are. -/
theorem splitAt_front (inlines : List InlineSpan) (offset index : Nat)
    (before : byteLen (blockPlain (inlines.take index)) <
      byteLen (takeBytes (blockPlain inlines) offset))
    (bound : index ≤ inlines.length) :
    (splitAt inlines offset).1.take index = inlines.take index := by
  unfold splitAt
  simp only [floorCharBoundary_eq]
  split
  · omega
  · split
    · rfl
    · have shape := List.take_append_drop index inlines
      have passed := splitAtLoop_front (byteLen (takeBytes (blockPlain inlines) offset))
        (inlines.take index) (inlines.drop index) 0 (by omega)
      rw [shape] at passed
      rw [passed, List.take_append_of_le_length (by simp [bound]), List.take_take, Nat.min_self]

/-- Inserting into spans inserts into their text. -/
theorem insertTextPreserving_plain (inlines : List InlineSpan) (offset : Nat) (text : Str)
    (typing : Option InlineSpan) :
    blockPlain (insertTextPreserving inlines offset text typing) =
      takeBytes (blockPlain inlines) offset ++ text ++ dropBytes (blockPlain inlines) offset := by
  unfold insertTextPreserving
  split
  · rename_i empty
    rw [List.isEmpty_iff.mp empty, List.append_nil, takeBytes_append_dropBytes]
  · split
    · rename_i empty
      rw [List.isEmpty_iff.mp empty]
      cases typing <;> simp [withText, InlineSpan.plain]
    · have floor := takeBytes_floor (blockPlain inlines) offset
      have cut := splitAt_plain inlines (floorCharBoundary (blockPlain inlines) offset)
      rw [floorCharBoundary_eq, floor.1, floor.2] at cut
      dsimp only
      rw [coalesceAdjacent_plain, blockPlain_append, blockPlain_append, floorCharBoundary_eq,
        cut.1, cut.2]
      simp [withText]

/-- Deleting a range of spans deletes that range of their text. -/
theorem deleteRangePreserving_plain (inlines : List InlineSpan) (start stop : Nat) :
    blockPlain (deleteRangePreserving inlines start stop) =
      takeBytes (blockPlain inlines) start ++ dropBytes (blockPlain inlines) (max start stop) := by
  have floorStart := takeBytes_floor (blockPlain inlines) start
  have floorStop := takeBytes_floor (blockPlain inlines) stop
  have order := byteLen_takeBytes_mono (blockPlain inlines)
  unfold deleteRangePreserving
  simp only [floorCharBoundary_eq]
  split
  · rename_i empty
    have same : byteLen (takeBytes (blockPlain inlines) (max start stop)) =
        byteLen (takeBytes (blockPlain inlines) start) := by
      rcases Nat.le_total start stop with le | le
      · rw [Nat.max_eq_right le]
        have := order start stop le
        omega
      · rw [Nat.max_eq_left le]
    have floorMax := takeBytes_floor (blockPlain inlines) (max start stop)
    rw [← floorMax.2, same, floorStart.2, takeBytes_append_dropBytes]
  · rename_i nonempty
    have less : start < stop := by
      by_contra reversed
      have := order stop start (by omega)
      omega
    have cutStop : max (byteLen (takeBytes (blockPlain inlines) stop))
        (byteLen (takeBytes (blockPlain inlines) start)) =
          byteLen (takeBytes (blockPlain inlines) stop) :=
      Nat.max_eq_left (order start stop (by omega))
    rw [cutStop] at nonempty ⊢
    rw [Nat.max_eq_right (by omega : start ≤ stop)]
    generalize first : (splitAt inlines (byteLen (takeBytes (blockPlain inlines) stop))).1 = spans
    have text : blockPlain spans = blockPlain inlines := by rw [← first, splitAt_text]
    have left := splitAt_plain spans (byteLen (takeBytes (blockPlain inlines) start))
    have leftText := splitAt_text spans (byteLen (takeBytes (blockPlain inlines) start))
    have leftBound := splitAt_le spans (byteLen (takeBytes (blockPlain inlines) start))
    rw [text, floorStart.1] at left
    rw [text] at leftText
    generalize splitAt spans (byteLen (takeBytes (blockPlain inlines) start)) = halves at *
    have right := splitAt_plain halves.1 (byteLen (takeBytes (blockPlain inlines) stop))
    rw [leftText, floorStop.2] at right
    have kept := splitAt_front halves.1 (byteLen (takeBytes (blockPlain inlines) stop)) halves.2
      (by rw [left.1, leftText, floorStop.1]; omega) leftBound
    rw [coalesceAdjacent_plain, blockPlain_append, kept, left.1, right.2]

end EraOne.Docs
