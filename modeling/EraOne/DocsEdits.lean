import EraOne.DocsFlatten
import EraOne.Scan

set_option autoImplicit false

/- Span editing with every index checked, and what it does to the characters and their marks. -/
namespace EraOne.Docs

/-! ### Checked access -/

/-- `text.truncate(n)`, which panics inside a scalar value. -/
def truncateChecked (s : Str) (n : Nat) : Option Str :=
  if byteLen s < n then some s else if CharBoundary s n then some (takeBytes s n) else none

/-- `inlines.insert(i, span)`. -/
def insertChecked (inlines : List InlineSpan) (i : Nat) (span : InlineSpan) :
    Option (List InlineSpan) :=
  if i ≤ inlines.length then some (inlines.insertIdx i span) else none

/-- `inlines.remove(i)`. -/
def removeChecked (inlines : List InlineSpan) (i : Nat) : Option (List InlineSpan) :=
  if i < inlines.length then some (inlines.eraseIdx i) else none

/-- `inlines.drain(i..j)`. -/
def drainChecked (inlines : List InlineSpan) (i j : Nat) : Option (List InlineSpan) :=
  if i ≤ j ∧ j ≤ inlines.length then some (inlines.take i ++ inlines.drop j) else none

/-- `inlines.split_off(i)`, with what stays. -/
def splitOffChecked (inlines : List InlineSpan) (i : Nat) :
    Option (List InlineSpan × List InlineSpan) :=
  if i ≤ inlines.length then some (inlines.take i, inlines.drop i) else none

/-- The loop of `split_at` from span `i`, which starts at byte `acc`. The first number counts the
spans that are left. -/
def splitLoopChecked (offset : Nat) :
    Nat → List InlineSpan → Nat → Nat → Option (List InlineSpan × Nat)
  | 0, inlines, _, _ => some (inlines, inlines.length)
  | left + 1, inlines, i, acc => do
      let span ← inlines[i]?
      let len := byteLen span.text
      if acc + len = offset then some (inlines, i + 1)
      else if acc + len > offset then do
        let cut := floorCharBoundary span.text (offset - acc)
        let rightText ← Scan.sliceFrom span.text cut
        let leftText ← truncateChecked span.text cut
        let inlines := inlines.set i (withText span leftText)
        let inlines ← insertChecked inlines (i + 1) (withText span rightText)
        if leftText.isEmpty then do
          let inlines ← removeChecked inlines i
          some (inlines, i)
        else some (inlines, i + 1)
      else splitLoopChecked offset left inlines (i + 1) (acc + len)

def splitAtChecked (inlines : List InlineSpan) (offset : Nat) : Option (List InlineSpan × Nat) :=
  let plain := blockPlain inlines
  let offset := floorCharBoundary plain offset
  if offset = 0 then some (inlines, 0)
  else if offset ≥ byteLen plain then some (inlines, inlines.length)
  else splitLoopChecked offset inlines.length inlines 0 0

def splitInlinesAtChecked (inlines : List InlineSpan) (offset : Nat) :
    Option (List InlineSpan × List InlineSpan) := do
  let split ← splitAtChecked inlines offset
  let halves ← splitOffChecked split.1 split.2
  some (coalesceAdjacent halves.1, coalesceAdjacent halves.2)

def applyMarksRangeChecked (inlines : List InlineSpan) (start stop : Nat) (patch : MarksPatch) :
    Option (List InlineSpan) :=
  let plain := blockPlain inlines
  let start := floorCharBoundary plain start
  let stop := max (floorCharBoundary plain stop) start
  if start ≥ stop then some inlines
  else do
    let first ← splitAtChecked inlines stop
    let left ← splitAtChecked first.1 start
    let right ← splitAtChecked left.1 stop
    some (coalesceAdjacent (right.1.mapIdx fun i span =>
      if left.2 ≤ i ∧ i < right.2 then applyPatch span patch else span))

def insertTextPreservingChecked (inlines : List InlineSpan) (offset : Nat) (text : Str)
    (typing : Option InlineSpan) : Option (List InlineSpan) :=
  if text.isEmpty then some inlines
  else if inlines.isEmpty then
    some [match typing with
      | some marks => withText marks text
      | none => InlineSpan.plain text]
  else do
    let offset := floorCharBoundary (blockPlain inlines) offset
    let split ← splitAtChecked inlines offset
    let template ←
      match typing with
      | some marks => some marks
      | none =>
          if split.2 > 0 then split.1[split.2 - 1]?
          else if split.2 < split.1.length then split.1[split.2]?
          else some (InlineSpan.plain [])
    let inserted ← insertChecked split.1 split.2 (withText template text)
    some (coalesceAdjacent inserted)

def deleteRangePreservingChecked (inlines : List InlineSpan) (start stop : Nat) :
    Option (List InlineSpan) :=
  let plain := blockPlain inlines
  let start := floorCharBoundary plain start
  let stop := max (floorCharBoundary plain stop) start
  if start ≥ stop then some inlines
  else do
    let first ← splitAtChecked inlines stop
    let left ← splitAtChecked first.1 start
    let right ← splitAtChecked left.1 stop
    let kept ← drainChecked right.1 left.2 right.2
    some (coalesceAdjacent kept)

/-! ### Cutting spans -/

/-- The number of characters before a byte offset, floored to whole characters. -/
def charIndex (s : Str) (offset : Nat) : Nat := (takeBytes s (floorCharBoundary s offset)).length

theorem charIndex_eq (s : Str) (offset : Nat) :
    charIndex s offset = (takeBytes s offset).length := by
  rw [charIndex, floorCharBoundary_eq, (takeBytes_floor s offset).1]

theorem charBoundary_floor (s : Str) (offset : Nat) :
    CharBoundary s (floorCharBoundary s offset) := by
  rw [floorCharBoundary_eq, charBoundary_iff]
  exact ⟨takeBytes s offset, dropBytes s offset, (takeBytes_append_dropBytes s offset).symm, rfl⟩

theorem insertIdx_middle {α : Type} (front back : List α) (a : α) :
    (front ++ back).insertIdx front.length a = front ++ a :: back := by
  induction front with
  | nil => rfl
  | cons b front ih =>
      rw [List.cons_append, List.length_cons, List.insertIdx_succ_cons, ih]
      rfl

theorem insertChecked_middle (front back : List InlineSpan) (span : InlineSpan) :
    insertChecked (front ++ back) front.length span = some (front ++ span :: back) := by
  have inside : front.length ≤ (front ++ back).length := by simp
  rw [insertChecked, if_pos inside, insertIdx_middle]

theorem removeChecked_middle (front back : List InlineSpan) (span : InlineSpan) :
    removeChecked (front ++ span :: back) front.length = some (front ++ back) := by
  have inside : front.length < (front ++ span :: back).length := by simp
  rw [removeChecked, if_pos inside, List.eraseIdx_append_of_length_le le_rfl, Nat.sub_self]
  rfl

/-- The loop stays in range, and is the loop on the spans that are left. -/
theorem splitLoopChecked_eq (offset : Nat) (back front : List InlineSpan) (acc : Nat) :
    splitLoopChecked offset back.length (front ++ back) front.length acc =
      some (front ++ (splitAtLoop offset back acc).1,
        front.length + (splitAtLoop offset back acc).2) := by
  induction back generalizing front acc with
  | nil => simp [splitLoopChecked, splitAtLoop]
  | cons span rest ih =>
      have here : (front ++ span :: rest)[front.length]? = some span := by simp
      have cut := charBoundary_floor span.text (offset - acc)
      rw [List.length_cons, splitLoopChecked, splitAtLoop, here]
      simp only [Option.bind_eq_bind, Option.bind_some]
      split
      · rfl
      · split
        · have kept : ¬byteLen span.text < floorCharBoundary span.text (offset - acc) := by
            have := cut.le
            omega
          have shorter (left right : InlineSpan) :
              insertChecked ((front ++ span :: rest).set front.length left)
              (front.length + 1) right = some (front ++ left :: right :: rest) := by
            have inserted := insertChecked_middle (front ++ [left]) rest right
            rw [List.length_append, List.length_singleton, List.append_assoc,
              List.append_assoc] at inserted
            rw [List.set_append_right _ _ le_rfl, Nat.sub_self]
            exact inserted
          simp only [Scan.sliceFrom, truncateChecked, cut, kept, if_true, if_false,
            Option.bind_some, shorter]
          split
          · rw [removeChecked_middle]
            rfl
          · rfl
        · have next := ih (front ++ [span]) (acc + byteLen span.text)
          rw [List.length_append, List.length_singleton, List.append_assoc,
            List.singleton_append] at next
          rw [next]
          simp [Nat.add_assoc, Nat.add_comm 1]

theorem splitAtChecked_eq (inlines : List InlineSpan) (offset : Nat) :
    splitAtChecked inlines offset = some (splitAt inlines offset) := by
  unfold splitAtChecked splitAt
  dsimp only
  split
  · rfl
  · split
    · rfl
    · have loop := splitLoopChecked_eq (floorCharBoundary (blockPlain inlines) offset) inlines [] 0
      simpa using loop

theorem flatten_splitAtLoop (offset : Nat) (inlines : List InlineSpan) (acc : Nat) :
    flatten (splitAtLoop offset inlines acc).1 = flatten inlines := by
  induction inlines generalizing acc with
  | nil => rfl
  | cons span rest ih =>
      unfold splitAtLoop
      dsimp only
      split
      · rfl
      · split
        · have whole :=
            takeBytes_append_dropBytes span.text (floorCharBoundary span.text (offset - acc))
          have cut : flattenSpan span =
              (takeBytes span.text (floorCharBoundary span.text (offset - acc))).map
                (fun c => (c, span.marks)) ++
                (dropBytes span.text (floorCharBoundary span.text (offset - acc))).map fun c =>
                  (c, span.marks) := by
            rw [← List.map_append, whole]
            rfl
          split
          · rename_i none
            rw [List.isEmpty_iff.mp none, List.map_nil, List.nil_append] at cut
            rw [flatten_cons, flatten_cons, cut]
            rfl
          · rw [flatten_cons, flatten_cons, flatten_cons, cut, List.append_assoc]
            rfl
        · rw [flatten_cons, flatten_cons, ih]

theorem flatten_splitAt (inlines : List InlineSpan) (offset : Nat) :
    flatten (splitAt inlines offset).1 = flatten inlines := by
  unfold splitAt
  dsimp only
  split
  · rfl
  · split
    · rfl
    · exact flatten_splitAtLoop _ inlines 0

/-- The spans before a cut hold the characters before it, and the spans behind it the rest. -/
theorem flatten_cut (inlines : List InlineSpan) (offset : Nat) :
    flatten ((splitAt inlines offset).1.take (splitAt inlines offset).2) =
        (flatten inlines).take (charIndex (blockPlain inlines) offset) ∧
      flatten ((splitAt inlines offset).1.drop (splitAt inlines offset).2) =
        (flatten inlines).drop (charIndex (blockPlain inlines) offset) := by
  have whole := flatten_splitAt inlines offset
  have size := congrArg List.length (splitAt_plain inlines offset).1
  rw [← length_flatten] at size
  rw [← List.take_append_drop (splitAt inlines offset).2 (splitAt inlines offset).1,
    flatten_append] at whole
  rw [charIndex_eq, ← whole, ← size]
  exact ⟨List.take_left.symm, List.drop_left.symm⟩

theorem charIndex_floor (s : Str) (offset : Nat) :
    charIndex s (floorCharBoundary s offset) = charIndex s offset := by
  rw [charIndex_eq, floorCharBoundary_eq, (takeBytes_floor s offset).1, charIndex_eq]

theorem charIndex_le (s : Str) (offset : Nat) : charIndex s offset ≤ s.length := by
  rw [charIndex_eq]
  have whole := congrArg List.length (takeBytes_append_dropBytes s offset)
  rw [List.length_append] at whole
  omega

theorem charIndex_mono (s : Str) (n m : Nat) (order : n ≤ m) : charIndex s n ≤ charIndex s m := by
  rw [charIndex_eq, charIndex_eq]
  induction s generalizing n m with
  | nil => simp
  | cons c s ih =>
      by_cases fits : c.utf8Size ≤ n
      · have inner := ih (n - c.utf8Size) (m - c.utf8Size) (by omega)
        rw [takeBytes_cons_of_le _ _ _ fits, takeBytes_cons_of_le _ _ _ (by omega)]
        simpa using inner
      · rw [takeBytes_cons_of_lt _ _ _ (by omega)]
        simp

/-- The start and the stop of a range, as the editing functions floor them. -/
def floorRange (plain : Str) (start stop : Nat) : Nat × Nat :=
  (floorCharBoundary plain start,
    max (floorCharBoundary plain stop) (floorCharBoundary plain start))

/-- The spans after cutting at the stop, at the start and at the stop again, with both indices. -/
def rangeCut (inlines : List InlineSpan) (start stop : Nat) : List InlineSpan × Nat × Nat :=
  let left := splitAt (splitAt inlines stop).1 start
  let right := splitAt left.1 stop
  (right.1, left.2, right.2)

/-- Two cuts in order stay in order, and hold the characters of the range between them. -/
structure RangeCut (inlines : List InlineSpan) (start stop : Nat)
    (cut : List InlineSpan × Nat × Nat) : Prop where
  ordered : cut.2.1 ≤ cut.2.2
  inside : cut.2.2 ≤ cut.1.length
  before : flatten (cut.1.take cut.2.1) = (flatten inlines).take
    (charIndex (blockPlain inlines) start)
  upTo : flatten (cut.1.take cut.2.2) = (flatten inlines).take (charIndex (blockPlain inlines) stop)
  after : flatten (cut.1.drop cut.2.2) = (flatten inlines).drop
    (charIndex (blockPlain inlines) stop)

theorem rangeCut_spec (inlines : List InlineSpan) (start stop : Nat)
    (less : byteLen (takeBytes (blockPlain inlines) start) < byteLen
      (takeBytes (blockPlain inlines) stop)) :
    RangeCut inlines start stop (rangeCut inlines start stop) := by
  unfold rangeCut
  dsimp only
  generalize first : (splitAt inlines stop).1 = spans
  have text : blockPlain spans = blockPlain inlines := by rw [← first, splitAt_text]
  have flat : flatten spans = flatten inlines := by rw [← first, flatten_splitAt]
  have cutStart := splitAt_plain spans start
  have flatStart := (flatten_cut spans start).1
  have bound := splitAt_le spans start
  have textLeft := splitAt_text spans start
  have flatLeft := flatten_splitAt spans start
  rw [text] at cutStart flatStart textLeft
  rw [flat] at flatStart flatLeft
  generalize splitAt spans start = left at *
  have cutStop := splitAt_plain left.1 stop
  have flatStop := flatten_cut left.1 stop
  have kept := splitAt_front left.1 stop left.2 (by rw [cutStart.1, textLeft]; exact less) bound
  have inside := splitAt_le left.1 stop
  rw [textLeft] at cutStop flatStop
  rw [flatLeft] at flatStop
  generalize splitAt left.1 stop = right at *
  refine ⟨?_, inside, ?_, flatStop.1, flatStop.2⟩
  · by_contra reversed
    -- The earlier cut would hold no more text than the later one.
    have before : right.2 < left.2 := by simpa using reversed
    have shape := (List.take_append_drop right.2 (right.1.take left.2)).symm
    rw [List.take_take, Nat.min_eq_left (by omega)] at shape
    have size := congrArg (fun l => byteLen (blockPlain l)) shape
    simp only [kept, blockPlain_append, byteLen_append] at size
    rw [cutStart.1, cutStop.1] at size
    omega
  · rw [kept, flatStart]

/-! ### Editing characters -/

def insertFlat (flat : List Marked) (k : Nat) (text : Str) (marks : InlineSpan) : List Marked :=
  flat.take k ++ text.map (fun c => (c, marks)) ++ flat.drop k

def deleteFlat (flat : List Marked) (i j : Nat) : List Marked := flat.take i ++ flat.drop (max i j)

def markFlat (flat : List Marked) (i j : Nat) (patch : MarksPatch) : List Marked :=
  flat.take i ++ ((flat.take j).drop i).map (fun c => (c.1, applyPatch c.2 patch)) ++ flat.drop
    (max i j)

theorem insertTextPreservingChecked_eq (inlines : List InlineSpan) (offset : Nat) (text : Str)
    (typing : Option InlineSpan) :
    insertTextPreservingChecked inlines offset text typing =
      some (insertTextPreserving inlines offset text typing) := by
  unfold insertTextPreservingChecked insertTextPreserving
  split
  · rfl
  · split
    · rfl
    · dsimp only
      have inside := splitAt_le inlines (floorCharBoundary (blockPlain inlines) offset)
      rw [splitAtChecked_eq, Option.bind_eq_bind, Option.bind_some]
      generalize splitAt inlines (floorCharBoundary (blockPlain inlines) offset) = split at *
      have inserted (span : InlineSpan) : insertChecked split.1 split.2 span =
          some (split.1.take split.2 ++ [span] ++ split.1.drop split.2) := by
        have middle := insertChecked_middle (split.1.take split.2) (split.1.drop split.2) span
        rw [List.take_append_drop, List.length_take, Nat.min_eq_left inside] at middle
        rw [middle]
        simp
      cases typing with
      | some marks => simp [inserted]
      | none =>
          by_cases front : split.2 > 0
          · have at_ : split.2 - 1 < split.1.length := by omega
            simp [inserted, front, at_]
          · by_cases more : split.2 < split.1.length
            · simp [inserted, front, more]
            · simp [inserted, front, more]

/-- Inserting puts the text between the characters, all of it with the same marks. -/
theorem flatten_insertTextPreserving (inlines : List InlineSpan) (offset : Nat) (text : Str)
    (typing : Option InlineSpan) :
    ∃ marks, (∀ given ∈ typing, marks = given.marks) ∧
      flatten (insertTextPreserving inlines offset text typing) =
        insertFlat (flatten inlines) (charIndex (blockPlain inlines) offset) text marks := by
  unfold insertTextPreserving insertFlat
  split
  · rename_i none
    rw [List.isEmpty_iff.mp none]
    cases typing with
    | none => exact ⟨InlineSpan.plain [], by simp, by simp⟩
    | some given => exact ⟨given.marks, by simp, by simp⟩
  · split
    · rename_i empty
      rw [List.isEmpty_iff.mp empty]
      cases typing with
      | none =>
          exact ⟨InlineSpan.plain [], by simp,
            by simp [flattenSpan, InlineSpan.plain, InlineSpan.marks, withText]⟩
      | some given => exact ⟨given.marks, by simp, by simp⟩
    · have cut := flatten_cut inlines (floorCharBoundary (blockPlain inlines) offset)
      rw [charIndex_floor] at cut
      dsimp only
      rw [flatten_coalesceAdjacent, flatten_append, flatten_append, cut.1, cut.2, flatten_cons,
        flattenSpan_withText, flatten_nil, List.append_nil]
      cases typing with
      | none => exact ⟨_, by simp, rfl⟩
      | some given => exact ⟨given.marks, by simp, rfl⟩

theorem coalesced_insertTextPreserving (inlines : List InlineSpan) (offset : Nat) (text : Str)
    (typing : Option InlineSpan)
    (changed : insertTextPreserving inlines offset text typing ≠ inlines) :
    Coalesced (insertTextPreserving inlines offset text typing) := by
  unfold insertTextPreserving at changed ⊢
  split
  · rename_i none
    rw [if_pos none] at changed
    exact absurd rfl changed
  · split
    · exact ⟨fun _ _ _ => rfl, List.IsChain.singleton _⟩
    · exact coalesced_coalesceAdjacent _

/-- The floored range is empty, or its start lies before its stop. -/
theorem floorRange_cases (inlines : List InlineSpan) (start stop : Nat) :
    (max (floorCharBoundary (blockPlain inlines) stop)
      (floorCharBoundary (blockPlain inlines) start) ≤
        floorCharBoundary (blockPlain inlines) start ∧
      charIndex (blockPlain inlines) stop ≤ charIndex (blockPlain inlines) start) ∨
    (floorCharBoundary (blockPlain inlines) start < floorCharBoundary (blockPlain inlines) stop ∧
      charIndex (blockPlain inlines) start ≤ charIndex (blockPlain inlines) stop) := by
  have floors := charIndex_floor (blockPlain inlines)
  by_cases less : floorCharBoundary (blockPlain inlines) start < floorCharBoundary
    (blockPlain inlines) stop
  · have mono := charIndex_mono (blockPlain inlines) _ _ (Nat.le_of_lt less)
    rw [floors, floors] at mono
    exact Or.inr ⟨less, mono⟩
  · have mono := charIndex_mono (blockPlain inlines) _ _ (Nat.le_of_not_lt less)
    rw [floors, floors] at mono
    exact Or.inl ⟨by omega, mono⟩

/-- A range that is not empty is cut at its floored ends. -/
theorem rangeCut_floor (inlines : List InlineSpan) (start stop : Nat)
    (less : floorCharBoundary (blockPlain inlines) start < floorCharBoundary
      (blockPlain inlines) stop) :
    RangeCut inlines start stop
      (rangeCut inlines (floorCharBoundary (blockPlain inlines) start)
        (floorCharBoundary (blockPlain inlines) stop)) := by
  have floored (n : Nat) :
      byteLen (takeBytes (blockPlain inlines) (floorCharBoundary (blockPlain inlines) n)) =
        floorCharBoundary (blockPlain inlines) n := by
    rw [floorCharBoundary_eq, (takeBytes_floor (blockPlain inlines) n).1]
  have cut := rangeCut_spec inlines (floorCharBoundary (blockPlain inlines) start)
    (floorCharBoundary (blockPlain inlines) stop) (by rw [floored, floored]; exact less)
  have before := cut.before
  have upTo := cut.upTo
  have after := cut.after
  rw [charIndex_floor] at before upTo after
  exact ⟨cut.ordered, cut.inside, before, upTo, after⟩

/-- A range that is not empty is deleted between its two cuts. -/
theorem deleteRangePreserving_eq (inlines : List InlineSpan) (start stop : Nat)
    (less : floorCharBoundary (blockPlain inlines) start < floorCharBoundary
      (blockPlain inlines) stop) :
    let cut := rangeCut inlines (floorCharBoundary (blockPlain inlines) start)
      (floorCharBoundary (blockPlain inlines) stop)
    deleteRangePreserving inlines start stop = coalesceAdjacent
      (cut.1.take cut.2.1 ++ cut.1.drop cut.2.2) ∧
      deleteRangePreservingChecked inlines start stop = (drainChecked cut.1 cut.2.1 cut.2.2).map
        coalesceAdjacent := by
  unfold deleteRangePreserving deleteRangePreservingChecked rangeCut
  simp only [splitAtChecked_eq, Option.bind_eq_bind, Option.bind_some]
  generalize floorCharBoundary (blockPlain inlines) start = first at *
  generalize floorCharBoundary (blockPlain inlines) stop = last at *
  rw [Nat.max_eq_left (Nat.le_of_lt less), if_neg (by omega), if_neg (by omega)]
  exact ⟨rfl, Option.map_eq_bind.symm⟩

theorem deleteRangePreserving_empty (inlines : List InlineSpan) (start stop : Nat)
    (empty : max (floorCharBoundary (blockPlain inlines) stop)
      (floorCharBoundary (blockPlain inlines) start) ≤
      floorCharBoundary (blockPlain inlines) start) :
    deleteRangePreserving inlines start stop = inlines ∧
      deleteRangePreservingChecked inlines start stop = some inlines := by
  unfold deleteRangePreserving deleteRangePreservingChecked
  dsimp only
  generalize floorCharBoundary (blockPlain inlines) start = first at *
  generalize floorCharBoundary (blockPlain inlines) stop = last at *
  exact ⟨if_pos empty, if_pos empty⟩

theorem deleteRangePreservingChecked_eq (inlines : List InlineSpan) (start stop : Nat) :
    deleteRangePreservingChecked inlines start stop = some
      (deleteRangePreserving inlines start stop) := by
  cases floorRange_cases inlines start stop with
  | inl none =>
      have still := deleteRangePreserving_empty inlines start stop none.1
      rw [still.1, still.2]
  | inr some_ =>
      have cut := rangeCut_floor inlines start stop some_.1
      have shape := deleteRangePreserving_eq inlines start stop some_.1
      rw [shape.1, shape.2, drainChecked, if_pos ⟨cut.ordered, cut.inside⟩, Option.map_some]

/-- Deleting removes exactly the floored range. -/
theorem flatten_deleteRangePreserving (inlines : List InlineSpan) (start stop : Nat) :
    flatten (deleteRangePreserving inlines start stop) =
      deleteFlat (flatten inlines) (charIndex (blockPlain inlines) start)
        (charIndex (blockPlain inlines) stop) := by
  unfold deleteFlat
  cases floorRange_cases inlines start stop with
  | inl none =>
      rw [(deleteRangePreserving_empty inlines start stop none.1).1, Nat.max_eq_left none.2,
        List.take_append_drop]
  | inr some_ =>
      have cut := rangeCut_floor inlines start stop some_.1
      rw [(deleteRangePreserving_eq inlines start stop some_.1).1, flatten_coalesceAdjacent,
        flatten_append, cut.before, cut.after, Nat.max_eq_right some_.2]

theorem coalesced_deleteRangePreserving (inlines : List InlineSpan) (start stop : Nat)
    (changed : deleteRangePreserving inlines start stop ≠ inlines) :
    Coalesced (deleteRangePreserving inlines start stop) := by
  cases floorRange_cases inlines start stop with
  | inl none => exact absurd (deleteRangePreserving_empty inlines start stop none.1).1 changed
  | inr some_ =>
      rw [(deleteRangePreserving_eq inlines start stop some_.1).1]
      exact coalesced_coalesceAdjacent _

theorem applyMarksRangeChecked_eq (inlines : List InlineSpan) (start stop : Nat)
    (patch : MarksPatch) :
    applyMarksRangeChecked inlines start stop patch = some
      (applyMarksRange inlines start stop patch) := by
  unfold applyMarksRangeChecked applyMarksRange
  simp only [splitAtChecked_eq, Option.bind_eq_bind, Option.bind_some]
  split
  · rfl
  · rfl

theorem mapIdx_range {α : Type} (f : α → α) (l : List α) (i j : Nat) (order : i ≤ j) :
    (l.mapIdx fun k a => if i ≤ k ∧ k < j then f a else a) =
      l.take i ++ ((l.take j).drop i).map f ++ l.drop j := by
  induction l generalizing i j with
  | nil => simp
  | cons a l ih =>
      rw [List.mapIdx_cons]
      cases i with
      | zero =>
          cases j with
          | zero =>
              have rest := ih 0 0 le_rfl
              simp only [Nat.not_lt_zero, and_false, if_false] at rest ⊢
              simpa using rest
          | succ j =>
              have rest := ih 0 j (Nat.zero_le j)
              simp only [Nat.zero_le, true_and, Nat.add_lt_add_iff_right, Nat.zero_lt_succ, if_true,
                List.take_zero, List.drop_zero, List.nil_append] at rest ⊢
              rw [rest]
              simp
      | succ i =>
          cases j with
          | zero => omega
          | succ j =>
              have rest := ih i j (by omega)
              simp only [Nat.add_le_add_iff_right, Nat.add_lt_add_iff_right] at rest ⊢
              rw [rest]
              simp

theorem flatten_map_applyPatch (inlines : List InlineSpan) (patch : MarksPatch) :
    flatten (inlines.map fun span => applyPatch span patch) =
      (flatten inlines).map fun c => (c.1, applyPatch c.2 patch) := by
  induction inlines with
  | nil => rfl
  | cons span rest ih =>
      rw [List.map_cons, flatten_cons, ih, flatten_cons, List.map_append]
      congr 1
      unfold flattenSpan
      rw [List.map_map]
      rfl

/-- A range that is not empty is marked between its two cuts. -/
theorem applyMarksRange_eq (inlines : List InlineSpan) (start stop : Nat) (patch : MarksPatch)
    (cut : List InlineSpan × Nat × Nat)
    (less : floorCharBoundary (blockPlain inlines) start < floorCharBoundary
      (blockPlain inlines) stop)
    (range : rangeCut inlines (floorCharBoundary (blockPlain inlines) start)
      (floorCharBoundary (blockPlain inlines) stop) = cut) :
    applyMarksRange inlines start stop patch =
      coalesceAdjacent (cut.1.mapIdx fun k span => if cut.2.1 ≤ k ∧
        k < cut.2.2 then applyPatch span patch else span) := by
  subst range
  unfold applyMarksRange
  dsimp only
  generalize floorCharBoundary (blockPlain inlines) start = first at *
  generalize floorCharBoundary (blockPlain inlines) stop = last at *
  rw [Nat.max_eq_left (Nat.le_of_lt less), if_neg (show ¬first ≥ last by omega)]
  unfold rangeCut
  dsimp only

theorem applyMarksRange_empty (inlines : List InlineSpan) (start stop : Nat) (patch : MarksPatch)
    (empty : max (floorCharBoundary (blockPlain inlines) stop)
      (floorCharBoundary (blockPlain inlines) start) ≤
      floorCharBoundary (blockPlain inlines) start) : applyMarksRange inlines start stop patch =
        inlines := by
  unfold applyMarksRange
  dsimp only
  generalize floorCharBoundary (blockPlain inlines) start = first at *
  generalize floorCharBoundary (blockPlain inlines) stop = last at *
  exact if_pos empty

/-- Marking patches exactly the floored range. -/
theorem flatten_applyMarksRange (inlines : List InlineSpan) (start stop : Nat)
    (patch : MarksPatch) :
    flatten (applyMarksRange inlines start stop patch) =
      markFlat (flatten inlines) (charIndex (blockPlain inlines) start)
        (charIndex (blockPlain inlines) stop)
        patch := by
  unfold markFlat
  cases floorRange_cases inlines start stop with
  | inl none =>
      rw [applyMarksRange_empty inlines start stop patch none.1, Nat.max_eq_left none.2,
        List.drop_eq_nil_of_le (by rw [List.length_take]; omega), List.map_nil, List.append_nil,
        List.take_append_drop]
  | inr some_ =>
      have cut := rangeCut_floor inlines start stop some_.1
      generalize whole : rangeCut inlines (floorCharBoundary (blockPlain inlines) start)
        (floorCharBoundary (blockPlain inlines) stop) = range at cut
      have shape := applyMarksRange_eq inlines start stop patch range some_.1 whole
      have middle : flatten ((range.1.take range.2.2).drop range.2.1) =
          ((flatten inlines).take (charIndex (blockPlain inlines) stop)).drop
            (charIndex (blockPlain inlines) start) := by
        have front : (range.1.take range.2.2).take range.2.1 = range.1.take range.2.1 := by
          rw [List.take_take, Nat.min_eq_left cut.ordered]
        have both := List.take_append_drop range.2.1 (range.1.take range.2.2)
        have size : ((flatten inlines).take (charIndex (blockPlain inlines) start)).length =
            charIndex (blockPlain inlines) start := by
          rw [List.length_take, length_flatten]
          exact Nat.min_eq_left (charIndex_le _ _)
        rw [← cut.upTo]
        conv_rhs => rw [← both, flatten_append, front, cut.before]
        exact (List.drop_left' size).symm
      rw [shape, flatten_coalesceAdjacent,
        mapIdx_range (fun span => applyPatch span patch) range.1 _ _ cut.ordered, flatten_append,
        flatten_append, flatten_map_applyPatch, cut.before, cut.after, middle,
        Nat.max_eq_right some_.2]

theorem coalesced_applyMarksRange (inlines : List InlineSpan) (start stop : Nat)
    (patch : MarksPatch) (changed : applyMarksRange inlines start stop patch ≠ inlines) :
    Coalesced (applyMarksRange inlines start stop patch) := by
  cases floorRange_cases inlines start stop with
  | inl none => exact absurd (applyMarksRange_empty inlines start stop patch none.1) changed
  | inr some_ =>
      rw [applyMarksRange_eq inlines start stop patch _ some_.1 rfl]
      exact coalesced_coalesceAdjacent _

theorem splitInlinesAtChecked_eq (inlines : List InlineSpan) (offset : Nat) :
    splitInlinesAtChecked inlines offset = some (splitInlinesAt inlines offset) := by
  unfold splitInlinesAtChecked splitInlinesAt
  rw [splitAtChecked_eq, Option.bind_eq_bind, Option.bind_some, splitOffChecked,
    if_pos (splitAt_le inlines offset)]
  rfl

/-- Splitting gives the characters before the floored offset and those from it on. -/
theorem flatten_splitInlinesAt (inlines : List InlineSpan) (offset : Nat) :
    flatten (splitInlinesAt inlines offset).1 = (flatten inlines).take
      (charIndex (blockPlain inlines) offset) ∧
      flatten (splitInlinesAt inlines offset).2 = (flatten inlines).drop
        (charIndex (blockPlain inlines) offset) := by
  have cut := flatten_cut inlines offset
  unfold splitInlinesAt
  dsimp only
  rw [flatten_coalesceAdjacent, flatten_coalesceAdjacent]
  exact cut

/-- What an edit leaves has the characters it should, and is coalesced if the edit changed
anything. -/
structure Edited (inlines result : List InlineSpan) (flat : List Marked) : Prop where
  flattened : flatten result = flat
  coalesced : result ≠ inlines → Coalesced result

/-- No index of an edit is out of range, and every edit of spans is the edit of their characters. -/
theorem span_edits_refine (inlines : List InlineSpan) (offset start stop : Nat) (text : Str)
    (typing : Option InlineSpan) (patch : MarksPatch) :
    (∃ result marks, insertTextPreservingChecked inlines offset text typing = some result ∧
      (∀ given ∈ typing, marks = given.marks) ∧
      Edited inlines result
        (insertFlat (flatten inlines) (charIndex (blockPlain inlines) offset) text marks)) ∧
    (∃ result, deleteRangePreservingChecked inlines start stop = some result ∧
      Edited inlines result (deleteFlat (flatten inlines) (charIndex (blockPlain inlines) start)
        (charIndex (blockPlain inlines) stop))) ∧
    (∃ result, applyMarksRangeChecked inlines start stop patch = some result ∧
      Edited inlines result (markFlat (flatten inlines) (charIndex (blockPlain inlines) start)
        (charIndex (blockPlain inlines) stop) patch)) ∧
    ∃ left right, splitInlinesAtChecked inlines offset = some (left, right) ∧
      flatten left = (flatten inlines).take (charIndex (blockPlain inlines) offset) ∧
      flatten right = (flatten inlines).drop (charIndex (blockPlain inlines) offset) ∧
      flatten left ++ flatten right = flatten inlines ∧ Coalesced left ∧ Coalesced right := by
  refine ⟨?_, ?_, ?_, ?_⟩
  · obtain ⟨marks, given, flat⟩ := flatten_insertTextPreserving inlines offset text typing
    exact ⟨_, marks, insertTextPreservingChecked_eq inlines offset text typing, given, flat,
      coalesced_insertTextPreserving inlines offset text typing⟩
  · exact ⟨_, deleteRangePreservingChecked_eq inlines start stop,
      flatten_deleteRangePreserving inlines start stop,
      coalesced_deleteRangePreserving inlines start stop⟩
  · exact ⟨_, applyMarksRangeChecked_eq inlines start stop patch,
      flatten_applyMarksRange inlines start stop patch,
      coalesced_applyMarksRange inlines start stop patch⟩
  · have halves := flatten_splitInlinesAt inlines offset
    refine ⟨_, _, splitInlinesAtChecked_eq inlines offset, halves.1, halves.2, ?_, ?_, ?_⟩
    · exact (congrArg₂ (· ++ ·) halves.1 halves.2).trans (List.take_append_drop _ _)
    · exact coalesced_coalesceAdjacent _
    · exact coalesced_coalesceAdjacent _

end EraOne.Docs
