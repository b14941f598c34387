import EraOne.DocsFlatten
import EraOne.DocxEvents
import EraOne.DocxImport

set_option autoImplicit false

/- The spans that the text of runs is collected into. -/
namespace EraOne.Docs

/-- A span before joined spans. -/
def joinSpan (span : InlineSpan) : List InlineSpan → List InlineSpan
  | [] => [span]
  | next :: rest =>
      if span.marks = next.marks then withText next (span.text ++ next.text) :: rest
        else span :: next :: rest

/-- The spans without the empty ones, adjacent ones of equal marks joined. -/
def joinedSpans (inlines : List InlineSpan) : List InlineSpan :=
  (inlines.filter fun span => span.text ≠ []).foldr joinSpan []

/-- The spans that a block comes back with. -/
def keptSpans (inlines : List InlineSpan) : List InlineSpan :=
  if joinedSpans inlines = [] then [InlineSpan.plain []] else joinedSpans inlines

/-! ### Joined spans -/

theorem flatten_joinSpan (span : InlineSpan) (rest : List InlineSpan) :
    flatten (joinSpan span rest) = flattenSpan span ++ flatten rest := by
  cases rest with
  | nil => simp [joinSpan]
  | cons next rest =>
      rw [joinSpan]
      split
      · rename_i same
        rw [flatten_cons, flatten_cons, flattenSpan_withText, List.map_append, ← same,
          List.append_assoc]
        unfold flattenSpan
        rw [same]
      · rfl

theorem normal_joinSpan (span : InlineSpan) (rest : List InlineSpan) (some_ : span.text ≠ [])
    (normal : Normal rest) :
    Normal (joinSpan span rest) := by
  cases rest with
  | nil => exact ⟨fun s here => by rwa [List.mem_singleton.mp here], List.IsChain.singleton span⟩
  | cons next rest =>
      rw [joinSpan]
      split
      · rename_i same
        constructor
        · intro s inside
          cases List.mem_cons.mp inside with
          | inl first =>
              rw [first]
              exact fun empty => some_ (List.append_eq_nil_iff.mp empty).1
          | inr later => exact normal.1 s (List.mem_cons_of_mem _ later)
        · have chain := List.isChain_cons.mp normal.2
          exact List.isChain_cons.mpr ⟨fun y first => chain.1 y first, chain.2⟩
      · rename_i differ
        constructor
        · intro s inside
          cases List.mem_cons.mp inside with
          | inl first => rwa [first]
          | inr later => exact normal.1 s later
        · exact List.isChain_cons_cons.mpr ⟨differ, normal.2⟩

theorem joinedSpans_normal (inlines : List InlineSpan) :
    Normal (joinedSpans inlines) ∧ flatten (joinedSpans inlines) = flatten inlines := by
  unfold joinedSpans
  induction inlines with
  | nil => exact ⟨⟨by simp, List.IsChain.nil⟩, rfl⟩
  | cons span rest ih =>
      by_cases empty : span.text = []
      · rw [List.filter_cons_of_neg (by simp [empty]), flatten_cons, flattenSpan_empty span empty,
          List.nil_append]
        exact ih
      · rw [List.filter_cons_of_pos (by simp [empty]), List.foldr_cons, flatten_joinSpan, ih.2,
          flatten_cons]
        exact ⟨normal_joinSpan span _ empty ih.1, rfl⟩

/-- Coalescing from the front joins the same spans. -/
theorem foldl_coalesceStep_eq (inlines : List InlineSpan) :
    inlines.foldl coalesceStep [] = joinedSpans inlines := by
  have normal := normal_foldl_coalesceStep inlines [] ⟨by simp, List.IsChain.nil⟩
  have same := flatten_foldl_coalesceStep inlines []
  have joined := joinedSpans_normal inlines
  rw [flatten_nil, List.nil_append] at same
  rw [← runs_flatten _ normal, same, ← joined.2, runs_flatten _ joined.1]

/-! ### Text of a run -/

theorem pushRunText_append (inlines : List InlineSpan) (a b : Str) (marks : RunMarks) :
    pushRunText (pushRunText inlines a marks) b marks = pushRunText inlines (a ++ b) marks := by
  cases a with
  | nil => rfl
  | cons c a =>
      cases b with
      | nil => rw [List.append_nil]; rfl
      | cons d b =>
          have own (text : Str) : takesText (marks.span text) marks = true := by
            unfold takesText RunMarks.span
            simp [InlineSpan.plain]
          have extended (last : InlineSpan) (text : Str) :
              takesText { last with text := text } marks = takesText last marks := rfl
          have pushed (front : List InlineSpan) (last : InlineSpan) (text : Str)
              (takes : takesText last marks = true) (some_ : text ≠ []) :
              pushRunText (front ++ [last]) text marks = front ++
                [{ last with text := last.text ++ text }] := by
            unfold pushRunText
            rw [if_neg (by simpa using some_), List.getLast?_concat, List.dropLast_concat]
            dsimp only
            rw [if_pos takes]
          have alone (front : List InlineSpan) (text : Str) (some_ : text ≠ [])
              (none_ : ∀ last ∈ front.getLast?, takesText last marks = false) :
              pushRunText front text marks = front ++ [marks.span text] := by
            unfold pushRunText
            rw [if_neg (by simpa using some_)]
            cases shape : front.getLast? with
            | none =>
                rw [List.getLast?_eq_none_iff.mp shape]
                rfl
            | some last =>
                dsimp only
                rw [none_ last shape, if_neg Bool.false_ne_true]
          by_cases taken : ∃ last ∈ inlines.getLast?, takesText last marks = true
          · obtain ⟨last, ends, takes⟩ := taken
            have shape := List.dropLast_append_getLast? last ends
            rw [← shape, pushed _ last _ takes (List.cons_ne_nil _ _),
              pushed _ _ _ ((extended last _).trans takes) (List.cons_ne_nil _ _),
              pushed _ last _ takes (by simp)]
            simp
          · have none_ : ∀ last ∈ inlines.getLast?, takesText last marks = false := by
              intro last ends
              rw [Bool.eq_false_iff]
              exact fun takes => taken ⟨last, ends, takes⟩
            rw [alone _ _ (List.cons_ne_nil _ _) none_, pushed _ _ _ (own _) (List.cons_ne_nil _ _),
              alone _ _ (by simp) none_]
            rfl

def runMarks (span : InlineSpan) : RunMarks :=
  { bold := span.bold, italic := span.italic, underline := span.underline, strike := span.strike }

theorem span_of_plain (span : InlineSpan) (plain : PlainSpan span) :
    (runMarks span).span span.text = span := by
  obtain ⟨text, bold, italic, underline, strike, linkUrl, fontFamily, fontSizePt, color, highlight,
      superscript, subscript⟩ := span
  have facts := plain
  obtain ⟨link, family, size, color_, high, sup, sub, -⟩ := facts
  dsimp only at link family size color_ high sup sub
  subst link family size color_ high sup sub
  rfl

theorem takesText_plain (last span : InlineSpan) (plain : PlainSpan span) :
    takesText last (runMarks span) = marksEq last span := by
  unfold takesText marksEq runMarks
  rw [plain.linkUrl, plain.fontFamily, plain.fontSizePt, plain.color, plain.highlight,
    plain.superscript, plain.subscript]
  rw [Bool.eq_iff_iff]
  simp [Option.isNone_iff_eq_none]

/-- The text of a plain run is taken as coalescing takes its span. -/
theorem pushRunText_plain (inlines : List InlineSpan) (span : InlineSpan) (plain : PlainSpan span) :
    pushRunText inlines span.text (runMarks span) = coalesceStep inlines span := by
  unfold pushRunText coalesceStep
  rw [span_of_plain span plain]
  split
  · rfl
  · cases ends : inlines.getLast? with
    | none =>
        rw [List.getLast?_eq_none_iff.mp ends]
        rfl
    | some last =>
        dsimp only
        rw [takesText_plain last span plain]

/-! ### Single events -/

end EraOne.Docs
