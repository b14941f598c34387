import EraOne.DocsSync

set_option autoImplicit false

/- Span lists as lists of characters with their marks, and the span list that stands for each. -/
namespace EraOne.Docs

/-- The marks of a span. -/
def InlineSpan.marks (span : InlineSpan) : InlineSpan := withText span []

/-- A character with its marks. -/
abbrev Marked := Char × InlineSpan

def flattenSpan (span : InlineSpan) : List Marked := span.text.map fun c => (c, span.marks)

def flatten (inlines : List InlineSpan) : List Marked := inlines.flatMap flattenSpan

/-- No span is empty, and no two neighbours have the same marks. -/
def Normal (inlines : List InlineSpan) : Prop :=
  (∀ span ∈ inlines, span.text ≠ []) ∧ inlines.IsChain fun a b => a.marks ≠ b.marks

/-- No span is empty unless it is the only one, and no two neighbours have the same marks. -/
def Coalesced (inlines : List InlineSpan) : Prop :=
  (∀ span ∈ inlines, span.text = [] → inlines.length = 1) ∧
    inlines.IsChain fun a b => a.marks ≠ b.marks

/-- A character before spans joins the first one if the marks are the same. -/
def addMarked (c : Marked) : List InlineSpan → List InlineSpan
  | [] => [withText c.2 [c.1]]
  | span :: rest =>
      if span.marks = c.2 then withText span (c.1 :: span.text) :: rest
      else withText c.2 [c.1] :: span :: rest

/-- The spans of a list of characters. -/
def runs (flat : List Marked) : List InlineSpan := flat.foldr addMarked []

@[simp] theorem flatten_nil : flatten [] = [] := rfl

@[simp] theorem flatten_cons (span : InlineSpan) (rest : List InlineSpan) :
    flatten (span :: rest) = flattenSpan span ++ flatten rest := List.flatMap_cons

@[simp] theorem flatten_append (left right : List InlineSpan) :
    flatten (left ++ right) = flatten left ++ flatten right := List.flatMap_append

@[simp] theorem marks_withText (span : InlineSpan) (text : Str) :
    (withText span text).marks = span.marks := rfl

@[simp] theorem withText_text (span : InlineSpan) : withText span span.text = span := rfl

@[simp] theorem flattenSpan_withText (span : InlineSpan) (text : Str) :
    flattenSpan (withText span text) = text.map fun c => (c, span.marks) := rfl

theorem flattenSpan_empty (span : InlineSpan) (empty : span.text = []) : flattenSpan span = [] := by
  rw [flattenSpan, empty, List.map_nil]

theorem map_fst_flatten (inlines : List InlineSpan) :
    (flatten inlines).map Prod.fst = blockPlain inlines := by
  induction inlines with
  | nil => rfl
  | cons span rest ih =>
      rw [flatten_cons, List.map_append, ih, blockPlain_cons, flattenSpan, List.map_map]
      congr 1
      exact List.map_id span.text

theorem length_flatten (inlines : List InlineSpan) :
    (flatten inlines).length = (blockPlain inlines).length := by
  rw [← map_fst_flatten, List.length_map]

theorem marksEq_iff (a b : InlineSpan) : marksEq a b = true ↔ a.marks = b.marks := by
  simp only [marksEq, InlineSpan.marks, withText, Bool.and_eq_true, beq_iff_eq, InlineSpan.mk.injEq,
    true_and, and_assoc]

/-! ### Coalescing -/

theorem flatten_coalesceStep (out : List InlineSpan) (span : InlineSpan) :
    flatten (coalesceStep out span) = flatten out ++ flattenSpan span := by
  unfold coalesceStep
  split
  · rename_i empty
    rw [flattenSpan_empty span (List.isEmpty_iff.mp empty), List.append_nil]
  · split
    · rename_i last found
      have shape := List.dropLast_append_getLast? last found
      split
      · rename_i same
        rw [marksEq_iff] at same
        conv_rhs => rw [← shape]
        rw [flatten_append, flatten_append, flatten_cons, flatten_cons, flatten_nil,
          List.append_nil, List.append_nil, List.append_assoc]
        congr 1
        unfold flattenSpan
        rw [List.map_append, ← same]
        rfl
      · simp
    · simp

theorem flatten_foldl_coalesceStep (spans out : List InlineSpan) :
    flatten (spans.foldl coalesceStep out) = flatten out ++ flatten spans := by
  induction spans generalizing out with
  | nil => simp
  | cons span rest ih =>
      rw [List.foldl_cons, ih, flatten_coalesceStep, flatten_cons, List.append_assoc]

/-- A turn of the loop keeps the spans normal. -/
theorem normal_coalesceStep (out : List InlineSpan) (span : InlineSpan) (normal : Normal out) :
    Normal (coalesceStep out span) := by
  unfold coalesceStep
  split
  · exact normal
  · rename_i full
    have some_ : span.text ≠ [] := fun empty => full (List.isEmpty_iff.mpr empty)
    have added (front : List InlineSpan) (last : InlineSpan) (shape : front ++ [last] = out)
        (new : last.marks ≠ span.marks) : Normal (out ++ [span]) := by
      constructor
      · intro s inside
        cases List.mem_append.mp inside with
        | inl old => exact normal.1 s old
        | inr here => rwa [List.mem_singleton.mp here]
      · apply List.IsChain.append normal.2 (List.IsChain.singleton span)
        intro x atEnd y atStart
        rw [← shape, List.getLast?_concat] at atEnd
        rw [← Option.some.inj atEnd, ← Option.some.inj atStart]
        exact new
    split
    · rename_i last found
      have shape := List.dropLast_append_getLast? last found
      split
      · rename_i same
        rw [← shape] at normal
        constructor
        · intro s inside
          cases List.mem_append.mp inside with
          | inl old => exact normal.1 s (List.mem_append_left _ old)
          | inr here =>
              rw [List.mem_singleton.mp here]
              exact fun empty => some_ (List.append_eq_nil_iff.mp empty).2
        · have chain := List.isChain_append.mp normal.2
          apply List.IsChain.append chain.1 (List.IsChain.singleton _)
          intro x atEnd y atStart
          rw [← Option.some.inj atStart]
          exact chain.2.2 x atEnd last rfl
      · rename_i differ
        rw [marksEq_iff] at differ
        exact added out.dropLast last shape differ
    · rename_i none
      rw [List.getLast?_eq_none_iff.mp none]
      exact ⟨fun s here => by rwa [List.mem_singleton.mp here], List.IsChain.singleton span⟩

theorem normal_foldl_coalesceStep (spans out : List InlineSpan) (normal : Normal out) :
    Normal (spans.foldl coalesceStep out) := by
  induction spans generalizing out with
  | nil => exact normal
  | cons span rest ih => exact ih (coalesceStep out span) (normal_coalesceStep out span normal)

theorem Normal.tail {span : InlineSpan} {rest : List InlineSpan} (normal : Normal (span :: rest)) :
    Normal rest :=
  ⟨fun s inside => normal.1 s (List.mem_cons_of_mem _ inside), normal.2.tail⟩

/-- The characters of one span stand before spans that begin with other marks. -/
theorem foldr_addMarked (text : Str) (marks : InlineSpan) (rest : List InlineSpan)
    (some_ : text ≠ []) (new : ∀ next ∈ rest.head?, next.marks ≠ marks.marks) :
    (text.map fun c => (c, marks.marks)).foldr addMarked rest = withText marks text :: rest := by
  induction text with
  | nil => exact absurd rfl some_
  | cons c text ih =>
      rw [List.map_cons, List.foldr_cons]
      cases text with
      | nil =>
          cases rest with
          | nil => rfl
          | cons next rest =>
              rw [List.map_nil, List.foldr_nil, addMarked, if_neg (new next rfl)]
              rfl
      | cons d text =>
          rw [ih (List.cons_ne_nil d text), addMarked, if_pos (marks_withText marks (d :: text))]
          rfl

/-- Normal spans are the spans of their characters. -/
theorem runs_flatten (inlines : List InlineSpan) (normal : Normal inlines) :
    runs (flatten inlines) = inlines := by
  induction inlines with
  | nil => rfl
  | cons span rest ih =>
      have inner := ih normal.tail
      unfold runs at inner ⊢
      rw [flatten_cons, List.foldr_append, inner, flattenSpan,
        foldr_addMarked span.text span rest (normal.1 span (List.mem_cons_self))]
      · rfl
      · intro next first
        exact (normal.2.rel_head? first).symm

/-- What coalescing leaves depends on the characters alone, and on whether there was a span at
all. -/
theorem coalesceAdjacent_eq (inlines : List InlineSpan) (some_ : inlines ≠ []) :
    coalesceAdjacent inlines =
      if flatten inlines = [] then [InlineSpan.plain []] else runs (flatten inlines) := by
  have same := flatten_foldl_coalesceStep inlines []
  have normal := normal_foldl_coalesceStep inlines [] ⟨by simp, List.IsChain.nil⟩
  rw [flatten_nil, List.nil_append] at same
  unfold coalesceAdjacent
  rw [if_neg (by simpa using some_)]
  dsimp only
  rw [← same, runs_flatten _ normal]
  cases out : inlines.foldl coalesceStep [] with
  | nil => rfl
  | cons span rest =>
      rw [out] at normal
      have full : flatten (span :: rest) ≠ [] := by
        rw [flatten_cons, flattenSpan]
        intro empty
        exact normal.1 span List.mem_cons_self
          (List.map_eq_nil_iff.mp (List.append_eq_nil_iff.mp empty).1)
      rw [if_neg (by simp), if_neg full]

theorem flatten_coalesceAdjacent (inlines : List InlineSpan) :
    flatten (coalesceAdjacent inlines) = flatten inlines := by
  have same := flatten_foldl_coalesceStep inlines []
  unfold coalesceAdjacent
  dsimp only
  split
  · rfl
  · split
    · rename_i empty
      rw [List.isEmpty_iff.mp empty] at same
      exact same
    · exact same

theorem coalesceAdjacent_ne_nil (inlines : List InlineSpan) (some_ : inlines ≠ []) :
    coalesceAdjacent inlines ≠ [] := by
  unfold coalesceAdjacent
  rw [if_neg (by simpa using some_)]
  dsimp only
  split
  · exact List.cons_ne_nil _ _
  · rename_i full
    simpa using full

/-- Span lists with the same characters coalesce to the same. -/
theorem coalesceAdjacent_congr (left right : List InlineSpan) (same : flatten left = flatten right)
    (some_ : left ≠ [] ↔ right ≠ []) : coalesceAdjacent left = coalesceAdjacent right := by
  by_cases empty : left = []
  · have other : right = [] := by
      by_contra full
      exact some_.mpr full empty
    rw [empty, other]
  · rw [coalesceAdjacent_eq left empty, coalesceAdjacent_eq right (some_.mp empty), same]

theorem coalesced_coalesceAdjacent (inlines : List InlineSpan) :
    Coalesced (coalesceAdjacent inlines) := by
  have normal := normal_foldl_coalesceStep inlines [] ⟨by simp, List.IsChain.nil⟩
  unfold coalesceAdjacent
  dsimp only
  split
  · rename_i none
    rw [List.isEmpty_iff.mp none]
    exact ⟨by simp, List.IsChain.nil⟩
  · split
    · exact ⟨fun _ _ _ => rfl, List.IsChain.singleton _⟩
    · exact ⟨fun span inside empty => absurd empty (normal.1 span inside), normal.2⟩

end EraOne.Docs
