import EraOne.DocsText

set_option autoImplicit false

/- The merge of concurrent text edits, against the arrangement of base characters and
inserted strings it should leave. The merged text is tracked as a list of pieces;
each edit's transformed offsets are cuts of that list. -/
namespace EraOne.Docs

open Weighted

/-- A base character with its byte offset in the base, or the text of one insert with
the offset it was sent with. -/
inductive Piece where
  | base (offset : Nat) (c : Char)
  | ins (offset : Nat) (text : Str)
  deriving DecidableEq, Repr

namespace Piece

def text : Piece → Str
  | .base _ c => [c]
  | .ins _ text => text

def size (piece : Piece) : Nat := byteLen piece.text

def base? : Piece → Option (Nat × Char)
  | .base offset c => some (offset, c)
  | .ins _ _ => none

def ins? : Piece → Option (Nat × Str)
  | .base _ _ => none
  | .ins offset text => some (offset, text)

end Piece

def render (pieces : List Piece) : Str := pieces.flatMap Piece.text

/-- The characters of a text with their byte offsets. -/
def baseChars : Nat → Str → List (Nat × Char)
  | _, [] => []
  | first, c :: s => (first, c) :: baseChars (first + c.utf8Size) s

/-- Some delete of the list covers the base byte `offset`. -/
def covered (edits : List TextEdit) (offset : Nat) : Bool :=
  edits.any fun
    | .delete start stop => start ≤ offset && offset < stop
    | .insert _ _ _ => false

/-- The non-empty inserts of a list. -/
def insertions (edits : List TextEdit) : List (Nat × Str) :=
  edits.filterMap fun
    | .insert offset text _ => if text = [] then none else some (offset, text)
    | .delete _ _ => none

/-- The result is made of exactly the uncovered base characters, in order, and of each
inserted string once, as one piece. An empty string needs no piece. -/
def KeepsIntention (base : Str) (edits : List TextEdit) (result : Str) : Prop :=
  ∃ pieces, render pieces = result ∧
    pieces.filterMap Piece.base? =
      (baseChars 0 base).filter (fun entry => !covered edits entry.1) ∧
    (pieces.filterMap Piece.ins?).Perm (insertions edits)

/-- What `b` may be when `a` was merged before it: a delete with no earlier non-empty
insert strictly inside it, and with every earlier non-empty delete to its right. -/
def MergesAfter (a b : TextEdit) : Prop :=
  match a, b with
  | .insert offset text _, .delete start stop => ¬ (start < offset ∧ offset < stop ∧ text ≠ [])
  | .delete s e, .delete s' e' => e ≤ s ∨ e' ≤ s' ∨ e' ≤ s
  | _, .insert _ _ _ => True

def totalInserted (edits : List TextEdit) : Nat := (edits.map TextEdit.inserted).sum

/-- One turn of `merge_concurrent` on the block's text. -/
def mergeTextStep (state : Str × List TextEdit) (edit : TextEdit) : Str × List TextEdit :=
  let transformed := state.2.foldl TextEdit.transform edit
  (transformed.apply state.1, state.2 ++ [transformed])

def mergeText (base : Str) (edits : List TextEdit) : Str × List TextEdit :=
  edits.foldl mergeTextStep (base, [])

theorem foldl_transformAgainst_toOp (blockId : Str) (applied : List TextEdit) (edit : TextEdit) :
    (applied.map (TextEdit.toOp blockId)).foldl DocOp.transformAgainst (edit.toOp blockId) =
      (applied.foldl TextEdit.transform edit).toOp blockId := by
  induction applied generalizing edit with
  | nil => rfl
  | cons first rest ih =>
      rw [List.map_cons, List.foldl_cons, transformAgainst_toOp, ih, List.foldl_cons]

/-- `merge_concurrent` on one block is the merge of that block's text. -/
theorem blockText_mergeConcurrent (doc : EradDocument) (blockId base : Str)
    (edits : List TextEdit) (found : blockText doc blockId = some base) :
    blockText (mergeConcurrent doc (edits.map (TextEdit.toOp blockId))) blockId =
      some (mergeText base edits).1 := by
  have run (edits applied : List TextEdit) (doc : EradDocument) (s : Str)
      (found : blockText doc blockId = some s) :
      blockText ((edits.map (TextEdit.toOp blockId)).foldl mergeStep
          (doc, applied.map (TextEdit.toOp blockId))).1 blockId =
        some (edits.foldl mergeTextStep (s, applied)).1 := by
    induction edits generalizing applied doc s with
    | nil => exact found
    | cons edit rest ih =>
        simp only [List.map_cons, List.foldl_cons, mergeStep, mergeTextStep,
          foldl_transformAgainst_toOp]
        have next := ih (applied ++ [applied.foldl TextEdit.transform edit])
          (applyOp doc ((applied.foldl TextEdit.transform edit).toOp blockId))
          ((applied.foldl TextEdit.transform edit).apply s)
          (by rw [blockText_applyOp, found, Option.map_some])
        simpa only [List.map_append, List.map_cons, List.map_nil] using next
  exact run edits [] doc base found

/-- Where an applied edit sends the offset of a later insert. -/
def insShift (offset : Nat) : TextEdit → Nat
  | .insert oo ot _ => if oo ≤ offset then offset + byteLen ot else offset
  | .delete start stop =>
      if stop ≤ offset then offset - (stop - start) else if start < offset then start else offset

/-- Where an applied edit sends the start of a later delete. -/
def startShift (start : Nat) : TextEdit → Nat
  | .insert oo ot _ => if oo ≤ start then start + byteLen ot else start
  | .delete _ _ => start

/-- Where an applied edit sends the end of a later non-empty delete. -/
def stopShift (stop : Nat) : TextEdit → Nat
  | .insert oo ot _ => if oo < stop then stop + byteLen ot else stop
  | .delete _ _ => stop

@[simp] theorem totalInserted_nil : totalInserted [] = 0 := rfl

@[simp] theorem totalInserted_cons (edit : TextEdit) (rest : List TextEdit) :
    totalInserted (edit :: rest) = edit.inserted + totalInserted rest := by
  simp only [totalInserted, List.map_cons, List.sum_cons]

@[simp] theorem totalInserted_append (left right : List TextEdit) :
    totalInserted (left ++ right) = totalInserted left + totalInserted right := by
  simp only [totalInserted, List.map_append, List.sum_append]

theorem transform_inserted (self other : TextEdit) :
    (self.transform other).inserted = self.inserted := by
  cases self with
  | insert offset text marks => cases other <;> rfl
  | delete start stop =>
      cases other with
      | insert oo ot om =>
          simp only [TextEdit.transform]
          split
          · rfl
          · split <;> rfl
      | delete s e => rfl

theorem foldl_transform_inserted (applied : List TextEdit) (edit : TextEdit) :
    (applied.foldl TextEdit.transform edit).inserted = edit.inserted := by
  induction applied generalizing edit with
  | nil => rfl
  | cons first rest ih => rw [List.foldl_cons, ih, transform_inserted]

theorem insShift_le (offset : Nat) (edit : TextEdit) :
    insShift offset edit ≤ offset + edit.inserted := by
  cases edit with
  | insert oo ot om => simp only [insShift, TextEdit.inserted]; split <;> omega
  | delete start stop =>
      simp only [insShift, TextEdit.inserted]
      split
      · omega
      · split <;> omega

/-- Within the range of `usize` a later insert moves by the unbounded shifts. -/
theorem foldl_transform_insert (applied : List TextEdit) (offset : Nat) (text : Str)
    (marks : Option InlineSpan) (fits : offset + totalInserted applied ≤ usizeMax) :
    applied.foldl TextEdit.transform (.insert offset text marks) =
      .insert (applied.foldl insShift offset) text marks := by
  induction applied generalizing offset with
  | nil => rfl
  | cons edit rest ih =>
      rw [totalInserted_cons] at fits
      have bound := insShift_le offset edit
      have step : (TextEdit.insert offset text marks).transform edit =
          .insert (insShift offset edit) text marks := by
        cases edit with
        | insert oo ot om =>
            simp only [TextEdit.inserted] at fits
            simp only [TextEdit.transform, insShift]
            rw [saturatingAdd_eq _ _ (by omega)]
        | delete start stop => rfl
      rw [List.foldl_cons, step, ih _ (by omega), List.foldl_cons]

theorem shift_strict (start stop : Nat) (edit : TextEdit) (less : start < stop) :
    startShift start edit < stopShift stop edit := by
  cases edit with
  | insert oo ot om =>
      simp only [startShift, stopShift]
      split
      · rw [if_pos (by omega)]
        omega
      · split <;> omega
  | delete s e => exact less

theorem foldl_shift_strict (applied : List TextEdit) (start stop : Nat) (less : start < stop) :
    applied.foldl startShift start < applied.foldl stopShift stop := by
  induction applied generalizing start stop with
  | nil => exact less
  | cons edit rest ih => exact ih _ _ (shift_strict start stop edit less)

theorem stopShift_le (stop : Nat) (edit : TextEdit) :
    stopShift stop edit ≤ stop + edit.inserted := by
  cases edit with
  | insert oo ot om => simp only [stopShift, TextEdit.inserted]; split <;> omega
  | delete s e => simp [stopShift, TextEdit.inserted]

theorem foldl_transform_delete (applied : List TextEdit) (start stop : Nat) (less : start < stop)
    (fits : stop + totalInserted applied ≤ usizeMax) :
    applied.foldl TextEdit.transform (.delete start stop) =
      .delete (applied.foldl startShift start) (applied.foldl stopShift stop) := by
  induction applied generalizing start stop with
  | nil => rfl
  | cons edit rest ih =>
      rw [totalInserted_cons] at fits
      have strict := shift_strict start stop edit less
      have bound := stopShift_le stop edit
      have step : (TextEdit.delete start stop).transform edit =
          .delete (startShift start edit) (stopShift stop edit) := by
        cases edit with
        | insert oo ot om =>
            simp only [TextEdit.inserted] at fits
            simp only [TextEdit.transform, startShift, stopShift]
            rw [saturatingAdd_eq _ _ (by omega), saturatingAdd_eq _ _ (by omega)]
            split
            · rw [if_pos (by omega)]
            · split <;> rfl
        | delete s e => rfl
      rw [List.foldl_cons, step, ih _ _ strict (by omega), List.foldl_cons, List.foldl_cons]

/-- An empty delete stays empty. -/
theorem foldl_transform_delete_empty (applied : List TextEdit) (start stop : Nat)
    (empty : stop ≤ start) :
    ∃ start' stop', applied.foldl TextEdit.transform (.delete start stop) =
      .delete start' stop' ∧ stop' ≤ start' := by
  induction applied generalizing start stop with
  | nil => exact ⟨start, stop, rfl, empty⟩
  | cons edit rest ih =>
      rw [List.foldl_cons]
      cases edit with
      | insert oo ot om =>
          simp only [TextEdit.transform]
          split
          · apply ih
            unfold saturatingAdd
            omega
          · rw [if_neg (by omega)]
            exact ih start stop empty
      | delete s e => exact ih start stop empty

theorem insShift_mono (a b : Nat) (edit : TextEdit) (order : a ≤ b) :
    insShift a edit ≤ insShift b edit := by
  cases edit with
  | insert oo ot om =>
      simp only [insShift]
      split
      · rw [if_pos (by omega)]
        omega
      · split <;> omega
  | delete start stop =>
      simp only [insShift]
      split
      · rw [if_pos (by omega)]
        omega
      · split
        · split
          · omega
          · rw [if_pos (by omega)]
        · split
          · omega
          · split <;> omega

theorem foldl_insShift_mono (applied : List TextEdit) (a b : Nat) (order : a ≤ b) :
    applied.foldl insShift a ≤ applied.foldl insShift b := by
  induction applied generalizing a b with
  | nil => exact order
  | cons edit rest ih => exact ih _ _ (insShift_mono a b edit order)

@[simp] theorem render_nil : render [] = [] := rfl

@[simp] theorem render_cons (piece : Piece) (rest : List Piece) :
    render (piece :: rest) = piece.text ++ render rest := by
  simp only [render, List.flatMap_cons]

@[simp] theorem render_append (left right : List Piece) :
    render (left ++ right) = render left ++ render right := by
  simp only [render, List.flatMap_append]

theorem byteLen_render (pieces : List Piece) :
    byteLen (render pieces) = weight Piece.size pieces := by
  induction pieces with
  | nil => rfl
  | cons piece rest ih => rw [render_cons, byteLen_append, weight_cons, ih, Piece.size]

/-- `position` separates the base before `offset` from the base after it, past every
insert sent with an offset up to `offset`. -/
def RightCut (pieces : List Piece) (offset position : Nat) : Prop :=
  ∃ front back, pieces = front ++ back ∧ weight Piece.size front = position ∧
    (∀ a c, .base a c ∈ front → a < offset) ∧ (∀ a c, .base a c ∈ back → offset ≤ a) ∧
    (∀ g t, .ins g t ∈ back → offset < g)

/-- The same cut, before every insert sent with an offset from `offset` on. -/
def LeftCut (pieces : List Piece) (offset position : Nat) : Prop :=
  ∃ front back, pieces = front ++ back ∧ weight Piece.size front = position ∧
    (∀ a c, .base a c ∈ front → a < offset) ∧ (∀ a c, .base a c ∈ back → offset ≤ a) ∧
    (∀ g t, .ins g t ∈ front → g < offset)

/-- A new piece lands on the side of an old cut that its position says. -/
theorem RightCut.insert {front back : List Piece} {offset offset' position : Nat} {text : Str}
    (marks : Option InlineSpan) (positive : ∀ p ∈ front ++ back, 0 < p.size)
    (cut : RightCut (front ++ back) offset' position)
    (order : offset ≤ offset' → weight Piece.size front ≤ position) :
    RightCut (front ++ Piece.ins offset text :: back) offset'
      (insShift position (.insert (weight Piece.size front) text marks)) := by
  obtain ⟨front', back', same, rfl, before, after, inserts⟩ := cut
  simp only [insShift]
  split
  · rename_i le
    obtain ⟨middle, rfl, rfl⟩ := append_nested Piece.size same
      (fun p member => positive p (by simp [member])) le
    refine ⟨front ++ Piece.ins offset text :: middle, back', by simp, ?_, ?_, after, inserts⟩
    · simp only [weight_append, weight_cons, Piece.size, Piece.text]
      omega
    · intro a c member
      simp only [List.mem_append, List.mem_cons, reduceCtorEq, false_or] at member
      exact before a c (by simpa using member)
  · rename_i gt
    obtain ⟨middle, rfl, rfl⟩ := append_nested Piece.size same.symm
      (fun p member => positive p (by rw [same]; simp [member])) (by omega)
    refine ⟨front', middle ++ Piece.ins offset text :: back, by simp, rfl, before, ?_, ?_⟩
    · intro a c member
      simp only [List.mem_append, List.mem_cons, reduceCtorEq, false_or] at member
      exact after a c (by simpa using member)
    · intro g t member
      simp only [List.mem_append, List.mem_cons, Piece.ins.injEq] at member
      rcases member with member | ⟨rfl, -⟩ | member
      · exact inserts g t (by simp [member])
      · by_contra le
        exact gt (order (by omega))
      · exact inserts g t (by simp [member])

theorem LeftCut.insert {front back : List Piece} {offset offset' position : Nat} {text : Str}
    (marks : Option InlineSpan) (positive : ∀ p ∈ front ++ back, 0 < p.size)
    (cut : LeftCut (front ++ back) offset' position)
    (order : offset' ≤ offset → position ≤ weight Piece.size front) :
    LeftCut (front ++ Piece.ins offset text :: back) offset'
      (stopShift position (.insert (weight Piece.size front) text marks)) := by
  obtain ⟨front', back', same, rfl, before, after, inserts⟩ := cut
  simp only [stopShift]
  split
  · rename_i less
    obtain ⟨middle, rfl, rfl⟩ := append_nested Piece.size same
      (fun p member => positive p (by simp [member])) (by omega)
    refine ⟨front ++ Piece.ins offset text :: middle, back', by simp, ?_, ?_, after, ?_⟩
    · simp only [weight_append, weight_cons, Piece.size, Piece.text]
      omega
    · intro a c member
      simp only [List.mem_append, List.mem_cons, reduceCtorEq, false_or] at member
      exact before a c (by simpa using member)
    · intro g t member
      simp only [List.mem_append, List.mem_cons, Piece.ins.injEq] at member
      rcases member with member | ⟨rfl, -⟩ | member
      · exact inserts g t (by simp [member])
      · by_contra le
        have := order (by omega)
        omega
      · exact inserts g t (by simp [member])
  · rename_i ge
    obtain ⟨middle, rfl, rfl⟩ := append_nested Piece.size same.symm
      (fun p member => positive p (by rw [same]; simp [member])) (by omega)
    refine ⟨front', middle ++ Piece.ins offset text :: back, by simp, rfl, before, ?_, inserts⟩
    intro a c member
    simp only [List.mem_append, List.mem_cons, reduceCtorEq, false_or] at member
    exact after a c (by simpa using member)

/-- Removing the pieces of `[s', e')` moves every cut as an insert there is moved. -/
theorem RightCut.delete {front gone back : List Piece} {offset position : Nat}
    (positive : ∀ p ∈ front ++ gone ++ back, 0 < p.size)
    (cut : RightCut (front ++ gone ++ back) offset position) :
    RightCut (front ++ back) offset
      (insShift position
        (.delete (weight Piece.size front) (weight Piece.size (front ++ gone)))) := by
  obtain ⟨front', back', same, rfl, before, after, inserts⟩ := cut
  have sizes := weight_append Piece.size front gone
  simp only [insShift]
  split
  · rename_i past
    obtain ⟨middle, rfl, rfl⟩ := append_nested Piece.size same
      (fun p member => positive p (by
        rw [List.mem_append] at member ⊢
        exact Or.inl (List.mem_append.mpr member))) past
    refine ⟨front ++ middle, back', by simp, ?_, ?_, after, inserts⟩
    · simp only [weight_append]
      omega
    · intro a c member
      simp only [List.mem_append] at member
      exact before a c (by simp only [List.mem_append]; tauto)
  · split
    · rename_i notPast inside
      have same' : front ++ (gone ++ back) = front' ++ back' := by simpa using same
      obtain ⟨left, rfl, -⟩ := append_nested Piece.size same'
        (fun p member => positive p (by simp [member])) (by omega)
      obtain ⟨right, -, rfl⟩ := append_nested Piece.size same.symm
        (fun p member => positive p (by
          rw [same]
          exact List.mem_append_left _ member)) (by omega)
      refine ⟨front, back, rfl, rfl, ?_, ?_, ?_⟩
      · intro a c member
        exact before a c (by simp [member])
      · intro a c member
        exact after a c (by simp [member])
      · intro g t member
        exact inserts g t (by simp [member])
    · rename_i notPast notInside
      have same' : front' ++ back' = front ++ (gone ++ back) := by simpa using same.symm
      obtain ⟨middle, rfl, rfl⟩ := append_nested Piece.size same'
        (fun p member => positive p (by
          rw [same]
          exact List.mem_append_left _ member)) (by omega)
      refine ⟨front', middle ++ back, by simp, rfl, before, ?_, ?_⟩
      · intro a c member
        exact after a c (by simp only [List.mem_append] at member ⊢; tauto)
      · intro g t member
        exact inserts g t (by simp only [List.mem_append] at member ⊢; tauto)

theorem LeftCut.delete {front gone back : List Piece} {offset position : Nat}
    (positive : ∀ p ∈ front ++ gone ++ back, 0 < p.size)
    (cut : LeftCut (front ++ gone ++ back) offset position)
    (order : position ≤ weight Piece.size front) :
    LeftCut (front ++ back) offset position := by
  obtain ⟨front', back', same, rfl, before, after, inserts⟩ := cut
  have same' : front' ++ back' = front ++ (gone ++ back) := by simpa using same.symm
  obtain ⟨middle, rfl, rfl⟩ := append_nested Piece.size same'
    (fun p member => positive p (by
      rw [same]
      exact List.mem_append_left _ member)) order
  refine ⟨front', middle ++ back, by simp, rfl, before, ?_, inserts⟩
  intro a c member
  exact after a c (by simp only [List.mem_append] at member ⊢; tauto)

/-- Every non-empty delete of the list starts at or after `offset`. -/
def LeftOf (edits : List TextEdit) (offset : Nat) : Prop :=
  ∀ start stop, .delete start stop ∈ edits → start < stop → offset ≤ start

/-- After the edits `done` were merged as `applied`: what the pieces are, and that the
offsets a later edit gets are cuts of the pieces. Ends of deletes are left cuts, and
only offsets left of every delete so far are meant as ends. -/
structure MergeInv (base : Str) (done applied : List TextEdit) (pieces : List Piece) : Prop where
  positive : ∀ p ∈ pieces, 0 < p.size
  bases : pieces.filterMap Piece.base? =
    (baseChars 0 base).filter (fun entry => !covered done entry.1)
  inserts : (pieces.filterMap Piece.ins?).Perm (insertions done)
  right : ∀ n, CharBoundary base n → RightCut pieces n (applied.foldl insShift n)
  left : ∀ n, CharBoundary base n → LeftOf done n → LeftCut pieces n (applied.foldl stopShift n)
  starts : ∀ n, LeftOf done n → applied.foldl startShift n = applied.foldl insShift n
  stops : ∀ n, LeftOf done n → applied.foldl stopShift n ≤ applied.foldl insShift n

theorem baseChars_append (first : Nat) (s t : Str) :
    baseChars first (s ++ t) = baseChars first s ++ baseChars (first + byteLen s) t := by
  induction s generalizing first with
  | nil => simp [baseChars]
  | cons c s ih =>
      rw [List.cons_append, baseChars, ih, baseChars, byteLen_cons, List.cons_append, Nat.add_assoc]

theorem baseChars_bounds (first : Nat) (s : Str) (entry : Nat × Char)
    (member : entry ∈ baseChars first s) :
    first ≤ entry.1 ∧ entry.1 < first + byteLen s := by
  induction s generalizing first with
  | nil => cases member
  | cons c s ih =>
      have positive := Char.utf8Size_pos c
      rw [byteLen_cons]
      rcases List.mem_cons.mp member with rfl | member
      · dsimp only
        omega
      · have inner := ih (first + c.utf8Size) member
        omega

/-- The base, as pieces. -/
def basePieces (base : Str) : List Piece :=
  (baseChars 0 base).map fun entry => Piece.base entry.1 entry.2

theorem render_basePieces (base : Str) : render (basePieces base) = base := by
  have from_ (first : Nat) :
      render ((baseChars first base).map fun entry => Piece.base entry.1 entry.2) = base := by
    induction base generalizing first with
    | nil => rfl
    | cons c s ih =>
        rw [baseChars, List.map_cons, render_cons, ih]
        rfl
  exact from_ 0

theorem basePieces_cut (base : Str) (n : Nat) (cut : CharBoundary base n) :
    RightCut (basePieces base) n n ∧ LeftCut (basePieces base) n n := by
  obtain ⟨front, back, rfl, rfl⟩ := (charBoundary_iff base n).mp cut
  have shape : basePieces (front ++ back) = basePieces front ++
      (baseChars (byteLen front) back).map fun entry => Piece.base entry.1 entry.2 := by
    simp only [basePieces, baseChars_append, List.map_append, Nat.zero_add]
  have size : weight Piece.size (basePieces front) = byteLen front := by
    rw [← byteLen_render, render_basePieces]
  have before : ∀ a c, Piece.base a c ∈ basePieces front → a < byteLen front := by
    intro a c member
    obtain ⟨entry, found, same⟩ := List.mem_map.mp member
    cases same
    have := baseChars_bounds 0 front entry found
    omega
  have after : ∀ a c, Piece.base a c ∈ (baseChars (byteLen front) back).map
      (fun entry => Piece.base entry.1 entry.2) → byteLen front ≤ a := by
    intro a c member
    obtain ⟨entry, found, same⟩ := List.mem_map.mp member
    cases same
    exact (baseChars_bounds _ back entry found).1
  refine ⟨⟨_, _, shape, size, before, after, ?_⟩, ⟨_, _, shape, size, before, after, ?_⟩⟩
  · intro g t member
    obtain ⟨entry, -, same⟩ := List.mem_map.mp member
    cases same
  · intro g t member
    obtain ⟨entry, -, same⟩ := List.mem_map.mp member
    cases same

theorem mergeInv_init (base : Str) : MergeInv base [] [] (basePieces base) where
  positive := by
    intro p member
    obtain ⟨entry, -, rfl⟩ := List.mem_map.mp member
    simpa [Piece.size, Piece.text] using Char.utf8Size_pos entry.2
  bases := by
    have all : (Piece.base? ∘ fun entry : Nat × Char => Piece.base entry.1 entry.2) = some := rfl
    rw [basePieces, List.filterMap_map, all, List.filterMap_some]
    simp [covered]
  inserts := by
    have none : (Piece.ins? ∘ fun entry : Nat × Char => Piece.base entry.1 entry.2) =
        fun _ => none := rfl
    rw [basePieces, List.filterMap_map, none, List.filterMap_none]
    rfl
  right := fun n cut => (basePieces_cut base n cut).1
  left := fun n cut _ => (basePieces_cut base n cut).2
  starts := fun _ _ => rfl
  stops := fun _ _ => le_rfl

theorem covered_append (edits : List TextEdit) (edit : TextEdit) (n : Nat) :
    covered (edits ++ [edit]) n = (covered edits n || covered [edit] n) := by
  simp only [covered, List.any_append]

theorem insertions_append (edits : List TextEdit) (edit : TextEdit) :
    insertions (edits ++ [edit]) = insertions edits ++ insertions [edit] := by
  simp only [insertions, List.filterMap_append]

theorem LeftOf.append {edits : List TextEdit} {edit : TextEdit} {n : Nat}
    (left : LeftOf (edits ++ [edit]) n) : LeftOf edits n := by
  intro start stop member
  exact left start stop (List.mem_append_left _ member)

/-- An edit that changes nothing keeps the pieces. -/
theorem MergeInv.idle {base : Str} {done applied : List TextEdit} {pieces : List Piece}
    (inv : MergeInv base done applied pieces) (edit transformed : TextEdit)
    (still : ∀ n, insShift n transformed = n ∧ startShift n transformed = n ∧
      stopShift n transformed = n)
    (noCover : ∀ n, covered [edit] n = false) (noInsert : insertions [edit] = []) :
    MergeInv base (done ++ [edit]) (applied ++ [transformed]) pieces where
  positive := inv.positive
  bases := by
    simp only [covered_append, noCover, Bool.or_false]
    exact inv.bases
  inserts := by
    rw [insertions_append, noInsert, List.append_nil]
    exact inv.inserts
  right := by
    intro n cut
    rw [List.foldl_append, List.foldl_cons, List.foldl_nil, (still _).1]
    exact inv.right n cut
  left := by
    intro n cut left
    rw [List.foldl_append, List.foldl_cons, List.foldl_nil, (still _).2.2]
    exact inv.left n cut left.append
  starts := by
    intro n left
    rw [List.foldl_append, List.foldl_append, List.foldl_cons, List.foldl_nil, List.foldl_cons,
      List.foldl_nil, (still _).1, (still _).2.1]
    exact inv.starts n left.append
  stops := by
    intro n left
    rw [List.foldl_append, List.foldl_append, List.foldl_cons, List.foldl_nil, List.foldl_cons,
      List.foldl_nil, (still _).1, (still _).2.2]
    exact inv.stops n left.append

/-- A non-empty insert becomes one new piece at its right cut. -/
theorem MergeInv.insert {base : Str} {done applied : List TextEdit} {pieces : List Piece}
    (inv : MergeInv base done applied pieces) (offset : Nat) (text : Str)
    (marks : Option InlineSpan) (cut : CharBoundary base offset) (some : text ≠ []) :
    ∃ pieces', render pieces' =
        (TextEdit.insert (applied.foldl insShift offset) text marks).apply (render pieces) ∧
      MergeInv base (done ++ [TextEdit.insert offset text marks])
        (applied ++ [TextEdit.insert (applied.foldl insShift offset) text marks]) pieces' := by
  obtain ⟨front, back, rfl, position, before, after, inserts⟩ := inv.right offset cut
  have nonempty : 0 < byteLen text := by
    by_contra zero
    exact some (eq_nil_of_byteLen text (by omega))
  have noCover (n : Nat) : covered [TextEdit.insert offset text marks] n = false := rfl
  have one : insertions [TextEdit.insert offset text marks] = [(offset, text)] := by
    simp [insertions, some]
  refine ⟨front ++ Piece.ins offset text :: back, ?_, ?_⟩
  · rw [← position, ← byteLen_render, render_append front back, apply_insert_at]
    simp [Piece.text]
  · rw [← position]
    refine ⟨?_, ?_, ?_, ?_, ?_, ?_, ?_⟩
    · intro p member
      simp only [List.mem_append, List.mem_cons] at member
      rcases member with member | rfl | member
      · exact inv.positive p (by simp [member])
      · exact nonempty
      · exact inv.positive p (by simp [member])
    · simp only [covered_append, noCover, Bool.or_false]
      rw [← inv.bases, List.filterMap_append, List.filterMap_append,
        List.filterMap_cons_none (by rfl)]
    · rw [insertions_append, one]
      have old := inv.inserts
      rw [List.filterMap_append] at old
      rw [List.filterMap_append, List.filterMap_cons_some (by rfl)]
      exact (List.perm_middle.trans (List.perm_append_singleton _ _).symm).trans
        (old.append_right _)
    · intro n cut'
      rw [List.foldl_append, List.foldl_cons, List.foldl_nil]
      apply RightCut.insert marks inv.positive (inv.right n cut')
      intro order
      rw [position]
      exact foldl_insShift_mono applied offset n order
    · intro n cut' left
      rw [List.foldl_append, List.foldl_cons, List.foldl_nil]
      apply LeftCut.insert marks inv.positive (inv.left n cut' left.append)
      intro order
      rw [position]
      exact (inv.stops n left.append).trans (foldl_insShift_mono applied n offset order)
    · intro n left
      rw [List.foldl_append, List.foldl_append, List.foldl_cons, List.foldl_nil, List.foldl_cons,
        List.foldl_nil, inv.starts n left.append]
      rfl
    · intro n left
      have old := inv.stops n left.append
      rw [List.foldl_append, List.foldl_append, List.foldl_cons, List.foldl_nil, List.foldl_cons,
        List.foldl_nil]
      simp only [stopShift, insShift]
      split
      · rw [if_pos (by omega)]
        omega
      · split <;> omega

/-- Deleting exactly the base of `[start, stop)` covers those base characters. -/
theorem filterMap_base_delete (front gone back : List Piece) (start stop : Nat)
    (before : ∀ a c, .base a c ∈ front → a < start)
    (inside : ∀ a c, .base a c ∈ gone → start ≤ a ∧ a < stop)
    (after : ∀ a c, .base a c ∈ back → stop ≤ a) :
    (front ++ back).filterMap Piece.base? =
      ((front ++ gone ++ back).filterMap Piece.base?).filter
        (fun entry => !covered [.delete start stop] entry.1) := by
  have isBase (l : List Piece) (entry : Nat × Char) (member : entry ∈ l.filterMap Piece.base?) :
      .base entry.1 entry.2 ∈ l := by
    obtain ⟨piece, found, same⟩ := List.mem_filterMap.mp member
    cases piece with
    | base a c => cases same; exact found
    | ins g t => cases same
  have kept (l : List Piece) (out : ∀ a c, .base a c ∈ l → ¬ (start ≤ a ∧ a < stop)) :
      (l.filterMap Piece.base?).filter (fun entry => !covered [.delete start stop] entry.1) =
        l.filterMap Piece.base? := by
    apply List.filter_eq_self.mpr
    intro entry member
    have := out entry.1 entry.2 (isBase l entry member)
    simp only [covered, List.any_cons, List.any_nil, Bool.or_false, Bool.not_eq_true',
      Bool.and_eq_false_iff, decide_eq_false_iff_not]
    tauto
  have removed : (gone.filterMap Piece.base?).filter
      (fun entry => !covered [.delete start stop] entry.1) = [] := by
    apply List.filter_eq_nil_iff.mpr
    intro entry member
    have := inside entry.1 entry.2 (isBase gone entry member)
    simp [covered, this]
  rw [List.filterMap_append, List.filterMap_append, List.filterMap_append, List.filter_append,
    List.filter_append, removed, List.append_nil,
    kept front (fun a c member => by have := before a c member; omega),
    kept back (fun a c member => by have := after a c member; omega)]

/-- A non-empty delete with nothing inserted inside it, left of all deletes so far,
removes exactly the base characters it covers. -/
theorem MergeInv.delete {base : Str} {done applied : List TextEdit} {pieces : List Piece}
    (inv : MergeInv base done applied pieces) (start stop : Nat) (first : CharBoundary base start)
    (second : CharBoundary base stop) (less : start < stop) (left : LeftOf done stop)
    (clear : ∀ offset text marks, .insert offset text marks ∈ done → text ≠ [] →
      ¬ (start < offset ∧ offset < stop)) :
    ∃ pieces', render pieces' =
        (TextEdit.delete (applied.foldl startShift start) (applied.foldl stopShift stop)).apply
          (render pieces) ∧
      MergeInv base (done ++ [TextEdit.delete start stop])
        (applied ++ [TextEdit.delete (applied.foldl startShift start)
          (applied.foldl stopShift stop)])
        pieces' := by
  have leftStart : LeftOf done start := by
    intro s e member nonempty
    have := left s e member nonempty
    omega
  have strict := foldl_shift_strict applied start stop less
  obtain ⟨front, rest, shape, position, before, after, insertsAfter⟩ := inv.right start first
  obtain ⟨upto, back, shape', position', before', after', insertsBefore⟩ :=
    inv.left stop second left
  rw [← inv.starts start leftStart] at position
  obtain ⟨gone, rfl, rfl⟩ := append_nested Piece.size (shape.symm.trans shape')
    (fun p member => inv.positive p (by rw [shape]; simp [member])) (by omega)
  subst shape'
  have goneBase (p : Piece) (member : p ∈ gone) :
      ∃ a c, p = .base a c ∧ start ≤ a ∧ a < stop := by
    cases p with
    | base a c => exact ⟨a, c, rfl, after a c (by simp [member]), before' a c (by simp [member])⟩
    | ins g t =>
        -- An inserted piece in the middle would sit strictly inside the range.
        have listed : (g, t) ∈ insertions done := by
          apply inv.inserts.mem_iff.mp
          exact List.mem_filterMap.mpr ⟨.ins g t, by simp [member], rfl⟩
        obtain ⟨edit, found, same⟩ := List.mem_filterMap.mp listed
        cases edit with
        | insert offset text marks =>
            by_cases empty : text = []
            · simp [empty] at same
            · simp only [empty, ↓reduceIte, Option.some.injEq, Prod.mk.injEq] at same
              obtain ⟨rfl, rfl⟩ := same
              exact absurd ⟨insertsAfter offset text (by simp [member]),
                insertsBefore offset text (by simp [member])⟩
                (clear offset text marks found empty)
        | delete s e => cases same
  have noInsert : insertions [TextEdit.delete start stop] = [] := rfl
  refine ⟨front ++ back, ?_, ?_⟩
  · have size : applied.foldl stopShift stop = byteLen (render front) + byteLen (render gone) := by
      rw [← position', byteLen_render, byteLen_render, weight_append]
    rw [size, ← position, ← byteLen_render, render_append (front ++ gone), render_append front gone,
      apply_delete_at, render_append]
  · refine ⟨?_, ?_, ?_, ?_, ?_, ?_, ?_⟩
    · intro p member
      exact inv.positive p (by simp only [List.mem_append] at member ⊢; tauto)
    · have goneInside : ∀ a c, .base a c ∈ gone → start ≤ a ∧ a < stop := by
        intro a c member
        obtain ⟨a', c', same, bounds⟩ := goneBase _ member
        cases same
        exact bounds
      rw [filterMap_base_delete front gone back start stop before goneInside after', inv.bases,
        List.filter_filter]
      apply List.filter_congr
      intro entry _
      rw [covered_append, Bool.not_or, Bool.and_comm]
    · have goneNone : gone.filterMap Piece.ins? = [] := by
        apply List.filterMap_eq_nil_iff.mpr
        intro p member
        obtain ⟨a, c, rfl, -⟩ := goneBase p member
        rfl
      have old := inv.inserts
      rw [List.filterMap_append, List.filterMap_append, goneNone, List.append_nil] at old
      rw [insertions_append, noInsert, List.append_nil, List.filterMap_append]
      exact old
    · intro n cut
      rw [List.foldl_append, List.foldl_cons, List.foldl_nil, ← position, ← position']
      exact RightCut.delete inv.positive (inv.right n cut)
    · intro n cut leftN
      have le : n ≤ start := leftN start stop (by simp) less
      rw [List.foldl_append, List.foldl_cons, List.foldl_nil]
      apply LeftCut.delete inv.positive (inv.left n cut leftN.append)
      rw [position, inv.starts start leftStart]
      exact (inv.stops n leftN.append).trans (foldl_insShift_mono applied n start le)
    · intro n leftN
      have le : n ≤ start := leftN start stop (by simp) less
      have order := foldl_insShift_mono applied n start le
      rw [← inv.starts start leftStart] at order
      rw [List.foldl_append, List.foldl_append, List.foldl_cons, List.foldl_nil, List.foldl_cons,
        List.foldl_nil, inv.starts n leftN.append]
      simp only [startShift, insShift]
      rw [if_neg (by omega), if_neg (by omega)]
    · intro n leftN
      have le : n ≤ start := leftN start stop (by simp) less
      have order := foldl_insShift_mono applied n start le
      have old := inv.stops n leftN.append
      rw [← inv.starts start leftStart] at order
      rw [List.foldl_append, List.foldl_append, List.foldl_cons, List.foldl_nil, List.foldl_cons,
        List.foldl_nil]
      simp only [stopShift, insShift]
      rw [if_neg (by omega), if_neg (by omega)]
      exact old

theorem mergeText_append (base : Str) (edits : List TextEdit) (edit : TextEdit) :
    mergeText base (edits ++ [edit]) = mergeTextStep (mergeText base edits) edit := by
  rw [mergeText, List.foldl_append]
  rfl

/-- The merge of a compatible list, run edit by edit. -/
theorem mergeText_inv (base : Str) (edits : List TextEdit)
    (inRange : ∀ edit ∈ edits, edit.InRange base)
    (fits : byteLen base + totalInserted edits ≤ usizeMax)
    (ordered : edits.Pairwise MergesAfter) :
    ∃ pieces, render pieces = (mergeText base edits).1 ∧
      MergeInv base edits (mergeText base edits).2 pieces ∧
      totalInserted (mergeText base edits).2 = totalInserted edits := by
  induction edits using List.reverseRecOn with
  | nil => exact ⟨basePieces base, render_basePieces base, mergeInv_init base, rfl⟩
  | append_singleton edits edit ih =>
      rw [totalInserted_append, totalInserted_cons, totalInserted_nil] at fits
      obtain ⟨orderedInit, -, orderedLast⟩ := List.pairwise_append.mp ordered
      have compatible (a : TextEdit) (member : a ∈ edits) : MergesAfter a edit :=
        orderedLast a member edit (by simp)
      obtain ⟨pieces, text, inv, total⟩ :=
        ih (fun e member => inRange e (by simp [member])) (by omega) orderedInit
      have last : edit.InRange base := inRange edit (by simp)
      rw [mergeText_append]
      generalize mergeText base edits = state at *
      have total' :
          totalInserted (mergeTextStep state edit).2 = totalInserted (edits ++ [edit]) := by
        simp only [mergeTextStep, totalInserted_append, totalInserted_cons, totalInserted_nil,
          foldl_transform_inserted, total]
      cases edit with
      | insert offset t marks =>
          have bound := CharBoundary.le last
          have transformed := foldl_transform_insert state.2 offset t marks (by omega)
          simp only [mergeTextStep, transformed] at total' ⊢
          by_cases empty : t = []
          · subst empty
            refine ⟨pieces, ?_, ?_, total'⟩
            · simp only [TextEdit.apply, List.append_nil, takeBytes_append_dropBytes, text]
            · apply inv.idle
              · intro n
                simp [insShift, startShift, stopShift]
              · intro n
                rfl
              · rfl
          · obtain ⟨pieces', rendered, inv'⟩ := inv.insert offset t marks last empty
            rw [text] at rendered
            exact ⟨pieces', rendered, inv', total'⟩
      | delete start stop =>
          have bound := CharBoundary.le last.2
          by_cases empty : stop ≤ start
          · obtain ⟨start', stop', transformed, empty'⟩ :=
              foldl_transform_delete_empty state.2 start stop empty
            simp only [mergeTextStep, transformed] at total' ⊢
            refine ⟨pieces, ?_, ?_, total'⟩
            · rw [apply_delete_empty _ _ _ empty', text]
            · apply inv.idle
              · intro n
                refine ⟨?_, rfl, rfl⟩
                simp only [insShift]
                split
                · omega
                · rw [if_neg (by omega)]
              · intro n
                simp only [covered, List.any_cons, List.any_nil, Bool.or_false,
                  Bool.and_eq_false_iff, decide_eq_false_iff_not]
                omega
              · rfl
          · have transformed := foldl_transform_delete state.2 start stop (by omega) (by omega)
            have left : LeftOf edits stop := by
              intro s e member nonempty
              rcases compatible _ member with h | h | h <;> omega
            have clear : ∀ offset t marks, .insert offset t marks ∈ edits → t ≠ [] →
                ¬ (start < offset ∧ offset < stop) := by
              intro offset t marks member some inside
              exact compatible _ member ⟨inside.1, inside.2, some⟩
            obtain ⟨pieces', rendered, inv'⟩ :=
              inv.delete start stop last.1 last.2 (by omega) left clear
            simp only [mergeTextStep, transformed] at total' ⊢
            rw [text] at rendered
            exact ⟨pieces', rendered, inv', total'⟩

/-- Merging keeps every intention when no delete comes after a non-empty insert strictly
inside it, or after a non-empty delete that does not lie to its right. -/
theorem merge_keeps_intention (doc : EradDocument) (blockId base : Str) (edits : List TextEdit)
    (found : blockText doc blockId = some base) (inRange : ∀ edit ∈ edits, edit.InRange base)
    (fits : byteLen base + totalInserted edits ≤ usizeMax)
    (ordered : edits.Pairwise MergesAfter) :
    ∃ result, blockText (mergeConcurrent doc (edits.map (TextEdit.toOp blockId))) blockId =
        some result ∧ KeepsIntention base edits result := by
  obtain ⟨pieces, text, inv, -⟩ := mergeText_inv base edits inRange fits ordered
  exact ⟨_, blockText_mergeConcurrent doc blockId base edits found,
    pieces, text, inv.bases, inv.inserts⟩

theorem merge_keeps_intention_three :
    ∃ result, blockText (mergeConcurrent
        { EradDocument.empty "b1".toList with
          blocks := [Block.paragraph "b1".toList "abcdef".toList] }
        [.insertText "b1".toList 6 "XY".toList none, .deleteRange "b1".toList 3 5,
          .deleteRange "b1".toList 0 2]) "b1".toList = some result ∧
      KeepsIntention "abcdef".toList
        [.insert 6 "XY".toList none, .delete 3 5, .delete 0 2] result :=
  merge_keeps_intention _ "b1".toList "abcdef".toList
    [.insert 6 "XY".toList none, .delete 3 5, .delete 0 2] (by decide) (by decide) (by decide)
    (by simp [MergesAfter])

/-- An insert inside a later delete is lost: `ab` ends empty. -/
theorem merge_loses_insert :
    ¬ ∀ (doc : EradDocument) (blockId base : Str) (edits : List TextEdit) (result : Str),
      blockText doc blockId = some base → (∀ edit ∈ edits, edit.InRange base) →
      byteLen base + totalInserted edits ≤ usizeMax →
      blockText (mergeConcurrent doc (edits.map (TextEdit.toOp blockId))) blockId = some result →
      KeepsIntention base edits result := by
  intro all
  obtain ⟨pieces, rendered, -, inserts⟩ := all
    { EradDocument.empty "b1".toList with blocks := [Block.paragraph "b1".toList "ab".toList] }
    "b1".toList "ab".toList [.insert 1 "X".toList none, .delete 0 2] [] (by decide) (by decide)
    (by decide) (by decide)
  have listed : (1, "X".toList) ∈ pieces.filterMap Piece.ins? :=
    inserts.mem_iff.mpr (by decide)
  obtain ⟨piece, member, same⟩ := List.mem_filterMap.mp listed
  have empty : piece.text = [] := List.flatMap_eq_nil_iff.mp rendered piece member
  cases piece with
  | base a c => cases same
  | ins g t =>
      simp only [Piece.ins?, Option.some.injEq, Prod.mk.injEq] at same
      rw [Piece.text, same.2] at empty
      exact absurd empty (by decide)

end EraOne.Docs
