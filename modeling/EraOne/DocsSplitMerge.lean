import EraOne.DocsEdits

set_option autoImplicit false

/- Splitting a block and merging the new one back. -/
namespace EraOne.Docs

theorem splitAtLoop_ne_nil (offset : Nat) (span : InlineSpan) (rest : List InlineSpan) (acc : Nat) :
    (splitAtLoop offset (span :: rest) acc).1 ≠ [] := by
  unfold splitAtLoop
  dsimp only
  split
  · exact List.cons_ne_nil _ _
  · split
    · split
      · exact List.cons_ne_nil _ _
      · exact List.cons_ne_nil _ _
    · exact List.cons_ne_nil _ _

theorem splitAt_ne_nil (inlines : List InlineSpan) (offset : Nat) (some_ : inlines ≠ []) :
    (splitAt inlines offset).1 ≠ [] := by
  unfold splitAt
  dsimp only
  split
  · exact some_
  · split
    · exact some_
    · cases inlines with
      | nil => exact absurd rfl some_
      | cons span rest => exact splitAtLoop_ne_nil _ span rest 0

/-- The halves of a span list coalesce to what the whole coalesces to. -/
theorem coalesceAdjacent_halves (inlines : List InlineSpan) (offset : Nat) :
    coalesceAdjacent ((splitInlinesAt inlines offset).1 ++ (splitInlinesAt inlines offset).2) =
      coalesceAdjacent inlines := by
  have halves := flatten_splitInlinesAt inlines offset
  by_cases empty : inlines = []
  · rw [empty]
    rfl
  · apply coalesceAdjacent_congr
    · rw [flatten_append, halves.1, halves.2, List.take_append_drop]
    · refine iff_of_true ?_ empty
      intro none
      have both := List.append_eq_nil_iff.mp none
      have split := splitAt_ne_nil inlines offset empty
      rw [← List.take_append_drop (splitAt inlines offset).2 (splitAt inlines offset).1] at split
      apply split
      apply List.append_eq_nil_iff.mpr
      constructor
      · by_contra full
        exact coalesceAdjacent_ne_nil _ full both.1
      · by_contra full
        exact coalesceAdjacent_ne_nil _ full both.2

theorem findIdx?_middle {α : Type} (p : α → Bool) (front back : List α) (a : α)
    (others : ∀ x ∈ front, p x = false) (here : p a = true) :
    (front ++ a :: back).findIdx? p = some front.length := by
  induction front with
  | nil => simp [List.findIdx?_cons, here]
  | cons x front ih =>
      have next := ih fun y inside => others y (List.mem_cons_of_mem x inside)
      rw [List.cons_append, List.findIdx?_cons, others x List.mem_cons_self, next]
      rfl

section Split

variable (doc : EradDocument) (front back : List Block) (b : Block) (n : Str) (offset : Nat)

/-- The document with other blocks. -/
def EradDocument.withBlocks (blocks : List Block) : EradDocument := { doc with blocks := blocks }

theorem applyOp_splitBlock_middle (blocks : doc.blocks = front ++ b :: back)
    (others : ∀ x ∈ front, x.id ≠ b.id) (new : ∀ x ∈ doc.blocks, x.id ≠ n) :
    applyOp doc (.splitBlock b.id offset n) =
      doc.withBlocks (front ++ { b with inlines := (splitInlinesAt b.inlines offset).1 } ::
        copyBlockAttrs b n (splitInlinesAt b.inlines offset).2 :: back) := by
  have unused : doc.blocks.any (fun x => x.id = n) = false := by
    rw [List.any_eq_false]
    intro x inside
    simpa using new x inside
  have at_ : blockPosition doc b.id = some front.length := by
    unfold blockPosition
    rw [blocks]
    exact findIdx?_middle _ front back b (fun x inside => by simpa using others x inside) (by simp)
  have found : doc.blocks[front.length]? = some b := by
    rw [blocks]
    simp
  rw [applyOp, if_neg (by simp [unused]), at_]
  dsimp only
  rw [found, blocks]
  dsimp only
  rw [List.set_append_right _ _ le_rfl, Nat.sub_self, List.set_cons_zero]
  have inserted :=
    insertIdx_middle (front ++ [{ b with inlines := (splitInlinesAt b.inlines offset).1 }]) back
      (copyBlockAttrs b n (splitInlinesAt b.inlines offset).2)
  rw [List.length_append, List.length_singleton, List.append_assoc, List.append_assoc] at inserted
  exact congrArg doc.withBlocks inserted

/-- A block behind its neighbour is merged into it. -/
theorem applyOp_mergeBlocks_middle (previous : Block)
    (blocks : doc.blocks = front ++ previous :: b :: back)
    (others : ∀ x ∈ front ++ [previous], x.id ≠ b.id) :
    applyOp doc (.mergeBlocks b.id true) =
      doc.withBlocks (front ++ { previous with
        inlines := coalesceAdjacent (previous.inlines ++ b.inlines) } :: back) := by
  have shape : doc.blocks = (front ++ [previous]) ++ b :: back := by
    rw [blocks, List.append_assoc]
    rfl
  have at_ : blockPosition doc b.id = some (front.length + 1) := by
    unfold blockPosition
    have found :=
      findIdx?_middle (fun x : Block => decide (x.id = b.id)) (front ++ [previous]) back b
        (fun x inside => by simpa using others x inside) (by simp)
    rw [shape, found, List.length_append, List.length_singleton]
  have here : doc.blocks[front.length + 1]? = some b := by
    rw [shape]
    simp
  have before : doc.blocks[front.length + 1 - 1]? = some previous := by
    rw [blocks]
    simp
  rw [applyOp, if_neg (by decide), at_]
  dsimp only
  rw [if_neg (Nat.succ_ne_zero _), here, before, blocks]
  dsimp only
  rw [Nat.add_sub_cancel, List.set_append_right _ _ le_rfl, Nat.sub_self, List.set_cons_zero,
    List.eraseIdx_append_of_length_le (Nat.le_succ _), Nat.succ_sub (Nat.le_refl _), Nat.sub_self]
  rfl

end Split

/-- Splitting a block at any offset and merging the new one back coalesces its spans and changes
nothing else. -/
theorem mergeBlocks_splitBlock (doc : EradDocument) (b : Block) (n : Str) (offset : Nat)
    (distinct : (doc.blocks.map Block.id).Nodup) (member : b ∈ doc.blocks)
    (new : n ∉ doc.blocks.map Block.id) :
    applyOp (applyOp doc (.splitBlock b.id offset n)) (.mergeBlocks n true) =
      { doc with
        blocks := doc.blocks.map fun x =>
          if x.id = b.id then { x with inlines := coalesceAdjacent x.inlines } else x } := by
  obtain ⟨front, back, blocks⟩ := List.append_of_mem member
  have fresh : ∀ x ∈ doc.blocks, x.id ≠ n :=
    fun x inside same => new (List.mem_map.mpr ⟨x, inside, same⟩)
  rw [blocks, List.map_append, List.map_cons] at distinct
  have apart := List.nodup_append.mp distinct
  have others : ∀ x ∈ front, x.id ≠ b.id := fun x inside =>
    apart.2.2 _ (List.mem_map_of_mem inside) _ List.mem_cons_self
  have behind : ∀ x ∈ back, x.id ≠ b.id := by
    intro x inside same
    apply (List.nodup_cons.mp apart.2.1).1
    rw [← same]
    exact List.mem_map_of_mem inside
  have split := applyOp_splitBlock_middle doc front back b n offset blocks others fresh
  have merged := applyOp_mergeBlocks_middle (applyOp doc (.splitBlock b.id offset n)) front back
    (copyBlockAttrs b n (splitInlinesAt b.inlines offset).2)
    { b with inlines := (splitInlinesAt b.inlines offset).1 } (by rw [split]; rfl) ?_
  · have still (l : List Block) (away : ∀ x ∈ l, x.id ≠ b.id) :
        (l.map fun x => if x.id = b.id then { x with inlines := coalesceAdjacent x.inlines }
          else x) = l := by
      conv_rhs => rw [← List.map_id l]
      apply List.map_congr_left
      intro x inside
      exact if_neg (away x inside)
    have target : (copyBlockAttrs b n (splitInlinesAt b.inlines offset).2).id = n := rfl
    rw [target] at merged
    rw [merged, split, blocks, List.map_append, List.map_cons, still front others,
      still back behind, if_pos rfl]
    have joined := coalesceAdjacent_halves b.inlines offset
    unfold EradDocument.withBlocks
    dsimp only [copyBlockAttrs]
    rw [joined]
  · intro x inside
    cases List.mem_append.mp inside with
    | inl left => exact fresh x (by rw [blocks]; exact List.mem_append_left _ left)
    | inr here =>
        rw [List.mem_singleton.mp here]
        exact fresh b member

/-- A memo whose second block holds two spans of the same marks and an empty one. -/
def sampleMemo : EradDocument :=
  { EradDocument.empty "b1".toList with
    blocks := [Block.paragraph "b1".toList "Memo".toList,
      { Block.paragraph "b2".toList [] with
        inlines :=
          [InlineSpan.plain "é1".toList, InlineSpan.plain [], InlineSpan.plain "2".toList] }] }

theorem mergeBlocks_splitBlock_memo :
    applyOp (applyOp sampleMemo (.splitBlock "b2".toList 1 "b3".toList))
      (.mergeBlocks "b3".toList true) =
      { sampleMemo with
        blocks := sampleMemo.blocks.map fun x =>
          if x.id = "b2".toList then { x with inlines := coalesceAdjacent x.inlines } else x } :=
  mergeBlocks_splitBlock sampleMemo { Block.paragraph "b2".toList [] with
    inlines := [InlineSpan.plain "é1".toList, InlineSpan.plain [], InlineSpan.plain "2".toList] }
    "b3".toList 1 (by decide) (by decide) (by decide)

end EraOne.Docs
