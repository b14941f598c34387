import EraOne.DocsSync
import EraOne.Runs

set_option autoImplicit false

/- Block ids under the document operations. Every op addresses a block by the first
block that carries its id, so the ids of a document should be pairwise distinct. -/
namespace EraOne.Docs

open Runs

def blockIds (doc : EradDocument) : List Str := doc.blocks.map (·.id)

def DistinctIds (doc : EradDocument) : Prop := (blockIds doc).Nodup

/-- An inserted block brings an id that no block of the document has yet. `SplitBlock`
makes this check itself, `InsertBlock` does not. -/
def FreshInsert (doc : EradDocument) : DocOp → Prop
  | .insertBlock _ block => block.id ∉ blockIds doc
  | _ => True

instance (doc : EradDocument) : Decidable (DistinctIds doc) :=
  inferInstanceAs (Decidable (List.Nodup _))

instance (doc : EradDocument) : DecidablePred (FreshInsert doc)
  | .insertBlock _ block => inferInstanceAs (Decidable (block.id ∉ blockIds doc))
  | .insertText .. | .deleteRange .. | .setBlockType .. | .splitBlock .. | .mergeBlocks ..
  | .setMarksRange .. | .setInlineMarks .. | .setBlockFormat .. | .addComment ..
  | .resolveComment .. => inferInstanceAs (Decidable True)

theorem updateFirst_map {α β : Type} (p : α → Bool) (f : α → α) (g : α → β) (l : List α)
    (same : ∀ a, g (f a) = g a) : (updateFirst p f l).map g = l.map g := by
  induction l with
  | nil => rfl
  | cons a l ih =>
      unfold updateFirst
      split
      · rw [List.map_cons, List.map_cons, same]
      · rw [List.map_cons, List.map_cons, ih]

/-- An edit that keeps each block's id keeps the ids of the document. -/
theorem blockIds_editBlock (doc : EradDocument) (blockId : Str) (edit : Block → Block)
    (same : ∀ b, (edit b).id = b.id) : blockIds (editBlock doc blockId edit) = blockIds doc :=
  updateFirst_map _ edit (·.id) doc.blocks same

theorem applyBlockFormat_id (fmt : BlockFormatArgs) (block : Block) :
    (applyBlockFormat fmt block).id = block.id := by
  simp only [applyBlockFormat, applyListFormat]
  split
  · rfl
  · split <;> rfl

theorem blockPosition_lt (doc : EradDocument) (blockId : Str) (pos : Nat)
    (found : blockPosition doc blockId = some pos) : pos < doc.blocks.length := by
  obtain ⟨bound, -⟩ := List.findIdx?_eq_some_iff_getElem.mp found
  exact bound

/-- Replacing a block by one with its id keeps the ids. -/
theorem map_id_set (blocks : List Block) (pos : Nat) (old new : Block)
    (found : blocks[pos]? = some old) (same : new.id = old.id) :
    (blocks.set pos new).map (·.id) = blocks.map (·.id) := by
  obtain ⟨bound, rfl⟩ := List.getElem?_eq_some_iff.mp found
  have self := List.set_getElem_self (show pos < (blocks.map (·.id)).length by simpa using bound)
  rw [List.getElem_map] at self
  rw [List.map_set, same]
  exact self

theorem blockIds_insertBlock (doc : EradDocument) (afterId : Str) (block : Block) :
    List.Perm (blockIds (applyOp doc (.insertBlock afterId block))) (block.id :: blockIds doc) := by
  simp only [applyOp]
  split
  · rename_i pos found
    have bound := blockPosition_lt doc afterId pos found
    simpa [blockIds] using (List.perm_insertIdx block doc.blocks (by omega)).map (·.id)
  · simp [blockIds]

/-- A split leaves the document alone or adds one id that was not there. -/
theorem blockIds_splitBlock (doc : EradDocument) (blockId : Str) (offset : Nat) (newId : Str) :
    applyOp doc (.splitBlock blockId offset newId) = doc ∨
      (newId ∉ blockIds doc ∧
        List.Perm (blockIds (applyOp doc (.splitBlock blockId offset newId)))
          (newId :: blockIds doc)) := by
  simp only [applyOp]
  split
  · exact .inl rfl
  · rename_i unused
    split
    · rename_i pos found
      have bound := blockPosition_lt doc blockId pos found
      split
      · rename_i source at_
        refine .inr ⟨?_, ?_⟩
        · simpa [blockIds] using unused
        · have kept := map_id_set doc.blocks pos source { source with
            inlines := (splitInlinesAt source.inlines offset).1 } at_ rfl
          have moved := (List.perm_insertIdx
            (copyBlockAttrs source newId (splitInlinesAt source.inlines offset).2)
            (doc.blocks.set pos { source with
              inlines := (splitInlinesAt source.inlines offset).1 })
            (by simpa using bound : pos + 1 ≤ _)).map (·.id)
          rw [List.map_cons, kept] at moved
          exact moved
      · exact .inl rfl
    · exact .inl rfl

theorem blockIds_mergeBlocks (doc : EradDocument) (blockId : Str) (withPrevious : Bool) :
    List.Sublist (blockIds (applyOp doc (.mergeBlocks blockId withPrevious))) (blockIds doc) := by
  simp only [applyOp]
  split
  · exact List.Sublist.refl _
  · split
    · rename_i pos found
      split
      · exact List.Sublist.refl _
      · split
        · rename_i block previous at_ before
          have kept := map_id_set doc.blocks (pos - 1) previous { previous with
            inlines := coalesceAdjacent (previous.inlines ++ block.inlines) } before rfl
          have erased := (List.eraseIdx_sublist (doc.blocks.set (pos - 1) { previous with
              inlines := coalesceAdjacent (previous.inlines ++ block.inlines) }) pos).map (·.id)
          rw [kept] at erased
          exact erased
        · exact List.Sublist.refl _
    · exact List.Sublist.refl _

/-- What one op can do to the ids of a document. -/
theorem blockIds_applyOp (doc : EradDocument) (op : DocOp) :
    (∃ afterId block, op = .insertBlock afterId block ∧
        List.Perm (blockIds (applyOp doc op)) (block.id :: blockIds doc)) ∨
      FreshInsert doc op ∧
        ((∃ newId, newId ∉ blockIds doc ∧
            List.Perm (blockIds (applyOp doc op)) (newId :: blockIds doc)) ∨
          List.Sublist (blockIds (applyOp doc op)) (blockIds doc)) := by
  cases op with
  | insertBlock afterId block =>
      exact .inl ⟨afterId, block, rfl, blockIds_insertBlock doc afterId block⟩
  | splitBlock blockId offset newId =>
      refine .inr ⟨trivial, ?_⟩
      rcases blockIds_splitBlock doc blockId offset newId with same | added
      · exact .inr (by rw [same])
      · exact .inl ⟨newId, added⟩
  | mergeBlocks blockId withPrevious =>
      exact .inr ⟨trivial, .inr (blockIds_mergeBlocks doc blockId withPrevious)⟩
  | addComment id blockId authorId text start stop quote =>
      refine .inr ⟨trivial, .inr ?_⟩
      simp only [applyOp]
      split <;> exact List.Sublist.refl _
  | resolveComment id => exact .inr ⟨trivial, .inr (List.Sublist.refl _)⟩
  | setBlockFormat blockId fmt =>
      refine .inr ⟨trivial, .inr ?_⟩
      rw [applyOp, blockIds_editBlock doc blockId _ (applyBlockFormat_id fmt)]
  | _ =>
      refine .inr ⟨trivial, .inr ?_⟩
      rw [applyOp, blockIds_editBlock]
      exact fun _ => rfl

/-- One op keeps distinct ids distinct exactly when it inserts no id twice. -/
theorem distinctIds_applyOp_iff (doc : EradDocument) (op : DocOp) (distinct : DistinctIds doc) :
    DistinctIds (applyOp doc op) ↔ FreshInsert doc op := by
  rcases blockIds_applyOp doc op with ⟨afterId, block, rfl, added⟩ | ⟨fresh, change⟩
  · unfold DistinctIds at distinct ⊢
    rw [added.nodup_iff, List.nodup_cons]
    exact and_iff_left distinct
  · refine iff_of_true ?_ fresh
    unfold DistinctIds at distinct ⊢
    rcases change with ⟨newId, unused, added⟩ | kept
    · rw [added.nodup_iff, List.nodup_cons]
      exact ⟨unused, distinct⟩
    · exact kept.nodup distinct

/-- Block ids stay distinct along a run exactly when no `InsertBlock` of the run brings
an id that the document has at that moment. -/
theorem block_ids_distinct_iff (doc : EradDocument) (ops : List DocOp)
    (distinct : DistinctIds doc) :
    Always applyOp DistinctIds doc ops ↔ Guarded applyOp FreshInsert doc ops :=
  always_iff_guarded applyOp DistinctIds FreshInsert distinctIds_applyOp_iff doc ops distinct

theorem block_ids_distinct_insert_split :
    Always applyOp DistinctIds (EradDocument.empty "b1".toList)
      [.insertBlock "b1".toList (Block.paragraph "b2".toList []),
        .splitBlock "b2".toList 0 "b3".toList] := by
  apply (block_ids_distinct_iff (EradDocument.empty "b1".toList) _ (by decide)).mpr
  rw [guarded_cons, guarded_cons]
  exact ⟨by decide, trivial, guarded_nil _ _ _⟩

/-- The same `InsertBlock` delivered twice. -/
theorem inserted_twice_duplicates :
    ¬ ∀ (doc : EradDocument) (ops : List DocOp), DistinctIds doc →
      Always applyOp DistinctIds doc ops := by
  intro all
  have duplicate := all (EradDocument.empty "b1".toList)
    [.insertBlock "b1".toList (Block.paragraph "b2".toList []),
      .insertBlock "b1".toList (Block.paragraph "b2".toList [])] (by decide)
  exact absurd duplicate.last (by decide)

end EraOne.Docs
