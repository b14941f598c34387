import EraOne.DocsEngine
import EraOne.DocsText
import EraOne.Runs

set_option autoImplicit false

/- One writer at a time. `apply_sync_op` transforms every incoming op against the last
logged one, also when that op is the writer's own and not concurrent at all. -/
namespace EraOne.Docs

open Runs

/-- Two offsets into the addressed block fall on one char boundary of its text. -/
def SameCut (doc : EradDocument) (blockId : Str) (n m : Nat) : Prop :=
  ∀ s, blockText doc blockId = some s → floorCharBoundary s n = floorCharBoundary s m

/-- `prev` does not move `op`: where it shifts an offset of `op`, the shifted offset cuts the
text of the addressed block where the offset itself does. -/
def Settled (doc : EradDocument) (prev op : DocOp) : Prop :=
  match op, prev with
  | .insertText b o _ _, .insertText ob oo ot _ =>
      b = ob → oo ≤ o → SameCut doc b o (saturatingAdd o (byteLen ot))
  | .deleteRange b s e, .insertText ob oo ot _ =>
      b = ob →
        (oo ≤ s → SameCut doc b s (saturatingAdd s (byteLen ot))) ∧
        (oo ≤ s ∨ oo < e → SameCut doc b e (saturatingAdd e (byteLen ot)))
  | .insertText b o _ _, .deleteRange ob s e =>
      b = ob → (e ≤ o → SameCut doc b o (o - (e - s))) ∧ (s < o ∧ o < e → SameCut doc b o s)
  | .setMarksRange b s e _, .insertText ob oo ot _ =>
      b = ob →
        let shifted := shiftRange s e oo (asIsize (byteLen ot))
        SameCut doc b s shifted.1 ∧ SameCut doc b e shifted.2
  | .setMarksRange b s e _, .deleteRange ob ds de =>
      b = ob →
        let shifted := shiftRange s e de (negIsize (asIsize (de - ds)))
        let range := clampMarks shifted.1 shifted.2 ds de (asUsize (asIsize (de - ds)))
        SameCut doc b s (min range.1 range.2) ∧ SameCut doc b e range.2
  | .insertText b o _ _, .splitBlock ob so _ => b = ob → so < o → SameCut doc b o so
  | .splitBlock b o _, .insertText ob oo ot _ =>
      b = ob → oo ≤ o → SameCut doc b o (saturatingAdd o (byteLen ot))
  | _, _ => True

theorem SameCut.refl (doc : EradDocument) (blockId : Str) (n : Nat) : SameCut doc blockId n n :=
  fun _ _ => rfl

theorem SameCut.symm {doc : EradDocument} {blockId : Str} {n m : Nat}
    (cut : SameCut doc blockId n m) : SameCut doc blockId m n :=
  fun s found => (cut s found).symm

theorem updateFirst_congr {α : Type} (p : α → Bool) (f g : α → α) (l : List α)
    (same : ∀ a, l.find? p = some a → f a = g a) : updateFirst p f l = updateFirst p g l := by
  induction l with
  | nil => rfl
  | cons a l ih =>
      unfold updateFirst
      split
      · rename_i found
        rw [same a (List.find?_cons_of_pos found)]
      · rename_i other
        rw [ih (fun b found => same b (by rw [List.find?_cons_of_neg other, found]))]

/-- Only what an edit does to the addressed block matters. -/
theorem editBlock_congr (doc : EradDocument) (blockId : Str) (f g : Block → Block)
    (same : ∀ b, blockText doc blockId = some (blockPlain b.inlines) → f b = g b) :
    editBlock doc blockId f = editBlock doc blockId g := by
  unfold editBlock
  rw [updateFirst_congr _ f g doc.blocks]
  intro b found
  exact same b (by rw [blockText, found]; rfl)

theorem applyOp_insertText_congr (doc : EradDocument) (blockId : Str) (n m : Nat) (text : Str)
    (marks : Option InlineSpan) (cut : SameCut doc blockId n m) :
    applyOp doc (.insertText blockId n text marks) =
      applyOp doc (.insertText blockId m text marks) := by
  apply editBlock_congr
  intro b found
  simp only [insertTextPreserving, cut _ found]

theorem applyOp_deleteRange_congr (doc : EradDocument) (blockId : Str) (n m n' m' : Nat)
    (first : SameCut doc blockId n n') (second : SameCut doc blockId m m') :
    applyOp doc (.deleteRange blockId n m) = applyOp doc (.deleteRange blockId n' m') := by
  apply editBlock_congr
  intro b found
  simp only [deleteRangePreserving, first _ found, second _ found]

theorem applyOp_setMarksRange_congr (doc : EradDocument) (blockId : Str) (n m n' m' : Nat)
    (marks : MarkArgs) (first : SameCut doc blockId n n') (second : SameCut doc blockId m m') :
    applyOp doc (.setMarksRange blockId n m marks) =
      applyOp doc (.setMarksRange blockId n' m' marks) := by
  apply editBlock_congr
  intro b found
  simp only [applyMarksRange, first _ found, second _ found]

theorem blockText_of_position (doc : EradDocument) (blockId : Str) (pos : Nat) (source : Block)
    (found : blockPosition doc blockId = some pos) (at_ : doc.blocks[pos]? = some source) :
    blockText doc blockId = some (blockPlain source.inlines) := by
  obtain ⟨bound, hit, earlier⟩ := List.findIdx?_eq_some_iff_getElem.mp found
  obtain ⟨-, rfl⟩ := List.getElem?_eq_some_iff.mp at_
  have first : doc.blocks.find? (fun b => decide (b.id = blockId)) = some (doc.blocks[pos]) := by
    rw [List.find?_eq_some_iff_getElem]
    refine ⟨hit, pos, bound, rfl, ?_⟩
    intro j before
    simpa using earlier j before
  rw [blockText, first]
  rfl

theorem applyOp_splitBlock_congr (doc : EradDocument) (blockId newBlockId : Str) (n m : Nat)
    (cut : SameCut doc blockId n m) :
    applyOp doc (.splitBlock blockId n newBlockId) =
      applyOp doc (.splitBlock blockId m newBlockId) := by
  simp only [applyOp]
  split
  · rfl
  · split
    · rename_i pos found
      split
      · rename_i source at_
        have text := blockText_of_position doc blockId pos source found at_
        simp only [splitInlinesAt, splitAt, cut _ text]
      · rfl
    · rfl

/-- A settled op has the effect it had before the transform. -/
theorem applyOp_transformAgainst (doc : EradDocument) (prev op : DocOp)
    (settled : Settled doc prev op) :
    applyOp doc (op.transformAgainst prev) = applyOp doc op := by
  cases op with
  | insertText b o text marks =>
      cases prev with
      | insertText ob oo ot om =>
          simp only [DocOp.transformAgainst]
          split
          · rename_i same
            apply applyOp_insertText_congr
            by_cases shifts : o ≥ oo
            · rw [if_pos shifts]
              exact (settled same shifts).symm
            · rw [if_neg shifts]
              exact SameCut.refl doc b o
          · rfl
      | deleteRange ob s e =>
          simp only [DocOp.transformAgainst]
          split
          · rename_i same
            obtain ⟨after, inside⟩ := settled same
            apply applyOp_insertText_congr
            by_cases past : o ≥ e
            · rw [if_pos past]
              exact (after past).symm
            · rw [if_neg past]
              by_cases within : o > s
              · rw [if_pos within]
                exact (inside ⟨within, by omega⟩).symm
              · rw [if_neg within]
                exact SameCut.refl doc b o
          · rfl
      | splitBlock ob so newId =>
          simp only [DocOp.transformAgainst]
          split
          · rename_i same
            split
            · rename_i past
              exact applyOp_insertText_congr _ _ _ _ _ _ (settled same past).symm
            · rfl
          · rfl
      | _ => rfl
  | deleteRange b s e =>
      cases prev with
      | insertText ob oo ot om =>
          simp only [DocOp.transformAgainst]
          split
          · rename_i same
            obtain ⟨first, second⟩ := settled same
            split
            · rename_i before
              exact applyOp_deleteRange_congr _ _ _ _ _ _ (first before).symm
                (second (.inl before)).symm
            · split
              · rename_i inside
                exact applyOp_deleteRange_congr _ _ _ _ _ _ (SameCut.refl doc b s)
                  (second (.inr inside)).symm
              · rfl
          · rfl
      | _ => rfl
  | setMarksRange b s e marks =>
      cases prev with
      | insertText ob oo ot om =>
          simp only [DocOp.transformAgainst]
          split
          · rename_i same
            obtain ⟨first, second⟩ := settled same
            exact applyOp_setMarksRange_congr _ _ _ _ _ _ _ first.symm second.symm
          · rfl
      | deleteRange ob ds de =>
          simp only [DocOp.transformAgainst]
          split
          · rename_i same
            obtain ⟨first, second⟩ := settled same
            exact applyOp_setMarksRange_congr _ _ _ _ _ _ _ first.symm second.symm
          · rfl
      | _ => rfl
  | splitBlock b o newId =>
      cases prev with
      | insertText ob oo ot om =>
          simp only [DocOp.transformAgainst]
          split
          · rename_i same
            apply applyOp_splitBlock_congr
            by_cases shifts : o ≥ oo
            · rw [if_pos shifts]
              exact (settled same shifts).symm
            · rw [if_neg shifts]
              exact SameCut.refl doc b o
          · rfl
      | _ => rfl
  | _ => cases prev <;> rfl

variable {w : Wire}

/-- One op of the connection, processed by the engine. -/
def syncStep (objectId : Str) (state : AppState w) (op : DocOp) : AppState w :=
  (state.applySyncOp objectId op).1

/-- The last logged op does not move the op that comes in. -/
def SettledStep (objectId : Str) (state : AppState w) (op : DocOp) : Prop :=
  ∀ doc log prev, state.sessions.docs[objectId]? = some doc →
    state.sessions.logs[objectId]? = some log → log.ops.getLast? = some prev →
    Settled doc prev op

/-- What processing one op does to the session, whatever Postgres answers. -/
theorem syncStep_session (state : AppState w) (objectId : Str) (op : DocOp) (doc : EradDocument)
    (log : OpLog) (found : state.sessions.docs[objectId]? = some doc)
    (logged : state.sessions.logs[objectId]? = some log) :
    (syncStep objectId state op).sessions.docs[objectId]? =
        some (applyOp doc (state.transformedOp objectId op)) ∧
      (syncStep objectId state op).sessions.logs[objectId]? =
        some (log.append (state.transformedOp objectId op)) := by
  simp only [syncStep, AppState.applySyncOp, found, logged]
  split
  · split <;> simp
  · simp

theorem applyOp_transformedOp (state : AppState w) (objectId : Str) (op : DocOp)
    (doc : EradDocument) (found : state.sessions.docs[objectId]? = some doc)
    (settled : SettledStep objectId state op) :
    applyOp doc (state.transformedOp objectId op) = applyOp doc op := by
  unfold AppState.transformedOp
  split
  · rename_i log logged
    split
    · rename_i prev last
      exact applyOp_transformAgainst doc prev op (settled doc log prev found logged last)
    · rfl
  · rfl

/-- A session whose ops are all settled applies them as the client sent them. -/
theorem single_writer_applies_as_sent (state : AppState w) (objectId : Str) (doc : EradDocument)
    (log : OpLog) (ops : List DocOp) (found : state.sessions.docs[objectId]? = some doc)
    (logged : state.sessions.logs[objectId]? = some log)
    (settled : Guarded (syncStep objectId) (SettledStep objectId) state ops) :
    (ops.foldl (syncStep objectId) state).sessions.docs[objectId]? =
      some (ops.foldl applyOp doc) := by
  induction ops generalizing state doc log with
  | nil => exact found
  | cons op ops ih =>
      obtain ⟨first, rest⟩ := (guarded_cons _ _ state op ops).mp settled
      obtain ⟨found', logged'⟩ := syncStep_session state objectId op doc log found logged
      rw [applyOp_transformedOp state objectId op doc found first] at found'
      exact ih (syncStep objectId state op) (applyOp doc op) _ found' logged' rest

/-- A session just opened on an empty document, with the op log on. -/
def freshSession : AppState Wire.tagged :=
  (AppState.createDoc ⟨true, SessionStore.empty, fun _ _ => none, some []⟩
    ⟨"t1".toList, "u1".toList⟩ "o1".toList "b1".toList).1

/-- Typing at the end of the text: the shift runs past the end and is cut back. -/
theorem single_writer_typing :
    ([DocOp.insertText "b1".toList 0 "ab".toList none,
        .insertText "b1".toList 2 "c".toList none].foldl (syncStep "o1".toList)
          freshSession).sessions.docs["o1".toList]? =
      some ([DocOp.insertText "b1".toList 0 "ab".toList none,
        .insertText "b1".toList 2 "c".toList none].foldl applyOp
          (EradDocument.empty "b1".toList)) := by
  apply single_writer_applies_as_sent freshSession "o1".toList _ OpLog.empty
  · decide
  · decide
  · rw [guarded_cons, guarded_cons]
    refine ⟨?_, ?_, guarded_nil _ _ _⟩
    · intro doc log prev _ logged last
      have empty : freshSession.sessions.logs["o1".toList]? = some OpLog.empty := by decide
      rw [empty, Option.some.injEq] at logged
      subst logged
      cases last
    · intro doc log prev found logged last
      have text : blockText (applyOp (EradDocument.empty "b1".toList)
          (.insertText "b1".toList 0 "ab".toList none)) "b1".toList = some "ab".toList := by decide
      have doc_eq : (syncStep "o1".toList freshSession
          (.insertText "b1".toList 0 "ab".toList none)).sessions.docs["o1".toList]? =
            some (applyOp (EradDocument.empty "b1".toList)
              (.insertText "b1".toList 0 "ab".toList none)) := by decide
      have log_eq : (syncStep "o1".toList freshSession
          (.insertText "b1".toList 0 "ab".toList none)).sessions.logs["o1".toList]? =
            some ⟨1, [.insertText "b1".toList 0 "ab".toList none]⟩ := by decide
      rw [doc_eq, Option.some.injEq] at found
      rw [log_eq, Option.some.injEq] at logged
      subst found logged
      cases last
      intro _ _ s there
      rw [text, Option.some.injEq] at there
      subst there
      decide

/-- Typing `ab` and then `X` between the two letters: the engine puts `X` after them. -/
theorem single_writer_moved :
    ¬ ∀ (w : Wire) (state : AppState w) (objectId : Str) (doc : EradDocument) (log : OpLog)
      (ops : List DocOp), state.sessions.docs[objectId]? = some doc →
      state.sessions.logs[objectId]? = some log →
      (ops.foldl (syncStep objectId) state).sessions.docs[objectId]? =
        some (ops.foldl applyOp doc) := by
  intro all
  have moved := all Wire.tagged freshSession "o1".toList (EradDocument.empty "b1".toList)
    OpLog.empty [.insertText "b1".toList 0 "ab".toList none,
      .insertText "b1".toList 1 "X".toList none] (by decide) (by decide)
  revert moved
  decide

end EraOne.Docs
