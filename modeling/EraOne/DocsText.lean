import EraOne.DocsSync

set_option autoImplicit false

/- `InsertText` and `DeleteRange` on one block, seen as edits of the block's plain
text, and the exact pairs of such edits on which the transform converges. -/
namespace EraOne.Docs

/-- An `InsertText` or a `DeleteRange`, without its block. -/
inductive TextEdit where
  | insert (offset : Nat) (text : Str) (marks : Option InlineSpan)
  | delete (start stop : Nat)
  deriving DecidableEq, Repr

namespace TextEdit

def toOp (blockId : Str) : TextEdit → DocOp
  | .insert offset text marks => .insertText blockId offset text marks
  | .delete start stop => .deleteRange blockId start stop

/-- The edit's effect on plain text. -/
def apply (s : Str) : TextEdit → Str
  | .insert offset text _ => takeBytes s offset ++ text ++ dropBytes s offset
  | .delete start stop => takeBytes s start ++ dropBytes s (max start stop)

def transform : TextEdit → TextEdit → TextEdit
  | .insert offset text marks, .insert oo ot _ =>
      .insert (if offset ≥ oo then saturatingAdd offset (byteLen ot) else offset) text marks
  | .delete start stop, .insert oo ot _ =>
      if oo ≤ start then
        .delete (saturatingAdd start (byteLen ot)) (saturatingAdd stop (byteLen ot))
      else if oo < stop then .delete start (saturatingAdd stop (byteLen ot))
      else .delete start stop
  | .insert offset text marks, .delete start stop =>
      .insert (if offset ≥ stop then offset - (stop - start)
        else if offset > start then start else offset) text marks
  | .delete start stop, .delete _ _ => .delete start stop

/-- Every offset of the edit is a char boundary of the text. -/
def InRange (s : Str) : TextEdit → Prop
  | .insert offset _ _ => CharBoundary s offset
  | .delete start stop => CharBoundary s start ∧ CharBoundary s stop

/-- Every offset of the edit is at most `n`. -/
def Within (n : Nat) : TextEdit → Prop
  | .insert offset _ _ => offset ≤ n
  | .delete start stop => start ≤ n ∧ stop ≤ n

/-- Two inserts at one offset have no order of their own. -/
def SameOffset : TextEdit → TextEdit → Prop
  | .insert n _ _, .insert m _ _ => n = m
  | _, _ => False

/-- The pairs on which the two replicas agree, for texts of `n` bytes: no non-empty
insert strictly inside the other edit's range, and no two non-empty deletes unless
they start together or the left one reaches over the other to the end. -/
def Commutes (n : Nat) : TextEdit → TextEdit → Prop
  | .insert _ _ _, .insert _ _ _ => True
  | .insert offset text _, .delete start stop => ¬ (start < offset ∧ offset < stop ∧ text ≠ [])
  | .delete start stop, .insert offset text _ => ¬ (start < offset ∧ offset < stop ∧ text ≠ [])
  | .delete s e, .delete s' e' =>
      e ≤ s ∨ e' ≤ s' ∨ s = s' ∨ (s < s' ∧ s' < e ∧ e = n) ∨ (s' < s ∧ s < e' ∧ e' = n)

instance (n : Nat) : DecidablePred (Within n)
  | .insert offset _ _ => inferInstanceAs (Decidable (offset ≤ n))
  | .delete start stop => inferInstanceAs (Decidable (start ≤ n ∧ stop ≤ n))

instance (s : Str) : DecidablePred (InRange s)
  | .insert offset _ _ => inferInstanceAs (Decidable (CharBoundary s offset))
  | .delete start stop => inferInstanceAs (Decidable (CharBoundary s start ∧ CharBoundary s stop))

/-- Bytes the edit adds. -/
def inserted : TextEdit → Nat
  | .insert _ text _ => byteLen text
  | .delete _ _ => 0

end TextEdit

/-- Plain text of the block that ops on `blockId` address. -/
def blockText (doc : EradDocument) (blockId : Str) : Option Str :=
  (doc.blocks.find? (fun b => b.id = blockId)).map (fun b => blockPlain b.inlines)

theorem find?_updateFirst {α : Type} (p : α → Bool) (f : α → α) (l : List α)
    (stable : ∀ a, p a → p (f a)) : (updateFirst p f l).find? p = (l.find? p).map f := by
  induction l with
  | nil => rfl
  | cons a l ih =>
      unfold updateFirst
      split
      · rename_i found
        rw [List.find?_cons_of_pos found, List.find?_cons_of_pos (stable a found)]
        rfl
      · rename_i other
        rw [List.find?_cons_of_neg other, List.find?_cons_of_neg other, ih]

/-- Span editing of the addressed block is text editing of its plain text. -/
theorem blockText_applyOp (doc : EradDocument) (blockId : Str) (edit : TextEdit) :
    blockText (applyOp doc (edit.toOp blockId)) blockId =
      (blockText doc blockId).map edit.apply := by
  cases edit with
  | insert offset text marks =>
      simp only [blockText, TextEdit.toOp, applyOp, editBlock]
      rw [find?_updateFirst _ _ _ (by simp)]
      simp only [Option.map_map]
      congr 1
      funext b
      exact insertTextPreserving_plain b.inlines offset text marks
  | delete start stop =>
      simp only [blockText, TextEdit.toOp, applyOp, editBlock]
      rw [find?_updateFirst _ _ _ (by simp)]
      simp only [Option.map_map]
      congr 1
      funext b
      exact deleteRangePreserving_plain b.inlines start stop

theorem transformAgainst_toOp (blockId : Str) (self other : TextEdit) :
    (self.toOp blockId).transformAgainst (other.toOp blockId) =
      (self.transform other).toOp blockId := by
  cases self with
  | insert offset text marks =>
      cases other <;> simp [TextEdit.toOp, TextEdit.transform, DocOp.transformAgainst]
  | delete start stop =>
      cases other with
      | insert oo ot om =>
          simp only [TextEdit.toOp, TextEdit.transform, DocOp.transformAgainst, ↓reduceIte]
          split
          · rfl
          · split <;> rfl
      | delete ds de => rfl

/-- One replica applies `a` and then the transformed `b`, the other the reverse. -/
def Converges (doc : EradDocument) (blockId : Str) (a b : DocOp) : Prop :=
  blockText (applyOp (applyOp doc a) (b.transformAgainst a)) blockId =
    blockText (applyOp (applyOp doc b) (a.transformAgainst b)) blockId

instance (doc : EradDocument) (blockId : Str) (a b : DocOp) :
    Decidable (Converges doc blockId a b) :=
  inferInstanceAs (Decidable (_ = _))

/-- Convergence of two edits on a plain text. -/
def TextConverges (s : Str) (a b : TextEdit) : Prop :=
  (b.transform a).apply (a.apply s) = (a.transform b).apply (b.apply s)

theorem TextConverges.symm {s : Str} {a b : TextEdit} (h : TextConverges s a b) :
    TextConverges s b a := Eq.symm h

theorem converges_iff_text (doc : EradDocument) (blockId : Str) (s : Str)
    (found : blockText doc blockId = some s) (a b : TextEdit) :
    Converges doc blockId (a.toOp blockId) (b.toOp blockId) ↔ TextConverges s a b := by
  unfold Converges TextConverges
  simp only [transformAgainst_toOp, blockText_applyOp, found, Option.map_some, Option.some.injEq]

theorem saturatingAdd_eq (a b : Nat) (small : a + b ≤ usizeMax) : saturatingAdd a b = a + b :=
  Nat.min_eq_left small

/-- Insertion at the end of a front. -/
theorem apply_insert_at (front back text : Str) (marks : Option InlineSpan) :
    (TextEdit.insert (byteLen front) text marks).apply (front ++ back) =
      front ++ text ++ back := by
  simp only [TextEdit.apply, takeBytes_front, dropBytes_front]

/-- Deletion of a middle. -/
theorem apply_delete_at (front middle back : Str) :
    (TextEdit.delete (byteLen front) (byteLen front + byteLen middle)).apply
      (front ++ middle ++ back) = front ++ back := by
  have stop : max (byteLen front) (byteLen front + byteLen middle) = byteLen (front ++ middle) := by
    rw [byteLen_append]
    omega
  simp only [TextEdit.apply]
  rw [stop, dropBytes_front, List.append_assoc, takeBytes_front]

/-- Deletion from a front to anywhere past it. -/
theorem apply_delete_from (front back : Str) (count : Nat) :
    (TextEdit.delete (byteLen front) (byteLen front + count)).apply (front ++ back) =
      front ++ dropBytes back count := by
  have stop : max (byteLen front) (byteLen front + count) = byteLen front + count := by omega
  simp only [TextEdit.apply, takeBytes_front]
  rw [stop, dropBytes_append]

theorem apply_delete_empty (s : Str) (start stop : Nat) (empty : stop ≤ start) :
    (TextEdit.delete start stop).apply s = s := by
  simp only [TextEdit.apply, Nat.max_eq_left empty, takeBytes_append_dropBytes]

/-- Two boundaries in order cut the text in three. -/
theorem charBoundary_split (s : Str) (n m : Nat) (first : CharBoundary s n)
    (second : CharBoundary s m) (order : n ≤ m) :
    ∃ front middle back, s = front ++ middle ++ back ∧ byteLen front = n ∧
      byteLen middle = m - n := by
  obtain ⟨front, rest, shape, size⟩ := (charBoundary_iff s n).mp first
  obtain ⟨front', back, shape', size'⟩ := (charBoundary_iff s m).mp second
  obtain ⟨middle, rfl, rfl⟩ := Weighted.append_nested Char.utf8Size
    (shape.symm.trans shape') (fun c _ => Char.utf8Size_pos c) (by
      change byteLen front ≤ byteLen front'
      omega)
  refine ⟨front, middle, back, shape', size, ?_⟩
  rw [byteLen_append] at size'
  omega

/-- Three boundaries in order cut the text in four. -/
theorem charBoundary_split3 (s : Str) (n m k : Nat) (first : CharBoundary s n)
    (second : CharBoundary s m) (third : CharBoundary s k) (order : n ≤ m) (order' : m ≤ k) :
    ∃ front middle middle' back, s = front ++ middle ++ middle' ++ back ∧ byteLen front = n ∧
      byteLen middle = m - n ∧ byteLen middle' = k - m := by
  obtain ⟨front, middle, rest, shape, size, size'⟩ := charBoundary_split s n m first second order
  obtain ⟨front', back, shape', size''⟩ := (charBoundary_iff s k).mp third
  obtain ⟨middle', rfl, rfl⟩ := Weighted.append_nested Char.utf8Size
    (shape.symm.trans shape') (fun c _ => Char.utf8Size_pos c) (by
      change byteLen (front ++ middle) ≤ byteLen front'
      rw [byteLen_append]
      omega)
  refine ⟨front, middle, middle', back, shape', size, size', ?_⟩
  simp only [byteLen_append] at size''
  omega

theorem insert_insert_converges (s : Str) (n m : Nat) (t u : Str) (tm um : Option InlineSpan)
    (first : CharBoundary s n) (second : CharBoundary s m) (order : n < m)
    (fits : byteLen s + byteLen t ≤ usizeMax) :
    TextConverges s (.insert n t tm) (.insert m u um) := by
  have bound := second.le
  obtain ⟨front, middle, back, rfl, rfl, size⟩ :=
    charBoundary_split s n m first second (by omega)
  have hm : m = byteLen (front ++ middle) := by rw [byteLen_append]; omega
  have hm' : m + byteLen t = byteLen (front ++ t ++ middle) := by
    simp only [byteLen_append]
    omega
  simp only [TextConverges, TextEdit.transform]
  rw [if_pos (by omega), if_neg (by omega), saturatingAdd_eq _ _ (by omega), hm', hm,
    apply_insert_at, List.append_assoc front middle back, apply_insert_at,
    show front ++ t ++ (middle ++ back) = front ++ t ++ middle ++ back by simp, apply_insert_at,
    show front ++ middle ++ u ++ back = front ++ (middle ++ u ++ back) by simp, apply_insert_at]
  simp

theorem insert_delete_converges (s : Str) (n start stop : Nat) (t : Str) (tm : Option InlineSpan)
    (at_ : CharBoundary s n) (first : CharBoundary s start) (second : CharBoundary s stop)
    (outside : ¬ (start < n ∧ n < stop ∧ t ≠ [])) (fits : byteLen s + byteLen t ≤ usizeMax) :
    TextConverges s (.insert n t tm) (.delete start stop) := by
  have boundN := at_.le
  have boundStart := first.le
  have boundStop := second.le
  simp only [TextConverges, TextEdit.transform]
  rw [saturatingAdd_eq _ _ (by omega), saturatingAdd_eq _ _ (by omega)]
  rcases Nat.lt_or_ge start stop with nonempty | empty
  · rcases Nat.lt_or_ge start n with afterStart | beforeStart
    · rw [if_neg (by omega)]
      rcases Nat.lt_or_ge n stop with inside | afterStop
      · -- Strictly inside: only the empty insert is left.
        have none : t = [] := by
          by_contra some
          exact outside ⟨afterStart, inside, some⟩
        subst none
        rw [if_pos inside, if_neg (by omega), if_pos afterStart]
        simp only [TextEdit.apply, List.append_nil, byteLen_nil, Nat.add_zero,
          takeBytes_append_dropBytes]
      · obtain ⟨front, gone, middle, back, rfl, rfl, goneSize, middleSize⟩ :=
          charBoundary_split3 s start stop n first second at_ (by omega) afterStop
        have hstop : stop = byteLen front + byteLen gone := by omega
        have hn : n = byteLen (front ++ gone ++ middle) := by simp only [byteLen_append]; omega
        have hn' : n - (stop - byteLen front) = byteLen (front ++ middle) := by
          simp only [byteLen_append]
          omega
        rw [if_neg (by omega), if_pos afterStop, hn', hn, apply_insert_at, hstop,
          show front ++ gone ++ middle ++ t ++ back = front ++ gone ++
            (middle ++ t ++ back) by simp,
          apply_delete_at,
          show front ++ gone ++ middle ++ back = front ++ gone ++ (middle ++ back) by simp,
          apply_delete_at,
          show front ++ (middle ++ back) = front ++ middle ++ back by simp, apply_insert_at]
        simp
    · obtain ⟨front, middle, gone, back, rfl, rfl, middleSize, goneSize⟩ :=
        charBoundary_split3 s n start stop at_ first second beforeStart (by omega)
      have hstart : start = byteLen (front ++ middle) := by rw [byteLen_append]; omega
      have hstart' : start + byteLen t = byteLen (front ++ t ++ middle) := by
        simp only [byteLen_append]
        omega
      have hstop : stop = start + byteLen gone := by omega
      rw [if_pos beforeStart, if_neg (by omega), if_neg (by omega), hstop,
        show start + byteLen gone + byteLen t = start + byteLen t + byteLen gone by omega, hstart',
        hstart, show front ++ middle ++ gone ++ back = front ++ (middle ++ gone ++ back) by simp,
        apply_insert_at,
        show front ++ t ++ (middle ++ gone ++ back) = front ++ t ++ middle ++ gone ++ back by simp,
        apply_delete_at,
        show front ++ (middle ++ gone ++ back) = front ++ middle ++ gone ++ back by simp,
        apply_delete_at, List.append_assoc front middle back, apply_insert_at]
      simp
  · -- An empty range stays empty under the transform and moves nothing.
    have still : (if n ≥ stop then n - (stop - start) else if n > start then start else n) = n := by
      split
      · omega
      · rw [if_neg (by omega)]
    rw [still, apply_delete_empty s start stop empty]
    split
    · rw [apply_delete_empty _ _ _ (by omega)]
    · rw [if_neg (by omega), apply_delete_empty _ _ _ empty]

/-- Deletes with one start remove the same bytes in either order. -/
theorem delete_same_start_converges (s : Str) (start stop stop' : Nat)
    (at_ : CharBoundary s start) (first : CharBoundary s stop) (second : CharBoundary s stop')
    (nonempty : start < stop) (order : stop ≤ stop') :
    TextConverges s (.delete start stop) (.delete start stop') := by
  obtain ⟨front, gone, gone', back, rfl, rfl, size, size'⟩ :=
    charBoundary_split3 s start stop stop' at_ first second (by omega) order
  have hstop : stop = byteLen front + byteLen gone := by omega
  have hstop' : stop' = byteLen front + byteLen (gone ++ gone') := by
    rw [byteLen_append]
    omega
  simp only [TextConverges, TextEdit.transform]
  rw [hstop, hstop',
    show front ++ gone ++ gone' ++ back = front ++ gone ++ (gone' ++ back) by simp,
    apply_delete_at, apply_delete_from,
    show front ++ gone ++ (gone' ++ back) = front ++ (gone ++ gone') ++ back by simp,
    apply_delete_at, apply_delete_from, byteLen_append, Nat.add_comm (byteLen gone),
    dropBytes_append]

/-- A delete to the end swallows any delete that starts inside it. -/
theorem delete_to_end_converges (s : Str) (start start' stop' : Nat) (first : CharBoundary s start)
    (second : CharBoundary s start') (third : CharBoundary s stop') (nonempty : start' < stop')
    (order : start < start') :
    TextConverges s (.delete start (byteLen s)) (.delete start' stop') := by
  obtain ⟨front, middle, gone, back, rfl, rfl, size, size'⟩ :=
    charBoundary_split3 s start start' stop' first second third (by omega) (by omega)
  simp only [TextConverges, TextEdit.transform]
  have total : byteLen (front ++ middle ++ gone ++ back) =
      byteLen front + byteLen (middle ++ gone ++ back) := by
    simp only [byteLen_append]
    omega
  have hstart : start' = byteLen (front ++ middle) := by rw [byteLen_append]; omega
  have hstop : stop' = byteLen (front ++ middle) + byteLen gone := by rw [byteLen_append]; omega
  have left : (TextEdit.delete (byteLen front) (byteLen (front ++ middle ++ gone ++ back))).apply
      (front ++ middle ++ gone ++ back) = front := by
    rw [total, show front ++ middle ++ gone ++ back = front ++ (middle ++ gone ++ back) by simp,
      apply_delete_from, dropBytes_of_le _ _ le_rfl, List.append_nil]
  have right : (TextEdit.delete start' stop').apply (front ++ middle ++ gone ++ back) =
      front ++ (middle ++ back) := by
    rw [hstop, hstart, apply_delete_at, List.append_assoc]
  rw [left, right, total, apply_delete_from,
    dropBytes_of_le _ _ (by simp only [byteLen_append]; omega)]
  simp only [TextEdit.apply]
  rw [takeBytes_of_le front _ (by omega), dropBytes_of_le front _ (by omega)]

/-- The condition is enough on every text. -/
theorem textConverges_of_commutes (s : Str) (a b : TextEdit) (ha : a.InRange s) (hb : b.InRange s)
    (distinct : ¬ a.SameOffset b) (fits : byteLen s + a.inserted + b.inserted ≤ usizeMax)
    (commutes : a.Commutes (byteLen s) b) : TextConverges s a b := by
  cases a with
  | insert n t tm =>
      cases b with
      | insert m u um =>
          simp only [TextEdit.inserted] at fits
          rcases Nat.lt_or_gt_of_ne distinct with less | greater
          · exact insert_insert_converges s n m t u tm um ha hb less (by omega)
          · exact (insert_insert_converges s m n u t um tm hb ha greater (by omega)).symm
      | delete start stop =>
          simp only [TextEdit.inserted] at fits
          exact insert_delete_converges s n start stop t tm ha hb.1 hb.2 commutes (by omega)
  | delete start stop =>
      cases b with
      | insert m u um =>
          simp only [TextEdit.inserted] at fits
          exact (insert_delete_converges s m start stop u um hb ha.1 ha.2 commutes (by omega)).symm
      | delete start' stop' =>
          by_cases empty : stop ≤ start
          · simp only [TextConverges, TextEdit.transform, apply_delete_empty _ _ _ empty]
          by_cases empty' : stop' ≤ start'
          · simp only [TextConverges, TextEdit.transform, apply_delete_empty _ _ _ empty']
          rcases commutes with h | h | same | ⟨less, -, full⟩ | ⟨less, -, full⟩
          · exact absurd h empty
          · exact absurd h empty'
          · subst same
            rcases Nat.le_total stop stop' with order | order
            · exact delete_same_start_converges s start stop stop' ha.1 ha.2 hb.2 (by omega) order
            · exact (delete_same_start_converges s start stop' stop ha.1 hb.2 ha.2
                (by omega) order).symm
          · subst full
            exact delete_to_end_converges s start start' stop' ha.1 hb.1 hb.2 (by omega) less
          · subst full
            exact (delete_to_end_converges s start' start stop hb.1 ha.1 ha.2 (by omega) less).symm

/-- Text of one-byte characters. -/
def Ascii (s : Str) : Prop := ∀ c ∈ s, c.utf8Size = 1

theorem Ascii.cut {s : Str} (ascii : Ascii s) (n : Nat) :
    takeBytes s n = s.take n ∧ dropBytes s n = s.drop n := by
  induction s generalizing n with
  | nil => simp
  | cons c s ih =>
      have one : c.utf8Size = 1 := ascii c (by simp)
      have rest := ih (fun d member => ascii d (by simp [member]))
      cases n with
      | zero => simp
      | succ n =>
          rw [takeBytes_cons_of_le _ _ _ (by omega), dropBytes_cons_of_le _ _ _ (by omega), one,
            Nat.add_sub_cancel, (rest n).1, (rest n).2]
          exact ⟨rfl, rfl⟩

theorem Ascii.byteLen {s : Str} (ascii : Ascii s) : byteLen s = s.length := by
  induction s with
  | nil => rfl
  | cons c s ih =>
      rw [byteLen_cons, ascii c (by simp), ih (fun d member => ascii d (by simp [member])),
        List.length_cons]
      omega

theorem Ascii.boundary {s : Str} (ascii : Ascii s) (n : Nat) (bound : n ≤ s.length) :
    CharBoundary s n := by
  rw [charBoundary_iff]
  refine ⟨s.take n, s.drop n, (List.take_append_drop n s).symm, ?_⟩
  have front : Ascii (s.take n) := fun c member => ascii c (List.mem_of_mem_take member)
  rw [front.byteLen, List.length_take, Nat.min_eq_left bound]

/-- `n` bytes, all alike but the one at `mark`. -/
def probe (n mark : Nat) : Str :=
  List.replicate mark 'a' ++ 'b' :: List.replicate (n - mark - 1) 'a'

theorem probe_ascii (n mark : Nat) : Ascii (probe n mark) := by
  intro c member
  simp only [probe, List.mem_append, List.mem_cons, List.mem_replicate] at member
  rcases member with ⟨-, rfl⟩ | rfl | ⟨-, rfl⟩ <;> rfl

theorem probe_length (n mark : Nat) (bound : mark < n) : (probe n mark).length = n := by
  simp only [probe, List.length_append, List.length_cons, List.length_replicate]
  omega

theorem probe_getElem? (n mark i : Nat) : (probe n mark)[i]? = some 'b' ↔ i = mark := by
  rcases Nat.lt_trichotomy i mark with less | same | greater
  · rw [probe, List.getElem?_append_left (by simpa using less), List.getElem?_replicate]
    simp [less]
    omega
  · subst same
    rw [probe, List.getElem?_append_right (by simp)]
    simp
  · obtain ⟨k, rfl⟩ : ∃ k, i = mark + (k + 1) := ⟨i - mark - 1, by omega⟩
    rw [probe, List.getElem?_append_right (by simp)]
    simp only [List.length_replicate, Nat.add_sub_cancel_left, List.getElem?_cons_succ,
      List.getElem?_replicate]
    split
    · simp
    · simp

theorem mem_probe_take (n mark k : Nat) : 'b' ∈ (probe n mark).take k ↔ mark < k := by
  rw [List.mem_iff_getElem?]
  constructor
  · rintro ⟨i, found⟩
    rw [List.getElem?_take] at found
    split at found
    · have := (probe_getElem? n mark i).mp found
      omega
    · cases found
  · intro less
    refine ⟨mark, ?_⟩
    rw [List.getElem?_take_of_lt less]
    exact (probe_getElem? n mark mark).mpr rfl

theorem mem_probe_drop (n mark k : Nat) : 'b' ∈ (probe n mark).drop k ↔ k ≤ mark := by
  rw [List.mem_iff_getElem?]
  constructor
  · rintro ⟨i, found⟩
    rw [List.getElem?_drop] at found
    have := (probe_getElem? n mark (k + i)).mp found
    omega
  · intro order
    refine ⟨mark - k, ?_⟩
    rw [List.getElem?_drop, Nat.add_sub_cancel' order]
    exact (probe_getElem? n mark mark).mpr rfl

theorem Ascii.apply_delete {s : Str} (ascii : Ascii s) (start stop : Nat) :
    (TextEdit.delete start stop).apply s = s.take start ++ s.drop (max start stop) ∧
      Ascii ((TextEdit.delete start stop).apply s) := by
  have shape : (TextEdit.delete start stop).apply s = s.take start ++ s.drop (max start stop) := by
    simp only [TextEdit.apply, (ascii.cut _).1, (ascii.cut _).2]
  refine ⟨shape, ?_⟩
  intro c member
  rw [shape, List.mem_append] at member
  rcases member with member | member
  · exact ascii c (List.mem_of_mem_take member)
  · exact ascii c (List.mem_of_mem_drop member)

/-- An insert inside the other edit's range survives in one order only, on every text. -/
theorem insert_inside_diverges (s : Str) (n start stop : Nat) (t : Str) (tm : Option InlineSpan)
    (at_ : CharBoundary s n) (first : CharBoundary s start) (second : CharBoundary s stop)
    (afterStart : start < n) (beforeStop : n < stop) (some : t ≠ [])
    (fits : byteLen s + byteLen t ≤ usizeMax) :
    ¬ TextConverges s (.insert n t tm) (.delete start stop) := by
  have boundStop := second.le
  obtain ⟨front, left, right, back, rfl, rfl, leftSize, rightSize⟩ :=
    charBoundary_split3 s start n stop first at_ second (by omega) (by omega)
  have hn : n = byteLen (front ++ left) := by rw [byteLen_append]; omega
  have hstop : stop = byteLen front + byteLen (left ++ right) := by rw [byteLen_append]; omega
  have hstop' : stop + byteLen t = byteLen front + byteLen (left ++ t ++ right) := by
    simp only [byteLen_append]
    omega
  simp only [TextConverges, TextEdit.transform]
  rw [if_neg (by omega), if_pos beforeStop, if_neg (by omega), if_pos afterStart,
    saturatingAdd_eq _ _ (by omega), hstop', hstop, hn,
    show front ++ left ++ right ++ back = front ++ left ++ (right ++ back) by simp, apply_insert_at,
    show front ++ left ++ t ++ (right ++ back) = front ++ (left ++ t ++ right) ++ back by simp,
    apply_delete_at,
    show front ++ left ++ (right ++ back) = front ++ (left ++ right) ++ back by simp,
    apply_delete_at, apply_insert_at]
  intro same
  apply some
  apply eq_nil_of_byteLen
  have sizes := congrArg EraOne.byteLen same
  simp only [byteLen_append] at sizes
  omega

/-- Where the condition fails for two deletes, the byte at `mark` survives in one order only. -/
theorem delete_delete_diverges (n s e s' e' : Nat) (nonempty : s < e) (nonempty' : s' < e')
    (bound : e ≤ n) (bound' : e' ≤ n) (order : s < s') (short : ¬ (s' < e ∧ e = n)) :
    ∃ mark < n, ¬ TextConverges (probe n mark) (.delete s e) (.delete s' e') := by
  refine ⟨max s' e, by omega, ?_⟩
  intro same
  have ascii := probe_ascii n (max s' e)
  obtain ⟨left, leftAscii⟩ := ascii.apply_delete s e
  obtain ⟨right, rightAscii⟩ := ascii.apply_delete s' e'
  simp only [TextConverges, TextEdit.transform] at same
  rw [(leftAscii.apply_delete s' e').1, (rightAscii.apply_delete s e).1, left, right,
    Nat.max_eq_right (by omega : s ≤ e), Nat.max_eq_right (by omega : s' ≤ e')] at same
  have size := probe_length n (max s' e) (by omega)
  have kept : 'b' ∈ ((probe n (max s' e)).take s ++ (probe n (max s' e)).drop e).take s' ++
      ((probe n (max s' e)).take s ++ (probe n (max s' e)).drop e).drop e' := by
    apply List.mem_append_left
    rw [List.mem_iff_getElem?]
    refine ⟨s + (max s' e - e), ?_⟩
    rw [List.getElem?_take_of_lt (by omega), List.getElem?_append_right (by simp),
      List.getElem?_drop]
    apply (probe_getElem? n (max s' e) _).mpr
    simp only [List.length_take, size]
    omega
  rw [same, List.mem_append, List.take_append_of_le_length (by simp [size]; omega), List.take_take,
    mem_probe_take, List.drop_append, List.mem_append, List.drop_drop, mem_probe_drop,
    List.length_take, size] at kept
  rcases kept with early | middle | late
  · omega
  · obtain ⟨i, found⟩ := List.mem_iff_getElem?.mp middle
    rw [List.getElem?_drop, List.getElem?_take] at found
    split at found
    · have := (probe_getElem? n (max s' e) (e + i)).mp found
      omega
    · cases found
  · omega

theorem blockText_single (blockId s : Str) :
    blockText { EradDocument.empty blockId with blocks := [Block.paragraph blockId s] } blockId =
      some s := by
  simp [blockText, Block.paragraph, InlineSpan.plain]

/-- The transform makes two replicas agree on every text of `n` bytes exactly when the
pair commutes in the sense above. `fits` says that the edited text is still a `String`. -/
theorem transform_converges_iff (blockId : Str) (n : Nat) (a b : TextEdit) (ha : a.Within n)
    (hb : b.Within n) (distinct : ¬ a.SameOffset b)
    (fits : n + a.inserted + b.inserted ≤ usizeMax) :
    (∀ doc s, blockText doc blockId = some s → byteLen s = n → a.InRange s → b.InRange s →
      Converges doc blockId (a.toOp blockId) (b.toOp blockId)) ↔ a.Commutes n b := by
  constructor
  · intro all
    have onText (s : Str) (size : byteLen s = n) (ina : a.InRange s) (inb : b.InRange s) :
        TextConverges s a b :=
      (converges_iff_text _ blockId s (blockText_single blockId s) a b).mp
        (all _ s (blockText_single blockId s) size ina inb)
    have onProbe (mark : Nat) (bound : mark < n) : TextConverges (probe n mark) a b := by
      have ascii := probe_ascii n mark
      have size := probe_length n mark bound
      have boundary (k : Nat) (le : k ≤ n) : CharBoundary (probe n mark) k :=
        ascii.boundary k (by omega)
      apply onText _ (by rw [ascii.byteLen, size])
      · cases a with
        | insert k t tm => exact boundary k ha
        | delete s e => exact ⟨boundary s ha.1, boundary e ha.2⟩
      · cases b with
        | insert k t tm => exact boundary k hb
        | delete s e => exact ⟨boundary s hb.1, boundary e hb.2⟩
    have probeFits (mark : Nat) (bound : mark < n) : byteLen (probe n mark) = n := by
      rw [(probe_ascii n mark).byteLen, probe_length n mark bound]
    have boundary (k : Nat) (positive : 0 < n) (le : k ≤ n) : CharBoundary (probe n 0) k :=
      (probe_ascii n 0).boundary k (by rw [probe_length n 0 positive]; exact le)
    cases a with
    | insert k t tm =>
        cases b with
        | insert m u um => trivial
        | delete s e =>
            rintro ⟨afterStart, beforeStop, some⟩
            have positive : 0 < n := by have := hb.2; omega
            simp only [TextEdit.inserted] at fits
            exact insert_inside_diverges (probe n 0) k s e t tm (boundary k positive ha)
              (boundary s positive hb.1) (boundary e positive hb.2) afterStart beforeStop some
              (by rw [probeFits 0 positive]; omega) (onProbe 0 positive)
    | delete s e =>
        cases b with
        | insert m u um =>
            rintro ⟨afterStart, beforeStop, some⟩
            have positive : 0 < n := by have := ha.2; omega
            simp only [TextEdit.inserted] at fits
            exact insert_inside_diverges (probe n 0) m s e u um (boundary m positive hb)
              (boundary s positive ha.1) (boundary e positive ha.2) afterStart beforeStop some
              (by rw [probeFits 0 positive]; omega) (onProbe 0 positive).symm
        | delete s' e' =>
            by_contra fails
            simp only [TextEdit.Commutes, not_or, Nat.not_le] at fails
            obtain ⟨nonempty, nonempty', starts, left, right⟩ := fails
            rcases Nat.lt_or_gt_of_ne starts with less | greater
            · obtain ⟨mark, bound, diverges⟩ := delete_delete_diverges n s e s' e' nonempty
                nonempty' ha.2 hb.2 less (fun h => left ⟨less, h.1, h.2⟩)
              exact diverges (onProbe mark bound)
            · obtain ⟨mark, bound, diverges⟩ := delete_delete_diverges n s' e' s e nonempty'
                nonempty hb.2 ha.2 greater (fun h => right ⟨greater, h.1, h.2⟩)
              exact diverges (onProbe mark bound).symm
  · intro commutes doc s found size ina inb
    subst size
    exact (converges_iff_text doc blockId s found a b).mpr
      (textConverges_of_commutes s a b ina inb distinct fits commutes)

theorem transform_converges_apart :
    Converges { EradDocument.empty "b1".toList with
        blocks := [Block.paragraph "b1".toList "a€cd".toList] } "b1".toList
      (.insertText "b1".toList 1 "xy".toList none) (.deleteRange "b1".toList 4 6) :=
  (transform_converges_iff "b1".toList 6 (.insert 1 "xy".toList none) (.delete 4 6)
    (by decide) (by decide) (by simp [TextEdit.SameOffset]) (by decide)).mpr
    (by simp [TextEdit.Commutes]) _ "a€cd".toList (by decide) (by decide) (by decide) (by decide)

/-- Overlapping deletes: one replica keeps `cf`, the other `ef`. -/
theorem deletes_diverge :
    ¬ ∀ (doc : EradDocument) (blockId s : Str) (a b : TextEdit), blockText doc blockId = some s →
      a.InRange s → b.InRange s → ¬ a.SameOffset b →
      byteLen s + a.inserted + b.inserted ≤ usizeMax →
      Converges doc blockId (a.toOp blockId) (b.toOp blockId) := by
  intro all
  have clash := all { EradDocument.empty "b1".toList with
      blocks := [Block.paragraph "b1".toList "abcdef".toList] } "b1".toList "abcdef".toList
    (.delete 0 2) (.delete 1 3) (by decide) (by decide) (by decide)
    (by simp [TextEdit.SameOffset]) (by decide)
  revert clash
  decide

end EraOne.Docs
