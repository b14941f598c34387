import EraOne.Scan

set_option autoImplicit false

/- Searching text that was put together from pieces. A piece is quiet for a pattern when no match
starts in it, whatever follows, so that a search passes over it. -/
namespace EraOne.Scan

/-- The loop of `str::split`, with the characters of a match still to be passed over. -/
def splitLoop (pattern : Str) : Nat → Str → List Str
  | _, [] => [[]]
  | skip + 1, _ :: s => splitLoop pattern skip s
  | 0, c :: s =>
      if pattern.isPrefixOf (c :: s) then [] :: splitLoop pattern (pattern.length - 1) s
      else (splitLoop pattern 0 s).modifyHead (c :: ·)

/-- `str::split` by a pattern that is not empty. -/
def splitAll (pattern s : Str) : List Str := splitLoop pattern 0 s

/-- `str::replace` of a pattern that is not empty. -/
def replaceAll (pattern by_ s : Str) : Str := List.intercalate by_ (splitAll pattern s)

/-- `str::contains`. -/
def contains (pattern s : Str) : Bool := (splitOnce pattern s).isSome

theorem splitLoop_skip (pattern : Str) (skip : Nat) (s : Str) :
    splitLoop pattern skip s = splitLoop pattern 0 (s.drop skip) := by
  induction s generalizing skip with
  | nil => cases skip <;> rfl
  | cons c s ih =>
      cases skip with
      | zero => rfl
      | succ skip => rw [splitLoop, ih, List.drop_succ_cons]

/-- Splitting goes on after the first match. -/
theorem splitAll_eq (pattern s : Str) (nonempty : pattern ≠ []) :
    splitAll pattern s = match splitOnce pattern s with
      | some (front, back) => front :: splitAll pattern back
      | none => [s] := by
  have length : pattern.length = pattern.length - 1 + 1 := by
    have := List.length_pos_of_ne_nil nonempty
    omega
  unfold splitAll
  induction s with
  | nil => simp [splitLoop, splitOnce, nonempty]
  | cons c s ih =>
      rw [splitLoop, splitOnce]
      split
      · rw [splitLoop_skip, length, List.drop_succ_cons]
        rfl
      · rw [ih]
        cases splitOnce pattern s <;> rfl

theorem splitAll_ne_nil (pattern s : Str) (nonempty : pattern ≠ []) : splitAll pattern s ≠ [] := by
  rw [splitAll_eq pattern s nonempty]
  split <;> simp

theorem replaceAll_eq (pattern by_ s : Str) (nonempty : pattern ≠ []) :
    replaceAll pattern by_ s = match splitOnce pattern s with
      | some (front, back) => front ++ by_ ++ replaceAll pattern by_ back
      | none => s := by
  unfold replaceAll
  rw [splitAll_eq pattern s nonempty]
  split
  · rename_i front back _
    obtain ⟨first, rest, shape⟩ :=
      List.exists_cons_of_ne_nil (splitAll_ne_nil pattern back nonempty)
    rw [shape]
    simp [List.intercalate, List.intersperse]
  · simp [List.intercalate]

/-- No match starts in `piece`, whatever follows it. -/
def Quiet (pattern piece : Str) : Prop :=
  ∀ rest, splitOnce pattern (piece ++ rest) =
    (splitOnce pattern rest).map fun halves => (piece ++ halves.1, halves.2)

theorem quiet_nil (pattern : Str) : Quiet pattern [] := by
  intro rest
  simp

theorem Quiet.append {pattern a b : Str} (first : Quiet pattern a) (second : Quiet pattern b) :
    Quiet pattern (a ++ b) := by
  intro rest
  rw [List.append_assoc, first, second, Option.map_map]
  simp [Function.comp_def]

/-- A piece is quiet when each of its ends differs from the pattern at some character of both. -/
theorem quiet_of_tails (pattern piece : Str)
    (clash : ∀ tail ∈ piece.tails, tail = [] ∨ ¬ pattern <+: tail ∧ ¬ tail <+: pattern) :
    Quiet pattern piece := by
  intro rest
  induction piece with
  | nil => simp
  | cons c piece ih =>
      have here := (clash (c :: piece) (by simp)).resolve_left (by simp)
      have later := ih fun tail member => clash tail (by
        rw [List.tails]
        exact List.mem_cons_of_mem _ member)
      have mismatch : ¬ pattern.isPrefixOf (c :: (piece ++ rest)) = true := by
        rw [List.isPrefixOf_iff_prefix, ← List.cons_append]
        intro starts
        rcases List.prefix_or_prefix_of_prefix starts (List.prefix_append (c :: piece) rest) with
          short | long
        · exact here.1 short
        · exact here.2 long
      rw [List.cons_append, splitOnce, if_neg mismatch, later, Option.map_map]
      rfl

/-- A piece without the first character of the pattern is quiet. -/
theorem quiet_of_not_mem (first : Char) (pattern piece : Str) (absent : first ∉ piece) :
    Quiet (first :: pattern) piece := by
  apply quiet_of_tails
  intro tail member
  have inside := (List.mem_tails tail piece).mp member
  cases tail with
  | nil => exact Or.inl rfl
  | cons c tail =>
      have different : c ≠ first := by
        rintro rfl
        exact absent (inside.subset (by simp))
      exact Or.inr ⟨by simp [Ne.symm different], by simp [different]⟩

/-- A piece that lacks a character of the pattern and ends in one that is not in it is quiet. -/
theorem quiet_of_lacks (pattern front : Str) (last q : Char) (needs : q ∈ pattern)
    (lacks : q ∉ front ++ [last]) (outside : last ∉ pattern) : Quiet pattern (front ++ [last]) := by
  apply quiet_of_tails
  intro tail member
  have inside := (List.mem_tails tail (front ++ [last])).mp member
  by_cases empty : tail = []
  · exact Or.inl empty
  refine Or.inr ⟨?_, ?_⟩
  · intro within
    exact lacks (inside.subset (within.subset needs))
  · intro starts
    have ends : last ∈ tail := by
      have same := inside.getLast empty
      rw [List.getLast_append_singleton] at same
      exact same ▸ List.getLast_mem empty
    exact outside (starts.subset ends)

theorem splitOnce_match (pattern rest : Str) (nonempty : pattern ≠ []) :
    splitOnce pattern (pattern ++ rest) = some ([], rest) := by
  obtain ⟨c, tail, rfl⟩ := List.exists_cons_of_ne_nil nonempty
  have starts : (c :: tail).isPrefixOf (c :: (tail ++ rest)) = true := by
    rw [List.isPrefixOf_iff_prefix, ← List.cons_append]
    exact List.prefix_append _ _
  rw [List.cons_append, splitOnce, if_pos starts]
  simp

/-- The first match after a quiet piece. -/
theorem splitOnce_quiet_match (pattern piece rest : Str) (nonempty : pattern ≠ [])
    (quiet : Quiet pattern piece) :
    splitOnce pattern (piece ++ (pattern ++ rest)) = some (piece, rest) := by
  rw [quiet, splitOnce_match pattern rest nonempty]
  simp

theorem splitOnce_quiet (pattern piece : Str) (nonempty : pattern ≠ [])
    (quiet : Quiet pattern piece) :
    splitOnce pattern piece = none := by
  have alone := quiet []
  rw [List.append_nil] at alone
  rw [alone]
  simp [splitOnce, nonempty]

theorem splitAll_quiet_match (pattern piece rest : Str) (nonempty : pattern ≠ [])
    (quiet : Quiet pattern piece) :
    splitAll pattern (piece ++ (pattern ++ rest)) = piece :: splitAll pattern rest := by
  rw [splitAll_eq _ _ nonempty, splitOnce_quiet_match pattern piece rest nonempty quiet]

theorem splitAll_quiet (pattern piece : Str) (nonempty : pattern ≠ [])
    (quiet : Quiet pattern piece) :
    splitAll pattern piece = [piece] := by
  rw [splitAll_eq _ _ nonempty, splitOnce_quiet pattern piece nonempty quiet]

theorem not_mem_splitAll (q : Char) (s piece : Str) (member : piece ∈ splitAll [q] s) :
    q ∉ piece := by
  unfold splitAll at member
  induction s generalizing piece with
  | nil =>
      rw [splitLoop, List.mem_singleton] at member
      rw [member]
      exact List.not_mem_nil
  | cons c s ih =>
      rw [splitLoop] at member
      split at member
      · rcases List.mem_cons.mp member with first | later
        · rw [first]
          exact List.not_mem_nil
        · exact ih piece later
      · rename_i other
        obtain ⟨head, tail, shape⟩ := List.exists_cons_of_ne_nil (splitAll_ne_nil [q] s (by simp))
        unfold splitAll at shape
        rw [shape, List.modifyHead_cons, List.mem_cons] at member
        rcases member with first | later
        · rw [first, List.mem_cons, not_or]
          refine ⟨fun same => other ?_, ih head (by rw [shape]; exact List.mem_cons_self)⟩
          rw [same]
          simp
        · exact ih piece (by rw [shape]; exact List.mem_cons_of_mem head later)

/-- What a piece holds was in the text. -/
theorem mem_of_mem_splitAll (q c : Char) (s piece : Str) (member : piece ∈ splitAll [q] s)
    (within : c ∈ piece) : c ∈ s := by
  unfold splitAll at member
  induction s generalizing piece with
  | nil =>
      rw [splitLoop, List.mem_singleton] at member
      rwa [member] at within
  | cons d s ih =>
      rw [splitLoop] at member
      split at member
      · rcases List.mem_cons.mp member with first | later
        · rw [first] at within
          exact absurd within List.not_mem_nil
        · exact List.mem_cons_of_mem d (ih piece later within)
      · obtain ⟨head, tail, shape⟩ := List.exists_cons_of_ne_nil (splitAll_ne_nil [q] s (by simp))
        unfold splitAll at shape
        rw [shape, List.modifyHead_cons, List.mem_cons] at member
        rcases member with first | later
        · rw [first, List.mem_cons] at within
          rcases within with same | inside
          · rw [same]
            exact List.mem_cons_self
          · exact List.mem_cons_of_mem d (ih head (by rw [shape]; exact List.mem_cons_self) inside)
        · exact List.mem_cons_of_mem d
            (ih piece (by rw [shape]; exact List.mem_cons_of_mem head later) within)

/-- Pieces without the separator are split apart where they were joined. -/
theorem splitAll_intercalate (q : Char) (head : Str) (rest : List Str)
    (clean : ∀ piece ∈ head :: rest, q ∉ piece) :
    splitAll [q] (List.intercalate [q] (head :: rest)) = head :: rest := by
  induction rest generalizing head with
  | nil =>
      have alone : List.intercalate [q] [head] = head := by
        simp [List.intercalate]
      rw [alone]
      exact splitAll_quiet [q] head (by simp)
        (quiet_of_not_mem q [] head (clean head List.mem_cons_self))
  | cons next rest ih =>
      have joined : List.intercalate [q] (head :: next :: rest) =
          head ++ ([q] ++ List.intercalate [q] (next :: rest)) := by
        simp [List.intercalate]
      rw [joined, splitAll_quiet_match [q] head _ (by simp)
        (quiet_of_not_mem q [] head (clean head List.mem_cons_self)),
        ih next (fun piece member => clean piece (List.mem_cons_of_mem head member))]

theorem replaceAll_quiet_append (pattern by_ piece rest : Str) (nonempty : pattern ≠ [])
    (quiet : Quiet pattern piece) :
    replaceAll pattern by_ (piece ++ rest) = piece ++ replaceAll pattern by_ rest := by
  rw [replaceAll_eq _ _ _ nonempty, quiet, replaceAll_eq _ _ rest nonempty]
  cases splitOnce pattern rest with
  | none => rfl
  | some halves => simp

theorem replaceAll_match (pattern by_ rest : Str) (nonempty : pattern ≠ []) :
    replaceAll pattern by_ (pattern ++ rest) = by_ ++ replaceAll pattern by_ rest := by
  rw [replaceAll_eq _ _ _ nonempty, splitOnce_match pattern rest nonempty]
  simp

theorem replaceAll_nil (pattern by_ : Str) (nonempty : pattern ≠ []) :
    replaceAll pattern by_ [] = [] := by
  rw [replaceAll_eq _ _ _ nonempty]
  simp [splitOnce, nonempty]

/-- A replacement that turns one code of a character-wise encoding into another. -/
theorem replaceAll_flatMap (pattern by_ : Str) (nonempty : pattern ≠ []) (f g : Char → Str)
    (codes : ∀ c, f c = pattern ∧ g c = by_ ∨ g c = f c ∧ Quiet pattern (f c)) (s : Str) :
    replaceAll pattern by_ (s.flatMap f) = s.flatMap g := by
  induction s with
  | nil => exact replaceAll_nil pattern by_ nonempty
  | cons c s ih =>
      rw [List.flatMap_cons, List.flatMap_cons]
      rcases codes c with ⟨code, decoded⟩ | ⟨same, quiet⟩
      · rw [code, decoded, replaceAll_match pattern by_ _ nonempty, ih]
      · rw [same, replaceAll_quiet_append pattern by_ _ _ nonempty quiet, ih]

section Reads

variable {β : Type} {pattern : Str} {harmless : Str → Prop} {read : Str → β}

variable (pattern harmless read) in
/-- Splitting the text gives chunks that read as the results, after a harmless first piece. -/
def Reads (text : Str) (results : List β) : Prop :=
  ∃ head tail, splitAll pattern text = head :: tail ∧ harmless head ∧ tail.map read = results

theorem reads_end (nonempty : pattern ≠ []) (piece : Str) (quiet : Quiet pattern piece)
    (ok : harmless piece) : Reads pattern harmless read piece [] :=
  ⟨piece, [], splitAll_quiet pattern piece nonempty quiet, ok, rfl⟩

theorem splitAll_quiet_append (nonempty : pattern ≠ []) (piece text head : Str) (tail : List Str)
    (quiet : Quiet pattern piece) (split : splitAll pattern text = head :: tail) :
    splitAll pattern (piece ++ text) = (piece ++ head) :: tail := by
  rw [splitAll_eq _ _ nonempty] at split ⊢
  rw [quiet]
  cases found : splitOnce pattern text with
  | none =>
      rw [found] at split
      cases split
      rfl
  | some halves =>
      rw [found] at split
      cases split
      rfl

theorem Reads.piece {text : Str} {results : List β} (nonempty : pattern ≠ [])
    (reads : Reads pattern harmless read text results) (piece : Str) (quiet : Quiet pattern piece)
    (ok : ∀ rest, harmless rest → harmless (piece ++ rest)) :
    Reads pattern harmless read (piece ++ text) results := by
  obtain ⟨head, tail, split, safe, chunks⟩ := reads
  exact ⟨piece ++ head, tail, splitAll_quiet_append nonempty piece text head tail quiet split,
    ok head safe, chunks⟩

theorem Reads.item {text : Str} {results : List β} (nonempty : pattern ≠ [])
    (reads : Reads pattern harmless read text results) (body : Str) (result : β)
    (quiet : Quiet pattern body) (start : harmless [])
    (chunk : ∀ rest, harmless rest → read (body ++ rest) = result) :
    Reads pattern harmless read (pattern ++ (body ++ text)) (result :: results) := by
  obtain ⟨head, tail, split, safe, chunks⟩ := reads
  refine ⟨[], (body ++ head) :: tail, ?_, start, by rw [List.map_cons, chunk head safe, chunks]⟩
  have found := splitAll_quiet_match pattern [] (body ++ text) nonempty (quiet_nil pattern)
  rw [List.nil_append] at found
  rw [found, splitAll_quiet_append nonempty body text head tail quiet split]

end Reads

theorem eq_of_append_delimiter (a b r t : Str) (q : Char) (absentA : q ∉ a) (absentB : q ∉ b)
    (same : a ++ q :: r = b ++ q :: t) : a = b := by
  have cut (s back : Str) (absent : q ∉ s) : (s ++ q :: back).takeWhile (· ≠ q) = s := by
    rw [List.takeWhile_append_of_pos]
    · simp
    · intro c member
      have : c ≠ q := fun here => absent (here ▸ member)
      simpa using this
  rw [← cut a r absentA, same, cut b t absentB]

/-- A pattern that ends in its only delimiter is found at the first delimiter that the rest of the
pattern stands before. -/
theorem splitOnce_delimited (front piece rest : Str) (q : Char) (absent : q ∉ front)
    (clear : q ∉ piece) :
    splitOnce (front ++ [q]) (piece ++ q :: rest) =
      if front <:+ piece then some (piece.take (piece.length - front.length), rest)
      else (splitOnce (front ++ [q]) rest).map fun halves =>
        (piece ++ q :: halves.1, halves.2) := by
  -- A match at this point ends at the first delimiter.
  have matches_ (s : Str) (free : q ∉ s) :
      (front ++ [q]).isPrefixOf (s ++ q :: rest) = true ↔ front = s := by
    rw [List.isPrefixOf_iff_prefix]
    constructor
    · rintro ⟨tail, same⟩
      rw [List.append_assoc, List.singleton_append] at same
      exact eq_of_append_delimiter front s tail rest q absent free same
    · rintro rfl
      exact ⟨rest, by simp⟩
  induction piece with
  | nil =>
      rw [List.nil_append, splitOnce]
      by_cases empty : front = []
      · subst empty
        simp
      · have first := matches_ [] clear
        rw [List.nil_append] at first
        rw [if_neg (fun starts => empty (first.mp starts)), if_neg (by simpa using empty)]
        rfl
  | cons c piece ih =>
      rw [List.cons_append, splitOnce]
      have first := matches_ (c :: piece) clear
      rw [List.cons_append] at first
      by_cases here : front = c :: piece
      · rw [if_pos (first.mpr here), if_pos (here ▸ List.suffix_refl _), here]
        simp
      · have fits : front <:+ c :: piece ↔ front <:+ piece := by
          rw [List.suffix_cons_iff]
          simp [here]
        rw [if_neg (fun starts => here (first.mp starts)),
          ih (fun member => clear (List.mem_cons_of_mem _ member)), if_congr fits rfl rfl]
        split
        · rename_i ends
          have shorter := ends.length_le
          rw [List.length_cons, Nat.succ_sub shorter]
          rfl
        · rw [Option.map_map]
          rfl

theorem contains_iff_infix (pattern s : Str) : contains pattern s = true ↔ pattern <:+: s := by
  unfold contains
  induction s with
  | nil =>
      rw [splitOnce, List.infix_nil]
      split
      · rename_i empty
        simpa using empty
      · rename_i some_
        simpa using some_
  | cons c s ih =>
      rw [splitOnce, List.infix_cons_iff]
      split
      · rename_i here
        exact iff_of_true rfl (Or.inl (List.isPrefixOf_iff_prefix.mp here))
      · rename_i other
        rw [Option.isSome_map, ih, List.isPrefixOf_iff_prefix] at *
        simp [other]

/-- A pattern without the delimiter stands on one side of it. -/
theorem infix_of_delimited (pattern a b : Str) (q : Char) (absent : q ∉ pattern)
    (within : pattern <:+: a ++ q :: b) : pattern <:+: a ∨ pattern <:+: b := by
  induction a with
  | nil =>
      rcases List.infix_cons_iff.mp within with starts | later
      · cases pattern with
        | nil => exact Or.inl List.nil_infix
        | cons c pattern =>
            obtain ⟨same, -⟩ := List.cons_prefix_cons.mp starts
            exact absurd (same ▸ List.mem_cons_self) absent
      · exact Or.inr later
  | cons c a ih =>
      rcases List.infix_cons_iff.mp within with starts | later
      · refine Or.inl (List.IsPrefix.isInfix ?_)
        rcases List.prefix_or_prefix_of_prefix starts (List.prefix_append (c :: a) (q :: b)) with
          short | long
        · exact short
        · obtain ⟨tail, shape⟩ := long
          subst shape
          have after : tail <+: q :: b := (List.prefix_append_right_inj (c :: a)).mp starts
          cases tail with
          | nil => simp
          | cons d tail =>
              obtain ⟨same, -⟩ := List.cons_prefix_cons.mp after
              exact absurd (by simp [same]) absent
      · rcases ih later with left | right
        · exact Or.inl (List.infix_cons_iff.mpr (Or.inr left))
        · exact Or.inr right

/-- A text is what stands before the match, the pattern and what stands behind. -/
theorem splitOnce_append (pattern s front back : Str)
    (found : splitOnce pattern s = some (front, back)) :
    s = front ++ (pattern ++ back) := by
  induction s generalizing front back with
  | nil =>
      rw [splitOnce] at found
      split at found
      · rename_i empty
        cases found
        rw [List.isEmpty_iff.mp empty]
        rfl
      · cases found
  | cons c s ih =>
      rw [splitOnce] at found
      split at found
      · rename_i starts
        cases found
        obtain ⟨rest, whole⟩ := List.isPrefixOf_iff_prefix.mp starts
        rw [← whole, List.drop_left]
        rfl
      · obtain ⟨halves, later, same⟩ := Option.map_eq_some_iff.mp found
        cases same
        rw [List.cons_append, ← ih halves.1 halves.2 later]

theorem splitOnce_eq_none (pattern s : Str) (absent : ¬ pattern <:+: s) :
    splitOnce pattern s = none := by
  rw [← contains_iff_infix, contains, Bool.not_eq_true, Option.isSome_eq_false_iff] at absent
  exact Option.isNone_iff_eq_none.mp absent

end EraOne.Scan
