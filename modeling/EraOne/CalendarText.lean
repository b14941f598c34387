import EraOne.Calendar

set_option autoImplicit false

/- The content lines of a text, beside the lines that the package unfolds. -/
namespace EraOne.Calendar

/-! ### Lines -/

/-- The lines of a text with one blank taken off where a line is continued. -/
def contentLines (raw : Str) : List Str := unfold (·.drop 1) [] (physicalLines raw)

/-- Unfolding in two ways at once. -/
def unfoldPair (f g : Str → Str) : List (Str × Str) → List Str → List (Str × Str)
  | out, [] => out
  | out, line :: rest =>
      if out ≠ [] ∧ (line.head?.any isBlank) then
        unfoldPair f g (out.dropLast ++ [((out.getLastD ([], [])).1 ++ f line,
          (out.getLastD ([], [])).2 ++ g line)]) rest
      else unfoldPair f g (out ++ [(line, line)]) rest

/-- Each line with one blank taken off where it is continued, and as the package unfolds it. -/
def linePairs (raw : Str) : List (Str × Str) :=
  unfoldPair (·.drop 1) (·.dropWhile isBlank) [] (physicalLines raw)

theorem map_unfoldPair (f g strip : Str → Str) (pick : Str × Str → Str) (lines : List Str)
    (picks : ∀ p line, pick (p.1 ++ f line, p.2 ++ g line) = pick p ++ strip line)
    (whole : ∀ line, pick (line, line) = line) (empty : pick ([], []) = [])
    (out : List (Str × Str)) :
    (unfoldPair f g out lines).map pick = unfold strip (out.map pick) lines := by
  induction lines generalizing out with
  | nil => rfl
  | cons line rest ih =>
      unfold unfoldPair Calendar.unfold
      have same : out ≠ [] ↔ out.map pick ≠ [] := by simp
      have last : pick (out.getLastD ([], [])) = (out.map pick).getLastD [] := by
        have mapped := List.getLastD_map (f := pick) (l := out) (a := ([], []))
        rw [empty] at mapped
        exact mapped.symm
      by_cases joined : out ≠ [] ∧ (line.head?.any isBlank) = true
      · rw [if_pos joined, if_pos ⟨same.mp joined.1, joined.2⟩, ih, List.map_append,
          List.map_singleton, List.map_dropLast, picks, last]
      · rw [if_neg joined, if_neg fun both => joined ⟨same.mpr both.1, both.2⟩, ih, List.map_append,
          List.map_singleton, whole]

theorem map_fst_linePairs (raw : Str) : (linePairs raw).map Prod.fst = contentLines raw :=
  map_unfoldPair _ _ _ Prod.fst _ (fun _ _ => rfl) (fun _ => rfl) rfl []

theorem map_snd_linePairs (raw : Str) : (linePairs raw).map Prod.snd = unfoldLines raw :=
  map_unfoldPair _ _ _ Prod.snd _ (fun _ _ => rfl) (fun _ => rfl) rfl []

/-- What holds of single lines and is kept by joining holds of all lines. -/
theorem forall_unfoldPair (f g : Str → Str) (P : Str × Str → Prop) (lines : List Str)
    (joins : ∀ p line, line ∈ lines → line.head?.any isBlank → P p →
      P (p.1 ++ f line, p.2 ++ g line))
    (whole : ∀ line ∈ lines, P (line, line)) (out : List (Str × Str)) (before : ∀ p ∈ out, P p) :
    ∀ p ∈ unfoldPair f g out lines, P p := by
  induction lines generalizing out with
  | nil => exact before
  | cons line rest ih =>
      unfold unfoldPair
      have later := ih (fun p l member => joins p l (List.mem_cons_of_mem _ member))
        (fun l member => whole l (List.mem_cons_of_mem _ member))
      split
      · rename_i joined
        apply later
        intro p member
        rcases List.mem_append.mp member with old | new
        · exact before p (List.mem_of_mem_dropLast old)
        · rw [List.mem_singleton.mp new]
          apply joins _ line List.mem_cons_self joined.2
          apply before
          rw [List.getLastD_eq_getLast?, List.getLast?_eq_some_getLast joined.1]
          exact List.getLast_mem joined.1
      · apply later
        intro p member
        rcases List.mem_append.mp member with old | new
        · exact before p old
        · rw [List.mem_singleton.mp new]
          exact whole line List.mem_cons_self

theorem not_mem_physicalLines (raw line : Str) (member : line ∈ physicalLines raw) : '\n' ∉ line :=
  Scan.not_mem_splitAll '\n' _ line member

/-- A line before a line end, whatever comes then. -/
theorem replaceAll_crlf (line rest : Str) (clean : '\n' ∉ line) :
    Scan.replaceAll crlf newline (line ++ crlf ++ rest) = line ++ newline ++ Scan.replaceAll crlf
      newline rest := by
  induction line with
  | nil => exact Scan.replaceAll_match crlf newline rest (by decide)
  | cons c line ih =>
      rw [List.mem_cons, not_or] at clean
      have quiet : ¬ crlf.isPrefixOf (c :: (line ++ crlf ++ rest)) = true := by
        intro starts
        rw [List.isPrefixOf_iff_prefix] at starts
        have second := (List.cons_prefix_cons.mp starts).2
        cases line with
        | nil => exact absurd (List.cons_prefix_cons.mp second).1 (by decide)
        | cons d line =>
            have next := (List.cons_prefix_cons.mp second).1
            exact clean.2 (by rw [next]; exact List.mem_cons_self)
      have step : Scan.replaceAll crlf newline (c :: (line ++ crlf ++ rest)) =
          c :: Scan.replaceAll crlf newline (line ++ crlf ++ rest) := by
        rw [Scan.replaceAll_eq _ _ _ (by decide), Scan.splitOnce, if_neg quiet,
          Scan.replaceAll_eq _ _ (line ++ crlf ++ rest) (by decide)]
        cases Scan.splitOnce crlf (line ++ crlf ++ rest) <;> rfl
      simp only [List.cons_append] at step ⊢
      rw [step, ih clean.2]

theorem replaceAll_line (line : Str) (clean : '\n' ∉ line) :
    Scan.replaceAll crlf newline line = line := by
  rw [Scan.replaceAll_eq _ _ _ (by decide), Scan.splitOnce_eq_none]
  intro within
  exact clean (within.subset (by decide))

theorem physicalLines_intercalate (lines : List Str) (some_ : lines ≠ [])
    (clean : ∀ line ∈ lines, '\n' ∉ line) :
    physicalLines (List.intercalate crlf lines) = lines := by
  unfold physicalLines
  induction lines with
  | nil => exact absurd rfl some_
  | cons line rest ih =>
      have here := clean line List.mem_cons_self
      have quiet := Scan.quiet_of_not_mem '\n' [] line here
      cases rest with
      | nil =>
          rw [show List.intercalate crlf [line] = line by simp [List.intercalate],
            replaceAll_line line here]
          exact Scan.splitAll_quiet newline line (by decide) quiet
      | cons next rest =>
          have whole : List.intercalate crlf (line :: next :: rest) =
              line ++ crlf ++ List.intercalate crlf (next :: rest) := by
            simp [List.intercalate]
          rw [whole, replaceAll_crlf line _ here, List.append_assoc,
            Scan.splitAll_quiet_match newline line _ (by decide) quiet,
            ih (by simp) fun l member => clean l (List.mem_cons_of_mem line member)]

/-- Lines of which none but the first starts with a blank are not joined. -/
theorem unfold_of_clean (strip : Str → Str) (out lines : List Str)
    (clean : ∀ line ∈ lines, ¬ line.head?.any isBlank) :
    unfold strip out lines = out ++ lines := by
  induction lines generalizing out with
  | nil => rw [Calendar.unfold, List.append_nil]
  | cons line rest ih =>
      rw [Calendar.unfold, if_neg fun both => clean line List.mem_cons_self both.2,
        ih _ fun l member => clean l (List.mem_cons_of_mem line member), List.append_assoc,
        List.singleton_append]

theorem contentLines_intercalate (lines : List Str) (some_ : lines ≠ [])
    (clean : ∀ line ∈ lines, '\n' ∉ line) (starts : ∀ line ∈ lines.tail, ¬ line.head?.any isBlank) :
    contentLines (List.intercalate crlf lines) = lines := by
  unfold contentLines
  rw [physicalLines_intercalate lines some_ clean]
  cases lines with
  | nil => rfl
  | cons line rest =>
      rw [Calendar.unfold, if_neg fun both => both.1 rfl]
      exact unfold_of_clean _ [line] rest starts

theorem unfold_ne_nil (strip : Str → Str) (out lines : List Str) (some_ : out ≠ [] ∨ lines ≠ []) :
    unfold strip out lines ≠ [] := by
  induction lines generalizing out with
  | nil => exact some_.resolve_right fun none_ => none_ rfl
  | cons line rest ih =>
      unfold Calendar.unfold
      split
      · exact ih _ (Or.inl (by simp))
      · exact ih _ (Or.inl (by simp))

theorem unfoldLines_no_newline (raw line : Str) (member : line ∈ unfoldLines raw) :
    '\n' ∉ line := by
  rw [← map_snd_linePairs] at member
  obtain ⟨p, inside, rfl⟩ := List.mem_map.mp member
  refine forall_unfoldPair _ _ (fun p => '\n' ∉ p.2) (physicalLines raw) ?_ ?_ []
    (fun p none_ => by cases none_) p inside
  · intro q l here _ clean within
    rcases List.mem_append.mp within with old | new
    · exact clean old
    · exact not_mem_physicalLines raw l here (List.dropWhile_suffix isBlank |>.subset new)
  · exact fun l here => not_mem_physicalLines raw l here

theorem starts_join (last line : Str) (clean : ¬ last.head?.any isBlank) :
    ¬ (last ++ line.dropWhile isBlank).head?.any isBlank := by
  cases last with
  | cons c rest => exact clean
  | nil =>
      intro blank
      have first := List.head?_dropWhile_not isBlank line
      rw [List.nil_append] at blank
      cases head : (line.dropWhile isBlank).head? with
      | none => simp [head] at blank
      | some c =>
          rw [head] at blank first
          rw [Option.any_some] at blank
          exact absurd blank (Bool.eq_false_iff.mp first)

/-- The lines of an event that start with a blank are at most the first. -/
theorem unfold_starts (lines out : List Str) (clean : ∀ line ∈ out.tail, ¬ line.head?.any isBlank) :
    ∀ line ∈ (unfold (·.dropWhile isBlank) out lines).tail, ¬ line.head?.any isBlank := by
  induction lines generalizing out with
  | nil => exact clean
  | cons line rest ih =>
      unfold Calendar.unfold
      split
      · rename_i joined
        apply ih
        cases out with
        | nil => exact absurd rfl joined.1
        | cons first rest =>
            cases rest with
            | nil => simp
            | cons second rest =>
                intro l member
                rw [List.dropLast_cons_cons, List.cons_append, List.tail_cons] at member
                rcases List.mem_append.mp member with old | new
                · exact clean l (List.mem_of_mem_dropLast old)
                · rw [List.mem_singleton.mp new]
                  apply starts_join
                  apply clean
                  rw [List.getLastD_cons, List.getLastD_cons, List.tail_cons]
                  exact List.getLastD_mem_cons
      · rename_i apart
        apply ih
        cases out with
        | nil => simp
        | cons first out =>
            intro l member
            rw [List.cons_append, List.tail_cons] at member
            rcases List.mem_append.mp member with old | new
            · exact clean l old
            · rw [List.mem_singleton.mp new]
              exact fun blank => apart ⟨by simp, blank⟩

/-! ### Signs in capital letters -/

section

variable (table : CaseTable)

theorem toUpper_of_not_isAlpha (c : Char) (sign : ¬ c.isAlpha) : c.toUpper = c := by
  apply Char.toUpper_eq_of_not_isLower
  intro lower
  exact sign (by simp [Char.isAlpha, lower])

/-- Only a character itself is mapped to a sign. -/
theorem eq_of_up_eq_sign (c q : Char) (sign : ¬ q.isAlpha) (ascii : q.toNat < 128)
    (same : table.up c = q) : c = q := by
  unfold CaseTable.up at same
  split at same
  · have plain : ¬ c.isAlpha := by
      rw [← Char.isAlpha_toUpper_eq_isAlpha, same]
      exact sign
    rwa [toUpper_of_not_isAlpha c plain] at same
  · rename_i outside
    have letter := table.letters c (by omega) (by rw [same]; exact ascii)
    rw [same] at letter
    exact absurd letter sign

theorem up_sign (q : Char) (sign : ¬ q.isAlpha) (ascii : q.toNat < 128) : table.up q = q := by
  unfold CaseTable.up
  rw [if_pos ascii, toUpper_of_not_isAlpha q sign]

theorem mem_toUpper_sign (q : Char) (sign : ¬ q.isAlpha) (ascii : q.toNat < 128) (s : Str) :
    q ∈ table.toUpper s ↔ q ∈ s := by
  unfold CaseTable.toUpper
  rw [List.mem_map]
  constructor
  · intro ⟨c, member, same⟩
    rw [← eq_of_up_eq_sign table c q sign ascii same]
    exact member
  · intro member
    exact ⟨q, member, up_sign table q sign ascii⟩

end

end EraOne.Calendar
