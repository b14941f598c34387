import EraOne.Scan

set_option autoImplicit false

/- Words between white space. -/
namespace EraOne.Words

open Scan (isWhitespace)

/-- The words that ended, with the one that is read if it is not empty. -/
def flush (st : List Str × Str) : List Str := if st.2 = [] then st.1 else st.1 ++ [st.2]

def step (st : List Str × Str) (c : Char) : List Str × Str :=
  if isWhitespace c then (flush st, []) else (st.1, st.2 ++ [c])

/-- `str::split_whitespace`. -/
def splitWhitespace (s : Str) : List Str := flush (s.foldl step ([], []))

/-- Characters of one word. -/
def Solid (s : Str) : Prop := ∀ c ∈ s, isWhitespace c = false

def IsWord (s : Str) : Prop := s ≠ [] ∧ Solid s

/-- Behind this text a word begins. -/
def StartsWord (front : Str) : Prop := ∀ c ∈ front.getLast?, isWhitespace c = true

/-- Before this text a word ends. -/
def EndsWord (back : Str) : Prop := ∀ c ∈ back.head?, isWhitespace c = true

theorem Solid.append {s t : Str} (first : Solid s) (second : Solid t) : Solid (s ++ t) := by
  intro c member
  exact (List.mem_append.mp member).elim (first c) (second c)

theorem flush_append (before : List Str) (st : List Str × Str) :
    flush (before ++ st.1, st.2) = before ++ flush st := by
  unfold flush
  split
  · rfl
  · exact List.append_assoc _ _ _

theorem step_blank (st : List Str × Str) (c : Char) (blank : isWhitespace c = true) :
    step st c = (flush st, []) := by
  rw [step, if_pos blank]

theorem step_char (st : List Str × Str) (c : Char) (solid : isWhitespace c = false) :
    step st c = (st.1, st.2 ++ [c]) := by
  rw [step, if_neg (Bool.eq_false_iff.mp solid)]

/-- The words that ended before a text stay in front. -/
theorem foldl_done (s : Str) (before : List Str) (cur : Str) :
    s.foldl step (before, cur) = (before ++ (s.foldl step ([], cur)).1,
      (s.foldl step ([], cur)).2) := by
  induction s generalizing before cur with
  | nil => exact Prod.ext (List.append_nil before).symm rfl
  | cons c s ih =>
      rw [List.foldl_cons, List.foldl_cons]
      cases blank : isWhitespace c with
      | true =>
          have moved : flush (before, cur) = before ++ flush ([], cur) := by
            rw [← flush_append, List.append_nil]
          rw [step_blank _ c blank, step_blank _ c blank, ih, ih (flush ([], cur)), moved,
            List.append_assoc]
      | false =>
          rw [step_char _ c blank, step_char _ c blank]
          exact ih before (cur ++ [c])

theorem foldl_solid (s : Str) (st : List Str × Str) (solid : Solid s) :
    s.foldl step st = (st.1, st.2 ++ s) := by
  induction s generalizing st with
  | nil => exact Prod.ext rfl (List.append_nil st.2).symm
  | cons c s ih =>
      rw [List.foldl_cons, step_char _ c (solid c List.mem_cons_self),
        ih _ fun d member => solid d (List.mem_cons_of_mem c member), List.append_assoc,
        List.singleton_append]

/-- A text that ends a word leaves the words that ended before it. -/
theorem flush_foldl_ends (back : Str) (before : List Str) (cur : Str) (ends : EndsWord back)
    (some_ : cur ≠ []) :
    flush (back.foldl step (before, cur)) = before ++ cur :: splitWhitespace back := by
  cases back with
  | nil =>
      rw [List.foldl_nil, flush, if_neg some_]
      rfl
  | cons c back =>
      have blank := ends c rfl
      have ended : flush (before, cur) = before ++ [cur] := by
        rw [flush, if_neg some_]
      have alone : splitWhitespace (c :: back) = splitWhitespace back := by
        rw [splitWhitespace, List.foldl_cons, step_blank _ c blank]
        rfl
      rw [List.foldl_cons, step_blank _ c blank, ended, foldl_done, flush_append, alone,
        List.append_assoc, List.singleton_append]
      rfl

/-- A word that goes on to the end of its text. -/
theorem splitWhitespace_solid (front v back : Str) (solid : Solid v) (some_ : v ≠ [])
    (ends : EndsWord back) :
    splitWhitespace (front ++ (v ++ back)) =
      (front.foldl step ([], [])).1 ++ ((front.foldl step ([], [])).2 ++ v) :: splitWhitespace
        back := by
  rw [splitWhitespace, List.foldl_append, List.foldl_append, foldl_solid v _ solid]
  exact flush_foldl_ends back _ _ ends (List.append_ne_nil_of_right_ne_nil _ some_)

theorem foldl_startsWord (front : Str) (starts : StartsWord front) :
    front.foldl step ([], []) = (splitWhitespace front, []) := by
  cases List.eq_nil_or_concat' front with
  | inl empty =>
      rw [empty]
      rfl
  | inr some_ =>
      obtain ⟨init, c, shape⟩ := some_
      have blank := starts c (by rw [shape, List.getLast?_concat]; rfl)
      have last : front.foldl step ([], []) = (flush (init.foldl step ([], [])), []) := by
        rw [shape, List.foldl_append, List.foldl_cons, List.foldl_nil, step_blank _ c blank]
      rw [splitWhitespace, last]
      rfl

/-- A word by itself. -/
theorem splitWhitespace_word (front v back : Str) (starts : StartsWord front) (word : IsWord v)
    (ends : EndsWord back) :
    splitWhitespace (front ++ (v ++ back)) = splitWhitespace front ++ v :: splitWhitespace
      back := by
  rw [splitWhitespace_solid front v back word.2 word.1 ends, foldl_startsWord front starts]
  rfl

/-- The words around a text that white space sets off. -/
theorem splitWhitespace_around (front mid back : Str) (starts : StartsWord front)
    (ends : EndsWord back) :
    splitWhitespace (front ++ (mid ++ back)) = splitWhitespace front ++
      (splitWhitespace mid ++ splitWhitespace back) := by
  have before (s : Str) :
      splitWhitespace (front ++ s) = splitWhitespace front ++ splitWhitespace s := by
    rw [splitWhitespace, List.foldl_append, foldl_startsWord front starts, foldl_done, flush_append]
    rfl
  have behind : splitWhitespace (mid ++ back) = splitWhitespace mid ++ splitWhitespace back := by
    cases back with
    | nil => rw [List.append_nil, show splitWhitespace [] = [] from rfl, List.append_nil]
    | cons c back =>
        have blank := ends c rfl
        have alone : splitWhitespace (c :: back) = splitWhitespace back := by
          rw [splitWhitespace, List.foldl_cons, step_blank _ c blank]
          rfl
        rw [alone, splitWhitespace, List.foldl_append, List.foldl_cons, step_blank _ c blank,
          foldl_done, flush_append]
        rfl
  rw [before, behind]

/-- Words of a text whose characters are written out, where white space stays. -/
theorem splitWhitespace_flatMap (f : Char → Str) (kept : ∀ c, isWhitespace c = true → f c = [c])
    (solid : ∀ c, isWhitespace c = false → IsWord (f c)) (s : Str) :
    splitWhitespace (s.flatMap f) = (splitWhitespace s).map fun word => word.flatMap f := by
  have flush_map (st : List Str × Str) (words : ∀ c ∈ st.2, isWhitespace c = false) :
      flush (st.1.map (·.flatMap f), st.2.flatMap f) = (flush st).map fun word =>
        word.flatMap f := by
    cases last : st.2 with
    | nil => simp [flush, last]
    | cons c cur =>
        have some_ : (c :: cur).flatMap f ≠ [] := by
          rw [List.flatMap_cons]
          exact List.append_ne_nil_of_left_ne_nil
            (solid c (words c (by rw [last]; exact List.mem_cons_self))).1 _
        simp only [flush, last, if_neg some_, reduceCtorEq, ↓reduceIte, List.map_append,
          List.map_cons, List.map_nil]
  have reads (s : Str) : (s.flatMap f).foldl step ([], []) =
        ((s.foldl step ([], [])).1.map (·.flatMap f), (s.foldl step ([], [])).2.flatMap f) ∧
      Solid (s.foldl step ([], [])).2 := by
    induction s using List.reverseRecOn with
    | nil => exact ⟨rfl, fun c member => absurd member List.not_mem_nil⟩
    | append_singleton s c ih =>
        rw [List.flatMap_append, List.foldl_append, List.foldl_append, ih.1, List.flatMap_singleton,
          List.foldl_cons, List.foldl_nil]
        cases blank : isWhitespace c with
        | true =>
            rw [kept c blank, List.foldl_cons, List.foldl_nil, step_blank _ c blank,
              step_blank _ c blank, flush_map _ ih.2]
            exact ⟨rfl, fun d member => absurd member List.not_mem_nil⟩
        | false =>
            rw [foldl_solid _ _ (solid c blank).2, step_char _ c blank]
            refine ⟨by rw [List.flatMap_append, List.flatMap_singleton], ih.2.append fun d member =>
              ?_⟩
            rwa [List.mem_singleton.mp member]
  rw [splitWhitespace, (reads s).1, flush_map _ (reads s).2]
  rfl

theorem isWord_of_mem_flush (st : List Str × Str) (done : ∀ w ∈ st.1, IsWord w) (cur : Solid st.2) :
    ∀ w ∈ flush st, IsWord w := by
  unfold flush
  split
  · exact done
  · rename_i some_
    intro w member
    rcases List.mem_append.mp member with before | last
    · exact done w before
    · rw [List.mem_singleton.mp last]
      exact ⟨some_, cur⟩

theorem isWord_of_mem (s word : Str) (member : word ∈ splitWhitespace s) : IsWord word := by
  have read_ : (∀ w ∈ (s.foldl step ([], [])).1, IsWord w) ∧ Solid (s.foldl step ([], [])).2 := by
    clear member
    induction s using List.reverseRecOn with
    | nil =>
        exact ⟨fun w inside => absurd inside List.not_mem_nil, fun c inside =>
          absurd inside List.not_mem_nil⟩
    | append_singleton s c ih =>
        rw [List.foldl_append, List.foldl_cons, List.foldl_nil]
        cases blank : isWhitespace c with
        | true =>
            rw [step_blank _ c blank]
            exact ⟨isWord_of_mem_flush _ ih.1 ih.2, fun d inside => absurd inside List.not_mem_nil⟩
        | false =>
            rw [step_char _ c blank]
            refine ⟨ih.1, ih.2.append fun d inside => ?_⟩
            rwa [List.mem_singleton.mp inside]
  exact isWord_of_mem_flush _ read_.1 read_.2 word member

/-- Words that are joined by blanks are split again. -/
theorem splitWhitespace_intercalate (words : List Str) (all_ : ∀ word ∈ words, IsWord word) :
    splitWhitespace (List.intercalate [' '] words) = words := by
  induction words with
  | nil => rfl
  | cons word words ih =>
      have here := all_ word List.mem_cons_self
      have later := ih fun w member => all_ w (List.mem_cons_of_mem word member)
      have starts : StartsWord [] := fun c inside => by cases inside
      cases words with
      | nil =>
          have shape : List.intercalate [' '] [word] = [] ++ (word ++ []) := by
            simp [List.intercalate]
          rw [shape, splitWhitespace_word [] word [] starts here fun c inside => by cases inside]
          rfl
      | cons next words =>
          have shape : List.intercalate [' '] (word :: next :: words) =
              [] ++ (word ++ ' ' :: List.intercalate [' '] (next :: words)) := by
            simp [List.intercalate]
          have ends : EndsWord (' ' :: List.intercalate [' '] (next :: words)) := by
            intro c first
            cases first
            decide
          have blank :
              splitWhitespace (' ' :: List.intercalate [' '] (next :: words)) = next :: words := by
            rw [splitWhitespace, List.foldl_cons, step_blank _ ' ' (by decide)]
            exact later
          rw [shape, splitWhitespace_word [] word _ starts here ends, blank]
          rfl

end EraOne.Words
