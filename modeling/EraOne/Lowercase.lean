import EraOne.Strings

set_option autoImplicit false

/- `str::to_lowercase`: each character by itself, but for a capital sigma, which depends on the text
around it. -/
namespace EraOne.Lowercase

/-- What `char::to_lowercase` and the properties `Cased` and `Case_Ignorable` say of each character:
what is in small letters stays, and a character and its small letters are alike in both
properties. -/
structure Table where
  lower : Char → Str
  cased : Char → Bool
  ignorable : Char → Bool
  one : ∀ c, lower c ≠ []
  lowered : ∀ c, ∀ d ∈ lower c, lower d = [d]
  star : ∀ c, '*' ∈ lower c ↔ c = '*'
  sigma : lower 'Σ' = ['σ']
  small : ∀ c, 'σ' ∈ lower c → c = 'Σ' ∨ c = 'σ'
  final : ∀ c, 'ς' ∈ lower c ↔ c = 'ς'
  alike : ∀ c, ((lower c).filter fun d => !ignorable d).map cased = if ignorable c then []
    else [cased c]
  sign : ignorable '*' = false ∧ cased '*' = false
  letters : ∀ c ∈ ['a', 'Σ', 'σ', 'ς'], ignorable c = false ∧ cased c = true
  latin : lower 'a' = ['a']

variable (table : Table)

/-- `case_ignorable_then_cased`. -/
def casedAhead (s : Str) : Bool :=
  match s.find? fun c => !table.ignorable c with
  | some c => table.cased c
  | none => false

/-- A capital sigma between these texts, the first from right to left, ends a word. -/
def endsWord (front back : Str) : Bool := casedAhead table front && !casedAhead table back

/-- The characters after some, which are given from right to left. -/
def lowerFrom : Str → Str → Str
  | _, [] => []
  | front, c :: rest =>
      (if c = 'Σ' then [if endsWord table front rest then 'ς' else 'σ'] else table.lower c) ++
        lowerFrom (c :: front) rest

/-- `str::to_lowercase`. -/
def toLowercase (s : Str) : Str := lowerFrom table [] s

/-- Each character by itself. -/
def lowerEach (s : Str) : Str := s.flatMap table.lower

theorem lowerEach_cons (c : Char) (s : Str) :
    lowerEach table (c :: s) = table.lower c ++ lowerEach table s := rfl

theorem lowerEach_append (a b : Str) :
    lowerEach table (a ++ b) = lowerEach table a ++ lowerEach table b :=
  List.flatMap_append

theorem eq_nil_of_lowerEach (s : Str) (empty : lowerEach table s = []) : s = [] := by
  cases s with
  | nil => rfl
  | cons c s => exact absurd (List.append_eq_nil_iff.mp empty).1 (table.one c)

/-! ### What decides on a sigma -/

/-- Which of the characters that are not passed over are cased. -/
def classes (s : Str) : List Bool := (s.filter fun c => !table.ignorable c).map table.cased

theorem classes_append (a b : Str) :
    classes table (a ++ b) = classes table a ++ classes table b := by
  unfold classes
  rw [List.filter_append, List.map_append]

theorem classes_reverse (s : Str) : classes table s.reverse = (classes table s).reverse := by
  unfold classes
  rw [List.filter_reverse, List.map_reverse]

theorem casedAhead_eq (s : Str) : casedAhead table s = (classes table s).headD false := by
  unfold casedAhead classes
  induction s with
  | nil => rfl
  | cons c s ih =>
      by_cases passed : table.ignorable c = true
      · rw [List.find?_cons_of_neg (by simp [passed]), List.filter_cons_of_neg (by simp [passed])]
        exact ih
      · rw [List.find?_cons_of_pos (by simpa using passed),
          List.filter_cons_of_pos (by simpa using passed)]
        rfl

theorem classes_lower (c : Char) : classes table (table.lower c) = classes table [c] := by
  unfold classes
  rw [table.alike]
  by_cases passed : table.ignorable c = true
  · simp [passed]
  · simp [passed]

theorem classes_sigma (c : Char) (sigma : c ∈ ['a', 'Σ', 'σ', 'ς']) :
    classes table [c] = [true] := by
  have both := table.letters c sigma
  unfold classes
  simp [both.1, both.2]

theorem classes_lowerEach (s : Str) : classes table (lowerEach table s) = classes table s := by
  induction s with
  | nil => rfl
  | cons c s ih =>
      rw [lowerEach_cons, classes_append, ih, classes_lower, ← classes_append,
        List.singleton_append]

/-- The image of a character in a text. -/
theorem classes_image (c : Char) (last : Bool) :
    classes table (if c = 'Σ' then [if last then 'ς' else 'σ'] else table.lower c) = classes table
      [c] := by
  by_cases sigma : c = 'Σ'
  · rw [if_pos sigma, sigma, classes_sigma table 'Σ' (by simp)]
    cases last with
    | true => exact classes_sigma table 'ς' (by simp)
    | false => exact classes_sigma table 'σ' (by simp)
  · rw [if_neg sigma, classes_lower]

theorem classes_lowerFrom (front s : Str) :
    classes table (lowerFrom table front s) = classes table s := by
  induction s generalizing front with
  | nil => rfl
  | cons c s ih =>
      rw [lowerFrom, classes_append, ih, classes_image, ← classes_append, List.singleton_append]

theorem casedAhead_congr (a b : Str) (same : classes table a = classes table b) :
    casedAhead table a = casedAhead table b := by
  rw [casedAhead_eq, casedAhead_eq, same]

/-! ### Where the whole text matters -/

/-- A small sigma of either form stands at a place where it ends a word, with a text before this
one. -/
def SigmaAt (front s : Str) (m : Nat) : Prop :=
  ∃ before c after_, s = before ++ c :: after_ ∧ before.length = m ∧ (c = 'σ' ∨ c = 'ς') ∧
    endsWord table (before.reverse ++ front) after_ = true

theorem sigmaAt_append (front piece s : Str) (m : Nat)
    (there : SigmaAt table (piece.reverse ++ front) s m) :
    SigmaAt table front (piece ++ s) (piece.length + m) := by
  obtain ⟨before, c, after_, rfl, rfl, sigma, ends⟩ := there
  refine ⟨piece ++ before, c, after_, by simp, by simp, sigma, ?_⟩
  rw [List.reverse_append, List.append_assoc]
  exact ends

theorem sigmaAt_congr (front front' s : Str) (m : Nat)
    (same : classes table front = classes table front') (there : SigmaAt table front s m) :
    SigmaAt table front' s m := by
  obtain ⟨before, c, after_, whole, size, sigma, ends⟩ := there
  refine ⟨before, c, after_, whole, size, sigma, ?_⟩
  unfold endsWord at ends ⊢
  rwa [← casedAhead_congr table (before.reverse ++ front) (before.reverse ++ front')
    (by rw [classes_append, classes_append, same])]

theorem length_image (c : Char) (last : Bool) :
    (if c = 'Σ' then [if last then 'ς' else 'σ'] else table.lower c).length =
      (table.lower c).length := by
  by_cases sigma : c = 'Σ'
  · rw [if_pos sigma, sigma, table.sigma]
    rfl
  · rw [if_neg sigma]

theorem length_lowerFrom (front s : Str) :
    (lowerFrom table front s).length = (lowerEach table s).length := by
  induction s generalizing front with
  | nil => rfl
  | cons c s ih =>
      rw [lowerFrom, lowerEach_cons, List.length_append, List.length_append, ih, length_image]

/-- The two lower-cased texts differ at most where a sigma ends a word. -/
theorem sigmaAt_of_differ (front s : Str) (m : Nat)
    (differ : (lowerFrom table front s)[m]? ≠ (lowerEach table s)[m]?) :
    SigmaAt table front (lowerFrom table front s) m ∧
      SigmaAt table front (lowerEach table s) m := by
  induction s generalizing front m with
  | nil => exact absurd rfl differ
  | cons c s ih =>
      have size := length_image table c (endsWord table front s)
      have class_ := classes_image table c (endsWord table front s)
      rw [lowerFrom, lowerEach_cons] at differ ⊢
      by_cases inside : m < (table.lower c).length
      · rw [List.getElem?_append_left (by rw [size]; exact inside),
          List.getElem?_append_left inside] at differ
        by_cases sigma : c = 'Σ'
        · rw [if_pos sigma, sigma, table.sigma] at differ ⊢
          rw [sigma, table.sigma] at inside
          have zero : m = 0 := by simpa using inside
          subst zero
          cases ends : endsWord table front s with
          | false =>
              rw [ends] at differ
              exact absurd rfl differ
          | true =>
              have after_ (rest : Str) (same : classes table rest = classes table s) :
                  endsWord table front rest = true := by
                unfold endsWord at ends ⊢
                rwa [casedAhead_congr table rest s same]
              exact ⟨⟨[], 'ς', _, rfl, rfl, Or.inr rfl, after_ _ (classes_lowerFrom table _ s)⟩,
                ⟨[], 'σ', _, rfl, rfl, Or.inl rfl, after_ _ (classes_lowerEach table s)⟩⟩
        · rw [if_neg sigma] at differ
          exact absurd rfl differ
      · obtain ⟨k, rfl⟩ := Nat.exists_eq_add_of_le (Nat.not_lt.mp inside)
        rw [List.getElem?_append_right (by omega), List.getElem?_append_right (by omega),
          size] at differ
        rw [Nat.add_sub_cancel_left] at differ
        have later := ih (c :: front) k differ
        have front_ (piece : Str) (same : classes table piece = classes table [c]) :
            classes table (c :: front) = classes table (piece.reverse ++ front) := by
          rw [← List.singleton_append, classes_append, classes_append, classes_reverse, same,
            ← classes_reverse, List.reverse_singleton]
        constructor
        · have there := sigmaAt_congr table _ _ _ k (front_ _ class_) later.1
          have moved := sigmaAt_append table front _ _ k there
          rwa [size] at moved
        · exact sigmaAt_append table front _ _ k
            (sigmaAt_congr table _ _ _ k (front_ _ (classes_lower table c)) later.2)

theorem lower_star : table.lower '*' = ['*'] := table.lowered '*' '*' ((table.star '*').mpr rfl)

theorem lower_small : table.lower 'σ' = ['σ'] :=
  table.lowered 'Σ' 'σ' (by rw [table.sigma]; exact List.mem_singleton_self _)

theorem lower_final : table.lower 'ς' = ['ς'] := table.lowered 'ς' 'ς' ((table.final 'ς').mpr rfl)

/-- A sigma of a text, of any form. -/
def IsSigma (c : Char) : Prop := c = 'Σ' ∨ c = 'σ' ∨ c = 'ς'

/-- A small sigma is the small letter of a sigma only. -/
theorem sigma_of_mem_lower (c a : Char) (sigma : a = 'σ' ∨ a = 'ς') (member : a ∈ table.lower c) :
    IsSigma c ∧ table.lower c = [a] := by
  rcases sigma with rfl | rfl
  · rcases table.small c member with rfl | rfl
    · exact ⟨Or.inl rfl, table.sigma⟩
    · exact ⟨Or.inr (Or.inl rfl), lower_small table⟩
  · rw [table.final] at member
    rw [member]
    exact ⟨Or.inr (Or.inr rfl), lower_final table⟩

/-- A small sigma among the small letters of a text comes from a sigma of it. -/
theorem exists_sigma (s : Str) (k : Nat) (a : Char) (sigma : a = 'σ' ∨ a = 'ς')
    (found : (lowerEach table s)[k]? = some a) :
    ∃ before c after_, s = before ++ c :: after_ ∧ IsSigma c ∧ table.lower c = [a] ∧
      (lowerEach table before).length = k := by
  induction s generalizing k with
  | nil => cases found
  | cons c s ih =>
      rw [lowerEach_cons] at found
      by_cases inside : k < (table.lower c).length
      · rw [List.getElem?_append_left inside] at found
        have both := sigma_of_mem_lower table c a sigma (List.mem_of_getElem? found)
        rw [both.2, List.length_singleton, Nat.lt_one_iff] at inside
        exact ⟨[], c, s, rfl, both.1, both.2, inside.symm⟩
      · rw [List.getElem?_append_right (Nat.not_lt.mp inside)] at found
        obtain ⟨before, d, after_, whole, isSigma, image, size⟩ := ih _ found
        refine ⟨c :: before, d, after_, by rw [whole, List.cons_append], isSigma, image, ?_⟩
        rw [lowerEach_cons, List.length_append, size]
        omega

/-- No sigma of the text ends a word when it stands between these two texts. -/
def NoWordEnd (front s back : Str) : Prop :=
  ∀ before c after_, s = before ++ c :: after_ → IsSigma c →
    endsWord table (before.reverse ++ front.reverse) (after_ ++ back) = false

/-- Where the small letters of such a text stand in one of the two lower-cased texts, they stand in
the other. -/
theorem window_of_window (a b front s back : Str) (same : a = front ++ lowerEach table s ++ back)
    (quiet : NoWordEnd table front s back) (differ : ∀ m, a[m]? ≠ b[m]? → SigmaAt table [] a m) :
    (b.drop front.length).take (lowerEach table s).length = lowerEach table s := by
  apply List.ext_getElem?
  intro k
  by_cases inside : k < (lowerEach table s).length
  · rw [List.getElem?_take_of_lt inside, List.getElem?_drop]
    have here : a[front.length + k]? = (lowerEach table s)[k]? := by
      rw [same, List.append_assoc, List.getElem?_append_right (by omega), Nat.add_sub_cancel_left,
        List.getElem?_append_left inside]
    rw [← here]
    by_contra other
    obtain ⟨before, c, after_, whole, size, sigma, ends⟩ :=
      differ (front.length + k) (Ne.symm other)
    have found : (lowerEach table s)[k]? = some c := by
      rw [← here, whole, ← size, List.getElem?_append_right (Nat.le_refl _), Nat.sub_self,
        List.getElem?_cons_zero]
    obtain ⟨before', d, after', shape, isSigma, image, size'⟩ :=
      exists_sigma table s k c sigma found
    have both : before = front ++ lowerEach table before' ∧
        c :: after_ = c :: (lowerEach table after' ++ back) := by
      apply List.append_inj
      · rw [← whole, same, shape, lowerEach_append, lowerEach_cons, image]
        simp
      · rw [size, List.length_append, size']
    have quiet_ := quiet before' d after' shape isSigma
    have classes_ : endsWord table (before.reverse ++ []) after_ = endsWord table
        (before'.reverse ++ front.reverse) (after' ++ back) := by
      unfold endsWord
      rw [both.1, (List.cons.inj both.2).2]
      congr 1
      · apply casedAhead_congr
        rw [List.append_nil, List.reverse_append, classes_append, classes_append, classes_reverse,
          classes_lowerEach, ← classes_reverse]
      · congr 1
        apply casedAhead_congr
        rw [classes_append, classes_append, classes_lowerEach]
    rw [classes_, quiet_] at ends
    cases ends
  · rw [List.getElem?_eq_none (by rw [List.length_take]; omega), List.getElem?_eq_none (by omega)]

theorem append_of_window (a b front s back : Str) (same : a = front ++ lowerEach table s ++ back)
    (size : b.length = a.length)
    (window : (b.drop front.length).take (lowerEach table s).length = lowerEach table s) :
    ∃ front' back', b = front' ++ lowerEach table s ++ back' ∧ front'.length = front.length ∧
      back'.length = back.length := by
  refine ⟨b.take front.length, (b.drop front.length).drop (lowerEach table s).length, ?_, ?_, ?_⟩
  · have tail := List.take_append_drop (lowerEach table s).length (b.drop front.length)
    rw [window] at tail
    rw [List.append_assoc, tail, List.take_append_drop]
  · rw [List.length_take, size, same]
    simp
  · rw [List.length_drop, List.length_drop, size, same]
    simp

/-- The small letters of a text stand in a value lower-cased as a whole where they stand in the
value lower-cased character by character, if no sigma of the text ends a word there. -/
theorem exists_window_iff (v s : Str) (n m : Nat)
    (quiet : ∀ front back, front.length = n → back.length = m → NoWordEnd table front s back) :
    (∃ front back, toLowercase table v = front ++ lowerEach table s ++ back ∧ front.length = n ∧
      back.length = m) ↔
      ∃ front back, lowerEach table v = front ++ lowerEach table s ++ back ∧ front.length = n ∧
        back.length = m := by
  have size := length_lowerFrom table [] v
  constructor
  · rintro ⟨front, back, same, rfl, rfl⟩
    apply append_of_window table _ _ front s back same size.symm
    exact window_of_window table _ _ front s back same (quiet front back rfl rfl)
      fun m differ => (sigmaAt_of_differ table [] v m differ).1
  · rintro ⟨front, back, same, rfl, rfl⟩
    apply append_of_window table _ _ front s back same size
    exact window_of_window table _ _ front s back same (quiet front back rfl rfl)
      fun m differ => (sigmaAt_of_differ table [] v m (Ne.symm differ)).2

/-- A text in small letters. -/
def Small (s : Str) : Prop := ∀ c ∈ s, table.lower c = [c]

theorem small_lowerEach (s : Str) : Small table (lowerEach table s) := by
  intro d member
  obtain ⟨c, -, inside⟩ := List.mem_flatMap.mp member
  exact table.lowered c d inside

theorem small_lowerFrom (front s : Str) : Small table (lowerFrom table front s) := by
  induction s generalizing front with
  | nil => exact fun c none_ => absurd none_ List.not_mem_nil
  | cons c s ih =>
      rw [lowerFrom]
      intro d member
      rcases List.mem_append.mp member with here | later
      · by_cases sigma : c = 'Σ'
        · rw [if_pos sigma, List.mem_singleton] at here
          rw [here]
          split
          · exact lower_final table
          · exact lower_small table
        · rw [if_neg sigma] at here
          exact table.lowered c d here
      · exact ih _ d later

theorem small_toLowercase (s : Str) : Small table (toLowercase table s) :=
  small_lowerFrom table [] s

theorem lowerEach_small (s : Str) (small : Small table s) : lowerEach table s = s := by
  induction s with
  | nil => rfl
  | cons c s ih =>
      rw [Small, List.forall_mem_cons] at small
      rw [lowerEach_cons, small.1, ih small.2, List.singleton_append]

/-- No text in small letters has a capital sigma. -/
theorem ne_sigma_of_small (s : Str) (small : Small table s) (c : Char) (member : c ∈ s) :
    c ≠ 'Σ' := by
  rintro rfl
  have same := (small 'Σ' member).symm.trans table.sigma
  exact absurd same (by decide)

theorem lowerFrom_small_append (front s rest : Str) (small : Small table s) :
    lowerFrom table front (s ++ rest) = s ++ lowerFrom table (s.reverse ++ front) rest := by
  induction s generalizing front with
  | nil => rfl
  | cons c s ih =>
      have here := ne_sigma_of_small table (c :: s) small c List.mem_cons_self
      rw [Small, List.forall_mem_cons] at small
      rw [List.cons_append, lowerFrom, if_neg here, small.1, ih _ small.2, List.reverse_cons,
        List.append_assoc, List.singleton_append, List.singleton_append, List.cons_append]

theorem toLowercase_small (s : Str) (small : Small table s) : toLowercase table s = s := by
  have whole := lowerFrom_small_append table [] s [] small
  rw [List.append_nil] at whole
  exact whole.trans (List.append_nil s)

/-- A sigma between two texts in small letters, where it ends a word. -/
theorem toLowercase_sigma (before after_ : Str) (first : Small table before)
    (last : Small table after_) (ends : endsWord table before.reverse after_ = true) :
    toLowercase table (before ++ 'Σ' :: after_) = before ++ 'ς' :: after_ := by
  have rest := lowerFrom_small_append table ('Σ' :: before.reverse) after_ [] last
  rw [List.append_nil] at rest
  unfold toLowercase
  rw [lowerFrom_small_append table [] before _ first, List.append_nil, lowerFrom, if_pos rfl,
    if_pos ends, rest, lowerFrom, List.append_nil, List.singleton_append]

theorem lowerEach_sigma (before after_ : Str) (first : Small table before)
    (last : Small table after_) :
    lowerEach table (before ++ 'Σ' :: after_) = before ++ 'σ' :: after_ := by
  rw [lowerEach_append, lowerEach_cons, lowerEach_small table before first,
    lowerEach_small table after_ last, table.sigma, List.singleton_append]

/-- Without a sigma that ends a word, a text is lower-cased character by character. -/
theorem toLowercase_of_quiet (s : Str) (quiet : NoWordEnd table [] s []) :
    toLowercase table s = lowerEach table s := by
  have window := window_of_window table (lowerEach table s) (toLowercase table s) [] s []
    (List.append_nil _).symm quiet
    fun m differ => (sigmaAt_of_differ table [] s m (Ne.symm differ)).2
  have size : (toLowercase table s).length = (lowerEach table s).length :=
    length_lowerFrom table [] s
  rwa [List.length_nil, List.drop_zero, ← size, List.take_length] at window

end EraOne.Lowercase
