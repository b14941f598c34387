import EraOne.Search

set_option autoImplicit false

/- Globs of paths, in which `**/` stands for directories and a star for characters of one name. -/
namespace EraOne.PathGlob

inductive Part where
  | dirs
  | star
  | char (c : Char)
  deriving DecidableEq, Repr

def Part.text : Part → Str
  | .dirs => "**/".toList
  | .star => ['*']
  | .char c => [c]

def Part.wild : Part → Bool
  | .char _ => false
  | _ => true

def Part.char? : Part → Option Char
  | .char c => some c
  | _ => none

def parts : Str → List Part
  | [] => []
  | '*' :: '*' :: '/' :: s => .dirs :: parts s
  | c :: s => (if c = '*' then .star else .char c) :: parts s

/-- The text of directories: none, or anything up to a slash. -/
def IsDirs (s : Str) : Prop := s = [] ∨ s.getLast? = some '/'

/-- The whole of a text is what the parts stand for. -/
def Matches : List Part → Str → Prop
  | [], s => s = []
  | .dirs :: glob, s => ∃ front rest, s = front ++ rest ∧ IsDirs front ∧ Matches glob rest
  | .star :: glob, s => ∃ name rest, s = name ++ rest ∧ '/' ∉ name ∧ Matches glob rest
  | .char c :: glob, s => ∃ rest, s = c :: rest ∧ Matches glob rest

/-- The characters that stand for themselves. -/
def chars (glob : List Part) : Str := glob.filterMap Part.char?

def Wild (glob : List Part) : Prop := ∀ part ∈ glob, part.wild = true

/-- Wildcards that stand for any text: directories, and a name in the last of them. -/
def AnyText (glob : List Part) : Prop :=
  Wild glob ∧ ∃ front back, glob = front ++ .dirs :: back ∧ .star ∈ back

/-- A text without a slash at its ends. -/
def Trimmed (s : Str) : Prop := s.head? ≠ some '/' ∧ s.getLast? ≠ some '/'

/-- Any text, or a text with any text on both of its sides. -/
def Surrounded (glob : List Part) : Prop :=
  AnyText glob ∨
    ∃ front word back, word ≠ [] ∧ Trimmed word ∧ glob = front ++ (word.map Part.char ++ back) ∧
      AnyText front ∧ AnyText back

theorem exists_split_iff (P : Str → Str → Prop) (s : Str) :
    (∃ n ∈ List.range (s.length + 1), P (s.take n) (s.drop n)) ↔ ∃ front back, s = front ++ back ∧
    P front back := by
  constructor
  · rintro ⟨n, -, holds⟩
    exact ⟨s.take n, s.drop n, (List.take_append_drop n s).symm, holds⟩
  · rintro ⟨front, back, shape, holds⟩
    refine ⟨front.length, List.mem_range.mpr ?_, ?_⟩
    · rw [shape, List.length_append]
      omega
    · rwa [shape, List.take_left, List.drop_left]

instance (s : Str) : Decidable (IsDirs s) := inferInstanceAs (Decidable (_ ∨ _))

instance decMatches : (glob : List Part) → (s : Str) → Decidable (Matches glob s)
  | [], s => inferInstanceAs (Decidable (s = []))
  | .dirs :: glob, s =>
      haveI := decMatches glob
      decidable_of_iff _ (exists_split_iff (fun front rest => IsDirs front ∧ Matches glob rest) s)
  | .star :: glob, s =>
      haveI := decMatches glob
      decidable_of_iff _ (exists_split_iff (fun name rest => '/' ∉ name ∧ Matches glob rest) s)
  | .char c :: glob, s =>
      haveI := decMatches glob
      decidable_of_iff (s.head? = some c ∧ Matches glob s.tail) <| by
        cases s with
        | nil => simp [Matches]
        | cons d s => simp [Matches, eq_comm, and_assoc]

theorem text_parts (s : Str) : (parts s).flatMap Part.text = s := by
  fun_induction parts s with
  | case1 => rfl
  | case2 s ih =>
      rw [List.flatMap_cons, ih]
      rfl
  | case3 c s other ih =>
      rw [List.flatMap_cons, ih]
      split
      · rename_i star
        rw [star]
        rfl
      · rfl

theorem char_ne_star (s : Str) : Part.char '*' ∉ parts s := by
  fun_induction parts s with
  | case1 => simp
  | case2 s ih => simpa using ih
  | case3 c s other ih =>
      rw [List.mem_cons, not_or]
      refine ⟨?_, ih⟩
      split
      · simp
      · rename_i plain
        simpa using Ne.symm plain

theorem matches_append (a b : List Part) (s : Str) :
    Matches (a ++ b) s ↔ ∃ front back, s = front ++ back ∧ Matches a front ∧ Matches b back := by
  induction a generalizing s with
  | nil =>
      rw [List.nil_append]
      constructor
      · intro whole
        exact ⟨[], s, rfl, rfl, whole⟩
      · rintro ⟨front, back, shape, empty, whole⟩
        rwa [shape, show front = [] from empty]
  | cons part a ih =>
      rw [List.cons_append]
      cases part with
      | dirs =>
          constructor
          · rintro ⟨dirs, rest, shape, isDirs, whole⟩
            obtain ⟨front, back, inner, first, second⟩ := (ih rest).mp whole
            exact ⟨dirs ++ front, back, by rw [shape, inner, List.append_assoc],
              ⟨dirs, front, rfl, isDirs, first⟩, second⟩
          · rintro ⟨front, back, shape, ⟨dirs, rest, inner, isDirs, first⟩, second⟩
            exact ⟨dirs, rest ++ back, by rw [shape, inner, List.append_assoc], isDirs,
              (ih _).mpr ⟨rest, back, rfl, first, second⟩⟩
      | star =>
          constructor
          · rintro ⟨name, rest, shape, one, whole⟩
            obtain ⟨front, back, inner, first, second⟩ := (ih rest).mp whole
            exact ⟨name ++ front, back, by rw [shape, inner, List.append_assoc],
              ⟨name, front, rfl, one, first⟩, second⟩
          · rintro ⟨front, back, shape, ⟨name, rest, inner, one, first⟩, second⟩
            exact ⟨name, rest ++ back, by rw [shape, inner, List.append_assoc], one,
              (ih _).mpr ⟨rest, back, rfl, first, second⟩⟩
      | char c =>
          constructor
          · rintro ⟨rest, shape, whole⟩
            obtain ⟨front, back, inner, first, second⟩ := (ih rest).mp whole
            exact ⟨c :: front, back, by rw [shape, inner, List.cons_append], ⟨front, rfl, first⟩,
              second⟩
          · rintro ⟨front, back, shape, ⟨rest, inner, first⟩, second⟩
            exact ⟨rest ++ back, by rw [shape, inner, List.cons_append],
              (ih _).mpr ⟨rest, back, rfl, first, second⟩⟩

theorem matches_chars (word s : Str) : Matches (word.map Part.char) s ↔ s = word := by
  induction word generalizing s with
  | nil => exact Iff.rfl
  | cons c word ih =>
      constructor
      · rintro ⟨rest, shape, whole⟩
        rw [shape, (ih rest).mp whole]
      · intro same
        exact ⟨word, same, (ih word).mpr rfl⟩

/-- Wildcards may stand for nothing. -/
theorem matches_least (glob : List Part) : Matches glob (chars glob) := by
  induction glob with
  | nil => rfl
  | cons part glob ih =>
      cases part with
      | dirs => exact ⟨[], chars glob, rfl, Or.inl rfl, ih⟩
      | star => exact ⟨[], chars glob, rfl, List.not_mem_nil, ih⟩
      | char c => exact ⟨chars glob, rfl, ih⟩

theorem length_le_of_matches (glob : List Part) (s : Str) (whole : Matches glob s) :
    (chars glob).length ≤ s.length := by
  induction glob generalizing s with
  | nil => exact Nat.zero_le _
  | cons part glob ih =>
      cases part with
      | dirs =>
          obtain ⟨front, rest, shape, -, inner⟩ := whole
          have shorter := ih rest inner
          rw [shape, List.length_append]
          exact le_trans shorter (Nat.le_add_left _ _)
      | star =>
          obtain ⟨front, rest, shape, -, inner⟩ := whole
          have shorter := ih rest inner
          rw [shape, List.length_append]
          exact le_trans shorter (Nat.le_add_left _ _)
      | char c =>
          obtain ⟨rest, shape, inner⟩ := whole
          have shorter := ih rest inner
          rw [shape, List.length_cons]
          exact Nat.succ_le_succ shorter

theorem chars_of_wild (glob : List Part) (wild : Wild glob) : chars glob = [] := by
  unfold chars
  rw [List.filterMap_eq_nil_iff]
  intro part member
  have kind := wild part member
  cases part with
  | char c => cases kind
  | dirs => rfl
  | star => rfl

theorem matches_nil_of_wild (glob : List Part) (wild : Wild glob) : Matches glob [] := by
  have least := matches_least glob
  rwa [chars_of_wild glob wild] at least

/-- The last slash ends the directories. -/
theorem cut_at_slash (s : Str) : ∃ dirs name, s = dirs ++ name ∧ IsDirs dirs ∧ '/' ∉ name := by
  induction s using List.reverseRecOn with
  | nil => exact ⟨[], [], rfl, Or.inl rfl, List.not_mem_nil⟩
  | append_singleton s c ih =>
      by_cases slash : c = '/'
      · refine ⟨s ++ [c], [], (List.append_nil _).symm, Or.inr ?_, List.not_mem_nil⟩
        rw [List.getLast?_concat, slash]
      · obtain ⟨dirs, name, shape, isDirs, one⟩ := ih
        refine ⟨dirs, name ++ [c], by rw [shape, List.append_assoc], isDirs, ?_⟩
        rw [List.mem_append, List.mem_singleton, not_or]
        exact ⟨one, Ne.symm slash⟩

/-- Such wildcards stand for any text. -/
theorem matches_of_anyText (glob : List Part) (any : AnyText glob) (s : Str) : Matches glob s := by
  obtain ⟨wild, front, back, shape, star⟩ := any
  obtain ⟨before, after_, inner⟩ := List.append_of_mem star
  obtain ⟨dirs, name, cut, isDirs, one⟩ := cut_at_slash s
  have rest (some_ : List Part) (inside : ∀ part ∈ some_, part ∈ glob) : Matches some_ [] :=
    matches_nil_of_wild some_ fun part member => wild part (inside part member)
  rw [shape, matches_append]
  refine ⟨[], s, rfl, rest front ?_, dirs, name, cut, isDirs, ?_⟩
  · intro part member
    rw [shape]
    exact List.mem_append_left _ member
  rw [inner, matches_append]
  refine ⟨[], name, rfl, rest before ?_, name, [], (List.append_nil name).symm, one, rest after_ ?_⟩
  · intro part member
    rw [shape, inner]
    simp [member]
  · intro part member
    rw [shape, inner]
    simp [member]

theorem IsDirs.append {a b : Str} (first : IsDirs a) (second : IsDirs b) : IsDirs (a ++ b) := by
  cases second with
  | inl empty =>
      rw [empty, List.append_nil]
      exact first
  | inr slash =>
      right
      rw [List.getLast?_append, slash]
      rfl

theorem isDirs_of_no_star (glob : List Part) (wild : Wild glob) (noStar : .star ∉ glob) (s : Str)
    (whole : Matches glob s) : IsDirs s := by
  induction glob generalizing s with
  | nil => exact Or.inl whole
  | cons part glob ih =>
      have inner := fun rest => ih (fun other member => wild other (List.mem_cons_of_mem _ member))
        (fun member => noStar (List.mem_cons_of_mem _ member)) rest
      cases part with
      | dirs =>
          obtain ⟨front, rest, shape, isDirs, later⟩ := whole
          rw [shape]
          exact isDirs.append (inner rest later)
      | star => exact absurd List.mem_cons_self noStar
      | char c => exact absurd (wild _ List.mem_cons_self) Bool.false_ne_true

/-- Other wildcards stand for one name, or for what ends in a slash. -/
theorem name_or_dirs (glob : List Part) (wild : Wild glob) (narrow : ¬ AnyText glob) (s : Str)
    (whole : Matches glob s) :
    '/' ∉ s ∨ IsDirs s := by
  induction glob generalizing s with
  | nil => exact Or.inr (Or.inl whole)
  | cons part glob ih =>
      have inside : Wild glob := fun other member => wild other (List.mem_cons_of_mem _ member)
      have narrower : ¬ AnyText glob := by
        rintro ⟨-, front, back, shape, star⟩
        exact narrow ⟨wild, part :: front, back, by rw [shape, List.cons_append], star⟩
      cases part with
      | dirs =>
          obtain ⟨front, rest, shape, isDirs, later⟩ := whole
          have noStar : .star ∉ glob := fun star => narrow ⟨wild, [], glob, rfl, star⟩
          rw [shape]
          exact Or.inr (isDirs.append (isDirs_of_no_star glob inside noStar rest later))
      | star =>
          obtain ⟨name, rest, shape, one, later⟩ := whole
          rw [shape]
          cases ih inside narrower rest later with
          | inl noSlash =>
              left
              rw [List.mem_append, not_or]
              exact ⟨one, noSlash⟩
          | inr isDirs =>
              cases isDirs with
              | inl empty =>
                  left
                  rwa [empty, List.append_nil]
              | inr slash =>
                  right
                  right
                  rw [List.getLast?_append, slash]
                  rfl
      | char c => exact absurd (wild _ List.mem_cons_self) Bool.false_ne_true

/-- A text of names and slashes tells whether wildcards stand for any text. -/
theorem anyText_of_matches (glob : List Part) (wild : Wild glob) (a : Char) (plain : a ≠ '/')
    (whole : Matches glob [a, '/', a]) :
    AnyText glob := by
  by_contra narrow
  cases name_or_dirs glob wild narrow _ whole with
  | inl noSlash => exact noSlash (by simp)
  | inr isDirs =>
      cases isDirs with
      | inl empty => cases empty
      | inr slash => exact plain (Option.some.inj slash)

theorem wild_of_chars (glob : List Part) (none_ : chars glob = []) : Wild glob := by
  intro part member
  have kind := List.filterMap_eq_nil_iff.mp none_ part member
  cases part with
  | char c => cases kind
  | dirs => rfl
  | star => rfl

theorem chars_append (a b : List Part) : chars (a ++ b) = chars a ++ chars b :=
  List.filterMap_append

theorem chars_cons_wild (part : Part) (glob : List Part) (wild : part.wild = true) :
    chars (part :: glob) = chars glob := by
  cases part with
  | char c => cases wild
  | dirs => rfl
  | star => rfl

/-- Characters with wildcards behind them only. -/
theorem eq_before_of_split (glob : List Part)
    (split : ∀ front part back, glob = front ++ part :: back → part.wild = true → chars back = []) :
    ∃ back, glob = (chars glob).map Part.char ++ back ∧ Wild back := by
  induction glob with
  | nil => exact ⟨[], rfl, fun part member => absurd member List.not_mem_nil⟩
  | cons part glob ih =>
      cases kind : part.wild with
      | true =>
          have none_ : chars (part :: glob) = [] := by
            rw [chars_cons_wild part glob kind]
            exact split [] part glob rfl kind
          refine ⟨part :: glob, ?_, wild_of_chars _ none_⟩
          rw [none_]
          rfl
      | false =>
          cases part with
          | char c =>
              obtain ⟨back, shape, wild⟩ := ih fun front other back inner =>
                split (.char c :: front) other back (by rw [inner]; rfl)
              exact ⟨back, congrArg (List.cons (Part.char c)) shape, wild⟩
          | dirs => cases kind
          | star => cases kind

/-- Characters with wildcards on their two sides only. -/
theorem eq_around_of_split (glob : List Part)
    (split : ∀ front part back, glob = front ++ part :: back → part.wild = true → chars front = [] ∨
      chars back = []) :
    ∃ front back, glob = front ++ ((chars glob).map Part.char ++ back) ∧ Wild front ∧
      Wild back := by
  induction glob with
  | nil =>
      exact ⟨[], [], rfl, fun part member => absurd member List.not_mem_nil, fun part member =>
        absurd member List.not_mem_nil⟩
  | cons part glob ih =>
      cases kind : part.wild with
      | true =>
          obtain ⟨front, back, shape, before, behind⟩ := ih fun front other back inner wild => by
            rw [← chars_cons_wild part front kind]
            exact split (part :: front) other back (by rw [inner]; rfl) wild
          refine ⟨part :: front, back, ?_, ?_, behind⟩
          · rw [chars_cons_wild part glob kind]
            exact congrArg (List.cons part) shape
          · intro other member
            cases List.mem_cons.mp member with
            | inl here => rwa [here]
            | inr later => exact before other later
      | false =>
          cases part with
          | char c =>
              obtain ⟨back, shape, wild⟩ :=
                eq_before_of_split (.char c :: glob) fun front other back inner wild => by
                cases front with
                | nil =>
                    rw [List.nil_append, List.cons.injEq] at inner
                    rw [← inner.1] at wild
                    cases wild
                | cons first front =>
                    have same : Part.char c = first := (List.cons.inj inner).1
                    cases split (first :: front) other back inner wild with
                    | inl none_ =>
                        rw [← same] at none_
                        cases none_
                    | inr none_ => exact none_
              exact ⟨[], back, shape, fun part member => absurd member List.not_mem_nil, wild⟩
          | dirs => cases kind
          | star => cases kind

/-- A word is not pushed to the right by a text without its first character. -/
theorem eq_of_append_word (x x' u y' : Str) (nonempty : u ≠ []) (foreign : ∀ c ∈ u.head?, c ∉ x)
    (same : x ++ u = x' ++ (u ++ y')) : x' = x := by
  rcases List.append_eq_append_iff.mp same with ⟨more, longer, rest⟩ | ⟨more, shorter, rest⟩
  · have size := congrArg List.length rest
    rw [List.length_append, List.length_append] at size
    have none_ : more = [] := List.eq_nil_of_length_eq_zero (by omega)
    rw [longer, none_, List.append_nil]
  · cases more with
    | nil => rw [shorter, List.append_nil]
    | cons c more =>
        cases u with
        | nil => exact absurd rfl nonempty
        | cons d u =>
            have here : d = c := (List.cons.inj rest).1
            apply absurd _ (foreign d rfl)
            rw [shorter, here]
            simp

/-- A run of another character inside a word keeps the word from occurring. -/
theorem not_infix_of_filled (u₁ u₂ tail : Str) (a : Char) (some₁ : u₁ ≠ []) (some₂ : u₂ ≠ [])
    (first : (u₁ ++ u₂).head? ≠ some a) (last : (u₁ ++ u₂).getLast? ≠ some a)
    (foreign : ∀ c ∈ (u₁ ++ u₂).head?, c ∉ tail) :
    ¬ u₁ ++ u₂ <:+: u₁ ++ ((List.replicate (u₁ ++ u₂).length a ++ tail) ++ u₂) := by
  rintro ⟨p, q, shape⟩
  have pos₁ := List.length_pos_iff.mpr some₁
  have pos₂ := List.length_pos_iff.mpr some₂
  generalize whole : u₁ ++ u₂ = u at *
  have size : u.length = u₁.length + u₂.length := by rw [← whole, List.length_append]
  have total := congrArg List.length shape
  simp only [List.length_append, List.length_replicate] at total
  -- The first and the last character of the occurrence, where they stand.
  have start : u[0]? = (u₁ ++ (List.replicate u.length a ++ tail ++ u₂))[p.length]? := by
    rw [← shape, List.append_assoc, List.getElem?_append_right (le_refl _), Nat.sub_self,
      List.getElem?_append_left (by omega)]
  have stop :
      u[u.length - 1]? =
        (u₁ ++ (List.replicate u.length a ++ tail ++ u₂))[p.length + (u.length - 1)]? := by
    rw [← shape, List.append_assoc, List.getElem?_append_right (by omega), Nat.add_sub_cancel_left,
      List.getElem?_append_left (by omega)]
  by_cases early : p.length < u₁.length
  · by_cases inside : p.length + (u.length - 1) < u₁.length
    · omega
    · rw [List.getElem?_append_right (by omega), List.append_assoc,
        List.getElem?_append_left (by rw [List.length_replicate]; omega), List.getElem?_replicate,
        if_pos (by omega),
        ← List.getLast?_eq_getElem?] at stop
      exact last stop
  · by_cases filled : p.length - u₁.length < u.length + tail.length
    · rw [List.getElem?_append_right (by omega), List.getElem?_append_left (by simp; omega),
        ← List.head?_eq_getElem?] at start
      by_cases run : p.length - u₁.length < u.length
      · rw [List.getElem?_append_left (by simpa using run), List.getElem?_replicate,
          if_pos run] at start
        exact first start
      · rw [List.getElem?_append_right (by simpa using run)] at start
        cases found : u.head? with
        | none =>
            rw [List.head?_eq_none_iff] at found
            rw [found, List.length_nil] at size
            omega
        | some c =>
            rw [found] at start
            exact foreign c found (List.mem_of_getElem? start.symm)
    · omega

/-- Around a word that the wildcards keep whole they stand for any text. -/
theorem surrounded_of_same (allowed : Char → Prop) (slash : allowed '/') (a : Char)
    (letter : allowed a) (plain : a ≠ '/') (glob : List Part) (inside : ∀ c ∈ chars glob, allowed c)
    (word : Str) (trimmed : Trimmed word) (first : (chars glob).head? ≠ some a)
    (last : (chars glob).getLast? ≠ some a)
    (same : ∀ s, (∀ c ∈ s, allowed c) → (Matches glob s ↔ word <:+: s)) : Surrounded glob := by
  have found : word <:+: chars glob := (same _ inside).mp (matches_least glob)
  have shortest := length_le_of_matches glob word
    ((same word fun c member => inside c (found.subset member)).mpr List.infix_rfl)
  have whole : word = chars glob := found.eq_of_length (le_antisymm found.length_le shortest)
  rw [whole] at trimmed same
  have spread (c : Char) (member : c ∈ [a, '/', a]) : allowed c := by
    simp only [List.mem_cons, List.not_mem_nil, or_false] at member
    rcases member with rfl | rfl | rfl
    · exact letter
    · exact slash
    · exact letter
  have split : ∀ front part back, glob = front ++ part :: back → part.wild = true →
      chars front = [] ∨ chars back = [] := by
    intro front part back shape wild
    by_contra both
    rw [not_or] at both
    have cut : chars glob = chars front ++ chars back := by
      rw [shape, chars_append, chars_cons_wild part back wild]
    have filler : ∃ tail, (∀ c ∈ tail, c = '/') ∧
        Matches [part] (List.replicate (chars glob).length a ++ tail) := by
      cases part with
      | char c => cases wild
      | dirs =>
          refine ⟨['/'], fun c member => List.mem_singleton.mp member, _, [],
            (List.append_nil _).symm, Or.inr ?_, rfl⟩
          rw [List.getLast?_concat]
      | star =>
          refine ⟨[], fun c member => absurd member List.not_mem_nil, _, [],
            (List.append_nil _).symm, ?_, rfl⟩
          rw [List.append_nil]
          intro member
          exact plain (List.eq_of_mem_replicate member).symm
    obtain ⟨tail, slashes, fills⟩ := filler
    have matched :
        Matches glob
          (chars front ++ ((List.replicate (chars glob).length a ++ tail) ++ chars back)) := by
      have joined : glob = front ++ ([part] ++ back) := shape
      rw [joined, matches_append, ← joined]
      refine ⟨_, _, rfl, matches_least front, ?_⟩
      rw [matches_append]
      exact ⟨_, _, rfl, fills, matches_least back⟩
    have occurs := (same _ ?_).mp matched
    · rw [cut] at occurs first last trimmed
      refine not_infix_of_filled _ _ tail a both.1 both.2 first last ?_ occurs
      intro c head member
      rw [slashes c member] at head
      exact trimmed.1 head
    · intro c member
      simp only [List.mem_append] at member
      rcases member with front_ | (run | tail_) | back_
      · exact inside c (by rw [cut]; exact List.mem_append_left _ front_)
      · rw [List.eq_of_mem_replicate run]
        exact letter
      · rw [slashes c tail_]
        exact slash
      · exact inside c (by rw [cut]; exact List.mem_append_right _ back_)
  obtain ⟨front, back, shape, before, behind⟩ := eq_around_of_split glob split
  by_cases empty : chars glob = []
  · left
    apply anyText_of_matches glob (wild_of_chars glob empty) a plain
    apply (same _ spread).mpr
    rw [empty]
    exact List.nil_infix
  · right
    have clear (c : Char) (member : c ∈ [a, '/', a]) : c = a ∨ c = '/' := by
      simpa [or_comm, or_assoc] using member
    refine ⟨front, chars glob, back, empty, trimmed, shape,
      anyText_of_matches front before a plain ?_,
      anyText_of_matches back behind a plain ?_⟩
    · have matched : Matches glob ([a, '/', a] ++ chars glob) := by
        apply (same _ ?_).mpr (List.suffix_append _ _).isInfix
        intro c member
        exact (List.mem_append.mp member).elim (spread c) (inside c)
      rw [shape, matches_append, ← shape] at matched
      obtain ⟨x, rest, whole_, matchesFront, later⟩ := matched
      obtain ⟨w, y, inner, word_, -⟩ := (matches_append _ _ _).mp later
      rw [(matches_chars _ w).mp word_] at inner
      rw [inner] at whole_
      rwa [← eq_of_append_word _ x _ y empty ?_ whole_]
      intro c head member
      rcases clear c member with here | here
      · exact first (here ▸ head)
      · exact trimmed.1 (here ▸ head)
    · have matched : Matches glob (chars glob ++ [a, '/', a]) := by
        apply (same _ ?_).mpr (List.prefix_append _ _).isInfix
        intro c member
        exact (List.mem_append.mp member).elim (inside c) (spread c)
      rw [shape, matches_append, ← shape] at matched
      obtain ⟨x, rest, whole_, -, later⟩ := matched
      obtain ⟨w, y, inner, word_, matchesBack⟩ := (matches_append _ _ _).mp later
      rw [(matches_chars _ w).mp word_] at inner
      rw [inner] at whole_
      have reversed := congrArg List.reverse whole_
      simp only [List.reverse_append] at reversed
      rw [List.append_assoc] at reversed
      have ends :=
        eq_of_append_word _ _ (chars glob).reverse x.reverse (by simpa using empty) ?_ reversed
      · rw [List.reverse_inj] at ends
        rwa [ends] at matchesBack
      · intro c head member
        rw [List.head?_reverse] at head
        rcases clear c (by simpa using member) with here | here
        · exact last (here ▸ head)
        · exact trimmed.2 (here ▸ head)

/-- A surrounded word is what such a glob looks for. -/
theorem matches_surrounded (front back : List Part) (word s : Str) (before : AnyText front)
    (behind : AnyText back) :
    Matches (front ++ (word.map Part.char ++ back)) s ↔ word <:+: s := by
  rw [matches_append]
  constructor
  · rintro ⟨x, rest, shape, -, whole⟩
    obtain ⟨w, y, inner, same, -⟩ := (matches_append _ _ _).mp whole
    rw [(matches_chars word w).mp same] at inner
    exact ⟨x, y, by rw [shape, inner, List.append_assoc]⟩
  · rintro ⟨x, y, shape⟩
    refine ⟨x, word ++ y, by rw [← shape, List.append_assoc], matches_of_anyText front before x, ?_⟩
    exact (matches_append _ _ _).mpr
      ⟨word, y, rfl, (matches_chars word word).mpr rfl, matches_of_anyText back behind y⟩

end EraOne.PathGlob
