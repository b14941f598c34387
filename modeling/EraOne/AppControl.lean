import EraOne.Glob
import EraOne.Lowercase

set_option autoImplicit false

/- Application control of the agent (`enforce/engine.rs`): rules with path patterns. Device rules
and the modes of enforcement are left out. -/
namespace EraOne.AppControl

open Glob Lowercase

/-! ### The engine -/

structure ExecRequest where
  imagePath : Str
  hashSha256 : Str := []
  signer : Str := []
  parentPath : Str := []
  deriving DecidableEq

inductive RuleAction where
  | allow | deny
  deriving DecidableEq

structure AppRule where
  id : Str
  action : RuleAction
  path : Str := []
  hashSha256 : Str := []
  signer : Str := []
  parentPath : Str := []
  deriving DecidableEq

structure VirtualPatchRule where
  id : Str
  cveId : Str
  action : RuleAction
  path : Str := []
  deriving DecidableEq

structure EnforcementPolicy where
  appRules : List AppRule := []
  virtualPatches : List VirtualPatchRule := []

inductive Decision where
  | allow
  | deny (ruleId engine summary : Str)
  deriving DecidableEq

/-- The loop over the pieces between stars; an empty one is passed over, and each way out of a
failed search is the same. -/
def findParts : List Str → Str → Bool
  | [], _ => true
  | part :: parts, v =>
      if part = [] then findParts parts v
      else
        match Scan.splitOnce part v with
        | some (_, rest) => findParts parts rest
        | none => false

/-- What is done with a pattern and a value once both are lower-cased. -/
def matchLowered (p v : Str) : Bool :=
  if p = ['*'] then true
  else if p.head? = some '*' then p.tail.isSuffixOf v
  else if p.getLast? = some '*' then p.dropLast.isPrefixOf v
  else if '*' ∈ p then findParts (Scan.splitAll ['*'] p) v
  else p = v

variable (table : Table)

def globMatch (pattern value : Str) : Bool :=
  matchLowered (toLowercase table pattern) (toLowercase table value)

/-- `eq_ignore_ascii_case`. -/
def eqIgnoreAsciiCase (a b : Str) : Bool := a.map Char.toLower = b.map Char.toLower

def appRuleMatches (rule : AppRule) (req : ExecRequest) : Bool :=
  if rule.path ≠ [] ∧ globMatch table rule.path req.imagePath = false then false
  else if rule.hashSha256 ≠ [] ∧ eqIgnoreAsciiCase req.hashSha256 rule.hashSha256 = false then false
  else if rule.signer ≠ [] ∧ eqIgnoreAsciiCase req.signer rule.signer = false then false
  else if rule.parentPath ≠ [] ∧ globMatch table rule.parentPath req.parentPath = false then false
  else rule.path ≠ [] || rule.hashSha256 ≠ [] || rule.signer ≠ [] || rule.parentPath ≠ []

def ruleMatchesExec (rule : VirtualPatchRule) (req : ExecRequest) : Bool :=
  if rule.path = [] then false else globMatch table rule.path req.imagePath

def evaluateExec (policy : EnforcementPolicy) (req : ExecRequest) : Decision :=
  match policy.virtualPatches.find? fun rule =>
    rule.action = .deny && ruleMatchesExec table rule req with
  | some rule =>
      .deny rule.id "era-virtual-patch".toList
        ("virtual patch ".toList ++ rule.cveId ++ " block ".toList ++ req.imagePath)
  | none =>
    match policy.appRules.find? fun rule =>
      rule.action = .deny && appRuleMatches table rule req with
    | some rule =>
        .deny rule.id "era-appcontrol".toList ("appcontrol deny ".toList ++ req.imagePath)
    | none => .allow

/-! ### What a pattern says -/

/-- Ignoring the case of each character, the value is had from the pattern. -/
def Covers (pattern value : Str) : Prop := Expands (lowerEach table pattern) (lowerEach table value)

/-- A policy of one rule that denies a path. -/
def denying (id pattern : Str) : EnforcementPolicy where
  appRules := [{ id, action := .deny, path := pattern }]

/-- The pattern matches the values that it covers and no others, and so does a rule that denies
it. -/
def MeansWhatItSays (pattern : Str) : Prop :=
  (∀ value, globMatch table pattern value = true ↔ Covers table pattern value) ∧
    (pattern ≠ [] → ∀ id req, evaluateExec table (denying id pattern) req ≠ .allow ↔
      Covers table pattern req.imagePath)

/-- There is no star, or one at one of the ends. -/
def AtMostOneEnd (p : Str) : Prop := ∃ s, '*' ∉ s ∧ (p = s ∨ p = '*' :: s ∨ p = s ++ ['*'])

/-- A sigma between these texts of a pattern may end a word of a value: going back, the signs that
are passed over apart, it comes after a cased letter or a star, and it comes before none. -/
def MayEndWord (before after_ : Str) : Prop :=
  (casedAhead table before.reverse = true ∨
    before.reverse.find? (fun c => !table.ignorable c) = some '*') ∧
    casedAhead table after_ = false

/-- No sigma of the pattern, of any form, may end a word. -/
def NoSigmaEnds (pattern : Str) : Prop :=
  ∀ before c after_, pattern = before ++ c :: after_ → IsSigma c → ¬ MayEndWord table before after_

/-- Where the shortcut that is taken for a pattern is right: a star at an end is followed to the
letter, and for stars inside it is enough that the pieces occur in order. -/
def ShortcutRight (p v : Str) : Prop :=
  if p.head? = some '*' then p = ['*'] ∨ (Expands p v → p.tail <:+ v)
  else if p.getLast? = some '*' then Expands p v → p.dropLast <+: v
  else InOrder (Scan.splitAll ['*'] p) v → Expands p v ∨ '*' ∉ p

theorem findParts_iff (parts : List Str) (v : Str) :
    findParts parts v = true ↔ InOrder parts v := by
  rw [← findInOrder_iff]
  induction parts generalizing v with
  | nil => rfl
  | cons part parts ih =>
      rw [findParts, findInOrder]
      by_cases empty : part = []
      · have front : Scan.splitOnce part v = some ([], v) := by
          rw [empty]
          cases v with
          | nil => rfl
          | cons c v => rfl
        rw [if_pos empty, front, ih]
      · rw [if_neg empty]
        cases Scan.splitOnce part v with
        | none => rfl
        | some halves => exact ih halves.2

/-- Where stars are passed over by the text itself. -/
theorem expands_self (p : Str) : Expands p p := by
  induction p with
  | nil => rfl
  | cons c p ih =>
      by_cases star : c = '*'
      · rw [star, expands_star]
        exact ⟨['*'], p, rfl, ih⟩
      · exact (expands_char c p _ star).mpr ⟨p, rfl, ih⟩

theorem expands_of_suffix (s v : Str) (ends : s <:+ v) : Expands ('*' :: s) v := by
  obtain ⟨front, shape⟩ := ends
  exact (expands_star s v).mpr ⟨front, s, shape.symm, expands_self s⟩

theorem expands_of_prefixed (s v : Str) (starts : s <+: v) : Expands (s ++ ['*']) v := by
  obtain ⟨back, shape⟩ := starts
  exact (expands_append s ['*'] v).mpr ⟨s, back, shape.symm, expands_self s,
    (expands_star [] back).mpr ⟨back, [], (List.append_nil back).symm, rfl⟩⟩

theorem inOrder_of_expands (p v : Str) (expands : Expands p v) :
    InOrder (Scan.splitAll ['*'] p) v := by
  rw [← expands_between, expands_star]
  refine ⟨[], v, rfl, (expands_append p ['*'] v).mpr ⟨v, [], (List.append_nil v).symm, expands, ?_⟩⟩
  exact (expands_star [] []).mpr ⟨[], [], rfl, rfl⟩

/-- For each lower-cased value: the pattern is matched as it says exactly if the shortcut is
right. -/
theorem matchLowered_iff (p v : Str) :
    (matchLowered p v = true ↔ Expands p v) ↔ ShortcutRight p v := by
  unfold matchLowered ShortcutRight
  by_cases lone : p = ['*']
  · subst lone
    have all_ : Expands ['*'] v := (expands_star [] v).mpr ⟨v, [], (List.append_nil v).symm, rfl⟩
    simp [all_]
  · rw [if_neg lone]
    by_cases first : p.head? = some '*'
    · obtain ⟨s, shape⟩ := List.head?_eq_some_iff.mp first
      rw [if_pos first, if_pos first, shape, List.tail_cons, List.isSuffixOf_iff_suffix]
      rw [shape] at lone
      constructor
      · intro same
        exact Or.inr same.mpr
      · intro either
        exact ⟨expands_of_suffix s v, either.resolve_left lone⟩
    · rw [if_neg first, if_neg first]
      by_cases last : p.getLast? = some '*'
      · obtain ⟨s, shape⟩ := List.getLast?_eq_some_iff.mp last
        rw [if_pos last, if_pos last, shape, List.dropLast_concat, List.isPrefixOf_iff_prefix]
        exact ⟨fun same => same.mpr, fun ends => ⟨expands_of_prefixed s v, ends⟩⟩
      · rw [if_neg last, if_neg last]
        by_cases star : '*' ∈ p
        · rw [if_pos star, findParts_iff]
          constructor
          · intro same inside
            exact Or.inl (same.mp inside)
          · intro right
            exact ⟨fun inside => (right inside).resolve_right (not_not_intro star),
              inOrder_of_expands p v⟩
        · rw [if_neg star, expands_of_plain p v star, decide_eq_true_eq]
          exact iff_of_true eq_comm fun _ => Or.inr star

theorem shortcutRight_of_oneEnd (p v : Str) (simple : AtMostOneEnd p) : ShortcutRight p v := by
  obtain ⟨s, plain, same | same | same⟩ := simple
  · have first : p.head? ≠ some '*' := by
      rw [same]
      exact fun head => plain (List.mem_of_head? head)
    have last : p.getLast? ≠ some '*' := by
      rw [same]
      exact fun last => plain (List.mem_of_getLast? last)
    rw [ShortcutRight, if_neg first, if_neg last]
    exact fun _ => Or.inr (same ▸ plain)
  · rw [ShortcutRight, same, if_pos List.head?_cons, List.tail_cons]
    exact Or.inr (expands_star_plain s v plain).mp
  · cases s with
    | nil =>
        rw [ShortcutRight, same]
        exact Or.inl rfl
    | cons c s =>
        have first : p.head? ≠ some '*' := by
          rw [same]
          intro head
          exact plain (Option.some.inj head ▸ List.mem_cons_self)
        rw [ShortcutRight, if_neg first, same, if_pos List.getLast?_concat, List.dropLast_concat]
        exact (expands_plain_star (c :: s) v plain).mp

/-- A pattern of another shape has a value that is mistaken, of characters that the pattern has in
small letters. -/
theorem exists_mistaken (p p' : Str) (size : p.length = p'.length)
    (stars : ∀ m : Nat, p[m]? = some '*' ↔ p'[m]? = some '*') (other : ¬ AtMostOneEnd p') :
    ∃ v, (v ⊆ p ∨ v ⊆ p') ∧ ¬ (matchLowered p v = true ↔ Expands p' v) := by
  have head : p.head? = some '*' ↔ p'.head? = some '*' := by
    rw [List.head?_eq_getElem?, List.head?_eq_getElem?]
    exact stars 0
  have last : p.getLast? = some '*' ↔ p'.getLast? = some '*' := by
    rw [List.getLast?_eq_getElem?, List.getLast?_eq_getElem?, size]
    exact stars _
  have inside' : '*' ∈ p' := by
    by_contra plain
    exact other ⟨p', plain, Or.inl rfl⟩
  have inside : '*' ∈ p := by
    obtain ⟨m, found⟩ := List.mem_iff_getElem?.mp inside'
    exact List.mem_of_getElem? ((stars m).mpr found)
  by_cases first : p'.head? = some '*'
  · obtain ⟨s', shape'⟩ := List.head?_eq_some_iff.mp first
    obtain ⟨s, shape⟩ := List.head?_eq_some_iff.mp (head.mpr first)
    have star : '*' ∈ s' := by
      by_contra plain
      exact other ⟨s', plain, Or.inr (Or.inl shape')⟩
    have short := length_erased s' star
    rw [shape, shape', List.length_cons, List.length_cons] at size
    have more : s ≠ [] := List.ne_nil_of_length_pos (by omega)
    refine ⟨p'.filter (· ≠ '*'), Or.inr (List.filter_subset_self p'), fun same => ?_⟩
    have matched := same.mpr (expands_erased p')
    rw [matchLowered, shape, if_neg (by simpa using more), if_pos List.head?_cons, List.tail_cons,
      List.isSuffixOf_iff_suffix] at matched
    have long := matched.length_le
    rw [shape', List.filter_cons_of_neg (by decide)] at long
    omega
  · have plainHead : p.head? ≠ some '*' := fun star => first (head.mp star)
    have lone : p ≠ ['*'] := fun same => plainHead (by rw [same, List.head?_cons])
    by_cases ends : p'.getLast? = some '*'
    · obtain ⟨s', shape'⟩ := List.getLast?_eq_some_iff.mp ends
      obtain ⟨s, shape⟩ := List.getLast?_eq_some_iff.mp (last.mpr ends)
      have star : '*' ∈ s' := by
        by_contra plain
        exact other ⟨s', plain, Or.inr (Or.inr shape')⟩
      have short := length_erased s' star
      refine ⟨p'.filter (· ≠ '*'), Or.inr (List.filter_subset_self p'), fun same => ?_⟩
      have matched := same.mpr (expands_erased p')
      rw [matchLowered, if_neg lone, if_neg plainHead, if_pos (last.mpr ends), shape,
        List.dropLast_concat, List.isPrefixOf_iff_prefix] at matched
      have long := matched.length_le
      rw [shape', List.filter_append, List.length_append] at long
      rw [shape, shape', List.length_append, List.length_append] at size
      have none_ : (['*'].filter (· ≠ '*')).length = 0 := by decide
      omega
    · have plainLast : p.getLast? ≠ some '*' := fun star => ends (last.mp star)
      refine ⟨'*' :: p.filter (· ≠ '*'),
        Or.inl (List.cons_subset.mpr ⟨inside, List.filter_subset_self p⟩), fun same => ?_⟩
      have pieces : InOrder (Scan.splitAll ['*'] p) ('*' :: p.filter (· ≠ '*')) :=
        inOrder_append _ ['*'] _ (inOrder_of_expands p _ (expands_erased p))
      have matched : matchLowered p ('*' :: p.filter (· ≠ '*')) = true := by
        rw [matchLowered, if_neg lone, if_neg plainHead, if_neg plainLast, if_pos inside,
          findParts_iff]
        exact pieces
      have expands := same.mp matched
      cases p' with
      | nil => exact absurd inside' List.not_mem_nil
      | cons c p' =>
          have plain : c ≠ '*' := fun star => first (by rw [star, List.head?_cons])
          obtain ⟨rest, shape, -⟩ := (expands_char c p' _ plain).mp expands
          exact plain (List.cons.inj shape).1.symm

/-! ### Sigmas -/

theorem casedAhead_append (a b : Str) :
    casedAhead table (a ++ b) =
      match a.find? fun c => !table.ignorable c with
      | some c => table.cased c
      | none => casedAhead table b := by
  unfold casedAhead
  rw [List.find?_append]
  cases a.find? fun c => !table.ignorable c with
  | none => rfl
  | some c => rfl

theorem noWordEnd_plain (s : Str) (quiet : NoSigmaEnds table s) : NoWordEnd table [] s [] := by
  intro before c after_ shape sigma
  rw [List.reverse_nil, List.append_nil, List.append_nil, ← Bool.not_eq_true, endsWord,
    Bool.and_eq_true, Bool.not_eq_true']
  intro ends
  exact quiet before c after_ shape sigma ⟨Or.inl ends.1, ends.2⟩

theorem noWordEnd_suffix (s front : Str) (quiet : NoSigmaEnds table ('*' :: s)) :
    NoWordEnd table front s [] := by
  intro before c after_ shape sigma
  rw [List.append_nil, ← Bool.not_eq_true, endsWord, Bool.and_eq_true, Bool.not_eq_true']
  intro ends
  apply quiet ('*' :: before) c after_ (by rw [shape, List.cons_append]) sigma
  refine ⟨?_, ends.2⟩
  have cased := ends.1
  rw [casedAhead_append] at cased
  rw [List.reverse_cons, casedAhead_append, List.find?_append]
  cases found : before.reverse.find? fun c => !table.ignorable c with
  | none => exact Or.inr (by simp [table.sign.1])
  | some d =>
      rw [found] at cased
      exact Or.inl cased

theorem noWordEnd_prefixed (s back : Str) (quiet : NoSigmaEnds table (s ++ ['*'])) :
    NoWordEnd table [] s back := by
  intro before c after_ shape sigma
  rw [List.reverse_nil, List.append_nil, ← Bool.not_eq_true, endsWord, Bool.and_eq_true,
    Bool.not_eq_true']
  intro ends
  apply quiet before c (after_ ++ ['*']) (by rw [shape, List.append_assoc, List.cons_append]) sigma
  refine ⟨Or.inl ends.1, ?_⟩
  have plain := ends.2
  rw [casedAhead_append] at plain ⊢
  cases found : after_.find? fun c => !table.ignorable c with
  | none => simp [casedAhead, table.sign.1, table.sign.2]
  | some d =>
      rw [found] at plain
      exact plain

/-! ### Stars -/

theorem star_mem_lowerEach (s : Str) : '*' ∈ lowerEach table s ↔ '*' ∈ s := by
  unfold lowerEach
  rw [List.mem_flatMap]
  constructor
  · intro ⟨c, member, star⟩
    rw [← (table.star c).mp star]
    exact member
  · intro member
    exact ⟨'*', member, (table.star '*').mpr rfl⟩

theorem lowerEach_star (s : Str) : lowerEach table ('*' :: s) = '*' :: lowerEach table s := by
  rw [lowerEach_cons, lower_star, List.singleton_append]

theorem lowerEach_concat_star (s : Str) :
    lowerEach table (s ++ ['*']) = lowerEach table s ++ ['*'] := by
  rw [lowerEach_append, lowerEach_star]
  rfl

/-- A star among the small letters is one of the text. -/
theorem exists_star (s front back : Str) (shape : lowerEach table s = front ++ '*' :: back) :
    ∃ before after_, s = before ++ '*' :: after_ ∧ lowerEach table before = front ∧
      lowerEach table after_ = back := by
  induction s generalizing front with
  | nil => exact absurd shape (by simp [lowerEach])
  | cons c s ih =>
      rw [lowerEach_cons] at shape
      rcases List.append_eq_append_iff.mp shape with ⟨more, whole, rest⟩ | ⟨more, whole, rest⟩
      · obtain ⟨before, after_, rfl, first, last⟩ := ih more rest
        exact ⟨c :: before, after_, rfl, by rw [lowerEach_cons, first, whole], last⟩
      · cases more with
        | nil =>
            rw [List.append_nil] at whole
            rw [List.nil_append] at rest
            obtain ⟨before, after_, rfl, first, last⟩ := ih [] rest.symm
            exact ⟨c :: before, after_, rfl, by rw [lowerEach_cons, first, whole, List.append_nil],
              last⟩
        | cons d more =>
            rw [List.cons_append, List.cons.injEq] at rest
            have star : '*' ∈ table.lower c := by
              rw [whole, rest.1]
              exact List.mem_append_right front List.mem_cons_self
            have same := (table.star c).mp star
            rw [same, lower_star] at whole
            have size := congrArg List.length whole
            rw [List.length_append, List.length_cons, List.length_cons, List.length_nil] at size
            have none_ : front = [] := List.eq_nil_of_length_eq_zero (by omega)
            have last : more = [] := List.eq_nil_of_length_eq_zero (by omega)
            rw [last, List.nil_append] at rest
            exact ⟨[], s, by rw [same, List.nil_append], none_.symm, rest.2.symm⟩

theorem atMostOneEnd_lowerEach_iff (p : Str) :
    AtMostOneEnd (lowerEach table p) ↔ AtMostOneEnd p := by
  constructor
  · intro ⟨s, plain, shape⟩
    rcases shape with same | same | same
    · refine ⟨p, ?_, Or.inl rfl⟩
      rw [← star_mem_lowerEach table, same]
      exact plain
    · obtain ⟨before, after_, rfl, first, last⟩ := exists_star table p [] s same
      rw [eq_nil_of_lowerEach table before first]
      refine ⟨after_, ?_, Or.inr (Or.inl rfl)⟩
      rw [← star_mem_lowerEach table, last]
      exact plain
    · obtain ⟨before, after_, rfl, first, last⟩ := exists_star table p s [] same
      rw [eq_nil_of_lowerEach table after_ last]
      refine ⟨before, ?_, Or.inr (Or.inr rfl)⟩
      rw [← star_mem_lowerEach table, first]
      exact plain
  · intro ⟨s, plain, shape⟩
    refine ⟨lowerEach table s, by rwa [star_mem_lowerEach], ?_⟩
    rcases shape with rfl | rfl | rfl
    · exact Or.inl rfl
    · exact Or.inr (Or.inl (lowerEach_star table s))
    · exact Or.inr (Or.inr (lowerEach_concat_star table s))

/-! ### A pattern of one shape -/

/-- The two lower-cased patterns have their stars at the same places. -/
theorem star_toLowercase_iff (s : Str) (m : Nat) :
    (toLowercase table s)[m]? = some '*' ↔ (lowerEach table s)[m]? = some '*' := by
  by_cases differ : (toLowercase table s)[m]? = (lowerEach table s)[m]?
  · rw [differ]
  · have other (t : Str) (there : SigmaAt table [] t m) : t[m]? ≠ some '*' := by
      obtain ⟨before, c, after_, rfl, rfl, sigma, -⟩ := there
      rw [List.getElem?_append_right (Nat.le_refl _), Nat.sub_self, List.getElem?_cons_zero]
      rintro same
      rcases sigma with rfl | rfl
      · exact absurd same (by decide)
      · exact absurd same (by decide)
    have both := sigmaAt_of_differ table [] s m differ
    exact iff_of_false (other _ both.1) (other _ both.2)

/-- A text at the end of another stands there after a front of some length. -/
theorem suffix_iff_window (s v : Str) :
    s <:+ v ↔
      ∃ n : Nat, ∃ front back, v = front ++ s ++ back ∧ front.length = n ∧ back.length = 0 := by
  simp [List.IsSuffix, List.length_eq_zero_iff, eq_comm]

theorem prefix_iff_window (s v : Str) :
    s <+: v ↔
      ∃ n : Nat, ∃ front back, v = front ++ s ++ back ∧ front.length = 0 ∧ back.length = n := by
  simp [List.IsPrefix, List.length_eq_zero_iff, eq_comm]

/-- Where no sigma of the pattern may end a word, lower-casing the value as a whole makes no
difference. -/
theorem expands_toLowercase_iff (pattern value : Str) (simple : AtMostOneEnd pattern)
    (quiet : NoSigmaEnds table pattern) :
    Expands (lowerEach table pattern) (toLowercase table value) ↔ Covers table pattern value := by
  unfold Covers
  obtain ⟨s, plain, shape⟩ := simple
  have plain' : '*' ∉ lowerEach table s := by rwa [star_mem_lowerEach]
  rcases shape with rfl | rfl | rfl
  · have window := exists_window_iff table value pattern 0 0 fun front back none_ empty => by
      rw [List.eq_nil_of_length_eq_zero none_, List.eq_nil_of_length_eq_zero empty]
      exact noWordEnd_plain table pattern quiet
    simpa [expands_of_plain _ _ plain', List.length_eq_zero_iff] using window
  · have window (n : Nat) := exists_window_iff table value s n 0 fun front back _ empty => by
      rw [List.eq_nil_of_length_eq_zero empty]
      exact noWordEnd_suffix table s front quiet
    rw [lowerEach_star, expands_star_plain _ _ plain', expands_star_plain _ _ plain',
      suffix_iff_window, suffix_iff_window]
    exact exists_congr window
  · have window (n : Nat) := exists_window_iff table value s 0 n fun front back none_ _ => by
      rw [List.eq_nil_of_length_eq_zero none_]
      exact noWordEnd_prefixed table s back quiet
    rw [lowerEach_concat_star, expands_plain_star _ _ plain', expands_plain_star _ _ plain',
      prefix_iff_window, prefix_iff_window]
    exact exists_congr window

/-- A pattern in which no sigma may end a word is lower-cased character by character. -/
theorem toLowercase_of_noSigmaEnds (pattern : Str) (quiet : NoSigmaEnds table pattern) :
    toLowercase table pattern = lowerEach table pattern :=
  toLowercase_of_quiet table pattern (noWordEnd_plain table pattern quiet)

/-- A text with the length and the stars of a pattern of one shape has its shape. -/
theorem sameShape (p s' : Str) (plain : '*' ∉ s') (shape : Str → Str)
    (size : p.length = (shape s').length)
    (stars : ∀ m : Nat, p[m]? = some '*' ↔ (shape s')[m]? = some '*')
    (one : shape = id ∨ shape = ('*' :: ·) ∨ shape = (· ++ ['*'])) :
    ∃ s, '*' ∉ s ∧ p = shape s ∧ s.length = s'.length := by
  have lacks (s : Str) (n : Nat) (place : ∀ m : Nat, s[m]? = some '*' →
      (shape s')[n + m]? = some '*' → s'[m]? = some '*')
      (shift : ∀ m : Nat, s[m]? = some '*' → p[n + m]? = some '*') : '*' ∉ s := by
    intro member
    obtain ⟨m, found⟩ := List.mem_iff_getElem?.mp member
    exact plain (List.mem_of_getElem? (place m found ((stars _).mp (shift m found))))
  rcases one with rfl | rfl | rfl
  · exact ⟨p, lacks p 0 (fun m _ there => by simpa using there)
      (fun m found => by simpa using found), rfl, size⟩
  · have first : p.head? = some '*' := by
      rw [List.head?_eq_getElem?, stars]
      rfl
    obtain ⟨s, rfl⟩ := List.head?_eq_some_iff.mp first
    refine ⟨s, lacks s 1 (fun m _ there => ?_) (fun m found => ?_), rfl, by simpa using size⟩
    · rwa [Nat.add_comm, List.getElem?_cons_succ] at there
    · rwa [Nat.add_comm, List.getElem?_cons_succ]
  · have last : p.getLast? = some '*' := by
      rw [List.getLast?_eq_getElem?, stars, size]
      simp
    obtain ⟨s, rfl⟩ := List.getLast?_eq_some_iff.mp last
    have same : s.length = s'.length := by simpa using size
    have within (m : Nat) (found : s[m]? = some '*') : m < s.length :=
      (List.getElem?_eq_some_iff.mp found).1
    refine ⟨s, lacks s 0 (fun m found there => ?_) (fun m found => ?_), rfl, same⟩
    · rwa [Nat.zero_add, List.getElem?_append_left (same ▸ within m found)] at there
    · rwa [Nat.zero_add, List.getElem?_append_left (within m found)]

/-- A pattern of one shape whose values are all matched as it says is lower-cased character by
character. -/
theorem toLowercase_of_means (pattern : Str) (simple : AtMostOneEnd pattern)
    (means : ∀ value, globMatch table pattern value = true ↔ Covers table pattern value) :
    toLowercase table pattern = lowerEach table pattern := by
  have size : (toLowercase table pattern).length = (lowerEach table pattern).length :=
    length_lowerFrom table [] pattern
  have stars := star_toLowercase_iff table pattern
  obtain ⟨s, plain, shape⟩ := simple
  have plain' : '*' ∉ lowerEach table s := by rwa [star_mem_lowerEach]
  have small := small_lowerEach table s
  -- The value is what the pattern says besides its star.
  have matched (covers : Expands (lowerEach table pattern) (lowerEach table s))
      (one : AtMostOneEnd (toLowercase table pattern)) : Expands (toLowercase table pattern)
        (lowerEach table s) := by
    have whole := means (lowerEach table s)
    unfold globMatch Covers at whole
    rw [toLowercase_small table _ small, lowerEach_small table _ small] at whole
    exact ((matchLowered_iff _ _).mpr (shortcutRight_of_oneEnd _ _ one)).mp (whole.mpr covers)
  rcases shape with rfl | rfl | rfl
  · obtain ⟨x, lacks, same, -⟩ :=
      sameShape _ (lowerEach table pattern) plain' id size stars (Or.inl rfl)
    have expands := matched (expands_self _) ⟨x, lacks, Or.inl same⟩
    rw [same] at expands ⊢
    exact ((expands_of_plain _ _ lacks).mp expands).symm
  · rw [lowerEach_star] at size stars ⊢
    obtain ⟨x, lacks, same, long⟩ :=
      sameShape _ (lowerEach table s) plain' ('*' :: ·) size stars (Or.inr (Or.inl rfl))
    have covers := expands_of_suffix (lowerEach table s) _ (List.suffix_refl _)
    rw [← lowerEach_star] at covers
    have expands := matched covers ⟨x, lacks, Or.inr (Or.inl same)⟩
    rw [same] at expands ⊢
    rw [((expands_star_plain x _ lacks).mp expands).eq_of_length long]
  · rw [lowerEach_concat_star] at size stars ⊢
    obtain ⟨x, lacks, same, long⟩ :=
      sameShape _ (lowerEach table s) plain' (· ++ ['*']) size stars (Or.inr (Or.inr rfl))
    have covers := expands_of_prefixed (lowerEach table s) _ (List.prefix_refl _)
    rw [← lowerEach_concat_star] at covers
    have expands := matched covers ⟨x, lacks, Or.inr (Or.inr same)⟩
    rw [same] at expands ⊢
    rw [((expands_plain_star x _ lacks).mp expands).eq_of_length long]

theorem exists_lower_sigma (c : Char) (sigma : IsSigma c) :
    ∃ a, table.lower c = [a] ∧ (a = 'σ' ∨ a = 'ς') := by
  rcases sigma with rfl | rfl | rfl
  · exact ⟨'σ', table.sigma, Or.inl rfl⟩
  · exact ⟨'σ', lower_small table, Or.inl rfl⟩
  · exact ⟨'ς', lower_final table, Or.inr rfl⟩

/-- Only one form of the sigma stands between two texts. -/
theorem one_form (x y : Str) (a : Char) (sigma : a = 'σ' ∨ a = 'ς') :
    ¬ (x ++ a :: y = x ++ 'ς' :: y ↔ x ++ a :: y = x ++ 'σ' :: y) := by
  rcases sigma with rfl | rfl
  · simp
  · simp

/-- A value with a sigma that ends a word, lower-cased as a whole and character by character. -/
theorem lower_value (x before after_ : Str) (small : Small table x)
    (cased : casedAhead table (before.reverse ++ x.reverse) = true)
    (last : casedAhead table after_ = false) :
    toLowercase table (x ++ lowerEach table before ++ 'Σ' :: lowerEach table after_) =
        x ++ lowerEach table before ++ 'ς' :: lowerEach table after_ ∧
      lowerEach table (x ++ lowerEach table before ++ 'Σ' :: lowerEach table after_) =
        x ++ lowerEach table before ++ 'σ' :: lowerEach table after_ := by
  have front : Small table (x ++ lowerEach table before) := by
    intro c member
    exact (List.mem_append.mp member).elim (small c) (small_lowerEach table before c)
  have back := small_lowerEach table after_
  refine ⟨toLowercase_sigma table _ _ front back ?_, lowerEach_sigma table _ _ front back⟩
  rw [endsWord, Bool.and_eq_true, Bool.not_eq_true']
  constructor
  · rw [← cased]
    apply casedAhead_congr
    rw [List.reverse_append, classes_append, classes_append, classes_reverse, classes_lowerEach,
      ← classes_reverse]
  · rw [← last]
    exact casedAhead_congr table _ _ (classes_lowerEach table after_)

/-- Lower-casing some value as a whole changes whether the pattern covers it. -/
def Mistaken (pattern : Str) : Prop :=
  ∃ value, ¬ (Expands (lowerEach table pattern) (toLowercase table value) ↔
    Covers table pattern value)

theorem lowerEach_around (before after_ : Str) (c a : Char) (image : table.lower c = [a]) :
    lowerEach table (before ++ c :: after_) = lowerEach table before ++ a :: lowerEach table
      after_ := by
  rw [lowerEach_append, lowerEach_cons, image, List.singleton_append]

theorem small_nil : Small table [] := fun _ none_ => absurd none_ List.not_mem_nil

theorem casedAhead_of_mayEndWord (before after_ : Str) (plain : '*' ∉ before)
    (may : MayEndWord table before after_) :
    casedAhead table (before.reverse ++ ([] : Str).reverse) = true := by
  rw [List.reverse_nil, List.append_nil]
  rcases may.1 with cased | star
  · exact cased
  · exact absurd (List.mem_reverse.mp (List.mem_of_find?_eq_some star)) plain

theorem mistaken_plain (before after_ : Str) (c : Char) (sigma : IsSigma c)
    (plain : '*' ∉ before ++ c :: after_) (may : MayEndWord table before after_) :
    Mistaken table (before ++ c :: after_) := by
  obtain ⟨a, image, form⟩ := exists_lower_sigma table c sigma
  have plain' : '*' ∉ lowerEach table (before ++ c :: after_) := by rwa [star_mem_lowerEach]
  have cased := casedAhead_of_mayEndWord table before after_
    (fun star => plain (List.mem_append_left _ star)) may
  have value := lower_value table [] before after_ (small_nil table) cased may.2
  refine ⟨[] ++ lowerEach table before ++ 'Σ' :: lowerEach table after_, fun same => ?_⟩
  rw [Covers, value.1, value.2, expands_of_plain _ _ plain', expands_of_plain _ _ plain',
    lowerEach_around table before after_ c a image, List.nil_append, eq_comm,
    eq_comm (a := lowerEach table before ++ 'σ' :: lowerEach table after_)] at same
  exact one_form _ _ a form same

theorem mistaken_suffix (before after_ : Str) (c : Char) (sigma : IsSigma c)
    (plain : '*' ∉ before ++ c :: after_) (may : MayEndWord table ('*' :: before) after_) :
    Mistaken table ('*' :: (before ++ c :: after_)) := by
  obtain ⟨a, image, form⟩ := exists_lower_sigma table c sigma
  have plain' : '*' ∉ lowerEach table (before ++ c :: after_) := by rwa [star_mem_lowerEach]
  have latin : Small table ['a'] := by
    intro d member
    rw [List.mem_singleton.mp member, table.latin]
  -- Behind the star the value begins with a letter.
  have cased : casedAhead table (before.reverse ++ ['a'].reverse) = true := by
    have first := may.1
    rw [List.reverse_cons, casedAhead_append, List.find?_append] at first
    rw [casedAhead_append]
    cases found : before.reverse.find? fun c => !table.ignorable c with
    | none => simp [casedAhead, table.letters 'a' List.mem_cons_self]
    | some d =>
        rw [found] at first
        rcases first with known | star
        · exact known
        · have member := List.mem_reverse.mp (List.mem_of_find?_eq_some found)
          rw [Option.some.inj star] at member
          exact absurd (List.mem_append_left _ member) plain
  have value := lower_value table ['a'] before after_ latin cased may.2
  have ends (other : Char) : lowerEach table (before ++ c :: after_) <:+
      ['a'] ++ lowerEach table before ++ other :: lowerEach table after_ ↔
        lowerEach table before ++ a :: lowerEach table after_ =
          lowerEach table before ++ other :: lowerEach table after_ := by
    rw [lowerEach_around table before after_ c a image, List.append_assoc, List.singleton_append,
      List.suffix_cons_iff]
    constructor
    · intro suffix
      rcases suffix with long | inside
      · exact absurd (congrArg List.length long) (by simp)
      · exact inside.eq_of_length (by simp)
    · intro equal
      rw [equal]
      exact Or.inr (List.suffix_refl _)
  refine ⟨['a'] ++ lowerEach table before ++ 'Σ' :: lowerEach table after_, fun same => ?_⟩
  rw [Covers, value.1, value.2, lowerEach_star, expands_star_plain _ _ plain',
    expands_star_plain _ _ plain', ends, ends] at same
  exact one_form _ _ a form same

theorem mistaken_prefixed (before after_ : Str) (c : Char) (sigma : IsSigma c)
    (plain : '*' ∉ before ++ c :: after_) (may : MayEndWord table before (after_ ++ ['*'])) :
    Mistaken table (before ++ c :: after_ ++ ['*']) := by
  obtain ⟨a, image, form⟩ := exists_lower_sigma table c sigma
  have plain' : '*' ∉ lowerEach table (before ++ c :: after_) := by rwa [star_mem_lowerEach]
  have cased :=
    casedAhead_of_mayEndWord table before _ (fun star => plain (List.mem_append_left _ star)) may
  -- Before the star the value ends.
  have last : casedAhead table after_ = false := by
    have ends := may.2
    rw [casedAhead_append] at ends
    unfold casedAhead
    cases found : after_.find? fun c => !table.ignorable c with
    | none => rfl
    | some d =>
        rw [found] at ends
        exact ends
  have value := lower_value table [] before after_ (small_nil table) cased last
  have starts (other : Char) : lowerEach table (before ++ c :: after_) <+:
      [] ++ lowerEach table before ++ other :: lowerEach table after_ ↔
        lowerEach table before ++ a :: lowerEach table after_ =
          lowerEach table before ++ other :: lowerEach table after_ := by
    rw [lowerEach_around table before after_ c a image, List.nil_append]
    constructor
    · intro starts
      exact starts.eq_of_length (by simp)
    · intro equal
      rw [equal]
  refine ⟨[] ++ lowerEach table before ++ 'Σ' :: lowerEach table after_, fun same => ?_⟩
  rw [Covers, value.1, value.2, lowerEach_concat_star, expands_plain_star _ _ plain',
    expands_plain_star _ _ plain', starts, starts] at same
  exact one_form _ _ a form same

/-- A pattern of one shape with a sigma that may end a word has a value that is mistaken. -/
theorem mistaken_of_sigma (before after_ : Str) (c : Char) (sigma : IsSigma c)
    (may : MayEndWord table before after_) (simple : AtMostOneEnd (before ++ c :: after_)) :
    Mistaken table (before ++ c :: after_) := by
  have other : c ≠ '*' := by
    rcases sigma with rfl | rfl | rfl
    · decide
    · decide
    · decide
  obtain ⟨s, plain, shape⟩ := simple
  rcases shape with same | same | same
  · exact mistaken_plain table before after_ c sigma (same ▸ plain) may
  · cases before with
    | nil => exact absurd (List.cons.inj same).1 other
    | cons d before =>
        rw [List.cons_append, List.cons.injEq] at same
        rw [same.1] at may ⊢
        exact mistaken_suffix table before after_ c sigma (same.2 ▸ plain) may
  · rcases List.eq_nil_or_concat after_ with rfl | ⟨back, d, rfl⟩
    · exact absurd (List.cons.inj (List.append_inj' same rfl).2).1 other
    · have parts : before ++ c :: back = s ∧ [d] = ['*'] :=
        List.append_inj' (by simpa using same) rfl
      rw [List.concat_eq_append, (List.cons.inj parts.2).1] at may ⊢
      have whole := mistaken_prefixed table before back c sigma (parts.1 ▸ plain) may
      rwa [List.append_assoc, List.cons_append] at whole

theorem noSigmaEnds_of_means (pattern : Str) (simple : AtMostOneEnd pattern)
    (means : ∀ value, globMatch table pattern value = true ↔ Covers table pattern value) :
    NoSigmaEnds table pattern := by
  rintro before c after_ rfl sigma may
  obtain ⟨value, mistaken⟩ := mistaken_of_sigma table before after_ c sigma may simple
  have one := (atMostOneEnd_lowerEach_iff table (before ++ c :: after_)).mpr simple
  apply mistaken
  rw [← means value, globMatch, toLowercase_of_means table _ simple means]
  exact ((matchLowered_iff _ _).mpr (shortcutRight_of_oneEnd _ _ one)).symm

theorem denied_iff (id pattern : Str) (req : ExecRequest) :
    evaluateExec table (denying id pattern) req ≠ .allow ↔ pattern ≠ [] ∧
      globMatch table pattern req.imagePath = true := by
  unfold evaluateExec denying appRuleMatches
  by_cases empty : pattern = []
  · simp [empty]
  · cases hit : globMatch table pattern req.imagePath with
    | true => simp [empty, hit]
    | false => simp [empty, hit]

/-- A pattern means what it says exactly if it has no star, or one at one of its ends, and no sigma
in it may end a word; and each value is matched as the pattern says exactly if the shortcut is right
and lower-casing whole texts makes no difference, or neither. -/
theorem meansWhatItSays_iff (pattern : Str) :
    (MeansWhatItSays table pattern ↔ AtMostOneEnd pattern ∧ NoSigmaEnds table pattern) ∧
      ∀ value, (globMatch table pattern value = true ↔ Covers table pattern value) ↔
        (ShortcutRight (toLowercase table pattern) (toLowercase table value) ↔
          (Expands (toLowercase table pattern) (toLowercase table value) ↔
            Covers table pattern value)) := by
  constructor
  · constructor
    · intro means
      have simple : AtMostOneEnd pattern := by
        by_contra other
        obtain ⟨v, chars, mistaken⟩ :=
          exists_mistaken (toLowercase table pattern) (lowerEach table pattern)
            (length_lowerFrom table [] pattern) (star_toLowercase_iff table pattern)
            fun one => other ((atMostOneEnd_lowerEach_iff table pattern).mp one)
        have small : Small table v := by
          intro d member
          rcases chars with whole | each
          · exact small_toLowercase table pattern d (whole member)
          · exact small_lowerEach table pattern d (each member)
        have value := means.1 v
        unfold globMatch Covers at value
        rw [toLowercase_small table v small, lowerEach_small table v small] at value
        exact mistaken value
      exact ⟨simple, noSigmaEnds_of_means table pattern simple means.1⟩
    · intro ⟨simple, quiet⟩
      have every (value : Str) :
          globMatch table pattern value = true ↔ Covers table pattern value := by
        rw [← expands_toLowercase_iff table pattern value simple quiet, globMatch,
          toLowercase_of_noSigmaEnds table pattern quiet]
        exact (matchLowered_iff _ _).mpr
          (shortcutRight_of_oneEnd _ _ ((atMostOneEnd_lowerEach_iff table pattern).mpr simple))
      refine ⟨every, fun some_ id req => ?_⟩
      rw [denied_iff, every]
      exact and_iff_right some_
  · intro value
    rw [← matchLowered_iff, globMatch]
    tauto

/-- Only a sign itself is lower-cased to it. -/
theorem toLower_eq_iff (c q : Char) (sign : ¬ q.isAlpha) : c.toLower = q ↔ c = q := by
  have own : q.toLower = q :=
    Char.toLower_eq_of_not_isUpper fun upper => sign (by simp [Char.isAlpha, upper])
  constructor
  · intro same
    have plain : ¬ c.isAlpha := by
      rw [← Char.isAlpha_toLower_eq_isAlpha, same]
      exact sign
    rwa [Char.toLower_eq_of_not_isUpper fun upper => plain (by simp [Char.isAlpha, upper])] at same
  · rintro rfl
    exact own

/-- ASCII and the sigma. -/
def basicTable : Table where
  lower c := if c = 'Σ' then ['σ'] else [c.toLower]
  cased c := c.isAlpha || c = 'Σ' || c = 'σ' || c = 'ς'
  ignorable c := c = '.' || c = '\''
  one c := by split <;> simp
  lowered c d member := by
    split at member
    · rw [List.mem_singleton.mp member]
      rfl
    · rename_i other
      rw [List.mem_singleton.mp member, if_neg (by rwa [toLower_eq_iff c 'Σ' (by decide)]),
        Char.toLower_toLower_eq_toLower]
  star c := by
    split
    · rename_i sigma
      rw [sigma]
      decide
    · rw [List.mem_singleton, eq_comm, toLower_eq_iff c '*' (by decide)]
  sigma := rfl
  small c member := by
    split at member
    · rename_i sigma
      exact Or.inl sigma
    · exact Or.inr ((toLower_eq_iff c 'σ' (by decide)).mp (List.mem_singleton.mp member).symm)
  final c := by
    split
    · rename_i sigma
      rw [sigma]
      decide
    · rw [List.mem_singleton, eq_comm, toLower_eq_iff c 'ς' (by decide)]
  alike c := by
    split
    · rename_i sigma
      rw [sigma]
      rfl
    · have sign (q : Char) (plain : ¬ q.isAlpha) := toLower_eq_iff c q plain
      have dot := sign '.' (by decide)
      have quote := sign '\'' (by decide)
      have capital := sign 'Σ' (by decide)
      have small := sign 'σ' (by decide)
      have final := sign 'ς' (by decide)
      by_cases ignorable : c = '.' ∨ c = '\''
      · rcases ignorable with rfl | rfl
        · rfl
        · rfl
      · rw [not_or] at ignorable
        simp [dot, quote, capital, small, final, ignorable.1, ignorable.2,
          Char.isAlpha_toLower_eq_isAlpha]
  sign := by decide
  letters c member := by
    simp only [List.mem_cons, List.not_mem_nil, or_false] at member
    rcases member with rfl | rfl | rfl | rfl
    · decide
    · decide
    · decide
    · decide
  latin := rfl

/-- `*a*` does not match `bad`, `a*b` matches `xab`, and a sigma before the star is not the same in
the value. -/
theorem stars_mistaken :
    ¬ MeansWhatItSays basicTable "*a*".toList ∧
      (globMatch basicTable "a*b".toList "xab".toList = true ∧
        ¬ Covers basicTable "a*b".toList "xab".toList) ∧
        globMatch basicTable "aΣ*".toList "aΣa".toList = false ∧
          Covers basicTable "aΣ*".toList "aΣa".toList := by
  refine ⟨?_, ⟨by decide, ?_⟩, by decide, ?_⟩
  · intro means
    have covered : Covers basicTable "*a*".toList "bad".toList :=
      (expands_star ['a', '*'] _).mpr ⟨['b'], ['a', 'd'], rfl,
        (expands_char 'a' ['*'] _ (by decide)).mpr
          ⟨['d'], rfl, (expands_star [] _).mpr ⟨['d'], [], rfl, rfl⟩⟩⟩
    exact absurd ((means.1 "bad".toList).mpr covered) (by decide)
  · intro covered
    obtain ⟨rest, shape, -⟩ := (expands_char 'a' ['*', 'b'] "xab".toList (by decide)).mp covered
    exact absurd (List.cons.inj shape).1 (by decide)
  · exact expands_of_prefixed ['a', 'σ'] _ ⟨['a'], rfl⟩

end EraOne.AppControl
