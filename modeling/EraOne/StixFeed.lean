import EraOne.LowerCase

set_option autoImplicit false

/- Indicators of a STIX bundle as a feed (`tip/stix.go`, `tip/national.go`). A bundle is given as
JSON decodes it; fields that nothing reads are left out. -/
namespace EraOne.Tip

open LowerCase

/-! ### The import -/

structure Feed where
  patterns : List Str := []
  deriving DecidableEq

structure STIXIndicator where
  type : Str
  pattern : Str
  deriving DecidableEq

structure STIXBundle where
  type : Str
  objects : List STIXIndicator
  deriving DecidableEq

/-- The text from the first quote to the last, if there are two. -/
def betweenQuotes (pattern : Str) : Option Str :=
  let inner := (pattern.dropWhile (· ≠ '\'')).drop 1
  if '\'' ∈ inner then some ((inner.reverse.dropWhile (· ≠ '\'')).drop 1).reverse else none

def extractIOCs (pattern : Str) : List Str :=
  let pattern := Scan.trim pattern
  if pattern = [] then []
  else
    match betweenQuotes pattern with
    | some ioc => [ioc]
    | none => [pattern]

/-- The patterns of an object. -/
def STIXIndicator.patterns (obj : STIXIndicator) : List Str :=
  if obj.type ≠ [] ∧ obj.type ≠ "indicator".toList then []
  else (extractIOCs obj.pattern).filter (· ≠ [])

/-- `FeedFromSTIX` behind `json.Unmarshal`. -/
def feedFromSTIX (b : STIXBundle) : Except Str Feed :=
  if b.type ≠ [] ∧ b.type ≠ "bundle".toList then .error "tip: not a STIX bundle".toList
  else .ok { patterns := b.objects.flatMap STIXIndicator.patterns }

variable (table : Table)

/-- `Feed.Match`. -/
def Feed.matches (feed : Feed) (payload : Str) : Bool × Str :=
  if feed.patterns.any fun p => p ≠ [] && table.contains payload p then
    (true, "era-national-ioc".toList)
  else (false, [])

/-! ### Patterns -/

/-- `object:property = 'value'`. -/
structure Comparison where
  object : Str
  property : Str
  value : Str
  deriving DecidableEq

inductive Connective where
  | and | or
  deriving DecidableEq

def Connective.text : Connective → Str
  | .and => " AND ".toList
  | .or => " OR ".toList

/-- What stands before the value. -/
def Comparison.path (c : Comparison) : Str := c.object ++ ':' :: c.property ++ " = ".toList

def Comparison.text (c : Comparison) : Str := c.path ++ '\'' :: c.value ++ ['\'']

def PlainValue (value : Str) : Prop := '\'' ∉ value ∧ '\\' ∉ value

/-- Comparisons joined in square brackets. -/
def patternOf (first : Comparison) (rest : List (Connective × Comparison)) : Str :=
  '[' :: (first.text ++ rest.flatMap fun next => next.1.text ++ next.2.text) ++ [']']

def indicatorOf (first : Comparison) (rest : List (Connective × Comparison)) : STIXIndicator where
  type := "indicator".toList
  pattern := patternOf first rest

/-- In every bundle with the indicator, a payload with one of its values is a hit. -/
def NoneLost (first : Comparison) (rest : List (Connective × Comparison)) : Prop :=
  ∀ before behind payload, (∃ c ∈ first :: rest.map Prod.snd, table.Occurs c.value payload) →
    ∃ feed, feedFromSTIX
      { type := "bundle".toList, objects := before ++ indicatorOf first rest :: behind } = .ok
        feed ∧
      feed.matches table payload = (true, "era-national-ioc".toList)

/-! ### What is extracted -/

theorem betweenQuotes_eq (front inner back : Str) (first : '\'' ∉ front) (last : '\'' ∉ back) :
    betweenQuotes (front ++ '\'' :: (inner ++ '\'' :: back)) = some inner := by
  have forwards : ∀ c ∈ front, decide (c ≠ '\'') = true := by
    intro c member
    exact decide_eq_true fun same => first (same ▸ member)
  have backwards : ∀ c ∈ back.reverse, decide (c ≠ '\'') = true := by
    intro c member
    exact decide_eq_true fun same => last (same ▸ List.mem_reverse.mp member)
  have opened : (front ++ '\'' :: (inner ++ '\'' :: back)).dropWhile
      (· ≠ '\'') = '\'' :: (inner ++ '\'' :: back) := by
    rw [List.dropWhile_append_of_pos forwards]
    rfl
  have closed : (inner ++ '\'' :: back).reverse.dropWhile (· ≠ '\'') = '\'' :: inner.reverse := by
    rw [List.reverse_append, List.reverse_cons, List.append_assoc,
      List.dropWhile_append_of_pos backwards]
    rfl
  rw [betweenQuotes, opened, List.drop_succ_cons, List.drop_zero,
    if_pos (List.mem_append_right _ List.mem_cons_self), closed, List.drop_succ_cons,
    List.drop_zero, List.reverse_reverse]

theorem trim_patternOf (first : Comparison) (rest : List (Connective × Comparison)) :
    Scan.trim (patternOf first rest) = patternOf first rest := by
  rw [Scan.trim_eq_self_iff]
  constructor
  · intro c head
    cases head
    decide
  · intro c last
    rw [patternOf, List.getLast?_concat] at last
    cases last
    decide

/-- A text with two quotes: the first and the last of them. -/
theorem exists_between (s : Str) (two : 2 ≤ s.count '\'') :
    ∃ front inner back, s = front ++ '\'' :: (inner ++ '\'' :: back) ∧ '\'' ∉ front ∧
      '\'' ∉ back := by
  obtain ⟨front, rest, shape, first⟩ :=
    List.eq_append_cons_of_mem (List.count_pos_iff.mp (by omega : 0 < s.count '\''))
  have one : 1 ≤ rest.count '\'' := by
    rw [shape, List.count_append, List.count_cons_self, List.count_eq_zero.mpr first] at two
    omega
  obtain ⟨back, inner, shape', last⟩ :=
    List.eq_append_cons_of_mem
      (List.mem_reverse.mpr (List.count_pos_iff.mp (by omega : 0 < rest.count '\'')))
  refine ⟨front, inner.reverse, back.reverse, ?_, first, fun member =>
    last (List.mem_reverse.mp member)⟩
  have turned := congrArg List.reverse shape'
  rw [List.reverse_reverse] at turned
  rw [shape, turned]
  simp

theorem extractIOCs_patternOf (first : Comparison) (rest : List (Connective × Comparison))
    (ioc : Str) (found : betweenQuotes (patternOf first rest) = some ioc) :
    extractIOCs (patternOf first rest) = [ioc] := by
  rw [extractIOCs, trim_patternOf,
    if_neg (show patternOf first rest ≠ [] from List.cons_ne_nil _ _), found]

theorem count_text (c : Comparison) : 2 ≤ c.text.count '\'' := by
  rw [Comparison.text, List.count_append, List.count_append, List.count_cons_self,
    List.count_singleton_self]
  omega

/-- Nothing but a value stands between the quotes of a single comparison with a plain path. -/
theorem quotes_patternOf (first : Comparison) (rest : List (Connective × Comparison)) :
    (rest = [] ∧ '\'' ∉ first.object ∧ '\'' ∉ first.property ∧
        betweenQuotes (patternOf first rest) = some first.value) ∨
      ¬ (rest = [] ∧ '\'' ∉ first.object ∧ '\'' ∉ first.property) ∧
        ∃ ioc, betweenQuotes (patternOf first rest) = some ioc ∧ '\'' ∈ ioc := by
  by_cases single : rest = [] ∧ '\'' ∉ first.object ∧ '\'' ∉ first.property
  · obtain ⟨none_, object, property⟩ := single
    refine Or.inl ⟨none_, object, property, ?_⟩
    have clean : '\'' ∉ '[' :: first.path := by
      simp [Comparison.path, object, property]
    have shape :
        patternOf first rest = ('[' :: first.path) ++ '\'' :: (first.value ++ '\'' :: [']']) := by
      rw [none_]
      simp [patternOf, Comparison.text]
    rw [shape]
    exact betweenQuotes_eq _ _ _ clean (by decide)
  · refine Or.inr ⟨single, ?_⟩
    have three : 3 ≤ (patternOf first rest).count '\'' := by
      have total : (patternOf first rest).count '\'' =
          first.text.count '\'' + (rest.flatMap fun next => next.1.text ++ next.2.text).count
            '\'' := by
        simp [patternOf, List.count_append]
      have here := count_text first
      cases rest with
      | cons next rest =>
          have there := count_text next.2
          rw [List.flatMap_cons, List.count_append, List.count_append] at total
          omega
      | nil =>
          have path : 1 ≤ first.path.count '\'' := by
            rw [Nat.one_le_iff_ne_zero, Ne, List.count_eq_zero]
            intro absent
            apply single
            simpa [Comparison.path] using absent
          rw [Comparison.text, List.count_append, List.count_append, List.count_cons_self,
            List.count_singleton_self] at total
          omega
    obtain ⟨front, inner, back, shape, clean, cleanBack⟩ :=
      exists_between (patternOf first rest) (by omega)
    refine ⟨inner, by rw [shape]; exact betweenQuotes_eq _ _ _ clean cleanBack, ?_⟩
    have total := congrArg (List.count '\'') shape
    rw [List.count_append, List.count_cons_self, List.count_append, List.count_cons_self,
      List.count_eq_zero.mpr clean, List.count_eq_zero.mpr cleanBack] at total
    exact List.count_pos_iff.mp (by omega)

theorem patterns_indicatorOf (first : Comparison) (rest : List (Connective × Comparison))
    (ioc : Str) (found : betweenQuotes (patternOf first rest) = some ioc) :
    (indicatorOf first rest).patterns = if ioc = [] then [] else [ioc] := by
  have kept :
      ¬ ((indicatorOf first rest).type ≠ [] ∧ (indicatorOf first rest).type ≠ "indicator".toList) :=
    fun other => other.2 rfl
  have pattern : (indicatorOf first rest).pattern = patternOf first rest := rfl
  rw [STIXIndicator.patterns, if_neg kept, pattern, extractIOCs_patternOf first rest ioc found]
  by_cases empty : ioc = []
  · rw [if_pos empty, empty]
    rfl
  · rw [if_neg empty, List.filter_cons_of_pos (by simpa using empty), List.filter_nil]

theorem feedFromSTIX_bundle (objects : List STIXIndicator) :
    feedFromSTIX { type := "bundle".toList, objects } = .ok
      { patterns := objects.flatMap STIXIndicator.patterns } := by
  unfold feedFromSTIX
  exact if_neg fun other => other.2 rfl

/-- An indicator loses no payload exactly if it is one comparison, without a quote before its value,
and the value is not empty. -/
theorem noneLost_iff (first : Comparison) (rest : List (Connective × Comparison))
    (plain : ∀ c ∈ first :: rest.map Prod.snd, PlainValue c.value) :
    NoneLost table first rest ↔ rest = [] ∧ '\'' ∉ first.object ∧ '\'' ∉ first.property ∧
      first.value ≠ [] := by
  have here := plain first List.mem_cons_self
  -- the feed of a bundle that has the indicator alone
  have alone (ioc : Str) (found : betweenQuotes (patternOf first rest) = some ioc) :
      feedFromSTIX { type := "bundle".toList, objects := [] ++ indicatorOf first rest :: [] } =
        .ok { patterns := if ioc = [] then [] else [ioc] } := by
    rw [feedFromSTIX_bundle, List.nil_append, List.flatMap_cons, List.flatMap_nil, List.append_nil,
      patterns_indicatorOf first rest ioc found]
  constructor
  · intro kept
    obtain ⟨feed, made, hit⟩ := kept [] [] first.value ⟨first, List.mem_cons_self, List.infix_rfl⟩
    rcases quotes_patternOf first rest with ⟨none_, object, property, found⟩ | ⟨-, ioc, found,
        quote⟩
    · refine ⟨none_, object, property, ?_⟩
      intro empty
      rw [alone _ found, if_pos empty] at made
      cases made
      cases hit
    · exfalso
      have some_ : ioc ≠ [] := List.ne_nil_of_mem quote
      rw [alone _ found, if_neg some_] at made
      cases made
      have other : ¬ table.contains first.value ioc = true := by
        rw [contains_iff]
        intro occurs
        have inside :=
          occurs.subset ((mem_toLower_sign table '\'' (by decide) (by decide) ioc).mpr quote)
        exact here.1 ((mem_toLower_sign table '\'' (by decide) (by decide) first.value).mp inside)
      rw [Feed.matches, if_neg (by simpa [some_] using other)] at hit
      cases hit
  · rintro ⟨none_, object, property, some_⟩ before behind payload ⟨c, member, occurs⟩
    have found : betweenQuotes (patternOf first rest) = some first.value := by
      rcases quotes_patternOf first rest with single | ⟨several, -⟩
      · exact single.2.2.2
      · exact absurd ⟨none_, object, property⟩ several
    rw [none_, List.map_nil, List.mem_singleton] at member
    refine ⟨_, feedFromSTIX_bundle _, ?_⟩
    rw [Feed.matches, if_pos]
    rw [List.any_eq_true]
    refine ⟨first.value, ?_, ?_⟩
    · rw [List.flatMap_append, List.flatMap_cons, patterns_indicatorOf first rest _ found,
        if_neg some_]
      simp
    · rw [member] at occurs
      simp [some_, (contains_iff table payload first.value).mpr occurs]

def domain (value : String) : Comparison :=
  { object := "domain-name".toList, property := "value".toList, value := value.toList }

theorem domain_kept : NoneLost asciiTable (domain "evil.tld") [] :=
  (noneLost_iff asciiTable (domain "evil.tld") [] (by
    intro c member
    rw [List.mem_singleton.mp member]
    exact ⟨by decide, by decide⟩)).mpr ⟨rfl, by decide, by decide, by decide⟩

/-- Of two domains none is found. -/
theorem domains_lost : ¬ NoneLost asciiTable (domain "evil.tld") [(.or, domain "bad.tld")] := by
  intro kept
  obtain ⟨feed, made, hit⟩ := kept [] [] "GET http://evil.tld/".toList
    ⟨domain "evil.tld", List.mem_cons_self, by decide⟩
  have loaded :
      feedFromSTIX
        { type := "bundle".toList,
          objects := [indicatorOf (domain "evil.tld") [(.or, domain "bad.tld")]] } =
      .ok { patterns := ["evil.tld' OR domain-name:value = 'bad.tld".toList] } := by decide
  cases loaded.symm.trans made
  exact absurd hit (by decide)

end EraOne.Tip
