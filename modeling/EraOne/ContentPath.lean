import EraOne.LowerCase
import EraOne.PathGlob
import EraOne.Utf8

set_option autoImplicit false

/- Content rules of `services/dlp/internal/content/inspect.go`, and what their path globs cover. -/
namespace EraOne.ContentDlp

open LowerCase (Table)
open PathGlob
open Utf8 (utf8)

/-- A rule as it is loaded; a compiled pattern says where it first matches. -/
structure Rule where
  id : Str
  category : Str
  severity : Str
  mime : Str := []
  pathGlob : Str := []
  re : Option (List UInt8 → Option (Nat × Nat)) := none

structure Finding where
  ruleID : Str
  category : Str
  severity : Str
  snippet : List UInt8
  deriving DecidableEq, Repr

structure Request where
  path : Str := []
  mime : Str := []
  content : List UInt8 := []

structure Result where
  blocked : Bool
  findings : List Finding

section Inspect

/- The case tables, and `strings.EqualFold`. -/
variable (table : Table) (equalFold : Str → Str → Bool)

/-- `strings.TrimPrefix`. -/
def trimPrefix (front s : Str) : Str := (Scan.strip front s).getD s

/-- `filepath.Base`. -/
def base (path : Str) : Str :=
  if path = [] then ['.']
  else
    let last := (path.rdropWhile (· = '/')).rtakeWhile (· ≠ '/')
    if last = [] then ['/'] else last

def pathMatch (glob path : Str) : Bool :=
  let g := table.toLower (trimPrefix "**/".toList glob)
  let p := table.toLower path
  if Scan.contains ['*'] g then Scan.contains (Scan.trimMatches '/' (g.filter (· ≠ '*'))) p
  else Scan.contains g p || base p = g

/-- The place of a match, cut to 64 bytes. -/
def cutMatch (content : List UInt8) (loc : Nat × Nat) : List UInt8 :=
  (content.drop loc.1).take (min (loc.2 - loc.1) 64)

/-- The snippets of a rule that hits, each behind the ones it replaces. -/
def snippets (rule : Rule) (req : Request) : List (List UInt8) :=
  (if rule.mime ≠ [] ∧ equalFold rule.mime req.mime then [utf8 ("mime:".toList ++ req.mime)]
    else []) ++
    (if rule.pathGlob ≠ [] ∧ pathMatch table rule.pathGlob req.path then
      [utf8 ("path:".toList ++ req.path)] else []) ++
    (match rule.re with
      | some find =>
          if req.content ≠ [] then ((find req.content).map (cutMatch req.content)).toList else []
      | none => [])

def finding (req : Request) (rule : Rule) : Option Finding :=
  (snippets table equalFold rule req).getLast?.map fun snippet =>
    { ruleID := rule.id, category := rule.category, severity := rule.severity, snippet := snippet }

def inspect (rules : List Rule) (req : Request) : Result :=
  let findings := rules.filterMap (finding table equalFold req)
  { blocked := findings.any fun f => f.severity = "critical".toList ∨ f.severity = "high".toList,
    findings := findings }

end Inspect

/-! ### What a glob covers -/

section Covers

variable (table : Table)

/-- The whole path is what the glob stands for, ignoring case. -/
def Covers (glob path : Str) : Prop := Matches (parts (table.toLower glob)) (table.toLower path)

instance (glob path : Str) : Decidable (Covers table glob path) :=
  inferInstanceAs (Decidable (Matches _ _))

/-- `**/` in front of a text. -/
theorem trimPrefix_dirs (s : Str) : trimPrefix "**/".toList ('*' :: '*' :: '/' :: s) = s := by
  simp [trimPrefix, Scan.strip]

theorem trimPrefix_other (s : Str) (other : ∀ r, s ≠ '*' :: '*' :: '/' :: r) :
    trimPrefix "**/".toList s = s := by
  unfold trimPrefix Scan.strip
  rw [if_neg]
  · rfl
  · intro front
    obtain ⟨r, shape⟩ := List.isPrefixOf_iff_prefix.mp front
    exact other r shape.symm

theorem toLower_dirs (s : Str) :
    table.toLower ('*' :: '*' :: '/' :: s) = '*' :: '*' :: '/' :: table.toLower s := by
  have star := LowerCase.low_sign table '*' (by decide) (by decide)
  have slash := LowerCase.low_sign table '/' (by decide) (by decide)
  unfold Table.toLower
  rw [List.map_cons, List.map_cons, List.map_cons, star, slash]

/-- The case does not matter for `**/`. -/
theorem toLower_trimPrefix (glob : Str) :
    table.toLower (trimPrefix "**/".toList glob) = trimPrefix "**/".toList
      (table.toLower glob) := by
  by_cases dirs : ∃ r, glob = '*' :: '*' :: '/' :: r
  · obtain ⟨r, shape⟩ := dirs
    rw [shape, trimPrefix_dirs, toLower_dirs, trimPrefix_dirs]
  · rw [trimPrefix_other glob fun r shape => dirs ⟨r, shape⟩, trimPrefix_other]
    intro r shape
    apply dirs
    have star (c : Char) := LowerCase.eq_of_low_eq_sign table c '*' (by decide) (by decide)
    have slash (c : Char) := LowerCase.eq_of_low_eq_sign table c '/' (by decide) (by decide)
    unfold Table.toLower at shape
    obtain ⟨a, s₁, rfl, first, shape⟩ := List.map_eq_cons_iff.mp shape
    obtain ⟨b, s₂, rfl, second, shape⟩ := List.map_eq_cons_iff.mp shape
    obtain ⟨c, s₃, rfl, third, -⟩ := List.map_eq_cons_iff.mp shape
    exact ⟨s₃, by rw [star a first, star b second, slash c third]⟩

/-- A glob behind its first `**/`. -/
theorem parts_trimPrefix (g : Str) :
    parts g = .dirs :: parts (trimPrefix "**/".toList g) ∨
      parts g = parts (trimPrefix "**/".toList g) := by
  by_cases dirs : ∃ r, g = '*' :: '*' :: '/' :: r
  · left
    obtain ⟨r, shape⟩ := dirs
    rw [shape, trimPrefix_dirs, parts]
  · right
    rw [trimPrefix_other g fun r shape => dirs ⟨r, shape⟩]

theorem trimMatches_around (x y word : Str) (left : ∀ c ∈ x, c = '/') (right : ∀ c ∈ y, c = '/')
    (trimmed : Trimmed word) :
    Scan.trimMatches '/' (x ++ (word ++ y)) = word := by
  have dropLeft (s : Str) : (x ++ s).dropWhile (· = '/') = s.dropWhile (· = '/') :=
    List.dropWhile_append_of_pos fun c member => decide_eq_true (left c member)
  have dropRight (s : Str) : (s ++ y).rdropWhile (· = '/') = s.rdropWhile (· = '/') := by
    unfold List.rdropWhile
    rw [List.reverse_append, List.dropWhile_append_of_pos]
    intro c member
    exact decide_eq_true (right c (List.mem_reverse.mp member))
  unfold Scan.trimMatches Scan.trimStartMatches Scan.trimEndMatches
  rw [dropLeft]
  cases word with
  | nil =>
      rw [List.nil_append, List.rdropWhile_eq_nil_iff]
      intro c member
      exact decide_eq_true (right c ((List.dropWhile_suffix _).subset member))
  | cons c word =>
      have first : c ≠ '/' := fun slash => trimmed.1 (congrArg some slash)
      rw [List.cons_append, List.dropWhile_cons_of_neg (by simpa using first), ← List.cons_append,
        dropRight, List.rdropWhile_eq_self_iff]
      intro nonempty slash
      apply trimmed.2
      rw [List.getLast?_eq_some_getLast nonempty, of_decide_eq_true slash]

theorem trimmed_trimMatches (s : Str) : Trimmed (Scan.trimMatches '/' s) := by
  unfold Scan.trimMatches Scan.trimStartMatches Scan.trimEndMatches
  constructor
  · intro head
    obtain ⟨rest, shape⟩ := List.rdropWhile_prefix (fun c : Char => decide (c = '/'))
      (s.dropWhile fun c => decide (c = '/'))
    have first : (s.dropWhile fun c => decide (c = '/')).head? = some '/' := by
      rw [← shape, List.head?_append, head]
      rfl
    have kept := List.head?_dropWhile_not (fun c : Char => decide (c = '/')) s
    rw [first] at kept
    cases kept
  · intro last
    obtain ⟨front, shape⟩ := List.getLast?_eq_some_iff.mp last
    have nonempty :
        (s.dropWhile fun c => decide (c = '/')).rdropWhile (fun c => decide (c = '/')) ≠ [] := by
      rw [shape]
      exact List.append_ne_nil_of_right_ne_nil _ (List.cons_ne_nil _ _)
    apply List.rdropWhile_last_not _ _ nonempty
    rw [List.getLast?_eq_some_getLast nonempty] at last
    exact decide_eq_true (Option.some.inj last)

/-- Without stars, wildcards leave slashes. -/
theorem slash_of_wild (glob : List Part) (wild : Wild glob) :
    ∀ c ∈ (glob.flatMap Part.text).filter (· ≠ '*'), c = '/' := by
  intro c member
  obtain ⟨inside, plain⟩ := List.mem_filter.mp member
  obtain ⟨part, within, here⟩ := List.mem_flatMap.mp inside
  cases part with
  | char d => exact absurd (wild _ within) Bool.false_ne_true
  | dirs =>
      change c ∈ ['*', '*', '/'] at here
      simp only [List.mem_cons, List.not_mem_nil, or_false] at here
      rcases here with rfl | rfl | rfl
      · cases plain
      · cases plain
      · rfl
  | star => 
      rw [List.mem_singleton.mp here] at plain
      cases plain

/-- What is left of the text without stars and slashes at its ends. -/
theorem trim_erased (front back : List Part) (word : Str) (before : Wild front) (behind : Wild back)
    (plain : '*' ∉ word) (trimmed : Trimmed word) :
    Scan.trimMatches '/'
      (((front ++ (word.map Part.char ++ back)).flatMap Part.text).filter (· ≠ '*')) = word := by
  have chars : (word.map Part.char).flatMap Part.text = word := by
    rw [List.flatMap_map]
    exact List.flatMap_singleton' word
  have kept : word.filter (· ≠ '*') = word := by
    apply List.filter_eq_self.mpr
    intro c member
    exact decide_eq_true fun star => plain (star ▸ member)
  rw [List.flatMap_append, List.flatMap_append, List.filter_append, List.filter_append, chars, kept]
  exact trimMatches_around _ _ word (slash_of_wild front before) (slash_of_wild back behind) trimmed

theorem exists_lower (s : Str) (lowered : ∀ c ∈ s, ∃ d, table.low d = c) : ∃ path,
    table.toLower path = s := by
  induction s with
  | nil => exact ⟨[], rfl⟩
  | cons c s ih =>
      obtain ⟨d, same⟩ := lowered c List.mem_cons_self
      obtain ⟨path, rest⟩ := ih fun e member => lowered e (List.mem_cons_of_mem _ member)
      exact ⟨d :: path, by rw [← same, ← rest]; rfl⟩

/-- A digit that a word neither begins nor ends with. -/
theorem exists_other_digit (word : Str) :
    ∃ a ∈ ['0', '1', '2'], word.head? ≠ some a ∧ word.getLast? ≠ some a := by
  by_contra none_
  simp only [List.mem_cons, List.not_mem_nil, or_false, exists_eq_or_imp, exists_eq_left, not_or,
    not_and_or, not_not] at none_
  obtain ⟨zero, one, two⟩ := none_
  rcases zero with zero | zero <;> rcases one with one | one <;> rcases two with two | two <;>
    simp_all

theorem parts_plain (s : Str) (plain : '*' ∉ s) : parts s = s.map Part.char := by
  fun_induction parts s with
  | case1 => rfl
  | case2 s ih => exact absurd List.mem_cons_self plain
  | case3 c s other ih =>
      rw [List.mem_cons, not_or] at plain
      rw [if_neg (Ne.symm plain.1), ih plain.2, List.map_cons]

/-- A star behind the first `**/`, for a glob that has one for a name. -/
theorem star_of_surrounded (g : Str) (surrounded : Surrounded (parts g)) :
    '*' ∈ trimPrefix "**/".toList g := by
  have here : Part.star ∈ parts g := by
    have inside (glob : List Part) (any : AnyText glob) : Part.star ∈ glob := by
      obtain ⟨-, front, back, shape, star⟩ := any
      rw [shape]
      exact List.mem_append_right _ (List.mem_cons_of_mem _ star)
    cases surrounded with
    | inl any => exact inside _ any
    | inr around =>
        obtain ⟨front, word, back, -, -, shape, before, -⟩ := around
        rw [shape]
        exact List.mem_append_left _ (inside front before)
  have behind : Part.star ∈ parts (trimPrefix "**/".toList g) := by
    cases parts_trimPrefix g with
    | inl dirs =>
        rw [dirs] at here
        exact (List.mem_cons.mp here).resolve_left (by decide)
    | inr same => rwa [← same]
  rw [← text_parts (trimPrefix "**/".toList g)]
  exact List.mem_flatMap.mpr ⟨.star, behind, List.mem_singleton_self _⟩

theorem contains_star (s : Str) : Scan.contains ['*'] s = true ↔ '*' ∈ s := by
  rw [Scan.contains_iff_infix, List.singleton_infix_iff]

/-- A glob without stars is looked for anywhere. -/
theorem exists_wrong_of_plain (glob : Str)
    (plain : '*' ∉ trimPrefix "**/".toList (table.toLower glob)) :
    ∃ path, pathMatch table glob path = true ∧ ¬ Covers table glob path := by
  have lowered := toLower_trimPrefix table glob
  have zero : table.low '0' = '0' := LowerCase.low_sign table '0' (by decide) (by decide)
  have path : table.toLower ('0' :: trimPrefix "**/".toList glob) = '0' :: trimPrefix "**/".toList
      (table.toLower glob) := by
    rw [← lowered]
    exact congrArg (· :: _) zero
  refine ⟨'0' :: trimPrefix "**/".toList glob, ?_, ?_⟩
  · unfold pathMatch
    rw [lowered, path]
    dsimp only
    rw [if_neg (mt (contains_star _).mp plain), Bool.or_eq_true, Scan.contains_iff_infix]
    exact Or.inl (List.suffix_cons _ _).isInfix
  · unfold Covers
    rw [path]
    have whole := parts_plain _ plain
    cases parts_trimPrefix (table.toLower glob) with
    | inl dirs =>
        rw [dirs, whole]
        rintro ⟨front, rest, shape, isDirs, same⟩
        rw [(matches_chars _ rest).mp same] at shape
        have digit : ['0'] = front := List.append_cancel_right shape
        rw [← digit] at isDirs
        exact absurd isDirs (by decide)
    | inr same =>
        rw [same, whole, matches_chars]
        exact List.cons_ne_self _ _

/-- What a glob with stars is looked for. -/
theorem pathMatch_star (glob path : Str)
    (star : '*' ∈ trimPrefix "**/".toList (table.toLower glob)) :
    pathMatch table glob path = true ↔
      Scan.trimMatches '/' ((table.toLower glob).filter (· ≠ '*')) <:+: table.toLower path := by
  have word :
      Scan.trimMatches '/' ((trimPrefix "**/".toList (table.toLower glob)).filter (· ≠ '*')) =
      Scan.trimMatches '/' ((table.toLower glob).filter (· ≠ '*')) := by
    generalize table.toLower glob = g
    by_cases dirs : ∃ r, g = '*' :: '*' :: '/' :: r
    · obtain ⟨r, shape⟩ := dirs
      rw [shape, trimPrefix_dirs]
      rfl
    · rw [trimPrefix_other g fun r shape => dirs ⟨r, shape⟩]
  unfold pathMatch
  rw [toLower_trimPrefix]
  dsimp only
  rw [if_pos ((contains_star _).mpr star), word, Scan.contains_iff_infix]

/-- `pathMatch` finds what the glob covers for the globs of a word, or none, between any text. -/
theorem pathMatch_iff (glob : Str) :
    (∀ path, pathMatch table glob path = true ↔ Covers table glob path) ↔
    Surrounded (parts (table.toLower glob)) := by
  by_cases star : '*' ∈ trimPrefix "**/".toList (table.toLower glob)
  · constructor
    · intro same
      have slash : table.low '/' = '/' := LowerCase.low_sign table '/' (by decide) (by decide)
      obtain ⟨a, digit, first, last⟩ := exists_other_digit (chars (parts (table.toLower glob)))
      have kept : table.low a = a ∧ a ≠ '/' := by
        simp only [List.mem_cons, List.not_mem_nil, or_false] at digit
        rcases digit with rfl | rfl | rfl
        · exact ⟨LowerCase.low_sign table _ (by decide) (by decide), by decide⟩
        · exact ⟨LowerCase.low_sign table _ (by decide) (by decide), by decide⟩
        · exact ⟨LowerCase.low_sign table _ (by decide) (by decide), by decide⟩
      apply surrounded_of_same (fun c => ∃ d, table.low d = c) ⟨'/', slash⟩ a
        ⟨a, kept.1⟩ kept.2 _ ?_ _
        (trimmed_trimMatches _) first last
      · intro s lowered
        obtain ⟨path, shape⟩ := exists_lower table s lowered
        rw [← shape, ← pathMatch_star table glob path star]
        exact (same path).symm
      · intro c member
        obtain ⟨part, within, here⟩ := List.mem_filterMap.mp member
        have inside : c ∈ table.toLower glob := by
          rw [← text_parts (table.toLower glob)]
          refine List.mem_flatMap.mpr ⟨part, within, ?_⟩
          cases part with
          | char d => exact List.mem_singleton.mpr (Option.some.inj here).symm
          | dirs => cases here
          | star => cases here
        obtain ⟨d, -, low⟩ := List.mem_map.mp inside
        exact ⟨d, low⟩
    · intro surrounded path
      have erased := text_parts (table.toLower glob)
      rw [pathMatch_star table glob path star]
      unfold Covers
      rcases surrounded with any | ⟨front, word, back, nonempty, trimmed, shape, before, behind⟩
      · have word : Scan.trimMatches '/' ((table.toLower glob).filter (· ≠ '*')) = [] := by
          have none_ := trim_erased (parts (table.toLower glob)) [] [] any.1
            (fun part member => absurd member List.not_mem_nil)
            List.not_mem_nil ⟨by simp, by simp⟩
          rwa [List.map_nil, List.nil_append, List.append_nil, erased] at none_
        rw [word]
        exact iff_of_true List.nil_infix (matches_of_anyText _ any _)
      · have plain : '*' ∉ word := by
          intro member
          apply char_ne_star (table.toLower glob)
          rw [shape]
          exact List.mem_append_right _ (List.mem_append_left _ (List.mem_map_of_mem member))
        have found := trim_erased front back word before.1 behind.1 plain trimmed
        rw [← shape, erased] at found
        rw [found, shape, matches_surrounded front back word _ before behind]
  · obtain ⟨path, found, outside⟩ := exists_wrong_of_plain table glob star
    exact iff_of_false (fun same => outside ((same path).mp found)) (mt (star_of_surrounded _) star)

/-- The default rule for secrets fires on every file of a directory. -/
theorem secrets_directory_blocked :
    ¬ ∀ (table : Table) (glob path : Str), pathMatch table glob path = true ↔
      Covers table glob path := by
  intro same
  have found : pathMatch LowerCase.asciiTable "**/*secret*".toList "secrets/readme.txt".toList =
      true := by decide
  have outside :
      ¬ Covers LowerCase.asciiTable "**/*secret*".toList "secrets/readme.txt".toList := by decide
  exact outside ((same _ _ _).mp found)

end Covers

end EraOne.ContentDlp
