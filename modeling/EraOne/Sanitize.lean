import EraOne.Search
import EraOne.Words

set_option autoImplicit false

/- Masking of secrets in a command line (`sanitize.rs`). -/
namespace EraOne.Sanitize

open Words

/-! ### The function -/

/-- `to_ascii_lowercase`. -/
def asciiLower (s : Str) : Str := s.map Char.toLower

def redacted : Str := "***REDACTED***".toList

def keywords : List Str := ["password=".toList, "token=".toList, "secret=".toList, "apikey=".toList]

def hasKeyword (token : Str) : Bool :=
  keywords.any fun keyword => Scan.contains keyword (asciiLower token)

def userEq : Str := "--user=".toList

def userFlag : Str := "--user".toList

/-- A token with a keyword: it is kept up to its first `=`. -/
def maskKeyword (token : Str) : Str :=
  if '=' ∈ token then token.takeWhile (· ≠ '=') ++ '=' :: redacted else redacted

/-- The loop over the tokens; `taken` says that the token in front is the value of a flag before
it. -/
def maskTokens : Bool → List Str → List Str
  | _, [] => []
  | true, _ :: rest => maskTokens false rest
  | false, token :: rest =>
      if hasKeyword token then maskKeyword token :: maskTokens false rest
      else if userEq.isPrefixOf (asciiLower token) then
        (userEq ++ redacted) :: maskTokens false rest
      else if asciiLower token = userFlag then userFlag :: redacted :: maskTokens true rest
      else token :: maskTokens false rest

def maskSecrets (input : Str) : Str :=
  List.intercalate [' '] (maskTokens false (splitWhitespace input))

/-! ### Tokens -/

/-- Whether the token behind some tokens is the value of a flag. -/
def takenAfter : Bool → List Str → Bool
  | taken, [] => taken
  | true, _ :: rest => takenAfter false rest
  | false, token :: rest => takenAfter (!hasKeyword token && asciiLower token = userFlag) rest

/-- The tokens that are no values of flags before them. -/
def ownTokens : Bool → List Str → List Str
  | _, [] => []
  | true, _ :: rest => ownTokens false rest
  | false, token :: rest =>
      token :: ownTokens (!hasKeyword token && asciiLower token = userFlag) rest

/-- A token with a keyword that begins with the flag in other letters than small ones. -/
def Miscased (token : Str) : Prop :=
  hasKeyword token = true ∧ userEq <+: asciiLower token ∧ ¬ userEq <+: token

theorem maskTokens_append (taken : Bool) (front back : List Str) :
    maskTokens taken (front ++ back) = maskTokens taken front ++ maskTokens
      (takenAfter taken front) back := by
  induction front generalizing taken with
  | nil => cases taken <;> rfl
  | cons token front ih =>
      cases taken with
      | true => exact ih false
      | false =>
          rw [List.cons_append, maskTokens, maskTokens, takenAfter]
          cases keyword : hasKeyword token with
          | true => simp [ih]
          | false =>
              by_cases eq : userEq.isPrefixOf (asciiLower token) = true
              · have other : asciiLower token ≠ userFlag := by
                  intro same
                  rw [same] at eq
                  exact absurd eq (by decide)
                simp [eq, other, ih]
              · by_cases flag : asciiLower token = userFlag
                · simp [flag, ih, show ¬ userEq <+: userFlag by decide]
                · simp [flag, ih, show ¬ userEq <+: asciiLower token by simpa using eq]

theorem toLower_eq_equals (c : Char) (same : c.toLower = '=') : c = '=' := by
  have letter : ¬ c.isUpper := by
    intro upper
    have alpha : c.toLower.isAlpha := by
      rw [Char.isAlpha_toLower_eq_isAlpha, Char.isAlpha, upper, Bool.true_or]
    rw [same] at alpha
    exact absurd alpha (by decide)
  rwa [Char.toLower_eq_of_not_isUpper letter] at same

theorem mem_asciiLower_equals (s : Str) : '=' ∈ asciiLower s ↔ '=' ∈ s := by
  unfold asciiLower
  rw [List.mem_map]
  constructor
  · rintro ⟨c, member, same⟩
    rwa [← toLower_eq_equals c same]
  · intro member
    exact ⟨'=', member, by decide⟩

theorem equals_of_hasKeyword (token : Str) (keyword : hasKeyword token = true) : '=' ∈ token := by
  obtain ⟨word, listed, occurs⟩ := List.any_eq_true.mp keyword
  have each : ∀ w ∈ keywords, '=' ∈ w := by decide
  exact (mem_asciiLower_equals token).mp
    (((Scan.contains_iff_infix _ _).mp occurs).subset (each word listed))

/-- What stands behind the first `=` is masked. -/
theorem maskKeyword_eq (before behind : Str) (first : '=' ∉ before) :
    maskKeyword (before ++ '=' :: behind) = before ++ '=' :: redacted := by
  have cut : (before ++ '=' :: behind).takeWhile (· ≠ '=') = before := by
    rw [List.takeWhile_append_of_pos fun c member =>
      by simpa using fun same : c = '=' => first (same ▸ member)]
    simp
  rw [maskKeyword, if_pos (List.mem_append_right _ List.mem_cons_self), cut]

theorem maskKeyword_append (front back : Str) (equals : '=' ∈ front) :
    maskKeyword (front ++ back) = maskKeyword front := by
  obtain ⟨before, behind, shape, first⟩ := List.eq_append_cons_of_mem equals
  rw [shape, maskKeyword_eq before behind first, List.append_assoc, List.cons_append,
    maskKeyword_eq before _ first]

theorem hasKeyword_append (front back : Str) (keyword : hasKeyword front = true) :
    hasKeyword (front ++ back) = true := by
  obtain ⟨word, listed, occurs⟩ := List.any_eq_true.mp keyword
  apply List.any_eq_true.mpr
  refine ⟨word, listed, (Scan.contains_iff_infix _ _).mpr ?_⟩
  rw [asciiLower, List.map_append]
  exact ((Scan.contains_iff_infix _ _).mp occurs).trans (List.prefix_append _ _).isInfix

/-- A token that begins with the flag in any case. -/
theorem exists_flag (token : Str) (starts : userEq <+: asciiLower token) :
    ∃ flag value, token = flag ++ value ∧ asciiLower flag = userEq := by
  refine ⟨token.take userEq.length, token.drop userEq.length, (List.take_append_drop _ _).symm, ?_⟩
  rw [asciiLower, List.map_take]
  exact (List.prefix_iff_eq_take.mp starts).symm

theorem equals_of_flag (flag : Str) (any_case : asciiLower flag = userEq) : '=' ∈ flag := by
  rw [← mem_asciiLower_equals, any_case]
  decide

/-- The flag is kept up to its last character. -/
theorem maskKeyword_flag (flag value : Str) (any_case : asciiLower flag = userEq) :
    maskKeyword (flag ++ value) = flag ++ redacted := by
  have shape : flag = flag.dropLast ++ ['='] := by
    have some_ : flag ≠ [] := List.ne_nil_of_mem (equals_of_flag flag any_case)
    have last : (flag.getLast some_).toLower = '=' := by
      have lowered := congrArg List.getLast? any_case
      rw [asciiLower, List.getLast?_map, List.getLast?_eq_some_getLast some_] at lowered
      exact Option.some.inj lowered
    conv_lhs => rw [← List.dropLast_append_getLast some_, toLower_eq_equals _ last]
  have before : '=' ∉ flag.dropLast := by
    rw [← mem_asciiLower_equals, asciiLower, List.map_dropLast, ← asciiLower, any_case]
    decide
  rw [shape, List.append_assoc, List.singleton_append, maskKeyword_eq _ value before,
    List.append_assoc, List.singleton_append]

theorem solid_of_all (s : Str) (each : s.all (fun c => !Scan.isWhitespace c) = true) : Solid s := by
  intro c member
  have here := List.all_eq_true.mp each c member
  rwa [Bool.not_eq_true'] at here

/-- White space has no other case. -/
theorem solid_of_asciiLower (s : Str) (solid : Solid (asciiLower s)) : Solid s := by
  intro c member
  cases blank : Scan.isWhitespace c with
  | false => rfl
  | true =>
      have same : c.toLower = c := by
        apply Char.toLower_eq_of_not_isUpper
        intro upper
        have low : 65 ≤ c.toNat ∧ c.toNat ≤ 90 := by
          simpa [Char.isUpper, UInt32.le_iff_toNat_le, ← Char.toNat_val] using upper
        unfold Scan.isWhitespace at blank
        simp only [decide_eq_true_eq] at blank
        omega
      have lower := solid c.toLower (List.mem_map_of_mem member)
      rw [same, blank] at lower
      cases lower

/-! ### Two runs -/

/-- Joined words in the midst of others. -/
theorem intercalate_around (front back : List Str) :
    ∃ before behind, ∀ word, List.intercalate [' ']
      (front ++ word :: back) = before ++ (word ++ behind) := by
  induction front with
  | nil =>
      cases back with
      | nil => exact ⟨[], [], fun word => by simp [List.intercalate]⟩
      | cons next back =>
          exact ⟨[], ' ' :: List.intercalate [' '] (next :: back), fun word =>
            by simp [List.intercalate]⟩
  | cons first front ih =>
      obtain ⟨before, behind, joined⟩ := ih
      refine ⟨first ++ ' ' :: before, behind, fun word => ?_⟩
      obtain ⟨second, rest, shape⟩ :=
        List.exists_cons_of_ne_nil (show front ++ word :: back ≠ [] by simp)
      have step : List.intercalate [' '] (first :: (front ++ word :: back)) =
          first ++ ' ' :: List.intercalate [' '] (front ++ word :: back) := by
        rw [shape]
        simp [List.intercalate]
      rw [List.cons_append, step, joined]
      simp

/-- A command line with a word in it. -/
theorem maskTokens_word (front : List Str) (word : Str) (back : List Str) :
    maskTokens false (front ++ word :: back) =
      maskTokens false front ++ maskTokens (takenAfter false front) (word :: back) :=
        maskTokens_append false front _

/-- The value behind a keyword is hidden. -/
theorem mask_keyword (front keyword v w back : Str) (listed : asciiLower keyword ∈ keywords)
    (word : IsWord v) (other : IsWord w) (ends : EndsWord back) :
    maskSecrets (front ++ keyword ++ (v ++ back)) = maskSecrets
      (front ++ keyword ++ (w ++ back)) := by
  have solid : Solid keyword := by
    have each : ∀ k ∈ keywords, k.all (fun c => !Scan.isWhitespace c) = true := by decide
    exact solid_of_asciiLower keyword (solid_of_all _ (each _ listed))
  have known : hasKeyword keyword = true :=
    List.any_eq_true.mpr
      ⟨asciiLower keyword, listed, (Scan.contains_iff_infix _ _).mpr List.infix_rfl⟩
  have read_ : (front ++ keyword).foldl step ([], []) =
      ((front.foldl step ([], [])).1, (front.foldl step ([], [])).2 ++ keyword) := by
    rw [List.foldl_append, foldl_solid keyword _ solid]
  have held : hasKeyword ((front.foldl step ([], [])).2 ++ keyword) = true := by
    obtain ⟨found, inside, occurs⟩ := List.any_eq_true.mp known
    apply List.any_eq_true.mpr
    refine ⟨found, inside, (Scan.contains_iff_infix _ _).mpr ?_⟩
    rw [asciiLower, List.map_append]
    exact ((Scan.contains_iff_infix _ _).mp occurs).trans (List.suffix_append _ _).isInfix
  have equals := equals_of_hasKeyword _ held
  unfold maskSecrets
  rw [splitWhitespace_solid _ v back word.2 word.1 ends,
    splitWhitespace_solid _ w back other.2 other.1 ends, read_]
  dsimp only
  generalize (front.foldl step ([], [])).2 ++ keyword = token at held equals ⊢
  rw [maskTokens_word, maskTokens_word]
  cases takenAfter false (front.foldl step ([], [])).1 with
  | true => rfl
  | false =>
      rw [maskTokens, maskTokens, if_pos (hasKeyword_append token v held),
        if_pos (hasKeyword_append token w held), maskKeyword_append token v equals,
        maskKeyword_append token w equals]

theorem masked_flag (flag value : Str) (rest : List Str) (any_case : asciiLower flag = userEq) :
    maskTokens false ((flag ++ value) :: rest) =
      ((if hasKeyword (flag ++ value) then flag else userEq) ++ redacted) :: maskTokens false
        rest := by
  rw [maskTokens]
  cases keyword : hasKeyword (flag ++ value) with
  | true => rw [if_pos rfl, if_pos rfl, maskKeyword_flag flag value any_case]
  | false =>
      have starts : userEq.isPrefixOf (asciiLower (flag ++ value)) = true := by
        rw [asciiLower, List.map_append, List.isPrefixOf_iff_prefix]
        exact any_case ▸ List.prefix_append _ _
      rw [if_neg Bool.false_ne_true, if_neg Bool.false_ne_true, if_pos starts]

/-- The value of `--user=` is hidden unless the flag is in other letters and one of two values has a
keyword. -/
theorem mask_userEq_iff (front flag v w back : Str) (starts : StartsWord front)
    (any_case : asciiLower flag = userEq) (word : IsWord v) (other : IsWord w)
    (ends : EndsWord back) :
    maskSecrets (front ++ (flag ++ v ++ back)) = maskSecrets (front ++ (flag ++ w ++ back)) ↔
      takenAfter false (splitWhitespace front) = true ∨ flag = userEq ∨
        hasKeyword (flag ++ v) = hasKeyword (flag ++ w) := by
  have solid : Solid flag := solid_of_asciiLower flag (any_case ▸ solid_of_all userEq (by decide))
  have first : IsWord (flag ++ v) :=
    ⟨List.append_ne_nil_of_right_ne_nil _ word.1, solid.append word.2⟩
  have second : IsWord (flag ++ w) :=
    ⟨List.append_ne_nil_of_right_ne_nil _ other.1, solid.append other.2⟩
  unfold maskSecrets
  rw [splitWhitespace_word front _ back starts first ends,
    splitWhitespace_word front _ back starts second ends, maskTokens_word, maskTokens_word]
  cases takenAfter false (splitWhitespace front) with
  | true => exact iff_of_true rfl (Or.inl rfl)
  | false =>
      rw [masked_flag flag v _ any_case, masked_flag flag w _ any_case]
      obtain ⟨before, behind, joined⟩ :=
        intercalate_around (maskTokens false (splitWhitespace front))
          (maskTokens false (splitWhitespace back))
      rw [joined, joined, List.append_cancel_left_eq, List.append_cancel_right_eq,
        List.append_cancel_right_eq]
      cases hasKeyword (flag ++ v) with
      | true =>
          cases hasKeyword (flag ++ w) with
          | true => simp
          | false => simp
      | false =>
          cases hasKeyword (flag ++ w) with
          | true => simp [eq_comm]
          | false => simp

theorem splitWhitespace_blank (blank : Str)
    (white : ∀ c ∈ blank, Scan.isWhitespace c = true) : splitWhitespace blank = [] := by
  unfold splitWhitespace
  induction blank with
  | nil => rfl
  | cons c blank ih =>
      rw [List.foldl_cons, step_blank _ c (white c List.mem_cons_self)]
      exact ih fun d member => white d (List.mem_cons_of_mem c member)

/-- The token behind a flag is hidden. -/
theorem mask_user (front flag blank v w back : Str) (starts : StartsWord front)
    (any_case : asciiLower flag = userFlag) (own : takenAfter false (splitWhitespace front) = false)
    (some_ : blank ≠ []) (white : ∀ c ∈ blank, Scan.isWhitespace c = true) (word : IsWord v)
    (other : IsWord w) (ends : EndsWord back) :
    maskSecrets (front ++ (flag ++ (blank ++ (v ++ back)))) = maskSecrets
      (front ++ (flag ++ (blank ++ (w ++ back)))) := by
  have isFlag : IsWord flag := by
    refine ⟨?_, solid_of_asciiLower flag (any_case ▸ solid_of_all userFlag (by decide))⟩
    rintro rfl
    exact absurd any_case (by decide)
  have opens (rest : Str) : EndsWord (blank ++ rest) := by
    intro c first
    cases blank with
    | nil => exact absurd rfl some_
    | cons d blank =>
        cases first
        exact white _ List.mem_cons_self
  have startsV : StartsWord blank := fun c last => white c (List.mem_of_getLast? last)
  have plain : hasKeyword flag = false := by
    rw [hasKeyword, any_case]
    decide
  have notEq : ¬ userEq.isPrefixOf (asciiLower flag) = true := by
    rw [any_case]
    decide
  have hidden (value : Str) (isValue : IsWord value) :
      maskTokens false (splitWhitespace (front ++ (flag ++ (blank ++ (value ++ back))))) =
        maskTokens false (splitWhitespace front) ++ userFlag :: redacted :: maskTokens false
          (splitWhitespace back) := by
    rw [splitWhitespace_word front flag _ starts isFlag (opens _),
      splitWhitespace_word blank value back startsV isValue ends, splitWhitespace_blank blank white,
      maskTokens_word, own, maskTokens, if_neg (Bool.eq_false_iff.mp plain), if_neg notEq,
      if_pos any_case]
    rfl
  rw [maskSecrets, maskSecrets, hidden v word, hidden w other]

/-! ### Masking twice -/

theorem solid_redacted : Solid redacted := solid_of_all redacted (by decide)

theorem isWord_maskKeyword (token : Str) (word : IsWord token) : IsWord (maskKeyword token) := by
  unfold maskKeyword
  split
  · refine ⟨List.append_ne_nil_of_right_ne_nil _ (List.cons_ne_nil _ _), ?_⟩
    intro c member
    rcases List.mem_append.mp member with kept | rest
    · exact word.2 c ((List.takeWhile_prefix _).subset kept)
    · rcases List.mem_cons.mp rest with equals | hidden
      · rw [equals]
        decide
      · exact solid_redacted c hidden
  · exact ⟨by decide, solid_redacted⟩

theorem isWord_of_mem_maskTokens (taken : Bool) (tokens : List Str)
    (words : ∀ t ∈ tokens, IsWord t) :
    ∀ t ∈ maskTokens taken tokens, IsWord t := by
  induction tokens generalizing taken with
  | nil =>
      intro t member
      cases taken <;> exact absurd member List.not_mem_nil
  | cons token rest ih =>
      have later :=
        fun taken => ih taken fun t member => words t (List.mem_cons_of_mem token member)
      have eqWord : IsWord (userEq ++ redacted) :=
        ⟨by decide, (solid_of_all userEq (by decide)).append solid_redacted⟩
      have flagWord : IsWord userFlag := ⟨by decide, solid_of_all userFlag (by decide)⟩
      cases taken with
      | true => exact later false
      | false =>
          rw [maskTokens]
          split
          · exact List.forall_mem_cons.mpr
              ⟨isWord_maskKeyword token (words token List.mem_cons_self), later false⟩
          · split
            · exact List.forall_mem_cons.mpr ⟨eqWord, later false⟩
            · split
              · exact List.forall_mem_cons.mpr
                  ⟨flagWord, List.forall_mem_cons.mpr ⟨⟨by decide, solid_redacted⟩, later true⟩⟩
              · exact List.forall_mem_cons.mpr ⟨words token List.mem_cons_self, later false⟩

/-- How a masked token is masked again: to itself unless it shows the flag in other letters. -/
theorem exists_masked_again (token : Str) (keyword : hasKeyword token = true) :
    ∃ again,
      (∀ rest, maskTokens false (maskKeyword token :: rest) = again :: maskTokens false rest) ∧
      (again = maskKeyword token ↔ ¬ Miscased token) := by
  have equals := equals_of_hasKeyword token keyword
  by_cases starts : userEq <+: asciiLower token
  · obtain ⟨flag, value, shape, any_case⟩ := exists_flag token starts
    have plain : hasKeyword (flag ++ redacted) = false := by
      have lower : asciiLower (flag ++ redacted) = userEq ++ asciiLower redacted := by
        rw [asciiLower, List.map_append, ← asciiLower, any_case]
        rfl
      rw [hasKeyword, lower]
      decide
    refine ⟨userEq ++ redacted, fun rest => ?_, ?_⟩
    · rw [shape, maskKeyword_flag flag value any_case, masked_flag flag redacted rest any_case,
        plain, if_neg Bool.false_ne_true]
    · have size : userEq.length = flag.length := by
        rw [← any_case, asciiLower, List.length_map]
      have literally : userEq <+: token ↔ userEq = flag := by
        rw [shape]
        constructor
        · intro starts
          exact (List.prefix_of_prefix_length_le starts
            (List.prefix_append flag value) size.le).eq_of_length size
        · intro same
          rw [same]
          exact List.prefix_append flag value
      rw [Miscased, literally, shape, maskKeyword_flag flag value any_case,
        List.append_cancel_right_eq, ← shape]
      simp [keyword, starts]
  · obtain ⟨before, behind, shape, first⟩ := List.eq_append_cons_of_mem equals
    have masked : maskKeyword token = before ++ '=' :: redacted := by
      rw [shape, maskKeyword_eq before behind first]
    have again : maskKeyword (before ++ '=' :: redacted) = before ++ '=' :: redacted :=
      maskKeyword_eq before redacted first
    have noFlag : asciiLower (before ++ '=' :: redacted) ≠ userFlag := by
      intro same
      have inside := (mem_asciiLower_equals (before ++ '=' :: redacted)).mpr
        (List.mem_append_right _ List.mem_cons_self)
      rw [same] at inside
      exact absurd inside (by decide)
    have noEq : ¬ userEq.isPrefixOf (asciiLower (before ++ '=' :: redacted)) = true := by
      rw [List.isPrefixOf_iff_prefix]
      intro also_
      apply starts
      have front : asciiLower (before ++ ['=']) <+: asciiLower (before ++ '=' :: redacted) := by
        rw [asciiLower, asciiLower, List.map_append, List.map_append, List.map_cons]
        exact (List.prefix_append_right_inj _).mpr (List.prefix_append ['='] _)
      have whole : userEq <+: asciiLower (before ++ ['=']) := by
        rcases List.prefix_or_prefix_of_prefix also_ front with short | long
        · exact short
        · -- the flag has no other `=` than its last character
          have ends : ∀ t ∈ userEq.inits, t.getLast? = some '=' → t = userEq := by decide
          have last : (asciiLower (before ++ ['='])).getLast? = some '=' := by
            rw [asciiLower, List.map_append, List.map_singleton, List.getLast?_concat]
            rfl
          rw [ends _ ((List.mem_inits _ _).mpr long) last]
      refine whole.trans ?_
      rw [shape, asciiLower, asciiLower, List.map_append, List.map_append, List.map_cons]
      exact (List.prefix_append_right_inj _).mpr (List.prefix_append ['='] _)
    refine ⟨before ++ '=' :: redacted, fun rest => ?_, iff_of_true masked.symm fun miscased =>
      starts miscased.2.1⟩
    rw [masked, maskTokens, again, if_neg noEq, if_neg noFlag, ite_self]

theorem maskTokens_twice (taken : Bool) (tokens : List Str) :
    maskTokens false (maskTokens taken tokens) = maskTokens taken tokens ↔
      ∀ t ∈ ownTokens taken tokens, ¬ Miscased t := by
  induction tokens generalizing taken with
  | nil => cases taken <;> exact iff_of_true rfl fun t member => absurd member List.not_mem_nil
  | cons token rest ih =>
      cases taken with
      | true => exact ih false
      | false =>
          rw [maskTokens, ownTokens, List.forall_mem_cons]
          cases keyword : hasKeyword token with
          | true =>
              obtain ⟨again, twice, same⟩ := exists_masked_again token keyword
              rw [if_pos rfl, twice, List.cons.injEq, same, ih]
              rfl
          | false =>
              have plain : ¬ Miscased token := by
                intro miscased
                rw [miscased.1] at keyword
                cases keyword
              rw [if_neg Bool.false_ne_true, and_iff_right plain]
              by_cases eq : userEq.isPrefixOf (asciiLower token) = true
              · have other : asciiLower token ≠ userFlag := by
                  intro same
                  rw [same] at eq
                  exact absurd eq (by decide)
                have kept := masked_flag userEq redacted (maskTokens false rest) (by decide)
                rw [ite_self] at kept
                rw [if_pos eq, kept, List.cons.injEq, and_iff_right rfl, ih]
                simp [other]
              · by_cases flag : asciiLower token = userFlag
                · have kept : maskTokens false (userFlag :: redacted :: maskTokens true rest) =
                      userFlag :: redacted :: maskTokens false (maskTokens true rest) := by
                    rw [maskTokens, if_neg (by decide), if_neg (by decide), if_pos (by decide)]
                    rfl
                  rw [if_neg eq, if_pos flag, kept, List.cons.injEq, List.cons.injEq,
                    and_iff_right rfl, and_iff_right rfl, ih]
                  simp [flag]
                · have kept : maskTokens false (token :: maskTokens false rest) =
                      token :: maskTokens false (maskTokens false rest) := by
                    rw [maskTokens, keyword, if_neg Bool.false_ne_true, if_neg eq, if_neg flag]
                  rw [if_neg eq, if_neg flag, kept, List.cons.injEq, and_iff_right rfl, ih]
                  simp [flag]

theorem intercalate_inj (words others : List Str) (all_ : ∀ w ∈ words, IsWord w)
    (allOthers : ∀ w ∈ others, IsWord w) :
    List.intercalate [' '] words = List.intercalate [' '] others ↔ words = others := by
  constructor
  · intro same
    rw [← splitWhitespace_intercalate words all_, same,
      splitWhitespace_intercalate others allOthers]
  · exact congrArg _

theorem maskSecrets_twice (s : Str) :
    maskSecrets (maskSecrets s) = maskSecrets s ↔
      ∀ t ∈ ownTokens false (splitWhitespace s), ¬ Miscased t := by
  have once := isWord_of_mem_maskTokens false (splitWhitespace s) (isWord_of_mem s)
  rw [← maskTokens_twice]
  unfold maskSecrets
  rw [splitWhitespace_intercalate _ once,
    intercalate_inj _ _ (isWord_of_mem_maskTokens false _ once) once]

/-- The values of keywords and of `--user` are hidden; the value in a token `--user=` is, exactly if
the token is the value of another flag, its own flag is in small letters or both values or neither
bring a keyword; and masking is idempotent on the command lines exactly that have no token with a
keyword and `--user=` in other letters. -/
theorem masking_iff (front v w back : List Char) :
    (∀ keyword, asciiLower keyword ∈ keywords → IsWord v → IsWord w → EndsWord back →
      maskSecrets (front ++ keyword ++ (v ++ back)) = maskSecrets
        (front ++ keyword ++ (w ++ back))) ∧
    (∀ flag, StartsWord front → asciiLower flag = userEq → IsWord v → IsWord w → EndsWord back →
      (maskSecrets (front ++ (flag ++ v ++ back)) = maskSecrets (front ++ (flag ++ w ++ back)) ↔
        takenAfter false (splitWhitespace front) = true ∨ flag = userEq ∨
          hasKeyword (flag ++ v) = hasKeyword (flag ++ w))) ∧
    (∀ flag blank, StartsWord front → asciiLower flag = userFlag →
      takenAfter false (splitWhitespace front) = false → blank ≠ [] →
        (∀ c ∈ blank, Scan.isWhitespace c = true) →
      IsWord v → IsWord w → EndsWord back →
      maskSecrets (front ++ (flag ++ (blank ++ (v ++ back)))) =
        maskSecrets (front ++ (flag ++ (blank ++ (w ++ back))))) ∧
    ∀ s, maskSecrets (maskSecrets s) = maskSecrets s ↔
      ∀ t ∈ ownTokens false (splitWhitespace s), ¬ Miscased t := by
  refine ⟨fun keyword => ?_, fun flag => ?_, fun flag blank => ?_, maskSecrets_twice⟩
  · exact mask_keyword front keyword v w back
  · exact mask_userEq_iff front flag v w back
  · exact mask_user front flag blank v w back

theorem masking_pair :
    maskSecrets ("x password=".toList ++ ("hunter2".toList ++ [])) = maskSecrets
      ("x password=".toList ++ ("swordfish".toList ++ [])) :=
  (masking_iff "x ".toList "hunter2".toList "swordfish".toList []).1 "password=".toList (by decide)
    ⟨by decide, solid_of_all _ (by decide)⟩ ⟨by decide, solid_of_all _ (by decide)⟩ fun _ first =>
      by cases first

/-- The name `token=1` is told from `bob`, and is masked twice in two ways. -/
theorem miscased_shown :
    maskSecrets "--USER=token=1".toList ≠ maskSecrets "--USER=bob".toList ∧
      maskSecrets (maskSecrets "--USER=token=1".toList) ≠ maskSecrets "--USER=token=1".toList := by
  refine ⟨by decide, by decide⟩

end EraOne.Sanitize
