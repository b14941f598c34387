import EraOne.Search

set_option autoImplicit false

/- Quoted strings of the IMAP client (`imapclient/client.go`): names taken from LIST lines, and what
commands put between quotes. -/
namespace EraOne.Imap

/-! ### The client -/

structure Mailbox where
  name : Str := []
  attributes : List Str := []
  deriving DecidableEq

/-- `strings.Fields`. -/
def fields (s : Str) : List Str := (s.splitOnP Scan.isWhitespace).filter (· ≠ [])

def parseListAttributes (line : Str) : List Str :=
  match Scan.splitOnce ['('] line with
  | none => []
  | some (_, rest) =>
    match Scan.splitOnce [')'] rest with
    | none => []
    | some (inner, _) => fields (Scan.trim inner)

def parseListLine (line : Str) : Mailbox :=
  let parts := Scan.splitAll ['"'] line
  if parts.length < 2 then { attributes := parseListAttributes line }
  else { name := parts.getD (parts.length - 2) [], attributes := parseListAttributes line }

def escape (s : Str) : Str := Scan.replaceAll ['"'] ['\\', '"'] s

/-- What `SELECT`, `CREATE`, `APPEND` and `LOGIN` send of a text. -/
def argument (s : Str) : Str := '"' :: (escape s ++ ['"'])

/-! ### Quoted strings -/

def quotedChar (c : Char) : Str := if c = '"' ∨ c = '\\' then ['\\', c] else [c]

/-- A text as a quoted string of RFC 3501. -/
def quoted (s : Str) : Str := '"' :: (s.flatMap quotedChar ++ ['"'])

/-- A LIST line: what stands before the name, and the name. -/
def listLine (before name : Str) : Str := before ++ quoted name

/-- Where the quote stands that ends a quoted string, behind its opening quote; a backslash takes
the next character with it. -/
def closingQuote : Bool → Str → Option Nat
  | _, [] => none
  | true, _ :: rest => (closingQuote false rest).map (· + 1)
  | false, c :: rest => if c = '"' then some 0 else (closingQuote (c = '\\') rest).map (· + 1)

/-- In a command that goes on with `rest`, the quotes of a text are closed inside of it. -/
def EndsEarly (s rest : Str) : Prop :=
  ∃ i < (escape s).length, closingQuote false (escape s ++ '"' :: rest) = some i

/-- How many backslashes a text ends in. -/
def backslashes (s : Str) : Nat := (s.reverse.takeWhile (· = '\\')).length

/-! ### Names -/

theorem splitAll_quote (front back : Str) :
    Scan.splitAll ['"'] (front ++ '"' :: back) = Scan.splitAll ['"'] front ++ Scan.splitAll
      ['"'] back := by
  induction front with
  | nil => exact Scan.splitAll_quiet_match ['"'] [] back (by decide) (Scan.quiet_nil _)
  | cons c front ih =>
      unfold Scan.splitAll at ih ⊢
      rw [List.cons_append, Scan.splitLoop, Scan.splitLoop]
      by_cases here : ['"'].isPrefixOf (c :: front) = true
      · have same : c = '"' :=
          (List.cons_prefix_cons.mp (List.isPrefixOf_iff_prefix.mp here)).1.symm
        have also_ : ['"'].isPrefixOf (c :: (front ++ '"' :: back)) = true := by
          rw [same]
          rfl
        rw [if_pos here, if_pos also_, List.cons_append]
        exact congrArg ([] :: ·) ih
      · have still : ¬ ['"'].isPrefixOf (c :: (front ++ '"' :: back)) = true := by simpa using here
        obtain ⟨head, tail, shape⟩ :=
          List.exists_cons_of_ne_nil (Scan.splitAll_ne_nil ['"'] front (by decide))
        unfold Scan.splitAll at shape
        rw [if_neg here, if_neg still, ih, shape]
        rfl

/-- The name is what stands between the last two quotes. -/
theorem name_of_listLine (before name : Str) :
    ∃ pieces, Scan.splitAll ['"'] (name.flatMap quotedChar) = pieces ++
      [(parseListLine (listLine before name)).name] := by
  obtain ⟨pieces, last, shape⟩ :=
    (List.eq_nil_or_concat' (Scan.splitAll ['"'] (name.flatMap quotedChar))).resolve_left
      (Scan.splitAll_ne_nil ['"'] _ (by decide))
  have parts : Scan.splitAll ['"']
      (listLine before name) = (Scan.splitAll ['"'] before ++ pieces) ++ [last, []] := by
    rw [listLine, quoted, splitAll_quote, show ['"'] = '"' :: [] from rfl, splitAll_quote, shape]
    simp [Scan.splitAll, Scan.splitLoop]
  refine ⟨pieces, ?_⟩
  rw [shape, parseListLine, parts]
  generalize Scan.splitAll ['"'] before ++ pieces = front
  have size : (front ++ [last, []]).length = front.length + 2 := List.length_append
  rw [size, if_neg (by omega), Nat.add_sub_cancel, List.getD_append_right _ _ _ _ le_rfl,
    Nat.sub_self]
  rfl

theorem quote_mem_iff (name : Str) : '"' ∈ name.flatMap quotedChar ↔ '"' ∈ name := by
  rw [List.mem_flatMap]
  constructor
  · rintro ⟨c, member, inside⟩
    unfold quotedChar at inside
    split at inside
    · rename_i special
      rcases special with quote | backslash
      · rwa [← quote]
      · rw [backslash] at inside
        exact absurd inside (by decide)
    · rwa [List.mem_singleton.mp inside]
  · intro member
    exact ⟨'"', member, by decide⟩

theorem escape_eq (s : Str) :
    escape s = s.flatMap fun c => if c = '"' then ['\\', '"'] else [c] := by
  have codes := Scan.replaceAll_flatMap ['"'] ['\\', '"'] (by decide) (fun c => [c])
    (fun c => if c = '"' then ['\\', '"'] else [c]) (fun c => by
      by_cases quote : c = '"'
      · exact Or.inl ⟨by rw [quote], if_pos quote⟩
      · refine Or.inr ⟨if_neg quote, Scan.quiet_of_not_mem '"' [] [c] ?_⟩
        rw [List.mem_singleton]
        exact Ne.symm quote) s
  rwa [List.flatMap_singleton'] at codes

theorem escape_of_not_mem (s : Str) (clean : '"' ∉ s) : escape s = s := by
  have each : ∀ c ∈ s, (if c = '"' then ['\\', '"'] else [c]) = [c] := by
    intro c member
    rw [if_neg]
    rintro rfl
    exact clean member
  rw [escape_eq, List.flatMap_congr each, List.flatMap_singleton']

theorem requoted_iff (before name : Str) :
    argument (parseListLine (listLine before name)).name = quoted name ↔ '"' ∉ name := by
  obtain ⟨pieces, split⟩ := name_of_listLine before name
  have clean : '"' ∉ (parseListLine (listLine before name)).name :=
    Scan.not_mem_splitAll '"' _ _ (by rw [split]; exact List.mem_append_right _ List.mem_cons_self)
  rw [argument, quoted, escape_of_not_mem _ clean]
  constructor
  · intro same member
    have inner := List.append_cancel_right (List.cons.inj same).2
    rw [inner, quote_mem_iff] at clean
    exact clean member
  · intro absent
    have quiet :=
      Scan.quiet_of_not_mem '"' [] (name.flatMap quotedChar) (mt (quote_mem_iff name).mp absent)
    rw [Scan.splitAll_quiet ['"'] _ (by decide) quiet] at split
    have last := congrArg List.getLast? split
    rw [List.getLast?_concat, List.getLast?_singleton, Option.some.injEq] at last
    rw [last]

/-! ### Quotes -/

/-- The state behind a text: whether the next character is taken by a backslash. -/
def pending (state : Bool) (s : Str) : Bool :=
  s.foldl (fun taken c => if c = '\\' then !taken else false) state

theorem backslashes_concat (s : Str) (c : Char) :
    backslashes (s ++ [c]) = if c = '\\' then backslashes s + 1 else 0 := by
  unfold backslashes
  rw [List.reverse_append, List.reverse_singleton, List.singleton_append, List.takeWhile_cons]
  by_cases backslash : c = '\\'
  · simp [backslash]
  · simp [backslash]

/-- The next character is taken behind an odd number of backslashes. -/
theorem pending_eq (s : Str) : pending false s = decide (backslashes s % 2 = 1) := by
  induction s using List.reverseRecOn with
  | nil => rfl
  | append_singleton s c ih =>
      have step : pending false (s ++ [c]) = if c = '\\' then !(pending false s) else false := by
        unfold pending
        rw [List.foldl_append]
        rfl
      rw [step, ih, backslashes_concat]
      by_cases backslash : c = '\\'
      · rw [if_pos backslash, if_pos backslash, ← decide_not]
        exact decide_eq_decide.mpr (by omega)
      · rw [if_neg backslash, if_neg backslash]
        rfl

theorem closing_taken (c : Char) (rest : Str) :
    closingQuote true (c :: rest) = (closingQuote false rest).map (· + 1) := rfl

theorem closing_plain (c : Char) (rest : Str) (other : c ≠ '"') :
    closingQuote false (c :: rest) = (closingQuote (c = '\\') rest).map (· + 1) := by
  rw [closingQuote, if_neg other]

/-- A place found behind one more character. -/
theorem exists_map_succ (found : Option Nat) (n : Nat) :
    (∃ i < n + 1, found.map (· + 1) = some i) ↔ ∃ i < n, found = some i := by
  constructor
  · rintro ⟨i, less, shifted⟩
    obtain ⟨j, here, same⟩ := Option.map_eq_some_iff.mp shifted
    exact ⟨j, by omega, here⟩
  · rintro ⟨i, less, here⟩
    exact ⟨i + 1, by omega, by rw [here, Option.map_some]⟩

/-- A quote that is taken: the first character is one, or one of the rest is. -/
theorem exists_quote_cons (c : Char) (s : Str) (state : Bool) :
    (∃ front back, c :: s = front ++ '"' :: back ∧ pending state front = true) ↔
      c = '"' ∧ state = true ∨
        ∃ front back, s = front ++ '"' :: back ∧
          pending (if c = '\\' then !state else false) front = true := by
  constructor
  · rintro ⟨front, back, shape, taken⟩
    cases front with
    | nil => exact Or.inl ⟨(List.cons.inj shape).1, taken⟩
    | cons d front =>
        rw [(List.cons.inj shape).1]
        exact Or.inr ⟨front, back, (List.cons.inj shape).2, taken⟩
  · rintro (⟨quote, taken⟩ | ⟨front, back, shape, taken⟩)
    · exact ⟨[], s, by rw [quote, List.nil_append], taken⟩
    · exact ⟨c :: front, back, by rw [shape, List.cons_append], taken⟩

/-- From any state, the quotes are closed inside of a text exactly if it has a quote that is
taken. -/
theorem closes_iff (s rest : Str) (state : Bool) :
    (∃ i < (escape s).length, closingQuote state (escape s ++ '"' :: rest) = some i) ↔
      ∃ front back, s = front ++ '"' :: back ∧ pending state front = true := by
  induction s generalizing state with
  | nil =>
      rw [escape_eq]
      simp
  | cons c s ih =>
      have shape : escape (c :: s) = (if c = '"' then ['\\', '"'] else [c]) ++ escape s := by
        rw [escape_eq, escape_eq, List.flatMap_cons]
      rw [exists_quote_cons, shape]
      by_cases quote : c = '"'
      · rw [if_pos quote, if_neg (show c ≠ '\\' by rw [quote]; decide), ← ih false]
        cases state with
        | true =>
            -- the added backslash is taken, and the quote closes
            refine ⟨fun _ => Or.inl ⟨quote, rfl⟩, fun _ => ⟨1, ?_, rfl⟩⟩
            rw [List.length_append]
            exact Nat.lt_of_lt_of_le Nat.one_lt_two (Nat.le_add_right 2 _)
        | false =>
            have passes : closingQuote false (['\\', '"'] ++ escape s ++ '"' :: rest) =
                ((closingQuote false (escape s ++ '"' :: rest)).map (· + 1)).map (· + 1) := rfl
            have size : (['\\', '"'] ++ escape s).length = (escape s).length + 1 + 1 := by
              rw [List.length_append, Nat.add_comm]
              rfl
            rw [passes, size, exists_map_succ, exists_map_succ]
            exact ⟨Or.inr, fun either => either.resolve_left fun both => Bool.false_ne_true both.2⟩
      · have size : ([c] ++ escape s).length = (escape s).length + 1 := rfl
        have passes : closingQuote state ([c] ++ escape s ++ '"' :: rest) =
            (closingQuote (if c = '\\' then !state else false) (escape s ++ '"' :: rest)).map
              (· + 1) := by
          cases state with
          | true =>
              rw [List.append_assoc, List.singleton_append, closing_taken]
              simp
          | false =>
              rw [List.append_assoc, List.singleton_append, closing_plain _ _ quote]
              simp
        rw [if_neg quote, passes, size, exists_map_succ, ih]
        exact ⟨Or.inr, fun either => either.resolve_left fun both => quote both.1⟩

/-- The quotes of a text end early exactly if it has a quote behind an odd number of backslashes. -/
theorem endsEarly_iff (s rest : Str) :
    EndsEarly s rest ↔ ∃ front back, s = front ++ '"' :: back ∧ backslashes front % 2 = 1 := by
  rw [EndsEarly, closes_iff]
  simp only [pending_eq, decide_eq_true_eq]

/-- A listed name is quoted again as it was exactly if it has no quote; the quotes of a name, a user
or a password hold exactly if each of its quotes stands behind an even number of backslashes. -/
theorem quoting_iff (before name text rest : Str) :
    (argument (parseListLine (listLine before name)).name = quoted name ↔ '"' ∉ name) ∧
      (¬ EndsEarly text rest ↔ ∀ front back, text = front ++ '"' :: back →
        backslashes front % 2 = 0) := by
  refine ⟨requoted_iff before name, ?_⟩
  rw [endsEarly_iff]
  constructor
  · intro none_ front back shape
    by_contra odd
    exact none_ ⟨front, back, shape, by omega⟩
  · rintro even ⟨front, back, shape, odd⟩
    have zero := even front back shape
    omega

/-- The folder `a"b` is opened as `b`, and the password `\"` ends its quotes behind the
backslashes. -/
theorem quote_lost :
    argument (parseListLine (listLine "* LIST () \"/\" ".toList "a\"b".toList)).name ≠ quoted
      "a\"b".toList ∧
      EndsEarly "\\\"".toList [] := by
  refine ⟨by decide, 2, by decide, by decide⟩

end EraOne.Imap
