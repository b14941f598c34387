import EraOne.CalendarText
import EraOne.ImapFetch

set_option autoImplicit false

/- What the FETCH of the IMAP client reads of each message in a mailbox. -/
namespace EraOne.Imap

open Migration (beforeDelimiter parseUint)
open Utf8

section

variable (text : Text) (hashRaw : Bytes → Str)

/-! ### The UID that is read -/

/-- The flag behind the first one that ends in `UID`, if one is. -/
def uidFlag : List Str → Option Str
  | flag :: next :: rest => if "UID".toList <:+ flag then some next else uidFlag (next :: rest)
  | _ => none

/-- The UID is what is read from the items. -/
def FindsUid (a : Answer) : List Item → Prop
  | [] => False
  | .uid :: _ => True
  | .flags :: rest =>
      match uidFlag (a.flags.map Flag.name) with
      | some next => parseUint next = a.uid
      | none => FindsUid a rest

/-- The number that a text begins with, as `parseUID` reads it. -/
def leadingNumber (rest : Str) : Nat :=
  match beforeDelimiter (text.trimSpace rest) with
  | none => 0
  | some number => if number = [] then 0 else parseUint number

theorem parseUID_eq (line : Str) :
    parseUID text line = ((Scan.splitOnce "UID ".toList line).map fun halves =>
      leadingNumber text halves.2).getD 0 := by
  unfold parseUID
  cases Scan.splitOnce "UID ".toList line with
  | none => rfl
  | some halves => rfl

theorem beforeDelimiter_append (word rest : Str) (d : Char) (delimiter : d = ' ' ∨ d = ')')
    (clean : ∀ c ∈ word, c ≠ ' ' ∧ c ≠ ')') : beforeDelimiter (word ++ d :: rest) = some word := by
  induction word with
  | nil => exact if_pos delimiter
  | cons c word ih =>
      rw [List.forall_mem_cons] at clean
      rw [List.cons_append, beforeDelimiter, if_neg (by rw [not_or]; exact clean.1), ih clean.2,
        Option.map_some]

/-- A word before a delimiter is read as a number; the text ends in a brace. -/
theorem leadingNumber_word (word rest : Str) (d : Char) (delimiter : d = ' ' ∨ d = ')')
    (plain : Plain (word ++ d :: rest)) (clean : ∀ c ∈ word, c ≠ ' ' ∧ c ≠ ')') (some_ : word ≠ [])
    (last : (word ++ d :: rest).getLast? = some '\x7d') :
    leadingNumber text (word ++ d :: rest) = parseUint word := by
  have first : ∀ c ∈ (word ++ d :: rest).head?, Scan.isWhitespace c = false := by
    intro c head
    rw [List.head?_append_of_ne_nil _ some_] at head
    have member := List.mem_of_head? head
    have printable := plain c (List.mem_append_left _ member)
    have other := (clean c member).1
    have number : c.toNat ≠ 0x20 := fun same => other (Char.toNat_inj.mp same)
    unfold Scan.isWhitespace
    rw [decide_eq_false_iff_not]
    omega
  have trimmed : Scan.trim (word ++ d :: rest) = word ++ d :: rest := by
    apply trim_eq_self_of_ends _ first
    rw [last]
    intro c same
    cases same
    decide
  unfold leadingNumber
  rw [text.trimSpace_ascii _ plain.ascii, trimmed, beforeDelimiter_append _ _ _ delimiter clean]
  dsimp only
  rw [if_neg some_]

theorem Flag.clean (flag : Flag) : flag.name ≠ [] ∧ ∀ c ∈ flag.name, c ≠ ' ' ∧ c ≠ ')' := by
  constructor
  · intro empty
    have atom := flag.atom
    rw [empty] at atom
    exact absurd atom (by decide)
  · intro c member
    rcases flag.chars c member with atom | rfl
    · constructor
      · rintro rfl
        exact absurd atom (by decide)
      · rintro rfl
        exact absurd atom (by decide)
    · decide

theorem parseUID_quiet (piece rest : Str) (quiet : Scan.Quiet "UID ".toList piece) :
    parseUID text (piece ++ rest) = parseUID text rest := by
  rw [parseUID_eq, parseUID_eq, quiet, Option.map_map]
  rfl

theorem parseUID_match (rest : Str) :
    parseUID text ("UID ".toList ++ rest) = leadingNumber text rest := by
  rw [parseUID_eq, Scan.splitOnce_match _ _ (by decide)]
  rfl

/-- What is read behind a text without blanks and a blank. -/
theorem parseUID_blank (piece rest : Str) (clean : ' ' ∉ piece) :
    parseUID text (piece ++ ' ' :: rest) = if "UID".toList <:+ piece then leadingNumber text rest
      else parseUID text rest := by
  have shape : "UID ".toList = "UID".toList ++ [' '] := by decide
  have cut := Scan.splitOnce_delimited "UID".toList piece rest ' ' (by decide) clean
  rw [← shape] at cut
  rw [parseUID_eq, cut]
  split
  · rfl
  · rw [parseUID_eq, Option.map_map]
    rfl

theorem quiet_close (piece : Str) (clean : ' ' ∉ piece) :
    Scan.Quiet "UID ".toList (piece ++ [')']) := by
  apply Scan.quiet_of_lacks _ _ _ ' ' (by decide) _ (by decide)
  rw [List.mem_append, not_or]
  exact ⟨clean, by decide⟩

theorem intercalate_cons (name next : Str) (rest : List Str) :
    List.intercalate [' '] (name :: next :: rest) = name ++ ' ' :: List.intercalate [' ']
      (next :: rest) := by
  simp [List.intercalate]

theorem intercalate_single (name : Str) : List.intercalate [' '] [name] = name := by
  simp [List.intercalate]

/-- A list of flags is read for a UID before what follows it. -/
theorem parseUID_flags (flags : List Flag) (rest : Str) (plain : Plain rest)
    (last : rest.getLast? = some '\x7d') :
    parseUID text (List.intercalate [' '] (flags.map Flag.name) ++ ')' :: rest) =
      match uidFlag (flags.map Flag.name) with
      | some next => parseUint next
      | none => parseUID text rest := by
  have free (flag : Flag) : ' ' ∉ flag.name := fun blank => (flag.clean.2 ' ' blank).1 rfl
  induction flags with
  | nil => exact parseUID_quiet text [')'] rest (quiet_close [] (by decide))
  | cons flag flags ih =>
      cases flags with
      | nil =>
          rw [List.map_singleton, intercalate_single, ← List.singleton_append, ← List.append_assoc]
          exact parseUID_quiet text _ rest (quiet_close _ (free flag))
      | cons next flags =>
          rw [List.map_cons, List.map_cons, intercalate_cons, List.append_assoc, List.cons_append,
            parseUID_blank _ _ _ (free flag), uidFlag]
          rw [List.map_cons] at ih
          split
          · dsimp only
            have printable :
                Plain (List.intercalate [' '] (next.name :: flags.map Flag.name) ++ ')' ::
                  rest) := by
              rw [plain_append, plain_cons]
              refine ⟨fun c member => ?_, by decide, plain⟩
              rcases mem_intercalate c _ member with rfl | ⟨s, inside, found⟩
              · decide
              · rw [← List.map_cons] at inside
                obtain ⟨flag, _, rfl⟩ := List.mem_map.mp inside
                exact flag.plain c found
            have ends :
                (List.intercalate [' '] (next.name :: flags.map Flag.name) ++ ')' ::
                  rest).getLast? = some '\x7d' := by
              rw [List.getLast?_append, List.getLast?_cons, last]
              rfl
            cases flags with
            | nil =>
                rw [List.map_nil, intercalate_single] at printable ends ⊢
                exact leadingNumber_word text _ _ _
                  (Or.inr rfl) printable next.clean.2 next.clean.1 ends
            | cons third flags =>
                rw [List.map_cons, intercalate_cons, List.append_assoc,
                  List.cons_append] at printable ends ⊢
                exact leadingNumber_word text _ _ _
                  (Or.inl rfl) printable next.clean.2 next.clean.1 ends
          · exact ih

/-- The end of the header, behind the items. -/
def Answer.bodyItem (a : Answer) : Str :=
  "BODY[] \x7b".toList ++ (Nat.toDigits 10 a.raw.length ++ ['\x7d'])

theorem Answer.header_eq (a : Answer) :
    a.header = ("* ".toList ++ Nat.toDigits 10 a.seq ++ " FETCH (".toList) ++
      (a.before.flatMap (fun i => a.item i ++ [' ']) ++ a.bodyItem) := by
  unfold Answer.header Answer.bodyItem
  simp only [List.append_assoc]

theorem Answer.plain_items (a : Answer) (items : List Item) :
    Plain (items.flatMap (fun i => a.item i ++ [' ']) ++ a.bodyItem) := by
  unfold Answer.bodyItem
  rw [plain_append, plain_append, plain_append]
  refine ⟨plain_flatMap _ _ fun i => ?_, plain_literal _ (by decide), plain_toDigits _,
    plain_literal _ (by decide)⟩
  rw [plain_append]
  exact ⟨a.plain_item i, plain_literal _ (by decide)⟩

theorem Answer.items_last (a : Answer) (items : List Item) :
    (items.flatMap (fun i => a.item i ++ [' ']) ++ a.bodyItem).getLast? = some '\x7d' := by
  unfold Answer.bodyItem
  rw [← List.append_assoc, ← List.append_assoc, List.getLast?_concat]

theorem parseUint_toDigits (n : Nat) (small : n < 2 ^ 32) : parseUint (Nat.toDigits 10 n) = n := by
  unfold parseUint
  rw [Scan.parseDigits_toDigits]
  exact if_pos small

theorem parseUID_items (a : Answer) (items : List Item) :
    parseUID text (items.flatMap (fun i => a.item i ++ [' ']) ++ a.bodyItem) = a.uid ↔
      FindsUid a items := by
  induction items with
  | nil =>
      have quiet : Scan.Quiet "UID ".toList a.bodyItem := by
        apply Scan.quiet_of_not_mem
        unfold Answer.bodyItem
        rw [List.mem_append, List.mem_append, not_or, not_or]
        exact ⟨by decide, not_mem_toDigits _ (by decide) _, by decide⟩
      have zero : parseUID text a.bodyItem = 0 := by
        have step := parseUID_quiet text a.bodyItem [] quiet
        rw [List.append_nil] at step
        rw [step]
        rfl
      rw [List.flatMap_nil, List.nil_append, zero]
      exact iff_of_false (fun same => Nat.ne_of_gt a.uid_pos same.symm) id
  | cons i items ih =>
      have printable := a.plain_items items
      have ends := a.items_last items
      rw [List.flatMap_cons, List.append_assoc]
      generalize more :
        items.flatMap (fun i => a.item i ++ [' ']) ++ a.bodyItem = rest at ih printable ends
      rw [List.append_assoc, List.singleton_append]
      cases i with
      | uid =>
          have plain : Plain (Nat.toDigits 10 a.uid ++ ' ' :: rest) := by
            rw [plain_append, plain_cons]
            exact ⟨plain_toDigits _, by decide, printable⟩
          have last : (Nat.toDigits 10 a.uid ++ ' ' :: rest).getLast? = some '\x7d' := by
            rw [List.getLast?_append, List.getLast?_cons, ends]
            rfl
          have clean : ∀ c ∈ Nat.toDigits 10 a.uid, c ≠ ' ' ∧ c ≠ ')' := by
            intro c member
            constructor
            · rintro rfl
              exact not_mem_toDigits _ (by decide) _ member
            · rintro rfl
              exact not_mem_toDigits _ (by decide) _ member
          rw [a.item_uid, List.append_assoc, parseUID_match,
            leadingNumber_word text _ _ _ (Or.inl rfl) plain clean (by simp) last,
            parseUint_toDigits _ a.uid_lt]
          exact iff_of_true rfl trivial
      | flags =>
          have plain : Plain (' ' :: rest) := by
            rw [plain_cons]
            exact ⟨by decide, printable⟩
          have last : (' ' :: rest).getLast? = some '\x7d' := by
            rw [List.getLast?_cons, ends]
            rfl
          have skip : parseUID text (' ' :: rest) = parseUID text rest := by
            have step := parseUID_blank text [] rest (by decide)
            rwa [if_neg (by decide), List.nil_append] at step
          rw [a.item_flags, List.append_assoc, List.append_assoc, List.singleton_append,
            parseUID_quiet text _ _ (Scan.quiet_of_not_mem _ _ _ (by decide)),
            parseUID_flags text _ _ plain last, skip, FindsUid]
          cases uidFlag (a.flags.map Flag.name) with
          | some next => exact Iff.rfl
          | none => exact ih

theorem Answer.parseUID_header (a : Answer) :
    parseUID text a.header = a.uid ↔ FindsUid a a.before := by
  have quiet :
      Scan.Quiet "UID ".toList ("* ".toList ++ Nat.toDigits 10 a.seq ++ " FETCH (".toList) := by
    apply Scan.quiet_of_not_mem
    rw [List.mem_append, List.mem_append, not_or, not_or]
    exact ⟨⟨by decide, not_mem_toDigits _ (by decide) _⟩, by decide⟩
  rw [a.header_eq, parseUID_quiet text _ _ quiet, parseUID_items]

/-! ### The flag that is read -/

def seenText : Str := "\\SEEN".toList

/-- The flag as it is compared. -/
def Flag.upper (flag : Flag) : Str := flag.name.map Char.toUpper

theorem eq_of_toUpper_backslash (c : Char) (same : c.toUpper = '\\') : c = '\\' := by
  have sign : ¬ c.isAlpha = true := by
    rw [← Char.isAlpha_toUpper_eq_isAlpha, same]
    decide
  rwa [Calendar.toUpper_of_not_isAlpha c sign] at same

theorem not_infix_of_no_backslash (s : Str) (clean : '\\' ∉ s) :
    ¬ seenText <:+: s.map Char.toUpper := by
  intro within
  obtain ⟨c, member, same⟩ := List.mem_map.mp (within.subset (show '\\' ∈ seenText by decide))
  rw [eq_of_toUpper_backslash c same] at member
  exact clean member

theorem infix_delimited_iff (a b : Str) (q : Char) (absent : q ∉ seenText) (kept : q.toUpper = q) :
    seenText <:+: (a ++ q :: b).map Char.toUpper ↔ seenText <:+: a.map Char.toUpper ∨
      seenText <:+: b.map Char.toUpper := by
  rw [List.map_append, List.map_cons, kept]
  constructor
  · exact Scan.infix_of_delimited _ _ _ q absent
  · rintro (first | second)
    · exact first.trans (List.prefix_append _ _).isInfix
    · exact second.trans ((List.suffix_cons q _).trans (List.suffix_append _ _)).isInfix

theorem Flag.infix_upper (flag : Flag) :
    seenText <:+: flag.name.map Char.toUpper ↔ seenText <+: flag.upper := by
  refine ⟨fun within => ?_, List.IsPrefix.isInfix⟩
  unfold Flag.upper
  have tail : '\\' ∉ flag.name.tail := by
    intro member
    have atom := flag.atom
    unfold isAtom at atom
    rw [Bool.and_eq_true] at atom
    have inside : isAtomChar '\\' = true := by
      split at atom
      · exact List.all_eq_true.mp atom.2 _ member
      · exact List.all_eq_true.mp atom.2 _ (List.mem_of_mem_tail member)
    exact absurd inside (by decide)
  cases shape : flag.name with
  | nil => exact absurd shape flag.clean.1
  | cons c rest =>
      rw [shape] at within tail
      rw [List.map_cons] at within ⊢
      exact (List.infix_cons_iff.mp within).resolve_right (not_infix_of_no_backslash rest tail)

theorem infix_flags (flags : List Flag) :
    seenText <:+: (List.intercalate [' '] (flags.map Flag.name)).map Char.toUpper ↔
      ∃ flag ∈ flags, seenText <+: flag.upper := by
  induction flags with
  | nil => exact iff_of_false (not_infix_of_no_backslash [] (by decide)) (by simp)
  | cons flag flags ih =>
      cases flags with
      | nil =>
          rw [List.map_singleton, intercalate_single, flag.infix_upper]
          simp
      | cons next flags =>
          rw [List.map_cons, List.map_cons, intercalate_cons,
            infix_delimited_iff _ _ _ (by decide) (by decide), ← List.map_cons, ih,
            flag.infix_upper]
          simp

theorem infix_items (a : Answer) (items : List Item) :
    seenText <:+: (items.flatMap (fun i => a.item i ++ [' ']) ++ a.bodyItem).map Char.toUpper ↔
      Item.flags ∈ items ∧ ∃ flag ∈ a.flags, seenText <+: flag.upper := by
  induction items with
  | nil =>
      refine iff_of_false (not_infix_of_no_backslash _ ?_) (by simp)
      rw [List.flatMap_nil, List.nil_append]
      unfold Answer.bodyItem
      rw [List.mem_append, List.mem_append, not_or, not_or]
      exact ⟨by decide, not_mem_toDigits _ (by decide) _, by decide⟩
  | cons i items ih =>
      rw [List.flatMap_cons, List.append_assoc]
      generalize items.flatMap (fun i => a.item i ++ [' ']) ++ a.bodyItem = rest at ih
      rw [List.append_assoc, List.singleton_append,
        infix_delimited_iff _ _ _ (by decide) (by decide), ih, List.mem_cons]
      cases i with
      | uid =>
          have clean : '\\' ∉ a.item .uid := by
            rw [a.item_uid, List.mem_append, not_or]
            exact ⟨by decide, not_mem_toDigits _ (by decide) _⟩
          have other := not_infix_of_no_backslash _ clean
          simp [other]
      | flags =>
          have inner : seenText <:+: (a.item .flags).map Char.toUpper ↔
              ∃ flag ∈ a.flags, seenText <+: flag.upper := by
            have open_ : "FLAGS (".toList = "FLAGS ".toList ++ ['('] := by decide
            have shape : a.item .flags = "FLAGS ".toList ++ '(' ::
                (List.intercalate [' '] (a.flags.map Flag.name) ++ ')' :: []) := by
              rw [a.item_flags, open_]
              simp only [List.append_assoc, List.cons_append, List.nil_append]
            have first := not_infix_of_no_backslash "FLAGS ".toList (by decide)
            have last := not_infix_of_no_backslash [] (by decide)
            rw [shape, infix_delimited_iff _ _ _ (by decide) (by decide),
              infix_delimited_iff _ _ _ (by decide) (by decide), infix_flags,
              or_iff_right first, or_iff_left last]
          rw [inner]
          simp

/-- The header says `\Seen` exactly if a flag before the body begins with it. -/
theorem Answer.parseSeen_header (a : Answer) :
    parseSeen text a.header = true ↔ Item.flags ∈ a.before ∧
      ∃ flag ∈ a.flags, seenText <+: flag.upper := by
  unfold parseSeen
  rw [text.upper_ascii _ a.plain_header.ascii, Scan.contains_iff_infix, ← infix_items, a.header_eq]
  have blank : " FETCH (".toList = " FETCH ".toList ++ ['('] := by decide
  have shape (rest : Str) : ("* ".toList ++ Nat.toDigits 10 a.seq ++ " FETCH (".toList) ++ rest =
      ("* ".toList ++ Nat.toDigits 10 a.seq ++ " FETCH ".toList) ++ '(' :: rest := by
    rw [blank]
    simp only [List.append_assoc, List.cons_append, List.nil_append]
  have clean : '\\' ∉ "* ".toList ++ Nat.toDigits 10 a.seq ++ " FETCH ".toList := by
    rw [List.mem_append, List.mem_append, not_or, not_or]
    exact ⟨⟨by decide, not_mem_toDigits _ (by decide) _⟩, by decide⟩
  have other := not_infix_of_no_backslash _ clean
  have split := infix_delimited_iff ("* ".toList ++ Nat.toDigits 10 a.seq ++ " FETCH ".toList)
    (a.before.flatMap (fun i => a.item i ++ [' ']) ++ a.bodyItem) '(' (by decide) (by decide)
  rw [shape]
  exact split.trans (or_iff_right other)

/-! ### All messages -/

/-- A message that is read as it is: it has a body, its UID is found before it, and a flag before
the body says `\Seen` exactly if the message has the flag. -/
structure Received (a : Answer) : Prop where
  body : a.raw ≠ []
  uid : FindsUid a a.before
  seen : (Item.flags ∈ a.before ∧ ∃ flag ∈ a.flags, seenText <+: flag.upper) ↔
    ∃ flag ∈ a.flags, flag.upper = seenText

theorem Answer.seen_iff (a : Answer) : a.seen = true ↔ ∃ flag ∈ a.flags, flag.upper = seenText := by
  unfold Answer.seen
  rw [List.any_eq_true]
  exact exists_congr fun flag => and_congr_right fun _ => decide_eq_true_iff

theorem Answer.read_eq_iff (folder : Str) (a : Answer) :
    a.read text hashRaw folder = [a.message text hashRaw folder] ↔ Received a := by
  unfold Answer.read Answer.message
  by_cases empty : a.raw = []
  · rw [if_pos empty]
    exact iff_of_false (List.cons_ne_nil _ _).symm fun received => received.body empty
  · rw [if_neg empty, List.cons.injEq, Message.mk.injEq, a.parseUID_header text, Bool.eq_iff_iff,
      a.parseSeen_header text, a.seen_iff]
    constructor
    · rintro ⟨⟨uid, -, -, -, -, seen⟩, -⟩
      exact ⟨empty, uid, seen⟩
    · intro received
      exact ⟨⟨received.uid, rfl, rfl, rfl, rfl, received.seen⟩, rfl⟩

theorem flatMap_eq_map_iff {α β : Type} (f : α → List β) (g : α → β) (short : ∀ a, (f a).length ≤ 1)
    (l : List α) :
    l.flatMap f = l.map g ↔ ∀ a ∈ l, f a = [g a] := by
  have lengths (l : List α) : (l.flatMap f).length ≤ l.length := by
    induction l with
    | nil => exact Nat.le_refl 0
    | cons a l ih =>
        have one := short a
        rw [List.flatMap_cons, List.length_append, List.length_cons]
        omega
  induction l with
  | nil => simp
  | cons a l ih =>
      rw [List.flatMap_cons, List.map_cons, List.forall_mem_cons]
      constructor
      · intro same
        have size := congrArg List.length same
        have rest := lengths l
        rw [List.length_append, List.length_cons, List.length_map] at size
        have one : (f a).length = 1 := by
          have := short a
          omega
        obtain ⟨b, shape⟩ := List.length_eq_one_iff.mp one
        rw [shape, List.singleton_append, List.cons.injEq] at same
        rw [shape, same.1]
        exact ⟨rfl, ih.mp same.2⟩
      · rintro ⟨first, later⟩
        rw [first, ih.mpr later]
        rfl

theorem two_mul_length_le {α β : Type} (f : α → List β) (long : ∀ a, 2 ≤ (f a).length)
    (l : List α) :
    2 * l.length ≤ (l.flatMap f).length := by
  induction l with
  | nil => exact Nat.le_refl 0
  | cons a l ih =>
      have one := long a
      rw [List.flatMap_cons, List.length_append, List.length_cons]
      omega

/-- All messages of a mailbox are fetched as they are exactly if each one is received. -/
theorem fetch_iff (tag : Nat) (sent : List Str) (folder : Str) (mailbox : List Remark)
    (selected fetched : Remark) (answers : List Answer) :
    (∃ cl, fetchFolder text hashRaw ⟨tag, serverText tag mailbox selected fetched answers, sent⟩
      folder =
      .ok (answers.map (Answer.message text hashRaw folder), cl)) ↔ ∀ a ∈ answers, Received a := by
  have awaited := awaitOK_selected tag mailbox selected
    (answers.flatMap Answer.text ++
      (utf8 (nextTag (tag + 1) ++ " OK ".toList) ++ fetched.text ++ crlf))
  have lines := fetchLines_answers text hashRaw folder (tag + 1) answers fetched
  have whole : serverText tag mailbox selected fetched answers =
      mailbox.flatMap (fun line => utf8 "* ".toList ++ line.text ++ crlf) ++
        (utf8 (nextTag tag ++ " OK ".toList) ++ selected.text ++ crlf) ++
        (answers.flatMap Answer.text ++
          (utf8 (nextTag (tag + 1) ++ " OK ".toList) ++ fetched.text ++ crlf)) := by
    unfold serverText
    simp only [List.append_assoc]
  generalize rest : answers.flatMap Answer.text ++
    (utf8 (nextTag (tag + 1) ++ " OK ".toList) ++ fetched.text ++ crlf) = second
    at awaited lines whole
  have enough : mailbox.length < (serverText tag mailbox selected fetched answers).length + 1 := by
    have longer := two_mul_length_le (fun line : Remark => utf8 "* ".toList ++ line.text ++ crlf)
      (fun line => by rw [List.length_append]; exact Nat.le_add_left 2 _) mailbox
    rw [whole, List.length_append, List.length_append]
    omega
  have more : 2 * answers.length < second.length + 1 := by
    have longer := two_mul_length_le Answer.text
      (fun a => by rw [Answer.text, List.length_append]; exact Nat.le_add_left 2 _) answers
    rw [← rest, List.length_append]
    omega
  have result :
      fetchFolder text hashRaw ⟨tag, serverText tag mailbox selected fetched answers, sent⟩ folder =
        .ok (answers.flatMap (Answer.read text hashRaw folder), {
          tag := tag + 2
          reader := []
          sent := sent ++ [nextTag tag ++ " SELECT ".toList ++ argument folder ++ "\r\n".toList,
            nextTag (tag + 1) ++ " FETCH 1:* (UID FLAGS BODY[])\r\n".toList] }) := by
    have first := awaited _ enough
    rw [← whole] at first
    rw [fetchFolder, first]
    dsimp only [Except.bind]
    rw [lines _ more]
    rfl
  have short (a : Answer) : (a.read text hashRaw folder).length ≤ 1 := by
    unfold Answer.read
    split
    · exact Nat.zero_le 1
    · exact Nat.le_refl 1
  have each := flatMap_eq_map_iff (Answer.read text hashRaw folder)
    (Answer.message text hashRaw folder) short answers
  rw [result]
  constructor
  · rintro ⟨cl, same⟩ a member
    have equal := (Prod.mk.inj (Except.ok.inj same)).1
    exact (a.read_eq_iff text hashRaw folder).mp (each.mp equal a member)
  · intro received
    refine ⟨_, congrArg Except.ok (Prod.ext (each.mpr fun a member => ?_) rfl)⟩
    exact (a.read_eq_iff text hashRaw folder).mpr (received a member)

end

/-! ### Two mailboxes -/

/-- The case mappings and white space of ASCII. -/
def asciiText : Text where
  upper s := s.map Char.toUpper
  lower s := s.map Char.toLower
  trimSpace := Scan.trim
  upper_ascii _ _ := rfl
  trimSpace_ascii _ _ := rfl

/-- A message in the order that the command asks for. -/
def asked : Answer where
  seq := 1
  uid := 7
  flags := [⟨"\\Seen".toList, by decide⟩]
  raw := utf8 "a2 OK FETCH".toList
  before := [.uid, .flags]
  behind := []
  uid_pos := by decide
  uid_lt := by decide
  raw_lt := by decide
  items := List.Perm.refl _

def selectedRemark : Remark := ⟨utf8 "SELECT completed".toList, by decide⟩

def fetchedRemark : Remark := ⟨utf8 "FETCH completed".toList, by decide⟩

example : Received asked :=
  ⟨by decide, trivial, iff_of_true ⟨by decide, by decide⟩ (by decide)⟩

/-- The same message with its UID and its flags behind the body. -/
def bodyFirst : Answer :=
  { asked with before := [], behind := [.uid, .flags], items := List.Perm.refl _ }

/-- A message whose items stand behind its body gets the UID 0 and is unseen. -/
theorem items_lost : ¬ ∀ (text : Text) (hashRaw : Bytes → Str) (tag : Nat) (sent : List Str)
    (folder : Str) (mailbox : List Remark) (selected fetched : Remark) (answers : List Answer),
    ∃ cl, fetchFolder text hashRaw ⟨tag, serverText tag mailbox selected fetched answers, sent⟩
      folder =
        .ok (answers.map (Answer.message text hashRaw folder), cl) := by
  intro fetches
  obtain ⟨cl, same⟩ :=
    fetches asciiText (fun _ => []) 0 [] "INBOX".toList [] selectedRemark fetchedRemark [bodyFirst]
  have read_ :
      (fetchFolder asciiText (fun _ => []) ⟨0,
        serverText 0 [] selectedRemark fetchedRemark [bodyFirst], []⟩ "INBOX".toList).toOption.map
      (fun result => result.1.map Message.uid) = some [0] := by
    decide
  rw [same] at read_
  exact absurd read_ (show some [7] ≠ some [0] by decide)

end EraOne.Imap
