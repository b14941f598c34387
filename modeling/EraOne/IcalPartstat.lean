import EraOne.IcalText

set_option autoImplicit false

/- A new answer in the text of an event (`ical.go`), against the content lines of RFC 5545. -/
namespace EraOne.Ical

open Calendar (CaseTable parseMailto unfoldLines crlf marker contentLines linePairs)
open Utf8

variable (table : CaseTable)

/-! ### The code -/

/-- `;` and `:` as bytes. -/
def endsValue (b : UInt8) : Bool := b = 59 || b = 58

/-- `none` where the line is cut out of range. -/
def updateLine (attendeeEmail partstat line : Str) : Option Bytes :=
  if ¬ "ATTENDEE".toList.isPrefixOf (table.toUpper line) then some (utf8 line)
  else if table.toLower (parseMailto line) ≠ attendeeEmail then some (utf8 line)
  else
    match markerEnd table line with
    | some n =>
        if byteLen line < n then none
        else some ((utf8 line).take n ++ utf8 partstat ++ ((utf8 line).drop n).dropWhile fun b =>
          !endsValue b)
    | none =>
        if ':' ∈ line then
          some (utf8
            (line.takeWhile (· ≠ ':') ++ ';' :: marker ++ partstat ++ line.dropWhile (· ≠ ':')))
        else some (utf8 line)

/-- `strings.Join(lines, "\r\n")`. -/
def joined (lines : List Bytes) : Bytes := List.intercalate [13, 10] lines

def updateAttendeePartstat (raw attendeeEmail partstat : Str) : Option Bytes :=
  ((unfoldLines raw).mapM (updateLine table (table.toLower (Scan.trim attendeeEmail))
    (table.toUpper (Scan.trim partstat)))).map joined

/-! ### Content lines -/

/-- The text before the first colon outside quotes, and the text from it on. -/
def beforeColon : Bool → Str → Str × Str
  | _, [] => ([], [])
  | quoted, c :: s =>
      if c = ':' ∧ ¬ quoted then ([], c :: s)
      else
        let halves := beforeColon (quoted ^^ decide (c = '"')) s
        (c :: halves.1, halves.2)

/-- The texts between the semicolons outside quotes. -/
def fields : Bool → Str → List Str
  | _, [] => [[]]
  | quoted, c :: s =>
      if c = ';' ∧ ¬ quoted then [] :: fields quoted s
      else (fields (quoted ^^ decide (c = '"')) s).modifyHead (c :: ·)

/-- The address of a value, with `mailto:` in any letters or without. -/
def addressOf (value : Str) : Str :=
  Scan.trim (if table.toUpper (value.take 7) = "MAILTO:".toList then value.drop 7 else value)

/-- An ATTENDEE line for the address. -/
def Concerns (address line : Str) : Prop :=
  table.toUpper ((fields false (beforeColon false line).1).headD []) = "ATTENDEE".toList ∧
    (beforeColon false line).2 ≠ [] ∧
      table.toLower (addressOf table (beforeColon false line).2.tail) = address

instance (address line : Str) : Decidable (Concerns table address line) :=
  inferInstanceAs (Decidable (_ ∧ _ ∧ _))

def isPartstat (param : Str) : Bool :=
  '=' ∈ param && table.toUpper (param.takeWhile (· ≠ '=')) = "PARTSTAT".toList

/-- The parameters with `PARTSTAT` set. -/
def setParam (status : Str) : List Str → List Str
  | [] => [marker ++ status]
  | param :: rest =>
      if isPartstat table param then (param.takeWhile (· ≠ '=') ++ '=' :: status) :: rest
      else param :: setParam status rest

/-- A content line, with the answer set if it is one of the address. -/
def expected (address status line : Str) : Str :=
  if Concerns table address line then
    match fields false (beforeColon false line).1 with
    | name :: params =>
        List.intercalate [';'] (name :: setParam table status params) ++ (beforeColon false line).2
    | [] => line
  else line

/-- The new text has the content lines of the old one, with the answer set. -/
def Rewrites (raw attendeeEmail partstat : Str) : Prop :=
  ∃ out, updateAttendeePartstat table raw attendeeEmail partstat = some out ∧
    contentLines (byteText out) = (contentLines raw).map fun line =>
      byteText
        (utf8 (expected table (table.toLower (Scan.trim attendeeEmail))
          (table.toUpper (Scan.trim partstat)) line))

theorem endsValue_ascii (c : Char) (ascii : c.toNat < 128) :
    endsValue (UInt8.ofNat c.toNat) = Calendar.endsValue c := by
  have sign (q : Char) (n : UInt8) (known : q.toNat = n.toNat) :
      UInt8.ofNat c.toNat = n ↔ c = q := by
    rw [← UInt8.toNat_inj, UInt8.toNat_ofNat', Nat.mod_eq_of_lt (by omega), ← known, Char.toNat_inj]
  unfold endsValue Calendar.endsValue
  rw [Bool.eq_iff_iff, Bool.or_eq_true, Bool.or_eq_true, decide_eq_true_eq, decide_eq_true_eq,
    decide_eq_true_eq, decide_eq_true_eq, sign ';' 59 rfl, sign ':' 58 rfl]

theorem dropWhile_utf8 (s : Str) :
    (utf8 s).dropWhile (fun b => !endsValue b) = utf8
    (s.dropWhile fun c => !Calendar.endsValue c) := by
  induction s with
  | nil => rfl
  | cons c s ih =>
      by_cases inside : c.toNat < 128
      · rw [utf8_cons, utf8_ascii c inside, List.singleton_append, List.dropWhile_cons,
          List.dropWhile_cons, endsValue_ascii c inside]
        split
        · exact ih
        · rw [utf8_cons, utf8_ascii c inside]
          rfl
      · have outside := utf8_outside c (Nat.not_lt.mp inside)
        have every : ∀ b ∈ String.utf8EncodeChar c, (!endsValue b) = true := by
          intro b member
          have large := outside b member
          rw [Bool.not_eq_true', endsValue, Bool.or_eq_false_iff, decide_eq_false_iff_not,
            decide_eq_false_iff_not]
          constructor
          · rintro rfl
            exact absurd large (by decide)
          · rintro rfl
            exact absurd large (by decide)
        have other : (!Calendar.endsValue c) = true := by
          rw [Bool.not_eq_true', Calendar.endsValue, Bool.or_eq_false_iff, decide_eq_false_iff_not,
            decide_eq_false_iff_not]
          constructor
          · rintro rfl
            exact inside (by decide)
          · rintro rfl
            exact inside (by decide)
        rw [utf8_cons, List.dropWhile_append_of_pos every, ih, List.dropWhile_cons, if_pos other]

/-! ### The place of an answer -/

/-- The texts around the answer in the parameters, each with its semicolon. -/
def answerPlace : List Str → Str × Str
  | [] => (';' :: marker, [])
  | param :: rest =>
      if isPartstat table param then
        (';' :: param.takeWhile (· ≠ '=') ++ ['='], rest.flatMap (';' :: ·))
      else (';' :: param ++ (answerPlace rest).1, (answerPlace rest).2)

/-- The texts around the answer in a content line. -/
def place (line : Str) : Str × Str :=
  ((fields false (beforeColon false line).1).headD
    [] ++ (answerPlace table (fields false (beforeColon false line).1).tail).1,
    (answerPlace table (fields false (beforeColon false line).1).tail).2 ++
      (beforeColon false line).2)

theorem intercalate_semicolon (name : Str) (params : List Str) :
    List.intercalate [';'] (name :: params) = name ++ params.flatMap (';' :: ·) := by
  induction params generalizing name with
  | nil => simp [List.intercalate]
  | cons param params ih =>
      have step : List.intercalate [';'] (name :: param :: params) = name ++ ';' :: List.intercalate
          [';'] (param :: params) := by
        simp [List.intercalate]
      rw [step, ih, List.flatMap_cons, List.cons_append]

theorem flatMap_setParam (status : Str) (params : List Str) :
    (setParam table status params).flatMap
    (';' :: ·) = (answerPlace table params).1 ++ status ++ (answerPlace table params).2 := by
  induction params with
  | nil => simp [setParam, answerPlace]
  | cons param rest ih =>
      unfold setParam answerPlace
      split
      · simp
      · rw [List.flatMap_cons, ih]
        simp

theorem fields_ne_nil (quoted : Bool) (s : Str) : fields quoted s ≠ [] := by
  induction s generalizing quoted with
  | nil => exact List.cons_ne_nil _ _
  | cons c s ih =>
      unfold fields
      split
      · exact List.cons_ne_nil _ _
      · rw [Ne, List.modifyHead_eq_nil_iff]
        exact ih _

theorem expected_of_concerns (address status line : Str) (concerns : Concerns table address line) :
    expected table address status line = (place table line).1 ++ status ++
      (place table line).2 := by
  unfold expected place
  rw [if_pos concerns]
  cases shape : fields false (beforeColon false line).1 with
  | nil => exact absurd shape (fields_ne_nil _ _)
  | cons name params =>
      dsimp only
      rw [intercalate_semicolon, flatMap_setParam, List.headD_cons, List.tail_cons]
      simp

/-- The package takes the line for one of the attendee. -/
def Taken (address line : Str) : Prop :=
  "ATTENDEE".toList.isPrefixOf (table.toUpper line) = true ∧
    table.toLower (parseMailto line) = address

/-- There is a place in the line that the package puts an answer at. -/
def HasPlace (line : Str) : Prop := (markerEnd table line).isSome ∨ ':' ∈ line

/-- The package finds the answer of the line between two texts. -/
def Finds (line front back : Str) : Prop :=
  match markerEnd table line with
  | some n =>
      n = byteLen front ∧ front <+: line ∧
        (line.drop front.length).dropWhile (fun c => !Calendar.endsValue c) = back
  | none =>
      ':' ∈ line ∧ line.takeWhile (· ≠ ':') ++ ';' :: marker = front ∧
        line.dropWhile (· ≠ ':') = back

instance (line front back : Str) : Decidable (Finds table line front back) :=
  match found : markerEnd table line with
  | some n =>
      decidable_of_iff
        (n = byteLen front ∧ front <+: line ∧
          (line.drop front.length).dropWhile (fun c => !Calendar.endsValue c) = back)
        (by rw [Finds, found])
  | none =>
      decidable_of_iff (':' ∈ line ∧ line.takeWhile (· ≠ ':') ++ ';' :: marker = front ∧
        line.dropWhile (· ≠ ':') = back)
        (by rw [Finds, found])

instance (line : Str) : Decidable (HasPlace table line) := inferInstanceAs (Decidable (_ ∨ _))

instance (address line : Str) : Decidable (Taken table address line) :=
  inferInstanceAs (Decidable (_ ∧ _))

/-- A content line, and the same line as the package unfolds it, for which the rewriting is
right. -/
def LineRight (address line unfolded : Str) : Prop :=
  if Concerns table address line then
    Taken table address unfolded ∧ Finds table unfolded (place table line).1 (place table line).2
  else line = unfolded ∧ ¬ (Taken table address unfolded ∧ HasPlace table unfolded)

instance (address line unfolded : Str) : Decidable (LineRight table address line unfolded) :=
  inferInstanceAs (Decidable (ite _ _ _))

/-- The bytes around the answer, as the package cuts the line. -/
def splice (line : Str) : Option (Bytes × Bytes) :=
  match markerEnd table line with
  | some n =>
      if byteLen line < n then none
        else some ((utf8 line).take n, ((utf8 line).drop n).dropWhile fun b => !endsValue b)
  | none => some (utf8 (line.takeWhile (· ≠ ':') ++ ';' :: marker), utf8 (line.dropWhile (· ≠ ':')))

theorem updateLine_of_not_taken (address status line : Str)
    (other : ¬ (Taken table address line ∧ HasPlace table line)) :
    updateLine table address status line = some (utf8 line) := by
  unfold updateLine
  by_cases begins : "ATTENDEE".toList.isPrefixOf (table.toUpper line) = true
  · rw [if_neg (not_not.mpr begins)]
    by_cases named : table.toLower (parseMailto line) = address
    · have closed : ¬ HasPlace table line := fun open_ => other ⟨⟨begins, named⟩, open_⟩
      unfold HasPlace at closed
      rw [not_or, Bool.not_eq_true, Option.isSome_eq_false_iff, Option.isNone_iff_eq_none] at closed
      rw [if_neg (not_not.mpr named), closed.1]
      exact if_neg closed.2
    · exact if_pos named
  · exact if_pos begins

theorem updateLine_of_taken (address status line : Str) (taken : Taken table address line)
    (open_ : HasPlace table line) :
    updateLine table address status line = (splice table line).map fun halves =>
      halves.1 ++ utf8 status ++ halves.2 := by
  unfold updateLine splice
  rw [if_neg (not_not.mpr taken.1), if_neg (not_not.mpr taken.2)]
  cases found : markerEnd table line with
  | some n =>
      dsimp only
      split
      · rfl
      · rfl
  | none =>
      have colon : ':' ∈ line := by
        rcases open_ with marked | colon
        · rw [found] at marked
          cases marked
        · exact colon
      dsimp only
      rw [if_pos colon, utf8_append, utf8_append]
      rfl

/-- The bytes that the package keeps are those of two texts exactly if it finds the answer between
them. -/
theorem finds_iff (line front back : Str) (open_ : HasPlace table line) :
    Finds table line front back ↔ splice table line = some (utf8 front, utf8 back) := by
  unfold Finds splice
  cases found : markerEnd table line with
  | none =>
      have colon : ':' ∈ line := by
        rcases open_ with marked | colon
        · rw [found] at marked
          cases marked
        · exact colon
      dsimp only
      rw [Option.some.injEq, Prod.mk.injEq]
      constructor
      · rintro ⟨_, rfl, rfl⟩
        exact ⟨rfl, rfl⟩
      · rintro ⟨first, second⟩
        exact ⟨colon, utf8_inj _ _ first, utf8_inj _ _ second⟩
  | some n =>
      dsimp only
      have cut (rest : Str) : (utf8 (front ++ rest)).take (byteLen front) = utf8 front ∧
          ((utf8 (front ++ rest)).drop (byteLen front)).dropWhile (fun b => !endsValue b) =
            utf8 (rest.dropWhile fun c => !Calendar.endsValue c) := by
        rw [utf8_append, ← length_utf8, List.take_left, List.drop_left, dropWhile_utf8]
        exact ⟨rfl, rfl⟩
      constructor
      · rintro ⟨rfl, ⟨rest, rfl⟩, ends⟩
        rw [List.drop_left] at ends
        rw [if_neg (by rw [byteLen_append]; omega), (cut rest).1, (cut rest).2, ends]
      · intro same
        split at same
        · cases same
        · rename_i inside
          rw [Option.some.injEq, Prod.mk.injEq] at same
          have size : n = byteLen front := by
            rw [← length_utf8, ← same.1, List.length_take, length_utf8]
            omega
          have starts : front <+: line := by
            apply prefix_of_utf8_prefix
            rw [← same.1]
            exact List.take_prefix _ _
          obtain ⟨rest, rfl⟩ := starts
          rw [size, (cut rest).2] at same
          refine ⟨size, List.prefix_append _ _, ?_⟩
          rw [List.drop_left]
          exact utf8_inj _ _ same.2

/-! ### One line -/

/-- Texts with two different insertions at the same places have the same ends. -/
theorem splice_unique (a b : UInt8) (differ : a ≠ b) (front front' back back' : Bytes)
    (first : front ++ [a] ++ back = front' ++ [a] ++ back')
    (second : front ++ [b] ++ back = front' ++ [b] ++ back') :
    front = front' ∧ back = back' := by
  have later (x y x' y' : Bytes) (one : x ++ [a] ++ y = x' ++ [a] ++ y')
      (two : x ++ [b] ++ y = x' ++ [b] ++ y') :
      x'.length ≤ x.length := by
    by_contra! shorter
    have at_ (c : UInt8) (same : x ++ [c] ++ y = x' ++ [c] ++ y') : some c = x'[x.length]? := by
      have here := congrArg (fun l => l[x.length]?) same
      rw [List.append_assoc, List.append_assoc, List.getElem?_append_right (Nat.le_refl _),
        List.getElem?_append_left shorter, Nat.sub_self] at here
      exact here
    exact differ (Option.some.inj ((at_ a one).trans (at_ b two).symm))
  have size : front.length = front'.length :=
    Nat.le_antisymm (later front' back' front back first.symm second.symm)
      (later front back front' back' first second)
  rw [List.append_assoc, List.append_assoc] at first
  obtain ⟨same, rest⟩ := List.append_inj first size
  exact ⟨same, List.append_cancel_left rest⟩

/-- A line is rewritten right for every answer if it is for two. -/
theorem right_of_updateLine (address line unfolded : Str)
    (first : updateLine table address ['A'] unfolded = some
      (utf8 (expected table address ['A'] line)))
    (second : updateLine table address ['B'] unfolded = some
      (utf8 (expected table address ['B'] line))) :
    LineRight table address line unfolded := by
  unfold LineRight
  by_cases active : Taken table address unfolded ∧ HasPlace table unfolded
  · rw [updateLine_of_taken table _ _ _ active.1 active.2] at first second
    obtain ⟨halves, cut, one⟩ := Option.map_eq_some_iff.mp first
    rw [cut, Option.map_some, Option.some.injEq] at second
    split
    · rename_i concerns
      rw [expected_of_concerns table _ _ _ concerns, utf8_append, utf8_append] at one second
      have ends := splice_unique 65 66 (by decide) _ _ _ _ one second
      refine ⟨active.1, ?_⟩
      rw [finds_iff table _ _ _ active.2, cut, ← ends.1, ← ends.2]
    · rename_i other
      rw [expected, if_neg other] at one second
      have same := one.trans second.symm
      rw [List.append_assoc, List.append_assoc] at same
      have heads := congrArg List.head? (List.append_cancel_left same)
      exact absurd heads (show some (65 : UInt8) ≠ some 66 by decide)
  · rw [updateLine_of_not_taken table _ _ _ active, Option.some.injEq] at first second
    split
    · rename_i concerns
      have same := utf8_inj _ _ (first.symm.trans second)
      rw [expected_of_concerns table _ _ _ concerns, expected_of_concerns table _ _ _ concerns,
        List.append_assoc, List.append_assoc] at same
      have heads := congrArg List.head? (List.append_cancel_left same)
      exact absurd heads (show some 'A' ≠ some 'B' by decide)
    · rename_i other
      rw [expected, if_neg other] at first
      exact ⟨(utf8_inj _ _ first).symm, active⟩

theorem updateLine_of_right (address status line unfolded : Str)
    (right : LineRight table address line unfolded) :
    updateLine table address status unfolded = some
      (utf8 (expected table address status line)) := by
  unfold LineRight at right
  split at right
  · rename_i concerns
    obtain ⟨taken, finds⟩ := right
    have open_ : HasPlace table unfolded := by
      unfold Finds at finds
      unfold HasPlace
      split at finds
      · rename_i found
        rw [found]
        exact Or.inl rfl
      · exact Or.inr finds.1
    rw [updateLine_of_taken table _ _ _ taken open_, (finds_iff table _ _ _ open_).mp finds,
      Option.map_some, expected_of_concerns table _ _ _ concerns, utf8_append, utf8_append]
  · rename_i other
    rw [updateLine_of_not_taken table _ _ _ right.2, expected, if_neg other, right.1]

/-! ### All lines -/

theorem byteText_joined (lines : List Bytes) :
    byteText (joined lines) = List.intercalate crlf (lines.map byteText) := by
  unfold joined
  induction lines with
  | nil => rfl
  | cons line rest ih =>
      cases rest with
      | nil => simp [List.intercalate]
      | cons next rest =>
          have step (sep first second : Str) (more : List Str) :
              List.intercalate sep (first :: second :: more) = first ++ sep ++ List.intercalate sep
                (second :: more) := by
            simp [List.intercalate]
          have byteStep : List.intercalate [13, 10] (line :: next :: rest) =
              line ++ [13, 10] ++ List.intercalate [13, 10] (next :: rest) := by
            simp [List.intercalate]
          rw [byteStep, byteText_append, byteText_append, ih, List.map_cons, List.map_cons,
            List.map_cons, step]
          rfl

/-- What a rewritten line keeps: it is one line, and starts no continuation. -/
theorem plain_updateLine (address status line : Str) (out : Bytes)
    (updated : updateLine table address status line = some out) (clean : '\n' ∉ line)
    (plain : '\n' ∉ status) :
    '\n' ∉ byteText out ∧ (¬ line.head?.any Calendar.isBlank = true →
      ¬ (byteText out).head?.any Calendar.isBlank = true) := by
  by_cases active : Taken table address line ∧ HasPlace table line
  · rw [updateLine_of_taken table _ _ _ active.1 active.2] at updated
    obtain ⟨halves, cut, rfl⟩ := Option.map_eq_some_iff.mp updated
    have none_ (s : Str) (lacks : '\n' ∉ s) : (10 : UInt8) ∉ utf8 s := by
      intro member
      exact lacks
        ((mem_byteText_utf8 '\n' (by decide) s).mp (List.mem_map.mpr ⟨10, member, by decide⟩))
    have single (b : Bytes) (lacks : (10 : UInt8) ∉ b) : '\n' ∉ byteText b := by
      intro member
      obtain ⟨byte, here, same⟩ := List.mem_map.mp member
      have ten : byte = 10 := by
        rw [← UInt8.toNat_inj, ← toNat_byteChar, same]
        rfl
      rw [ten] at here
      exact lacks here
    unfold splice at cut
    split at cut
    · rename_i n found
      split at cut
      · cases cut
      · rename_i inside
        cases cut
        have lacks := none_ line clean
        constructor
        · apply single
          rw [List.mem_append, List.mem_append, not_or, not_or]
          refine ⟨⟨fun member => lacks (List.mem_of_mem_take member), none_ status plain⟩,
            fun member => ?_⟩
          exact lacks (List.mem_of_mem_drop ((List.dropWhile_suffix _).subset member))
        · intro starts
          rw [← startsBlank_byteText] at starts
          have long : 0 < n := by
            obtain ⟨front, _, rfl⟩ := Option.map_eq_some_iff.mp found
            have positive : 0 < byteLen marker := by decide
            omega
          cases bytes : utf8 line with
          | nil =>
              rw [← length_utf8, bytes, List.length_nil] at inside
              omega
          | cons b rest =>
              obtain ⟨m, rfl⟩ := Nat.exists_eq_add_of_lt long
              rw [bytes] at starts
              rw [Nat.zero_add, List.take_succ_cons]
              exact starts
    · cases cut
      constructor
      · rw [byteText_append, byteText_append, List.mem_append, List.mem_append, not_or, not_or,
          mem_byteText_utf8 _ (by decide),
          mem_byteText_utf8 _ (by decide), mem_byteText_utf8 _ (by decide), List.mem_append, not_or]
        refine ⟨⟨⟨fun member => clean (List.takeWhile_subset _ member), by decide⟩, plain⟩,
          fun member => ?_⟩
        exact clean ((List.dropWhile_suffix _).subset member)
      · intro starts
        rw [← utf8_append, ← utf8_append, startsBlank_byteText]
        cases line with
        | nil => simp [Calendar.isBlank]
        | cons c line =>
            rw [List.takeWhile_cons]
            split
            · exact starts
            · exact (by decide : ¬ (some ';').any Calendar.isBlank = true)
  · rw [updateLine_of_not_taken table _ _ _ active] at updated
    cases updated
    rw [mem_byteText_utf8 _ (by decide), startsBlank_byteText]
    exact ⟨clean, id⟩

theorem mapM_pairs {α β γ : Type} (f : β → Option γ) (g : α → γ) (pairs : List (α × β)) :
    (pairs.map Prod.snd).mapM f = some (pairs.map fun p => g p.1) ↔
    ∀ p ∈ pairs, f p.2 = some (g p.1) := by
  induction pairs with
  | nil => simp
  | cons p pairs ih =>
      rw [List.map_cons, List.map_cons, List.mapM_cons, List.forall_mem_cons, ← ih]
      cases f p.2 with
      | none => simp
      | some c =>
          cases (pairs.map Prod.snd).mapM f with
          | none => simp
          | some cs => simp

theorem plain_status (status : Str) (plain : '\n' ∉ status) :
    '\n' ∉ table.toUpper (Scan.trim status) := by
  rw [Calendar.mem_toUpper_sign table '\n' (by decide) (by decide)]
  intro member
  have front :=
    (List.rdropWhile_prefix Scan.isWhitespace (l := status.dropWhile Scan.isWhitespace)).subset
      member
  exact plain ((List.dropWhile_suffix _).subset front)

theorem mapM_eachLine {α β : Type} (f : α → Option β) (xs : List α) (ys : List β)
    (all : xs.mapM f = some ys) :
    List.Forall₂ (fun x y => f x = some y) xs ys := by
  induction xs generalizing ys with
  | nil =>
      cases all
      exact List.Forall₂.nil
  | cons x xs ih =>
      rw [List.mapM_cons] at all
      obtain ⟨y, first, later⟩ := Option.bind_eq_some_iff.mp all
      obtain ⟨rest, each, same⟩ := Option.bind_eq_some_iff.mp later
      cases same
      exact List.Forall₂.cons first (ih rest each)

theorem forall₂_back {α β : Type} {R : α → β → Prop} {xs : List α} {ys : List β}
    (all : List.Forall₂ R xs ys) (y : β) (member : y ∈ ys) : ∃ x ∈ xs, R x y := by
  induction all with
  | nil => cases member
  | cons here _ ih =>
      rcases List.mem_cons.mp member with rfl | later
      · exact ⟨_, List.mem_cons_self, here⟩
      · obtain ⟨x, inside, holds⟩ := ih later
        exact ⟨x, List.mem_cons_of_mem _ inside, holds⟩

theorem forall₂_tail {α β : Type} {R : α → β → Prop} {xs : List α} {ys : List β}
    (all : List.Forall₂ R xs ys) :
    List.Forall₂ R xs.tail ys.tail := by
  cases all with
  | nil => exact List.Forall₂.nil
  | cons _ rest => exact rest

/-- The content lines of the new text are its lines. -/
theorem contentLines_joined (address status raw : Str) (outs : List Bytes) (plain : '\n' ∉ status)
    (updated : (unfoldLines raw).mapM (updateLine table address status) = some outs) :
    contentLines (byteText (joined outs)) = outs.map byteText := by
  have each := mapM_eachLine _ _ _ updated
  have clean := Calendar.unfoldLines_no_newline raw
  have starts : ∀ line ∈ (unfoldLines raw).tail, ¬ line.head?.any Calendar.isBlank = true :=
    Calendar.unfold_starts (Calendar.physicalLines raw) [] (fun _ none_ => by cases none_)
  rw [byteText_joined]
  apply Calendar.contentLines_intercalate
  · intro none_
    have lengths := each.length_eq
    rw [List.map_eq_nil_iff.mp none_, List.length_nil, List.length_eq_zero_iff] at lengths
    exact Calendar.unfold_ne_nil _ _ _ (Or.inr (Scan.splitAll_ne_nil _ _ (by decide))) lengths
  · intro line member
    obtain ⟨out, inside, rfl⟩ := List.mem_map.mp member
    obtain ⟨old, here, one⟩ := forall₂_back each out inside
    exact (plain_updateLine table address status old out one (clean old here) plain).1
  · intro line member
    rw [← List.map_tail] at member
    obtain ⟨out, inside, rfl⟩ := List.mem_map.mp member
    obtain ⟨old, here, one⟩ := forall₂_back (forall₂_tail each) out inside
    exact (plain_updateLine table address status old out one
      (clean old (List.mem_of_mem_tail here)) plain).2 (starts old here)

/-- The rewriting is right for every answer exactly if every line is right for it. -/
theorem rewrites_iff (raw attendeeEmail : Str) :
    (∀ partstat, '\n' ∉ partstat → Rewrites table raw attendeeEmail partstat) ↔
      ∀ p ∈ linePairs raw, LineRight table (table.toLower (Scan.trim attendeeEmail)) p.1 p.2 := by
  have lineWise (partstat : Str) (plain : '\n' ∉ partstat) :
      Rewrites table raw attendeeEmail partstat ↔ ∀ p ∈ linePairs raw,
      updateLine table (table.toLower (Scan.trim attendeeEmail))
        (table.toUpper (Scan.trim partstat)) p.2 =
          some (utf8 (expected table (table.toLower (Scan.trim attendeeEmail))
            (table.toUpper (Scan.trim partstat)) p.1)) := by
    generalize address : table.toLower (Scan.trim attendeeEmail) = lower
    generalize answer : table.toUpper (Scan.trim partstat) = status
    have one : '\n' ∉ status := answer ▸ plain_status table partstat plain
    unfold Rewrites updateAttendeePartstat
    rw [address, answer, ← Calendar.map_fst_linePairs, ← Calendar.map_snd_linePairs]
    refine Iff.trans ?_ (mapM_pairs (updateLine table lower status)
      (fun line => utf8 (expected table lower status line)) (linePairs raw))
    constructor
    · rintro ⟨out, updated, same⟩
      obtain ⟨outs, each, rfl⟩ := Option.map_eq_some_iff.mp updated
      rw [contentLines_joined table lower status raw outs one
        (by rw [← Calendar.map_snd_linePairs]; exact each),
        List.map_map] at same
      rw [each, Option.some.injEq]
      apply List.map_injective_iff.mpr (fun a b => (byteText_inj a b).mp)
      rw [same, List.map_map]
      rfl
    · intro each
      refine ⟨_, by rw [each, Option.map_some], ?_⟩
      rw [contentLines_joined table lower status raw _ one
        (by rw [← Calendar.map_snd_linePairs]; exact each), List.map_map,
        List.map_map]
      rfl
  constructor
  · intro right p member
    have first := (lineWise ['A'] (by decide)).mp (right ['A'] (by decide)) p member
    have second := (lineWise ['B'] (by decide)).mp (right ['B'] (by decide)) p member
    exact right_of_updateLine table _ _ _ first second
  · intro right partstat plain
    rw [lineWise partstat plain]
    exact fun p member => updateLine_of_right table _ _ _ _ (right p member)

/-- An invitation with a quoted name that has neither sign in it. -/
def invitation : Str :=
  "BEGIN:VEVENT\r\nSUMMARY:Plan\r\n ning\r\nATTENDEE;CN=\"Bob\";PARTSTAT=NEEDS-ACTION:mailto:Bob@era\r\nATTENDEE:mailto:eve@era\r\nEND:VEVENT".toList

theorem invitation_rewritten :
    Rewrites Calendar.asciiOnly invitation "bob@era".toList "declined".toList :=
  (rewrites_iff Calendar.asciiOnly invitation "bob@era".toList).mpr
    (by decide +kernel) "declined".toList (by decide)

/-- A text folded inside a word gap. -/
def folded : Str := "BEGIN:VEVENT\r\nSUMMARY:Team\r\n  meeting\r\nEND:VEVENT".toList

/-- The blank that the folded text has after its fold is lost. -/
theorem blank_lost : ¬ ∀ (table : CaseTable) (raw attendeeEmail partstat : Str), '\n' ∉ partstat →
    Rewrites table raw attendeeEmail partstat := by
  intro rewrites
  obtain ⟨out, updated, same⟩ :=
    rewrites Calendar.asciiOnly folded "bob@era".toList "ACCEPTED".toList (by decide)
  have text : updateAttendeePartstat Calendar.asciiOnly folded "bob@era".toList "ACCEPTED".toList =
      some (utf8 "BEGIN:VEVENT\r\nSUMMARY:Teammeeting\r\nEND:VEVENT".toList) := by
    decide
  cases text.symm.trans updated
  have second := congrArg (fun l => l[1]?) same
  exact absurd second (by decide)

end EraOne.Ical
