import EraOne.Literals
import EraOne.TablesXlsx
import EraOne.TablesStructure

set_option autoImplicit false

/- The text of a worksheet and what the reader finds in it. Escaped text has no angle brackets and
no quotes, so that a search stops only at the writer's own tags. -/
namespace EraOne.Tables

open Scan Maps EratSheet

/-- The characters that are escaped. -/
def special (c : Char) : Bool := c = '&' ∨ c = '<' ∨ c = '>' ∨ c = '"'

/-- The code of a character. -/
def escapeChar (c : Char) : Str :=
  if c = '&' then "&amp;".toList else if c = '<' then "&lt;".toList
  else if c = '>' then "&gt;".toList else if c = '"' then "&quot;".toList else [c]

theorem xmlEscape_eq (s : Str) : xmlEscape s = s.flatMap escapeChar := by
  unfold xmlEscape replaceChar
  rw [List.flatMap_assoc, List.flatMap_assoc, List.flatMap_assoc]
  congr 1
  funext c
  by_cases amp : c = '&'
  · subst amp
    decide
  by_cases lt : c = '<'
  · subst lt
    decide
  by_cases gt : c = '>'
  · subst gt
    decide
  by_cases quot : c = '"'
  · subst quot
    decide
  simp only [escapeChar, amp, lt, gt, quot, ↓reduceIte, List.flatMap_cons, List.flatMap_nil,
    List.append_nil]

@[simp] theorem xmlEscape_nil : xmlEscape [] = [] := rfl

theorem xmlEscape_cons (c : Char) (s : Str) : xmlEscape (c :: s) = escapeChar c ++ xmlEscape s := by
  rw [xmlEscape_eq, xmlEscape_eq, List.flatMap_cons]

theorem xmlEscape_append (s t : Str) : xmlEscape (s ++ t) = xmlEscape s ++ xmlEscape t := by
  rw [xmlEscape_eq, xmlEscape_eq, xmlEscape_eq, List.flatMap_append]

theorem escapeChar_plain (c : Char) (plain : special c = false) : escapeChar c = [c] := by
  simp only [special, decide_eq_false_iff_not, not_or] at plain
  simp [escapeChar, plain]

theorem special_cases (c : Char) (found : special c = true) :
    c = '&' ∨ c = '<' ∨ c = '>' ∨ c = '"' := by
  simpa [special] using found

/-- The code of a character is not found in the code of another one. -/
theorem quiet_escapeChar (x c : Char) (code : special x = true) (apart : c ≠ x) :
    Quiet (escapeChar x) (escapeChar c) := by
  cases plain : special c with
  | true =>
      apply quiet_of_tails
      rcases special_cases x code with rfl | rfl | rfl | rfl <;>
        rcases special_cases c plain with rfl | rfl | rfl | rfl <;>
        first | exact absurd rfl apart | decide
  | false =>
      have start : ∃ rest, escapeChar x = '&' :: rest := by
        rcases special_cases x code with rfl | rfl | rfl | rfl <;> exact ⟨_, rfl⟩
      obtain ⟨rest, shape⟩ := start
      rw [shape, escapeChar_plain c plain]
      apply quiet_of_not_mem
      rw [List.mem_singleton]
      rintro rfl
      exact absurd plain (by decide)

/-- The text with the codes of some characters read back. -/
def decoded (done : Char → Bool) (c : Char) : Str := if done c then [c] else escapeChar c

theorem replaceAll_decoded (x : Char) (code : special x = true) (done : Char → Bool)
    (last : done '&' = false) (s : Str) :
    replaceAll (escapeChar x) [x] (s.flatMap (decoded done)) =
      s.flatMap (decoded fun c => done c || c = x) := by
  have start : ∃ rest, escapeChar x = '&' :: rest := by
    rcases special_cases x code with rfl | rfl | rfl | rfl <;> exact ⟨_, rfl⟩
  apply replaceAll_flatMap
  · obtain ⟨rest, shape⟩ := start
    rw [shape]
    simp
  intro c
  cases known : done c with
  | true =>
      refine Or.inr ⟨by simp [decoded, known], ?_⟩
      obtain ⟨rest, shape⟩ := start
      rw [shape, decoded, known]
      apply quiet_of_not_mem
      rw [if_pos rfl, List.mem_singleton]
      rintro rfl
      rw [last] at known
      cases known
  | false =>
      by_cases here : c = x
      · subst here
        exact Or.inl (by simp [decoded, known])
      · refine Or.inr ⟨by simp [decoded, known, here], ?_⟩
        simpa [decoded, known] using quiet_escapeChar x c code here

/-- The codes are read back in an order that has the ampersand last. -/
theorem xmlUnescape_escape (s : Str) : xmlUnescape (xmlEscape s) = s := by
  have start : xmlEscape s = s.flatMap (decoded fun _ => false) := by
    rw [xmlEscape_eq]
    rfl
  unfold xmlUnescape
  rw [start]
  have quot := replaceAll_decoded '"' (by decide) (fun _ => false) rfl s
  have lt := replaceAll_decoded '<' (by decide) (fun c => false || c = '"') (by decide) s
  have gt :=
    replaceAll_decoded '>' (by decide) (fun c => (false || c = '"') || c = '<') (by decide) s
  have amp := replaceAll_decoded '&' (by decide)
    (fun c => ((false || c = '"') || c = '<') || c = '>') (by decide) s
  rw [show "&quot;".toList = escapeChar '"' from rfl, quot,
    show "&lt;".toList = escapeChar '<' from rfl, lt,
    show "&gt;".toList = escapeChar '>' from rfl, gt,
    show "&amp;".toList = escapeChar '&' from rfl, amp]
  conv_rhs => rw [← List.flatMap_singleton' s]
  congr 1
  funext c
  cases plain : special c with
  | true => rcases special_cases c plain with rfl | rfl | rfl | rfl <;> rfl
  | false => simp [decoded, escapeChar_plain c plain]

/-- Escaped text has no characters of the markup. -/
theorem not_mem_xmlEscape (s : Str) (c : Char) (markup : c = '<' ∨ c = '>' ∨ c = '"') :
    c ∉ xmlEscape s := by
  rw [xmlEscape_eq, List.mem_flatMap]
  rintro ⟨d, -, member⟩
  cases plain : special d with
  | true =>
      rcases special_cases d plain with rfl | rfl | rfl | rfl <;>
        rcases markup with rfl | rfl | rfl <;> revert member <;> decide
  | false =>
      rw [escapeChar_plain d plain, List.mem_singleton] at member
      subst member
      rcases markup with rfl | rfl | rfl <;> revert plain <;> decide

theorem length_le_xmlEscape (s : Str) : s.length ≤ (xmlEscape s).length := by
  induction s with
  | nil => simp
  | cons c s ih =>
      have one : 1 ≤ (escapeChar c).length := by
        unfold escapeChar
        split_ifs <;> simp
      rw [xmlEscape_cons, List.length_cons, List.length_append]
      omega

/-- The first character of a code is an ampersand. -/
theorem escapeChar_special (c : Char) (code : special c = true) :
    ∃ rest, escapeChar c = '&' :: rest ∧ rest ≠ [] := by
  rcases special_cases c code with rfl | rfl | rfl | rfl <;> exact ⟨_, rfl, by decide⟩

theorem xmlEscape_eq_self_iff (s : Str) : xmlEscape s = s ↔ ∀ c ∈ s, special c = false := by
  induction s with
  | nil => simp
  | cons c s ih =>
      rw [xmlEscape_cons]
      cases code : special c with
      | false =>
          rw [escapeChar_plain c code, List.singleton_append, List.cons_inj_right, ih]
          simp [code]
      | true =>
          refine iff_of_false ?_ (by simp [code])
          intro same
          obtain ⟨rest, shape, nonempty⟩ := escapeChar_special c code
          have lengths := congrArg List.length same
          have grows := length_le_xmlEscape s
          have more := List.length_pos_of_ne_nil nonempty
          rw [shape] at lengths
          simp at lengths
          omega

/-- Escaping does not move text to the right by characters other than the ampersand. -/
theorem xmlEscape_no_shift (shift s : Str) (plain : '&' ∉ shift)
    (starts : shift ++ s <+: xmlEscape s) : shift = [] := by
  induction s generalizing shift with
  | nil => simpa using starts
  | cons c s ih =>
      rw [xmlEscape_cons] at starts
      cases shift with
      | nil => rfl
      | cons x shift =>
          cases code : special c with
          | true =>
              obtain ⟨rest, shape, -⟩ := escapeChar_special c code
              rw [shape, List.cons_append, List.cons_append, List.cons_prefix_cons] at starts
              exact absurd (starts.1 ▸ List.mem_cons_self) plain
          | false =>
              rw [escapeChar_plain c code, List.cons_append, List.singleton_append,
                List.cons_prefix_cons] at starts
              have other : c ≠ '&' := by
                rintro rfl
                exact absurd code (by decide)
              have empty :=
                ih (shift ++ [c]) (by simp_all [Ne.symm other]) (by simpa using starts.2)
              simp at empty

theorem trim_xmlEscape (s : Str) (trimmed : trim s = s) : trim (xmlEscape s) = xmlEscape s := by
  rw [trim_eq_self_iff] at trimmed ⊢
  constructor
  · intro c first
    cases s with
    | nil => cases first
    | cons d s =>
        rw [xmlEscape_cons] at first
        cases code : special d with
        | true =>
            obtain ⟨rest, shape, -⟩ := escapeChar_special d code
            rw [shape] at first
            cases first
            rfl
        | false =>
            rw [escapeChar_plain d code] at first
            exact trimmed.1 c first
  · intro c last
    rcases List.eq_nil_or_concat s with rfl | ⟨front, d, rfl⟩
    · cases last
    · rw [List.concat_eq_append] at last trimmed
      rw [xmlEscape_append, xmlEscape_cons, xmlEscape_nil, List.append_nil] at last
      cases code : special d with
      | true =>
          rcases special_cases d code with rfl | rfl | rfl | rfl <;>
            simp [escapeChar] at last <;> subst last <;> decide
      | false =>
          rw [escapeChar_plain d code, List.getLast?_concat] at last
          exact trimmed.2 c (by rw [List.getLast?_concat]; exact last)

/-- A formula after it was written and read. -/
def storedFormula (formula : Str) : Str :=
  if formula.isEmpty then [] else readFormula (xmlEscape (trimStartMatches '=' formula))

/-- A formula of one equals sign and a trimmed body without characters that are escaped. -/
def PlainFormula (formula : Str) : Prop :=
  formula = [] ∨ formula.head? = some '=' ∧ trim formula.tail = formula.tail ∧
    formula.tail.head? ≠ some '=' ∧ ∀ c ∈ formula.tail, special c = false

instance (formula : Str) : Decidable (PlainFormula formula) :=
  decidable_of_iff (formula = [] ∨ formula.head? = some '=' ∧ trim formula.tail = formula.tail ∧
    formula.tail.head? ≠ some '=' ∧ (formula.tail.all fun c => !special c) = true) <| by
    simp only [PlainFormula, List.all_eq_true, Bool.not_eq_true']

theorem dropWhile_of_head (body : Str) (other : body.head? ≠ some '=') :
    trimStartMatches '=' body = body := by
  cases body with
  | nil => rfl
  | cons c body =>
      have different : c ≠ '=' := by simpa using other
      simp [trimStartMatches, different]

theorem dropWhile_xmlEscape (s : Str) :
    (xmlEscape s).dropWhile isWhitespace = xmlEscape (s.dropWhile isWhitespace) := by
  induction s with
  | nil => rfl
  | cons c s ih =>
      rw [xmlEscape_cons]
      cases code : special c with
      | true =>
          have solid : isWhitespace c = false := by
            rcases special_cases c code with rfl | rfl | rfl | rfl <;> decide
          obtain ⟨rest, shape, -⟩ := escapeChar_special c code
          rw [List.dropWhile_cons_of_neg (by simp [solid]), xmlEscape_cons, shape]
          exact List.dropWhile_cons_of_neg (by decide)
      | false =>
          rw [escapeChar_plain c code, List.singleton_append]
          by_cases blank : isWhitespace c = true
          · rw [List.dropWhile_cons_of_pos blank, List.dropWhile_cons_of_pos blank, ih]
          · rw [List.dropWhile_cons_of_neg blank, List.dropWhile_cons_of_neg blank, xmlEscape_cons,
              escapeChar_plain c code]
            rfl

/-- What is trimmed off the front of a body is not what would make it read back as it was. -/
theorem escaped_not_shifted (rest : Str)
    (same : trim (xmlEscape (trimStartMatches '=' rest)) = '=' :: rest) : False := by
  generalize hbody : trimStartMatches '=' rest = body at same
  have starts : '=' :: rest <+: xmlEscape (body.dropWhile isWhitespace) := by
    rw [← dropWhile_xmlEscape, ← same]
    exact List.rdropWhile_prefix isWhitespace _
  cases inner : body.dropWhile isWhitespace with
  | nil =>
      rw [inner] at starts
      simp at starts
  | cons d rest' =>
      rw [inner, xmlEscape_cons] at starts
      cases code : special d with
      | true =>
          obtain ⟨tail, shape, -⟩ := escapeChar_special d code
          rw [shape, List.cons_append, List.cons_prefix_cons] at starts
          exact absurd starts.1 (by decide)
      | false =>
          rw [escapeChar_plain d code, List.singleton_append, List.cons_prefix_cons] at starts
          obtain ⟨rfl, starts⟩ := starts
          have equals := List.takeWhile_append_dropWhile (p := (· = '=')) (l := rest)
          have blanks := List.takeWhile_append_dropWhile (p := isWhitespace) (l := body)
          rw [inner] at blanks
          have shape : rest = (rest.takeWhile (· = '=') ++ body.takeWhile isWhitespace ++ ['=']) ++
              rest' := by
            rw [show rest.dropWhile (· = '=') = body from hbody, ← blanks] at equals
            simpa using equals.symm
          have plain : '&' ∉ rest.takeWhile (· = '=') ++ body.takeWhile isWhitespace ++ ['='] := by
            intro member
            simp only [List.mem_append, List.mem_singleton] at member
            rcases member with (equal | blank) | other
            · exact absurd (List.mem_takeWhile_imp equal) (by decide)
            · exact absurd (List.mem_takeWhile_imp blank) (by decide)
            · exact absurd other (by decide)
          rw [shape] at starts
          have empty := xmlEscape_no_shift _ rest' plain starts
          simp at empty

/-- The reader trims but does not unescape, so that exactly plain formulas come back. -/
theorem storedFormula_eq_iff (formula : Str) :
    storedFormula formula = formula ↔ PlainFormula formula := by
  cases formula with
  | nil => exact iff_of_true rfl (Or.inl rfl)
  | cons c rest =>
      rw [storedFormula, if_neg (by simp), readFormula]
      constructor
      · intro same
        split at same
        · rename_i starts
          rw [same, List.isPrefixOf_iff_prefix, List.cons_prefix_cons] at starts
          obtain ⟨rfl, -⟩ := starts
          exact (escaped_not_shifted rest same).elim
        · rename_i other
          obtain ⟨rfl, shape⟩ := List.cons.inj same
          have single : rest.head? ≠ some '=' := by
            rw [← shape]
            intro first
            obtain ⟨tail, starts⟩ := List.head?_eq_some_iff.mp first
            rw [starts] at other
            exact other (by simp)
          have trimmed : trim rest = rest := by rw [← shape, trim_trim]
          have cut : trimStartMatches '=' ('=' :: rest) = rest := dropWhile_of_head rest single
          rw [cut, trim_xmlEscape rest trimmed] at shape
          exact Or.inr ⟨rfl, trimmed, single, (xmlEscape_eq_self_iff rest).mp shape⟩
      · rintro (empty | ⟨first, trimmed, single, plain⟩)
        · cases empty
        · cases first
          have cut : trimStartMatches '=' ('=' :: rest) = rest := dropWhile_of_head rest single
          rw [cut, (xmlEscape_eq_self_iff rest).mpr plain]
          rw [List.tail_cons] at trimmed single
          rw [trimmed, if_neg]
          intro starts
          rw [List.isPrefixOf_iff_prefix] at starts
          obtain ⟨tail, rfl⟩ := starts
          exact single rfl

section Cells

variable {rt : Runtime}

/-- The element of a formula, if there is one. -/
def formulaXml (formula : Str) : Str :=
  if formula.isEmpty then []
  else "<f>".toList ++ (xmlEscape (trimStartMatches '=' formula) ++ "</f>".toList)

def valueXml (value : Str) : Str := "<v>".toList ++ (xmlEscape value ++ "</v></c>".toList)

def addrXml (addr : Str) : Str := "r=\"".toList ++ (addr ++ "\">".toList)

/-- A cell's text after the start of its tag. -/
def cellBody (addr : Str) (cell : Cell) : Str :=
  addrXml addr ++ (formulaXml cell.formula ++ valueXml cell.value)

theorem cellXml_eq (addr : Str) (cell : Cell) :
    cellXml addr cell = "<c ".toList ++ cellBody addr cell := by
  unfold cellXml cellBody formulaXml addrXml valueXml
  dsimp only
  split <;> simp

/-- Addresses that the reader takes apart as they were written. -/
def ReadsAddr (rt : Runtime) (addr : Str) : Prop :=
  rt.upper addr = addr ∧ ∀ c ∈ addr, c ≠ '"' ∧ c ≠ 't' ∧ c ≠ '<'

/-- Text in which the reader finds neither a formula nor the mark of a shared string. -/
def Harmless (text : Str) : Prop := Quiet "<f".toList text ∧ Quiet "t=\"s\"".toList text

theorem quiet_escaped (pattern value : Str) : Quiet ('<' :: pattern) (xmlEscape value) :=
  quiet_of_not_mem '<' pattern _ (not_mem_xmlEscape value '<' (Or.inl rfl))

theorem quiet_addrXml (pattern addr : Str) (reads : ∀ c ∈ addr, c ≠ '<') :
    Quiet ('<' :: pattern) (addrXml addr) := by
  apply quiet_of_not_mem
  simp only [addrXml, List.mem_append, not_or]
  exact ⟨by decide, fun member => reads '<' member rfl, by decide⟩

theorem quiet_valueXml (pattern value : Str)
    (opens : Quiet ('<' :: pattern) "<v>".toList)
    (closes : Quiet ('<' :: pattern) "</v></c>".toList) :
    Quiet ('<' :: pattern) (valueXml value) :=
  opens.append ((quiet_escaped pattern value).append closes)

theorem quiet_formulaXml (pattern formula : Str)
    (opens : Quiet ('<' :: pattern) "<f>".toList) (closes : Quiet ('<' :: pattern) "</f>".toList) :
    Quiet ('<' :: pattern) (formulaXml formula) := by
  unfold formulaXml
  split
  · exact quiet_nil _
  · exact opens.append ((quiet_escaped pattern _).append closes)

/-- No next cell starts inside a cell. -/
theorem quiet_cellBody (addr : Str) (cell : Cell) (reads : ∀ c ∈ addr, c ≠ '<') :
    Quiet "<c ".toList (cellBody addr cell) :=
  (quiet_addrXml _ addr reads).append ((quiet_formulaXml _ _ (quiet_of_tails _ _ (by decide))
    (quiet_of_tails _ _ (by decide))).append (quiet_valueXml _ _ (quiet_of_tails _ _ (by decide))
    (quiet_of_tails _ _ (by decide))))

/-- A written cell never looks like one with a shared string. -/
theorem quiet_shared (addr : Str) (cell : Cell) (reads : ∀ c ∈ addr, c ≠ 't') :
    Quiet "t=\"s\"".toList (cellBody addr cell) := by
  have split : cellBody addr cell = ("r=\"".toList ++ (addr ++ "\"".toList)) ++
      ((['>'] ++ (formulaXml cell.formula ++
        ("<v>".toList ++ (xmlEscape cell.value ++ "</v></c".toList)))) ++ ['>']) := by
    simp [cellBody, addrXml, valueXml]
  rw [split]
  refine (quiet_of_not_mem 't' "=\"s\"".toList _ ?_).append
    (quiet_of_lacks "t=\"s\"".toList _ '>' '"' (by decide) ?_ (by decide))
  · simp only [List.mem_append, not_or]
    exact ⟨by decide, fun member => reads 't' member rfl, by decide⟩
  · have escaped (s : Str) : '"' ∉ xmlEscape s := not_mem_xmlEscape s '"' (Or.inr (Or.inr rfl))
    have formula : '"' ∉ formulaXml cell.formula := by
      unfold formulaXml
      split
      · simp
      · simp only [List.mem_append, not_or]
        exact ⟨by decide, escaped _, by decide⟩
    simp only [List.mem_append, not_or]
    exact ⟨⟨by decide, formula, by decide, escaped _, by decide⟩, by decide⟩

theorem attrValue_match (name value rest : Str) (clear : '"' ∉ value) :
    attrValue (name ++ "=\"".toList ++ (value ++ '"' :: rest)) name = some value := by
  have named : name ++ "=\"".toList ≠ [] := by simp
  have ends :=
    splitOnce_quiet_match ['"'] value rest (by simp) (quiet_of_not_mem '"' [] value clear)
  rw [List.singleton_append] at ends
  unfold attrValue
  rw [splitOnce_match _ _ named]
  simp [ends]

/-- The text of an element after text without its tag. -/
theorem extractTagText_match (tag piece text rest : Str) (quiet : Quiet ('<' :: tag) piece)
    (clear : '<' ∉ text) :
    extractTagText
      (piece ++ ('<' :: tag ++ ('>' :: (text ++ ("</".toList ++ tag ++ ['>'] ++ rest)))))
      tag = some text := by
  have opened := splitOnce_quiet_match ('<' :: tag) piece
    ('>' :: (text ++ ("</".toList ++ tag ++ ['>'] ++ rest))) (by simp) quiet
  have closed : splitOnce ['>'] ('>' :: (text ++ ("</".toList ++ tag ++ ['>'] ++ rest))) =
      some ([], text ++ ("</".toList ++ tag ++ ['>'] ++ rest)) :=
    splitOnce_match ['>'] _ (by simp)
  have ends := splitOnce_quiet_match ("</".toList ++ tag ++ ['>']) text rest (by simp)
    (quiet_of_not_mem '<' ('/' :: (tag ++ ['>'])) text clear)
  unfold extractTagText
  rw [opened]
  simp only [Option.bind_eq_bind, Option.bind_some]
  rw [closed]
  simp only [Option.bind_some, List.getLast?_nil, reduceCtorEq, ↓reduceIte]
  rw [ends]
  rfl

theorem extractTagText_quiet (chunk tag : Str) (quiet : Quiet ('<' :: tag) chunk) :
    extractTagText chunk tag = none := by
  unfold extractTagText
  rw [splitOnce_quiet _ chunk (by simp) quiet]
  rfl

theorem readAddr (addr : Str) (cell : Cell) (rest : Str) (reads : ∀ c ∈ addr, c ≠ '"') :
    attrValue (cellBody addr cell ++ rest) ['r'] = some addr := by
  have shape : cellBody addr cell ++ rest = ['r'] ++ "=\"".toList ++ (addr ++ '"' ::
      (['>'] ++ (formulaXml cell.formula ++ (valueXml cell.value ++ rest)))) := by
    simp [cellBody, addrXml]
  rw [shape]
  exact attrValue_match _ addr _ fun member => reads '"' member rfl

theorem readValue_body (addr : Str) (cell : Cell) (rest : Str) (reads : ReadsAddr rt addr)
    (ok : Harmless rest) : readValue [] (cellBody addr cell ++ rest) = cell.value := by
  have shape :
      cellBody addr cell ++ rest = (addrXml addr ++ formulaXml cell.formula) ++ ('<' :: ['v'] ++
      ('>' :: (xmlEscape cell.value ++
        ("</".toList ++ ['v'] ++ ['>'] ++ ("</c>".toList ++ rest))))) := by
    simp [cellBody, valueXml]
  have found := extractTagText_match ['v'] (addrXml addr ++ formulaXml cell.formula)
    (xmlEscape cell.value) ("</c>".toList ++ rest)
    ((quiet_addrXml _ addr fun c member => (reads.2 c member).2.2).append
      (quiet_formulaXml _ _ (quiet_of_tails _ _ (by decide)) (quiet_of_tails _ _ (by decide))))
    (not_mem_xmlEscape cell.value '<' (Or.inl rfl))
  have unshared : contains "t=\"s\"".toList (cellBody addr cell ++ rest) = false := by
    unfold contains
    rw [splitOnce_quiet _ _ (by decide)
      ((quiet_shared addr cell fun c member => (reads.2 c member).2.1).append ok.2)]
    rfl
  unfold readValue
  rw [unshared, shape, found]
  dsimp only
  rw [if_neg Bool.false_ne_true, xmlUnescape_escape]

theorem readFormula_body (addr : Str) (cell : Cell) (rest : Str) (reads : ReadsAddr rt addr)
    (ok : Harmless rest) :
    ((extractTagText (cellBody addr cell ++ rest) ['f']).map readFormula).getD [] =
      storedFormula cell.formula := by
  have front := quiet_addrXml ['f'] addr fun c member => (reads.2 c member).2.2
  unfold storedFormula
  by_cases empty : cell.formula.isEmpty = true
  · rw [if_pos empty, extractTagText_quiet]
    · rfl
    · have back : Quiet ('<' :: ['f']) (valueXml cell.value) := quiet_valueXml _ _
        (quiet_of_tails _ _ (by decide)) (quiet_of_tails _ _ (by decide))
      rw [cellBody, formulaXml, if_pos empty, List.nil_append]
      exact (front.append back).append ok.1
  · have shape : cellBody addr cell ++ rest = addrXml addr ++ ('<' :: ['f'] ++
        ('>' :: (xmlEscape (trimStartMatches '=' cell.formula) ++ ("</".toList ++ ['f'] ++ ['>'] ++
          (valueXml cell.value ++ rest))))) := by
      simp [cellBody, formulaXml, empty]
    have found := extractTagText_match ['f'] (addrXml addr)
      (xmlEscape (trimStartMatches '=' cell.formula)) (valueXml cell.value ++ rest) front
      (not_mem_xmlEscape _ '<' (Or.inl rfl))
    rw [if_neg empty, shape, found, Option.map_some, Option.getD_some]

theorem storedFormula_ne_nil (formula : Str) (nonempty : formula ≠ []) :
    storedFormula formula ≠ [] := by
  rw [storedFormula, if_neg (by simpa using nonempty), readFormula]
  split
  · rename_i starts
    intro empty
    rw [empty] at starts
    cases starts
  · simp

/-- What a cell comes back as. -/
def readBack (cell : Cell) : Cell := { value := cell.value, formula := storedFormula cell.formula }

theorem readCell_body (addr : Str) (cell : Cell) (rest : Str) (reads : ReadsAddr rt addr)
    (filled : cell.value ≠ [] ∨ cell.formula ≠ []) (ok : Harmless rest) :
    readCell rt [] (cellBody addr cell ++ rest) = some (addr, readBack cell) := by
  unfold readCell
  rw [readAddr addr cell rest fun c member => (reads.2 c member).1]
  dsimp only
  rw [readFormula_body addr cell rest reads ok, readValue_body addr cell rest reads ok, reads.1,
    if_neg]
  · rfl
  · rintro ⟨value, formula⟩
    rcases filled with some_ | some_
    · exact some_ (by simpa using value)
    · exact storedFormula_ne_nil cell.formula some_ (by simpa using formula)

end Cells

section Worksheet

variable {rt : Runtime}

theorem harmless_nil : Harmless [] := ⟨quiet_nil _, quiet_nil _⟩

theorem Harmless.append {a b : Str} (first : Harmless a) (second : Harmless b) :
    Harmless (a ++ b) :=
  ⟨first.1.append second.1, first.2.append second.2⟩

theorem digits_not_mem (n : Nat) (c : Char) (other : c.isDigit = false) :
    c ∉ Nat.toDigits 10 n := by
  intro member
  rw [Nat.isDigit_of_mem_toDigits (by decide) (by decide) member] at other
  cases other

/-- The start of a row. -/
def rowHead (row : UInt32) : Str :=
  "<row r=\"".toList ++ (Nat.toDigits 10 row.toNat ++ "\">".toList)

theorem quiet_rowHead (row : UInt32) :
    Quiet "<c ".toList (rowHead row) ∧ Harmless (rowHead row) := by
  have digits := digits_not_mem row.toNat
  refine ⟨?_, ?_, ?_⟩
  · exact (quiet_of_tails _ _ (by decide)).append
      ((quiet_of_not_mem '<' _ _ (digits '<' (by decide))).append (quiet_of_tails _ _ (by decide)))
  · exact (quiet_of_tails _ _ (by decide)).append
      ((quiet_of_not_mem '<' _ _ (digits '<' (by decide))).append (quiet_of_tails _ _ (by decide)))
  · exact (quiet_of_tails _ _ (by decide)).append
      ((quiet_of_not_mem 't' _ _ (digits 't' (by decide))).append (quiet_of_tails _ _ (by decide)))

/-- A cell that is written so that it can be read. -/
def Readable (rt : Runtime) (entry : Str × Cell) : Prop :=
  ReadsAddr rt entry.1 ∧ (entry.2.value ≠ [] ∨ entry.2.formula ≠ [])

theorem cellTag_ne_nil : "<c ".toList ≠ [] := by decide

variable (rt) in
/-- The text is split into chunks that read as the entries. -/
def ReadsCells (text : Str) (entries : List (Str × Cell)) : Prop :=
  Reads "<c ".toList Harmless (readCell rt []) text
    (entries.map fun entry => some (entry.1, readBack entry.2))

theorem readsCells_cells (cells : List (Str × Cell)) (text : Str) (entries : List (Str × Cell))
    (readable : ∀ entry ∈ cells, Readable rt entry) (reads : ReadsCells rt text entries) :
    ReadsCells rt (cells.flatMap (fun entry => cellXml entry.1 entry.2) ++ text)
      (cells ++ entries) := by
  induction cells with
  | nil => exact reads
  | cons entry cells ih =>
      obtain ⟨addr, filled⟩ := readable entry (by simp)
      have later := ih fun other member => readable other (List.mem_cons_of_mem _ member)
      rw [List.flatMap_cons, cellXml_eq, List.append_assoc, List.append_assoc]
      exact Reads.item cellTag_ne_nil later _ _
        (quiet_cellBody entry.1 entry.2 fun c member => (addr.2 c member).2.2) harmless_nil
        fun rest ok => readCell_body entry.1 entry.2 rest addr filled ok

theorem rowXml_append (row : UInt32) (cells : List (Str × Cell)) (rest more : Str) :
    rowXml row cells ++ rest ++ more = rowHead row ++
      (cells.flatMap (fun entry => cellXml entry.1 entry.2) ++
        ("</row>".toList ++ (rest ++ more))) := by
  unfold rowXml rowHead
  simp only [List.append_assoc]

theorem readsCells_rows (rows : List (UInt32 × List (Str × Cell)))
    (readable : ∀ row ∈ rows, ∀ entry ∈ row.2, Readable rt entry) :
    ReadsCells rt
      (rows.flatMap (fun row => rowXml row.1 row.2) ++ "</sheetData></worksheet>".toList)
      (rows.flatMap Prod.snd) := by
  induction rows with
  | nil =>
      exact reads_end cellTag_ne_nil _ (quiet_of_tails _ _ (by decide))
        ⟨quiet_of_tails _ _ (by decide), quiet_of_tails _ _ (by decide)⟩
  | cons row rows ih =>
      have later := ih fun other member => readable other (List.mem_cons_of_mem _ member)
      have ends : Harmless "</row>".toList :=
        ⟨quiet_of_tails _ _ (by decide), quiet_of_tails _ _ (by decide)⟩
      have quiet : Quiet "<c ".toList "</row>".toList := quiet_of_tails _ _ (by decide)
      have closed := Reads.piece cellTag_ne_nil later _ quiet fun rest ok => ends.append ok
      have cells := readsCells_cells row.2 _ _ (readable row (by simp)) closed
      have opened := Reads.piece cellTag_ne_nil cells (rowHead row.1) (quiet_rowHead row.1).1
        fun rest ok => (quiet_rowHead row.1).2.append ok
      rw [List.flatMap_cons, List.flatMap_cons, rowXml_append]
      exact opened

theorem quiet_worksheetHead : Quiet "<c ".toList worksheetHead :=
  quiet_spelled _ _ _ (spell_append (spell_append String.toList_ofList)) (by rfl)

/-- The reader finds in a worksheet the cells that were written, row by row. -/
theorem parseSheetCells_build (cells : StrMap Cell)
    (readable : ∀ row ∈ (rowMap rt cells).toList, ∀ entry ∈ row.2, Readable rt entry) :
    parseSheetCells rt (buildWorksheetXml rt cells) [] = Std.ExtTreeMap.ofList
      (((rowMap rt cells).toList.flatMap Prod.snd).map fun entry => (entry.1, readBack entry.2))
      compare := by
  obtain ⟨head, tail, split, -, chunks⟩ := readsCells_rows (rowMap rt cells).toList readable
  have whole :=
    splitAll_quiet_append cellTag_ne_nil worksheetHead _ head tail quiet_worksheetHead split
  unfold parseSheetCells buildWorksheetXml
  rw [List.append_assoc, whole, List.drop_one, List.tail_cons]
  have listed : tail.filterMap (readCell rt []) =
      ((rowMap rt cells).toList.flatMap Prod.snd).map fun entry => (entry.1, readBack entry.2) := by
    have found := congrArg (List.filterMap fun result => result) chunks
    rw [List.filterMap_map, List.filterMap_map] at found
    rw [← List.filterMap_eq_map]
    exact found
  rw [← listed]
  refine foldl_insert_eq_ofList (readCell rt []) tail _ ?_
  intro next chunk
  cases readCell rt [] chunk <;> rfl

variable (rt) in
/-- The row that a key is written in. -/
def rowOf (key : Str) : Option UInt32 := (parseAddr rt key).map Prod.snd

/-- The rows list what was seen of each, in its order. -/
theorem rowMap_loop (row : UInt32) (entries seen : List (Str × Cell))
    (rows : Std.ExtTreeMap UInt32 (List (Str × Cell)) compare)
    (sorted : ∀ r, rows[r]?.getD [] = seen.filter fun e => rowOf rt e.1 = some r) :
    (entries.foldl (fun (rows : Std.ExtTreeMap UInt32 (List (Str × Cell)) compare) entry =>
      match parseAddr rt entry.1 with
      | some (_, row) => rows.insert row (rows[row]?.getD [] ++ [entry])
      | none => rows) rows)[row]?.getD [] =
      (seen ++ entries).filter fun e => rowOf rt e.1 = some row := by
  induction entries generalizing seen rows with
  | nil =>
      rw [List.append_nil]
      exact sorted row
  | cons entry entries ih =>
      rw [List.foldl_cons, List.append_cons]
      apply ih
      intro r
      rw [List.filter_append]
      cases parsed : parseAddr rt entry.1 with
      | none =>
          have unwritten : rowOf rt entry.1 = none := by simp [rowOf, parsed]
          simpa [unwritten] using sorted r
      | some position =>
          have written : rowOf rt entry.1 = some position.2 := by simp [rowOf, parsed]
          dsimp only
          rw [Std.ExtTreeMap.getElem?_insert]
          by_cases here : position.2 = r
          · subst here
            simp [written, sorted]
          · simp [written, here, sorted]

theorem rowMap_getD (cells : StrMap Cell) (row : UInt32) :
    (rowMap rt cells)[row]?.getD [] =
      cells.toList.filter fun e => rowOf rt e.1 = some row := by
  unfold rowMap
  have all := @rowMap_loop rt row cells.toList [] ∅ (by simp)
  rwa [List.nil_append] at all

theorem mem_rowMap (cells : StrMap Cell) (row : UInt32) (entries : List (Str × Cell))
    (member : (row, entries) ∈ (rowMap rt cells).toList) :
    entries = cells.toList.filter fun e => rowOf rt e.1 = some row := by
  rw [← rowMap_getD, Std.ExtTreeMap.mem_toList_iff_getElem?_eq_some.mp member]
  rfl

theorem mem_rows_iff (cells : StrMap Cell) (entry : Str × Cell) :
    entry ∈ (rowMap rt cells).toList.flatMap Prod.snd ↔
      entry ∈ cells.toList ∧ (parseAddr rt entry.1).isSome = true := by
  rw [List.mem_flatMap]
  constructor
  · rintro ⟨row, member, inside⟩
    rw [mem_rowMap cells row.1 row.2 member, List.mem_filter] at inside
    refine ⟨inside.1, ?_⟩
    cases parsed : parseAddr rt entry.1 <;> simp [rowOf, parsed] at inside ⊢
  · rintro ⟨member, valid⟩
    obtain ⟨position, parsed⟩ := Option.isSome_iff_exists.mp valid
    have inside : entry ∈ (rowMap rt cells)[position.2]?.getD [] := by
      rw [rowMap_getD, List.mem_filter]
      exact ⟨member, by simp [rowOf, parsed]⟩
    cases found : (rowMap rt cells)[position.2]? with
    | none =>
        rw [found] at inside
        cases inside
    | some entries =>
        rw [found] at inside
        exact ⟨(position.2, entries), Std.ExtTreeMap.mem_toList_iff_getElem?_eq_some.mpr found,
          inside⟩

theorem nodup_rows (cells : StrMap Cell) :
    (((rowMap rt cells).toList.flatMap Prod.snd).map Prod.fst).Nodup := by
  rw [List.map_flatMap, List.nodup_flatMap]
  constructor
  · intro row member
    rw [mem_rowMap cells row.1 row.2 member]
    exact (nodup_keys_toList cells).sublist (List.filter_sublist.map Prod.fst)
  · have distinct := nodup_keys_toList (rowMap rt cells)
    refine (List.pairwise_map.mp distinct).imp_of_mem ?_
    intro a b memberA memberB apart key inA inB
    dsimp only at inA inB
    rw [mem_rowMap cells a.1 a.2 memberA] at inA
    rw [mem_rowMap cells b.1 b.2 memberB] at inB
    obtain ⟨entryA, insideA, rfl⟩ := List.mem_map.mp inA
    obtain ⟨entryB, insideB, same⟩ := List.mem_map.mp inB
    have rowA := (List.mem_filter.mp insideA).2
    have rowB := (List.mem_filter.mp insideB).2
    rw [same] at rowB
    simp only [decide_eq_true_eq] at rowA rowB
    rw [rowA] at rowB
    exact apart (Option.some.inj rowB)

/-- A worksheet of readable cells reads back cell by cell. -/
theorem parseSheetCells_getElem? (cells : StrMap Cell)
    (readable : ∀ entry ∈ cells.toList, Readable rt entry)
    (valid : ∀ entry ∈ cells.toList, (parseAddr rt entry.1).isSome = true) (key : Str) :
    (parseSheetCells rt (buildWorksheetXml rt cells) [])[key]? = cells[key]?.map readBack := by
  rw [parseSheetCells_build cells]
  · have distinct : ((((rowMap rt cells).toList.flatMap Prod.snd).map fun entry =>
        (entry.1, readBack entry.2)).map Prod.fst).Nodup := by
      rw [List.map_map]
      exact nodup_rows cells
    have written : (Std.ExtTreeMap.ofList _ compare : StrMap Cell).toList.Perm _ :=
      toList_ofList_perm _ distinct
    apply Option.ext
    intro cell
    rw [← Std.ExtTreeMap.mem_toList_iff_getElem?_eq_some, written.mem_iff, List.mem_map,
      Option.map_eq_some_iff]
    constructor
    · rintro ⟨entry, member, same⟩
      obtain ⟨rfl, rfl⟩ := Prod.mk.inj same
      have inside := ((mem_rows_iff cells entry).mp member).1
      exact ⟨entry.2, Std.ExtTreeMap.mem_toList_iff_getElem?_eq_some.mp inside, rfl⟩
    · rintro ⟨old, found, rfl⟩
      have inside := Std.ExtTreeMap.mem_toList_iff_getElem?_eq_some.mpr found
      exact ⟨(key, old), (mem_rows_iff cells _).mpr ⟨inside, valid _ inside⟩, rfl⟩
  · intro row member entry inside
    have both := (mem_rows_iff cells entry).mp (List.mem_flatMap.mpr ⟨row, member, inside⟩)
    exact readable entry both.1

end Worksheet

end EraOne.Tables
