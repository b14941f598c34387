import EraOne.TablesOds
import EraOne.TablesXml

set_option autoImplicit false

/- What the reader of `content.xml` makes of the text that the writer wrote. The text of a tag is a
list of quoted attributes; the reader finds an attribute by its name, and finds it wrongly where the
text of a formula looks like one. -/
namespace EraOne.Tables

open Scan Maps

section Attributes

/-- Attributes with the blanks before their names. -/
def attrsXml (attrs : List (Str × Str)) : Str :=
  attrs.flatMap fun attr => attr.1 ++ "=\"".toList ++ attr.2 ++ ['"']

/-- Neither the name nor the value of an attribute ends the search for a name. -/
def Passes (name : Str) (attr : Str × Str) : Prop := ¬ name <:+ attr.1 ∧ ¬ name ++ ['='] <:+ attr.2

theorem suffix_append_singleton (name key : Str) (c : Char) :
    name ++ [c] <:+ key ++ [c] ↔ name <:+ key := by
  constructor
  · intro ⟨front, shape⟩
    rw [← List.append_assoc] at shape
    exact ⟨front, List.append_cancel_right shape⟩
  · intro ⟨front, shape⟩
    exact ⟨front, by rw [← List.append_assoc, shape]⟩

variable (name : Str) (plain : '"' ∉ name)

include plain

theorem splitOnce_attr (key value rest : Str) (clearKey : '"' ∉ key) (clearValue : '"' ∉ value) :
    splitOnce (name ++ "=\"".toList) (key ++ "=\"".toList ++ value ++ ['"'] ++ rest) =
      if name <:+ key then
        some ((key ++ ['=']).take (key.length - name.length), value ++ '"' :: rest)
      else if name ++ ['='] <:+ value then
        some (key ++ "=\"".toList ++ value.take (value.length - (name.length + 1)), rest)
      else (splitOnce (name ++ "=\"".toList) rest).map fun halves =>
        (key ++ "=\"".toList ++ value ++ '"' :: halves.1, halves.2) := by
  have pattern : name ++ "=\"".toList = (name ++ ['=']) ++ ['"'] := by simp
  have text : key ++ "=\"".toList ++ value ++ ['"'] ++ rest =
      (key ++ ['=']) ++ '"' :: (value ++ '"' :: rest) := by simp
  have noQuote (s : Str) (clear : '"' ∉ s) : '"' ∉ s ++ ['='] := by simp [clear]
  rw [pattern, text, splitOnce_delimited _ _ _ _ (noQuote name plain) (noQuote key clearKey),
    splitOnce_delimited _ _ _ _ (noQuote name plain) clearValue]
  by_cases here : name <:+ key
  · rw [if_pos ((suffix_append_singleton name key '=').mpr here), if_pos here]
    simp
  · rw [if_neg (fun found => here ((suffix_append_singleton name key '=').mp found)), if_neg here]
    by_cases within : name ++ ['='] <:+ value
    · rw [if_pos within, if_pos within]
      simp
    · rw [if_neg within, if_neg within, Option.map_map]
      simp [Function.comp_def]

/-- The first attribute whose name ends in the given one, after attributes that pass. -/
theorem odsAttrValue_found (before : List (Str × Str)) (key value rest : Str)
    (clear : ∀ attr ∈ before, '"' ∉ attr.1 ∧ '"' ∉ attr.2) (clearKey : '"' ∉ key)
    (clearValue : '"' ∉ value) (passes : ∀ attr ∈ before, Passes name attr) (here : name <:+ key) :
    odsAttrValue (attrsXml before ++ (key ++ "=\"".toList ++ value ++ ['"'] ++ rest)) name =
      some value := by
  have found : ∃ front, splitOnce (name ++ "=\"".toList)
      (attrsXml before ++ (key ++ "=\"".toList ++ value ++ ['"'] ++ rest)) =
        some (front, value ++ '"' :: rest) := by
    induction before with
    | nil =>
        unfold attrsXml
        rw [List.flatMap_nil, List.nil_append, splitOnce_attr name plain _ _ _ clearKey clearValue,
          if_pos here]
        exact ⟨_, rfl⟩
    | cons attr before ih =>
        rw [List.forall_mem_cons] at clear passes
        obtain ⟨front, found⟩ := ih clear.2 passes.2
        unfold attrsXml at found ⊢
        rw [List.flatMap_cons, List.append_assoc,
          splitOnce_attr name plain _ _ _ clear.1.1 clear.1.2, if_neg passes.1.1, if_neg passes.1.2,
          found]
        exact ⟨_, rfl⟩
  obtain ⟨front, found⟩ := found
  have ends := splitOnce_quiet_match ['"'] value rest (by simp)
    (quiet_of_not_mem '"' [] value clearValue)
  rw [List.singleton_append] at ends
  unfold odsAttrValue
  rw [found]
  dsimp only
  rw [ends]
  rfl

/-- No attribute is found where none has the name, in either kind of quotes. -/
theorem odsAttrValue_absent (attrs : List (Str × Str))
    (clear : ∀ attr ∈ attrs, '"' ∉ attr.1 ∧ '"' ∉ attr.2)
    (passes : ∀ attr ∈ attrs, Passes name attr)
    (single : ∀ attr ∈ attrs, '\'' ∉ attr.1 ∧ ¬ name ++ "='".toList <:+: attr.2) :
    odsAttrValue (attrsXml attrs) name = none := by
  have double : splitOnce (name ++ "=\"".toList) (attrsXml attrs) = none := by
    induction attrs with
    | nil =>
        unfold attrsXml
        rw [List.flatMap_nil, splitOnce, if_neg (by simp)]
    | cons attr attrs ih =>
        rw [List.forall_mem_cons] at clear passes single
        have later := ih clear.2 passes.2 single.2
        unfold attrsXml at later ⊢
        rw [List.flatMap_cons, splitOnce_attr name plain _ _ _ clear.1.1 clear.1.2,
          if_neg passes.1.1, if_neg passes.1.2, later]
        rfl
  have noSingle : ¬ name ++ "='".toList <:+: attrsXml attrs := by
    have noQuote : '"' ∉ name ++ "='".toList := by simp [plain]
    clear double
    induction attrs with
    | nil =>
        unfold attrsXml
        rw [List.flatMap_nil, List.infix_nil]
        simp
    | cons attr attrs ih =>
        rw [List.forall_mem_cons] at clear passes single
        have later := ih clear.2 passes.2 single.2
        unfold attrsXml at later ⊢
        intro within
        have shape :
            (attr :: attrs).flatMap (fun attr => attr.1 ++ "=\"".toList ++ attr.2 ++ ['"']) =
            (attr.1 ++ ['=']) ++ '"' :: (attr.2 ++ '"' :: attrs.flatMap fun attr =>
              attr.1 ++ "=\"".toList ++ attr.2 ++ ['"']) := by simp
        rw [shape] at within
        rcases infix_of_delimited _ _ _ '"' noQuote within with inKey | after
        · have quote : '\'' ∈ attr.1 ++ ['='] := inKey.subset (by simp)
          rw [List.mem_append] at quote
          rcases quote with key | equals
          · exact single.1.1 key
          · exact absurd equals (by decide)
        · rcases infix_of_delimited _ _ _ '"' noQuote after with inValue | inRest
          · exact single.1.2 inValue
          · exact later inRest
  unfold odsAttrValue
  rw [double]
  dsimp only
  rw [splitOnce_eq_none _ _ noSingle]

end Attributes

section Cells

variable {rt : Runtime}

/-- How the standard library prints an `f64`. -/
structure Runtime.Prints (rt : Runtime) : Prop where
  shows : ∀ n, rt.display n ≠ []
  plain : ∀ n, ∀ c ∈ rt.display n, c.isAlphanum = true ∨ c = '.' ∨ c = '-'

def simpleChar (c : Char) : Bool := c.isAlphanum || c == '.' || c == '-' || c == '_'

/-- Text of which nothing is markup. -/
def Simple (s : Str) : Prop := s.all simpleChar = true

instance (s : Str) : Decidable (Simple s) := inferInstanceAs (Decidable (_ = true))

theorem Simple.not_mem {s : Str} (simple : Simple s) (c : Char) (markup : simpleChar c = false) :
    c ∉ s := by
  intro member
  have plain := List.all_eq_true.mp simple c member
  rw [markup] at plain
  cases plain

theorem Simple.append {s t : Str} (first : Simple s) (second : Simple t) : Simple (s ++ t) := by
  unfold Simple
  rw [List.all_append, first, second]
  rfl

theorem simple_digits (n : Nat) : Simple (Nat.toDigits 10 n) := by
  refine List.all_eq_true.mpr ?_
  intro c member
  have digit := Nat.isDigit_of_mem_toDigits (by decide) (by decide) member
  simp [simpleChar, Char.isAlphanum, digit]

theorem Runtime.Prints.simple (prints : rt.Prints) (n : rt.F64) : Simple (rt.display n) := by
  refine List.all_eq_true.mpr ?_
  intro c member
  rcases prints.plain n c member with letter | dot | dash
  · simp [simpleChar, letter]
  · simp [simpleChar, dot]
  · simp [simpleChar, dash]

theorem simple_styleNameFor (cell : Cell) (sides : ∀ c ∈ cell.borderSides, c ∈ "tblr".toList) :
    Simple (styleNameFor cell) := by
  have none_ : Simple [] := rfl
  have base : Simple (baseStyle cell) := by
    unfold baseStyle
    split
    · exact (by decide : Simple "ce2".toList)
    · split
      · exact (by decide : Simple "cep".toList)
      · exact (by decide : Simple "Default".toList)
  have key : Simple (borderSidesKey cell) := by
    have four : "tblr".toList.all simpleChar = true := by decide
    unfold borderSidesKey
    split
    · exact List.all_eq_true.mpr fun c member => List.all_eq_true.mp four c (sides c member)
    · split
      · exact four
      · exact none_
  have wrap : Simple (if cell.wrap = true then "_w".toList else []) := by
    split
    · exact (by decide : Simple "_w".toList)
    · exact none_
  unfold styleNameFor
  dsimp only
  split
  · exact base
  · refine (base.append wrap).append ?_
    split
    · exact Simple.append (by decide : Simple "_b".toList) key
    · exact none_

variable (rt) in
def typeAttrs (display : Str) : List (Str × Str) :=
  match rt.parse display with
  | some n =>
      [(" office:value-type".toList, "float".toList), (" office:value".toList, rt.display n)]
  | none => [(" office:value-type".toList, "string".toList)]

/-- The formula as it stands in its attribute. -/
def formulaText (cell : Cell) : Str := xmlEscape (odsFormula cell.formula)

def formulaAttrs (cell : Cell) : List (Str × Str) :=
  if cell.formula = [] then [] else [(" table:formula".toList, formulaText cell)]

def spanPairs (cols rows : UInt32) : List (Str × Str) :=
  if cols > 1 ∨ rows > 1 then
    [(" table:number-columns-spanned".toList, Nat.toDigits 10 cols.toNat),
      (" table:number-rows-spanned".toList, Nat.toDigits 10 rows.toNat)]
  else []

variable (rt) in
/-- The attributes before that of the formula. -/
def frontAttrs (cell : Cell) : List (Str × Str) :=
  (" table:style-name".toList, styleNameFor cell) :: typeAttrs rt (displayOf cell)

variable (rt) in
def ownAttrs : Option Cell → List (Str × Str)
  | none => []
  | some cell => frontAttrs rt cell ++ formulaAttrs cell

variable (rt) in
/-- The attributes of a cell as it is placed. -/
def cellAttrs (placed : Placed) : List (Str × Str) :=
  ownAttrs rt placed.cell ++ spanPairs placed.cols placed.rows

theorem attrsXml_append (a b : List (Str × Str)) :
    attrsXml (a ++ b) = attrsXml a ++ attrsXml b := by
  unfold attrsXml
  exact List.flatMap_append

theorem attrsXml_cons (attr : Str × Str) (attrs : List (Str × Str)) :
    attrsXml (attr :: attrs) = attr.1 ++ "=\"".toList ++ attr.2 ++ ['"'] ++ attrsXml attrs := by
  unfold attrsXml
  exact List.flatMap_cons

theorem attrsXml_spanPairs (cols rows : UInt32) :
    attrsXml (spanPairs cols rows) = spanAttrs cols rows := by
  unfold spanPairs spanAttrs attrsXml
  split
  · simp
  · simp

theorem attrsXml_formulaAttrs (cell : Cell) : attrsXml (formulaAttrs cell) = formulaAttr cell := by
  unfold formulaAttrs formulaAttr attrsXml formulaText
  by_cases empty : cell.formula = []
  · rw [if_pos empty, if_neg (by simp [empty])]
    rfl
  · rw [if_neg empty, if_pos (by simpa using empty)]
    simp

theorem attrsXml_typeAttrs (display : Str) :
    attrsXml (typeAttrs rt display) = valueAttrs rt display := by
  unfold typeAttrs valueAttrs attrsXml
  cases rt.parse display with
  | none => rfl
  | some n => simp

/-- What follows the attributes of a cell. -/
def cellRest : Option Cell → Str
  | none => "/>".toList
  | some cell => '>' :: ("<text:p>".toList ++ xmlEscape (displayOf cell) ++ "</text:p>".toList ++
      cellClose)

theorem cellXmlSpanned_eq (placed : Placed) :
    cellXmlSpanned rt placed.cell placed.cols placed.rows =
      cellTag ++ (attrsXml (cellAttrs rt placed) ++ cellRest placed.cell) := by
  unfold cellXmlSpanned cellAttrs
  rw [attrsXml_append, attrsXml_spanPairs]
  cases placed.cell with
  | none =>
      rw [List.append_assoc]
      rfl
  | some cell =>
      have opens : "<table:table-cell table:style-name=\"".toList =
          cellTag ++ (" table:style-name".toList ++ "=\"".toList) := by decide
      have paragraph : "><text:p>".toList = '>' :: "<text:p>".toList := by decide
      have closes : "</text:p></table:table-cell>".toList = "</text:p>".toList ++ cellClose := by
        decide
      dsimp only [cellRest, ownAttrs, frontAttrs]
      rw [attrsXml_append, attrsXml_cons, attrsXml_typeAttrs, attrsXml_formulaAttrs, opens,
        paragraph, closes]
      simp only [List.append_assoc, List.cons_append]

/-- The names that the reader looks for in the tag of a cell, besides that of the formula. -/
def repeatedName : Str := "table:number-columns-repeated".toList

def colsName : Str := "table:number-columns-spanned".toList

def rowsName : Str := "table:number-rows-spanned".toList

def valueName : Str := "office:value".toList

def stringValueName : Str := "office:string-value".toList

def Placed.spanned (placed : Placed) : Bool := placed.cols > 1 ∨ placed.rows > 1

/-- The reader finds the name in the text of a formula: at its end, where the closing quote follows,
or before an apostrophe, unless the tag has the attribute itself. -/
def foundIn (name text : Str) (own : Bool) : Bool :=
  (name ++ ['=']).isSuffixOf text || (!own && contains (name ++ "='".toList) text)

variable (rt) in
/-- No part of the formula is taken for another attribute of the cell. -/
def Clean (placed : Placed) : Prop :=
  ∀ cell, placed.cell = some cell → cell.formula ≠ [] →
    foundIn repeatedName (formulaText cell) false = false ∧
    foundIn colsName (formulaText cell) placed.spanned = false ∧
    foundIn rowsName (formulaText cell) placed.spanned = false ∧
    (rt.parse (displayOf cell) = none →
      foundIn valueName (formulaText cell) false = false ∧
      foundIn stringValueName (formulaText cell) false = false)

/-- A cell whose border has only sides that the format knows. -/
def Sides (cell : Cell) : Prop := ∀ c ∈ cell.borderSides, c ∈ "tblr".toList

theorem mem_frontAttrs (prints : rt.Prints) (cell : Cell) (sides : Sides cell) (attr : Str × Str)
    (member : attr ∈ frontAttrs rt cell) :
    Simple attr.2 ∧ (attr.1 = " table:style-name".toList ∨ attr.1 = " office:value-type".toList ∨
      rt.parse (displayOf cell) ≠ none ∧ attr.1 = " office:value".toList) := by
  rcases List.mem_cons.mp member with style | type
  · rw [style]
    exact ⟨simple_styleNameFor cell sides, Or.inl rfl⟩
  · unfold typeAttrs at type
    cases parsed : rt.parse (displayOf cell) with
    | none =>
        rw [parsed, List.mem_singleton] at type
        rw [type]
        exact ⟨(by decide : Simple "string".toList), Or.inr (Or.inl rfl)⟩
    | some n =>
        rw [parsed, List.mem_cons, List.mem_singleton] at type
        rcases type with kind | value
        · rw [kind]
          exact ⟨(by decide : Simple "float".toList), Or.inr (Or.inl rfl)⟩
        · rw [value]
          exact ⟨prints.simple n, Or.inr (Or.inr ⟨by simp, rfl⟩)⟩

theorem mem_formulaAttrs (cell : Cell) (attr : Str × Str) (member : attr ∈ formulaAttrs cell) :
    cell.formula ≠ [] ∧ attr = (" table:formula".toList, formulaText cell) := by
  unfold formulaAttrs at member
  split at member
  · cases member
  · rename_i filled
    exact ⟨filled, List.mem_singleton.mp member⟩

theorem mem_spanPairs (placed : Placed) (attr : Str × Str)
    (member : attr ∈ spanPairs placed.cols placed.rows) :
    placed.spanned = true ∧ Simple attr.2 ∧ (attr.1 = " table:number-columns-spanned".toList ∨
      attr.1 = " table:number-rows-spanned".toList) := by
  unfold spanPairs at member
  split at member
  · rename_i wide
    refine ⟨decide_eq_true wide, ?_⟩
    rw [List.mem_cons, List.mem_singleton] at member
    rcases member with cols | rows
    · rw [cols]
      exact ⟨simple_digits _, Or.inl rfl⟩
    · rw [rows]
      exact ⟨simple_digits _, Or.inr rfl⟩
  · cases member

/-- The attributes of a cell, one by one. -/
theorem mem_cellAttrs (prints : rt.Prints) (placed : Placed)
    (sides : ∀ cell, placed.cell = some cell → Sides cell) (attr : Str × Str)
    (member : attr ∈ cellAttrs rt placed) :
    (∃ cell, placed.cell = some cell ∧ cell.formula ≠ [] ∧
        attr = (" table:formula".toList, formulaText cell)) ∨
      Simple attr.2 ∧
        (attr.1 = " table:style-name".toList ∨ attr.1 = " office:value-type".toList ∨
          (∃ cell, placed.cell = some cell ∧ rt.parse (displayOf cell) ≠ none ∧
            attr.1 = " office:value".toList) ∨
          placed.spanned = true ∧ (attr.1 = " table:number-columns-spanned".toList ∨
            attr.1 = " table:number-rows-spanned".toList)) := by
  rcases List.mem_append.mp member with own | span
  · cases here : placed.cell with
    | none =>
        rw [here] at own
        cases own
    | some cell =>
        rw [here] at own
        rcases List.mem_append.mp own with front | formula
        · obtain ⟨simple, style | type | ⟨number, value⟩⟩ :=
            mem_frontAttrs prints cell (sides cell here) attr front
          · exact Or.inr ⟨simple, Or.inl style⟩
          · exact Or.inr ⟨simple, Or.inr (Or.inl type)⟩
          · exact Or.inr ⟨simple, Or.inr (Or.inr (Or.inl ⟨cell, rfl, number, value⟩))⟩
        · exact Or.inl ⟨cell, rfl, mem_formulaAttrs cell attr formula⟩
  · obtain ⟨spanned, simple, key⟩ := mem_spanPairs placed attr span
    exact Or.inr ⟨simple, Or.inr (Or.inr (Or.inr ⟨spanned, key⟩))⟩

theorem foundIn_eq_false (name text : Str) (own : Bool) :
    foundIn name text own = false ↔
      ¬ name ++ ['='] <:+ text ∧ (own = false → ¬ name ++ "='".toList <:+: text) := by
  unfold foundIn
  rw [Bool.or_eq_false_iff, ← Bool.not_eq_true, List.isSuffixOf_iff_suffix]
  refine and_congr_right' ?_
  cases own with
  | false => simp [← contains_iff_infix]
  | true => simp

theorem passes_of_simple (name : Str) (attr : Str × Str) (other : ¬ name <:+ attr.1)
    (simple : Simple attr.2) : Passes name attr ∧ ¬ name ++ "='".toList <:+: attr.2 := by
  refine ⟨⟨other, ?_⟩, ?_⟩
  · intro ends
    exact simple.not_mem '=' (by decide) (ends.subset (by simp))
  · intro within
    exact simple.not_mem '=' (by decide) (within.subset (by simp))

section Lookups

variable (prints : rt.Prints) (placed : Placed)
  (sides : ∀ cell, placed.cell = some cell → Sides cell)

include prints sides

theorem cellAttrs_clear : ∀ attr ∈ cellAttrs rt placed,
    ('"' ∉ attr.1 ∧ '"' ∉ attr.2) ∧ '\'' ∉ attr.1 ∧ ('>' ∉ attr.1 ∧ '>' ∉ attr.2) ∧
      ('<' ∉ attr.1 ∧ '<' ∉ attr.2) := by
  intro attr member
  have keys : '"' ∉ attr.1 ∧ '\'' ∉ attr.1 ∧ '>' ∉ attr.1 ∧ '<' ∉ attr.1 := by
    rcases mem_cellAttrs prints placed sides attr member with
      ⟨cell, -, -, formula⟩ | ⟨-, style | type | ⟨cell, -, -, value⟩ | ⟨-, cols | rows⟩⟩
    · rw [show attr.1 = " table:formula".toList by rw [formula]]
      decide
    · rw [style]
      decide
    · rw [type]
      decide
    · rw [value]
      decide
    · rw [cols]
      decide
    · rw [rows]
      decide
  have values : '"' ∉ attr.2 ∧ '>' ∉ attr.2 ∧ '<' ∉ attr.2 := by
    rcases mem_cellAttrs prints placed sides attr member with ⟨cell, -, -, formula⟩ | ⟨simple, -⟩
    · rw [formula]
      exact ⟨not_mem_xmlEscape _ _ (by decide), not_mem_xmlEscape _ _ (by decide),
        not_mem_xmlEscape _ _ (by decide)⟩
    · exact ⟨simple.not_mem _ (by decide), simple.not_mem _ (by decide),
        simple.not_mem _ (by decide)⟩
  exact ⟨⟨keys.1, values.1⟩, keys.2.1, ⟨keys.2.2.1, values.2.1⟩, keys.2.2.2, values.2.2⟩

/-- A name that no attribute has, and no part of the formula. -/
theorem lookup_absent (name : Str) (plain : '"' ∉ name)
    (others : ∀ attr ∈ cellAttrs rt placed, ¬ name <:+ attr.1)
    (clean : ∀ cell, placed.cell = some cell → cell.formula ≠ [] →
      foundIn name (formulaText cell) false = false) :
    odsAttrValue (attrsXml (cellAttrs rt placed)) name = none := by
  have each (attr : Str × Str) (member : attr ∈ cellAttrs rt placed) :
      Passes name attr ∧ ¬ name ++ "='".toList <:+: attr.2 := by
    rcases mem_cellAttrs prints placed sides attr
        member with ⟨cell, here, filled, formula⟩ | ⟨simple, -⟩
    · obtain ⟨ends, within⟩ := (foundIn_eq_false _ _ _).mp (clean cell here filled)
      rw [formula]
      exact ⟨⟨by simpa [formula] using others attr member, ends⟩, within rfl⟩
    · exact passes_of_simple name attr (others attr member) simple
  refine odsAttrValue_absent name plain _ ?_ ?_ ?_
  · exact fun attr member => (cellAttrs_clear prints placed sides attr member).1
  · exact fun attr member => (each attr member).1
  · exact fun attr member =>
      ⟨(cellAttrs_clear prints placed sides attr member).2.1, (each attr member).2⟩

/-- An attribute among those of the cell, after others that pass. -/
theorem lookup_found (name : Str) (plain : '"' ∉ name) (before after : List (Str × Str))
    (attr : Str × Str) (shape : cellAttrs rt placed = before ++ attr :: after)
    (here : name <:+ attr.1) (passes : ∀ other ∈ before, Passes name other) :
    odsAttrValue (attrsXml (cellAttrs rt placed)) name = some attr.2 := by
  have clear := cellAttrs_clear prints placed sides
  rw [shape] at clear ⊢
  rw [attrsXml_append, attrsXml_cons]
  refine odsAttrValue_found name plain before attr.1 attr.2 _ ?_ ?_ ?_ passes here
  · exact fun other member => (clear other (List.mem_append_left _ member)).1
  · exact (clear attr (by simp)).1.1
  · exact (clear attr (by simp)).1.2

theorem lookup_formula_absent (empty : ∀ cell, placed.cell = some cell → cell.formula = []) :
    odsAttrValue (attrsXml (cellAttrs rt placed)) "table:formula".toList = none := by
  refine lookup_absent prints placed sides _ (by decide) ?_ ?_
  · intro attr member
    rcases mem_cellAttrs prints placed sides attr member with
      ⟨cell, here, filled, -⟩ | ⟨-, style | type | ⟨_, -, -, value⟩ | ⟨-, cols | rows⟩⟩
    · exact absurd (empty cell here) filled
    · rw [style]
      decide
    · rw [type]
      decide
    · rw [value]
      decide
    · rw [cols]
      decide
    · rw [rows]
      decide
  · exact fun cell here filled => absurd (empty cell here) filled

theorem lookup_formula (cell : Cell) (here : placed.cell = some cell) (filled : cell.formula ≠ []) :
    odsAttrValue (attrsXml (cellAttrs rt placed)) "table:formula".toList =
      some (formulaText cell) := by
  refine lookup_found prints placed sides _ (by decide) (frontAttrs rt cell)
    (spanPairs placed.cols placed.rows) (" table:formula".toList, formulaText cell) ?_
    (by dsimp only; decide) ?_
  · unfold cellAttrs ownAttrs formulaAttrs
    rw [here]
    dsimp only
    rw [if_neg filled, List.append_assoc, List.singleton_append]
  · intro attr member
    obtain ⟨simple, style | type | ⟨-, value⟩⟩ :=
      mem_frontAttrs prints cell (sides cell here) attr member
    · exact (passes_of_simple _ attr (by rw [style]; decide) simple).1
    · exact (passes_of_simple _ attr (by rw [type]; decide) simple).1
    · exact (passes_of_simple _ attr (by rw [value]; decide) simple).1

theorem lookup_number (cell : Cell) (here : placed.cell = some cell) (n : rt.F64)
    (parsed : rt.parse (displayOf cell) = some n) :
    odsAttrValue (attrsXml (cellAttrs rt placed)) valueName = some (rt.display n) := by
  refine lookup_found prints placed sides _ (by decide)
    [(" table:style-name".toList, styleNameFor cell), (" office:value-type".toList, "float".toList)]
    (formulaAttrs cell ++ spanPairs placed.cols placed.rows) (" office:value".toList, rt.display n)
    ?_ (by dsimp only; decide) ?_
  · unfold cellAttrs ownAttrs frontAttrs typeAttrs
    rw [here]
    dsimp only
    rw [parsed]
    simp
  · intro attr member
    rw [List.mem_cons, List.mem_singleton] at member
    rcases member with style | type
    · rw [style]
      exact (passes_of_simple _ _ (by dsimp only; decide)
        (simple_styleNameFor cell (sides cell here))).1
    · rw [type]
      exact (passes_of_simple _ _ (by decide) (by decide)).1

/-- A name of an attribute that only other cells have. -/
theorem lookup_none (name : Str) (plain : '"' ∉ name)
    (clean : ∀ cell, placed.cell = some cell → cell.formula ≠ [] →
      foundIn name (formulaText cell) false = false)
    (fixed : ∀ key ∈ [" table:style-name".toList, " office:value-type".toList,
      " table:formula".toList], ¬ name <:+ key)
    (value : ∀ cell, placed.cell = some cell → rt.parse (displayOf cell) ≠ none →
      ¬ name <:+ " office:value".toList)
    (span : placed.spanned = true → ∀ key ∈ [" table:number-columns-spanned".toList,
      " table:number-rows-spanned".toList], ¬ name <:+ key) :
    odsAttrValue (attrsXml (cellAttrs rt placed)) name = none := by
  refine lookup_absent prints placed sides name plain ?_ clean
  intro attr member
  rcases mem_cellAttrs prints placed sides attr member with
    ⟨cell, here, -, formula⟩ | ⟨-,
      style | type | ⟨cell, here, number, key⟩ | ⟨spanned, cols | rows⟩⟩
  · rw [formula]
    exact fixed _ (by simp)
  · rw [style]
    exact fixed _ (by simp)
  · rw [type]
    exact fixed _ (by simp)
  · rw [key]
    exact value cell here number
  · rw [cols]
    exact span spanned _ (by simp)
  · rw [rows]
    exact span spanned _ (by simp)

theorem passes_ownAttrs (name : Str)
    (ends : ∀ cell, placed.cell = some cell → cell.formula ≠ [] →
      ¬ name ++ ['='] <:+ formulaText cell)
    (fixed : ∀ key ∈ [" table:style-name".toList, " office:value-type".toList,
      " office:value".toList, " table:formula".toList], ¬ name <:+ key) :
    ∀ attr ∈ ownAttrs rt placed.cell, Passes name attr := by
  intro attr member
  cases here : placed.cell with
  | none =>
      rw [here] at member
      cases member
  | some cell =>
      rw [here] at member
      rcases List.mem_append.mp member with front | formula
      · obtain ⟨simple, style | type | ⟨-, value⟩⟩ :=
          mem_frontAttrs prints cell (sides cell here) attr front
        · exact (passes_of_simple name attr (by rw [style]; exact fixed _ (by simp)) simple).1
        · exact (passes_of_simple name attr (by rw [type]; exact fixed _ (by simp)) simple).1
        · exact (passes_of_simple name attr (by rw [value]; exact fixed _ (by simp)) simple).1
      · obtain ⟨filled, shape⟩ := mem_formulaAttrs cell attr formula
        rw [shape]
        exact ⟨fixed _ (by simp), ends cell here filled⟩

variable (clean : Clean rt placed)

include clean

theorem lookup_repeated : odsAttrValue (attrsXml (cellAttrs rt placed)) repeatedName = none := by
  refine lookup_none prints placed sides _ (by decide) ?_ (by decide) ?_ ?_
  · exact fun cell here filled => (clean cell here filled).1
  · exact fun _ _ _ => by decide
  · exact fun _ => by decide

theorem lookup_text (text : ∀ cell, placed.cell = some cell → rt.parse (displayOf cell) = none) :
    odsAttrValue (attrsXml (cellAttrs rt placed)) valueName = none ∧
      odsAttrValue (attrsXml (cellAttrs rt placed)) stringValueName = none := by
  constructor
  · refine lookup_none prints placed sides _ (by decide) ?_ (by decide) ?_ ?_
    · exact fun cell here filled => ((clean cell here filled).2.2.2 (text cell here)).1
    · exact fun cell here number => absurd (text cell here) number
    · exact fun _ => by decide
  · refine lookup_none prints placed sides _ (by decide) ?_ (by decide) ?_ ?_
    · exact fun cell here filled => ((clean cell here filled).2.2.2 (text cell here)).2
    · exact fun cell here number => absurd (text cell here) number
    · exact fun _ => by decide

theorem lookup_cols :
    odsAttrValue (attrsXml (cellAttrs rt placed)) colsName =
      if placed.spanned = true then some (Nat.toDigits 10 placed.cols.toNat) else none := by
  by_cases spanned : placed.spanned = true
  · rw [if_pos spanned]
    refine lookup_found prints placed sides _ (by decide) (ownAttrs rt placed.cell)
      [(" table:number-rows-spanned".toList, Nat.toDigits 10 placed.rows.toNat)]
      (" table:number-columns-spanned".toList, Nat.toDigits 10 placed.cols.toNat) ?_
      (by dsimp only; decide) ?_
    · unfold cellAttrs spanPairs
      rw [if_pos (of_decide_eq_true spanned)]
    · refine passes_ownAttrs prints placed sides _ ?_ (by decide)
      exact fun cell here filled =>
        ((foundIn_eq_false _ _ _).mp (clean cell here filled).2.1).1
  · rw [if_neg spanned]
    rw [Bool.not_eq_true] at spanned
    refine lookup_none prints placed sides _ (by decide) ?_ (by decide) ?_ ?_
    · intro cell here filled
      have kept := (clean cell here filled).2.1
      rwa [spanned] at kept
    · exact fun _ _ _ => by decide
    · exact fun wide => absurd wide (by simp [spanned])

theorem lookup_rows :
    odsAttrValue (attrsXml (cellAttrs rt placed)) rowsName =
      if placed.spanned = true then some (Nat.toDigits 10 placed.rows.toNat) else none := by
  by_cases spanned : placed.spanned = true
  · rw [if_pos spanned]
    refine lookup_found prints placed sides _ (by decide) (ownAttrs rt placed.cell ++
        [(" table:number-columns-spanned".toList, Nat.toDigits 10 placed.cols.toNat)]) []
      (" table:number-rows-spanned".toList, Nat.toDigits 10 placed.rows.toNat) ?_
      (by dsimp only; decide) ?_
    · unfold cellAttrs spanPairs
      rw [if_pos (of_decide_eq_true spanned), List.append_assoc, List.singleton_append]
    · intro attr member
      rcases List.mem_append.mp member with own | cols
      · refine passes_ownAttrs prints placed sides _ ?_ (by decide) attr own
        exact fun cell here filled =>
          ((foundIn_eq_false _ _ _).mp (clean cell here filled).2.2.1).1
      · rw [List.mem_singleton.mp cols]
        exact (passes_of_simple _ _ (by dsimp only; decide) (simple_digits _)).1
  · rw [if_neg spanned]
    rw [Bool.not_eq_true] at spanned
    refine lookup_none prints placed sides _ (by decide) ?_ (by decide) ?_ ?_
    · intro cell here filled
      have kept := (clean cell here filled).2.2.1
      rwa [spanned] at kept
    · exact fun _ _ _ => by decide
    · exact fun wide => absurd wide (by simp [spanned])

end Lookups

section Contents

variable (rt) in
def shownValue (cell : Cell) : Str :=
  match rt.parse (displayOf cell) with
  | some n => rt.display n
  | none => displayOf cell

variable (rt) in
/-- A cell as it is read from its own text. -/
def odsBack (cell : Cell) : Cell :=
  { value := shownValue rt cell
    formula := if cell.formula = [] then [] else normalizeOdsFormula (formulaText cell) }

variable (rt) in
/-- What a placed cell adds to the cells when it is read in this column. -/
def Placed.entry (placed : Placed) (row col : UInt32) : Option (Str × Cell) :=
  placed.cell.bind fun cell =>
    if (odsBack rt cell).value = [] ∧ (odsBack rt cell).formula = [] then none
    else some (addrOf col row, odsBack rt cell)

def Placed.range (placed : Placed) (row col : UInt32) : Option Str :=
  if placed.spanned = true then
    some (addrOf col row ++ ':' :: addrOf (col + placed.cols - 1) (row + placed.rows - 1))
  else none

variable (rt) in
def Placed.read (row col : UInt32) (placed : Placed) (read : ReadTable) : ReadTable :=
  ((placed.entry rt row col).elim read.1 fun entry => read.1.insert entry.1 entry.2,
    read.2 ++ (placed.range row col).toList)

/-- The text between the tags of a cell. -/
def cellInner : Option Cell → Str
  | none => []
  | some cell => "<text:p>".toList ++ xmlEscape (displayOf cell) ++ "</text:p>".toList

theorem stripLoop_plain (s : Str) (opens : '<' ∉ s) (closes : '>' ∉ s) : stripLoop false s = s := by
  induction s with
  | nil => rfl
  | cons c s ih =>
      rw [List.mem_cons, not_or] at opens closes
      rw [stripLoop, if_neg (Ne.symm opens.1), if_neg (Ne.symm closes.1), ih opens.2 closes.2]
      rfl

theorem xmlUnescape_simple (s : Str) (simple : Simple s) : xmlUnescape s = s := by
  have same : xmlEscape s = s := by
    rw [xmlEscape_eq_self_iff]
    intro c member
    have plain := List.all_eq_true.mp simple c member
    by_contra code
    rw [Bool.not_eq_false] at code
    rcases special_cases c code with rfl | rfl | rfl | rfl
    · cases plain
    · cases plain
    · cases plain
    · cases plain
  have back := xmlUnescape_escape s
  rwa [same] at back

theorem extract_paragraph (display : Str) :
    extractTagText ("<text:p>".toList ++ xmlEscape display ++ "</text:p>".toList) "text:p".toList =
      some (xmlEscape display) := by
  have found := extractTagText_match "text:p".toList [] (xmlEscape display) [] (quiet_nil _)
    (not_mem_xmlEscape display '<' (Or.inl rfl))
  rw [← found]
  congr 1

variable (prints : rt.Prints) (placed : Placed)
  (sides : ∀ cell, placed.cell = some cell → Sides cell) (clean : Clean rt placed)

include prints sides clean

theorem odsValue_placed :
    odsValue (attrsXml (cellAttrs rt placed)) (cellInner placed.cell) =
      (placed.cell.map (shownValue rt)).getD [] := by
  unfold odsValue
  by_cases number : ∃ cell n, placed.cell = some cell ∧ rt.parse (displayOf cell) = some n
  · obtain ⟨cell, n, here, parsed⟩ := number
    have found := lookup_number prints placed sides cell here n parsed
    unfold valueName at found
    dsimp only
    rw [found, here]
    unfold shownValue
    simp [parsed, xmlUnescape_simple _ (prints.simple n), prints.shows n]
  · have text (cell : Cell) (here : placed.cell = some cell) : rt.parse
        (displayOf cell) = none := by
      by_contra parsed
      obtain ⟨n, some_⟩ := Option.ne_none_iff_exists'.mp parsed
      exact number ⟨cell, n, here, some_⟩
    obtain ⟨value, string⟩ := lookup_text prints placed sides clean text
    unfold valueName at value
    unfold stringValueName at string
    dsimp only
    rw [value, string]
    cases here : placed.cell with
    | none => rfl
    | some cell =>
        have strip : stripInnerTags (xmlEscape (displayOf cell)) = xmlEscape (displayOf cell) :=
          stripLoop_plain _ (not_mem_xmlEscape _ _ (by decide)) (not_mem_xmlEscape _ _ (by decide))
        unfold cellInner shownValue
        dsimp only [Option.map_some, Option.getD_some]
        rw [extract_paragraph, text cell here]
        simp [strip, xmlUnescape_escape]

omit clean in
theorem odsFormula_placed :
    ((odsAttrValue (attrsXml (cellAttrs rt placed)) "table:formula".toList).map
      normalizeOdsFormula).getD [] = (placed.cell.map fun cell => (odsBack rt cell).formula).getD
        [] := by
  by_cases filled : ∃ cell, placed.cell = some cell ∧ cell.formula ≠ []
  · obtain ⟨cell, here, filled⟩ := filled
    rw [lookup_formula prints placed sides cell here filled, here]
    unfold odsBack
    simp [filled]
  · have empty (cell : Cell) (here : placed.cell = some cell) : cell.formula = [] := by
      by_contra some_
      exact filled ⟨cell, here, some_⟩
    rw [lookup_formula_absent prints placed sides empty]
    cases here : placed.cell with
    | none => rfl
    | some cell =>
        unfold odsBack
        simp [empty cell here]

theorem spans_placed :
    (attrU32 (attrsXml (cellAttrs rt placed)) colsName).getD 1 =
        (if placed.spanned = true then placed.cols else 1) ∧
      (attrU32 (attrsXml (cellAttrs rt placed)) rowsName).getD 1 =
        (if placed.spanned = true then placed.rows else 1) := by
  unfold attrU32
  rw [lookup_cols prints placed sides clean, lookup_rows prints placed sides clean]
  by_cases spanned : placed.spanned = true
  · simp only [spanned, ↓reduceIte, Option.bind_some, parseU32_toDigits, Option.getD_some, and_self]
  · simp [spanned]

/-- What is read from the text of a placed cell. -/
theorem readTableCell_placed (row col : UInt32) (read : ReadTable) :
    readTableCell row col (attrsXml (cellAttrs rt placed)) (cellInner placed.cell) read =
      placed.read rt row col read := by
  obtain ⟨cols, rows⟩ := spans_placed prints placed sides clean
  unfold colsName at cols
  unfold rowsName at rows
  unfold readTableCell
  dsimp only
  rw [odsFormula_placed prints placed sides, odsValue_placed prints placed sides clean, cols, rows]
  unfold Placed.read Placed.entry Placed.range
  congr 1
  · cases placed.cell with
    | none => rfl
    | some cell =>
        change (if ¬ (odsBack rt cell).value.isEmpty = true ∨
          ¬ (odsBack rt cell).formula.isEmpty = true then _ else _) = _
        by_cases empty : (odsBack rt cell).value = [] ∧ (odsBack rt cell).formula = []
        · rw [if_neg (by simp [empty])]
          simp [empty]
        · have filled := not_and_or.mp empty
          rw [if_pos (by simpa using filled)]
          simp [empty]
          rfl
  · by_cases spanned : placed.spanned = true
    · have wide : placed.cols > 1 ∨ placed.rows > 1 := of_decide_eq_true spanned
      simp [spanned, wide]
    · simp [spanned]

end Contents

end Cells

section Rows

variable {rt : Runtime}

theorem not_mem_attrsXml (attrs : List (Str × Str)) (c : Char) (other : c ≠ '=' ∧ c ≠ '"')
    (absent : ∀ attr ∈ attrs, c ∉ attr.1 ∧ c ∉ attr.2) : c ∉ attrsXml attrs := by
  intro member
  obtain ⟨attr, listed, within⟩ := List.mem_flatMap.mp member
  obtain ⟨key, value⟩ := absent attr listed
  have quotes : c ∉ "=\"".toList := by simp [other]
  simp only [List.mem_append, List.mem_singleton] at within
  rcases within with ((inKey | quote) | inValue) | ends
  · exact key inKey
  · exact quotes quote
  · exact value inValue
  · exact other.2 ends

theorem getLast_attrsXml (attrs : List (Str × Str)) :
    attrs = [] ∨ ∃ front, attrsXml attrs = front ++ ['"'] := by
  rcases List.eq_nil_or_concat attrs with empty | ⟨front, last, shape⟩
  · exact Or.inl empty
  · refine Or.inr ⟨attrsXml front ++ (last.1 ++ "=\"".toList ++ last.2), ?_⟩
    rw [shape, List.concat_eq_append, attrsXml_append, attrsXml_cons, List.append_assoc]
    simp [attrsXml]

theorem trimEnd_attrsXml (attrs : List (Str × Str)) :
    trimEndMatches '/' (attrsXml attrs) = attrsXml attrs ∧
      trimEndMatches '/' (attrsXml attrs ++ ['/']) = attrsXml attrs := by
  have here : trimEndMatches '/' (attrsXml attrs) = attrsXml attrs := by
    rcases getLast_attrsXml attrs with rfl | ⟨front, shape⟩
    · rfl
    · rw [shape]
      unfold trimEndMatches
      rw [List.rdropWhile_concat_neg _ _ _ (by simp)]
  refine ⟨here, ?_⟩
  have slash :=
    List.rdropWhile_concat_pos (fun c : Char => decide (c = '/')) (attrsXml attrs) '/' (by simp)
  unfold trimEndMatches at here ⊢
  rw [slash, here]

variable (prints : rt.Prints) (placed : Placed)
  (sides : ∀ cell, placed.cell = some cell → Sides cell)

include prints sides

/-- The text of a cell has no match of a tag that clashes with those it has. -/
theorem quiet_cellXml (pattern : Str) (tag : Quiet ('<' :: pattern) cellTag)
    (opens : Quiet ('<' :: pattern) "<text:p>".toList)
    (closes : Quiet ('<' :: pattern) "</text:p>".toList) (ends : Quiet ('<' :: pattern) cellClose) :
    Quiet ('<' :: pattern) (cellXmlSpanned rt placed.cell placed.cols placed.rows) := by
  rw [cellXmlSpanned_eq]
  refine tag.append (Quiet.append ?_ ?_)
  · refine quiet_of_not_mem '<' pattern _ (not_mem_attrsXml _ '<' (by decide) ?_)
    exact fun attr member => (cellAttrs_clear prints placed sides attr member).2.2.2
  · cases placed.cell with
    | none => exact quiet_of_not_mem '<' pattern _ (by decide)
    | some cell =>
        refine Quiet.append (quiet_of_not_mem '<' pattern ['>'] (by decide)) ?_
        refine ((opens.append ?_).append closes).append ends
        exact quiet_escaped pattern (displayOf cell)

omit prints sides in
theorem head_cellAttrs (rest : Str) :
    ((attrsXml (cellAttrs rt placed) ++ (cellRest placed.cell ++ rest)).head?.any fun c =>
      " \n\t\r>/".toList.contains c) = true := by
  have blank (attr : Str × Str) (attrs : List (Str × Str)) (first : attr.1.head? = some ' ')
      (more : Str) : ((attrsXml (attr :: attrs) ++ more).head?.any fun c =>
        " \n\t\r>/".toList.contains c) = true := by
    obtain ⟨key, value⟩ := attr
    cases key with
    | nil => cases first
    | cons c key =>
        cases first
        rw [attrsXml_cons]
        rfl
  unfold cellAttrs
  cases placed.cell with
  | none =>
      unfold ownAttrs spanPairs
      rw [List.nil_append]
      split
      · exact blank _ _ rfl _
      · rfl
  | some cell => exact blank _ _ rfl _

theorem splitOnce_cellRest (rest : Str) :
    ∃ tag inside,
      splitOnce ['>'] (attrsXml (cellAttrs rt placed) ++ (cellRest placed.cell ++ rest)) =
        some (tag, inside) ∧ trimEndMatches '/' tag = attrsXml (cellAttrs rt placed) ∧
      (placed.cell = none ∧ tag.getLast? = some '/' ∧ inside = rest ∨
        placed.cell ≠ none ∧ tag.getLast? ≠ some '/' ∧
          inside = cellInner placed.cell ++ (cellClose ++ rest)) := by
  have quiet : Quiet ['>'] (attrsXml (cellAttrs rt placed)) := by
    refine quiet_of_not_mem '>' [] _ (not_mem_attrsXml _ '>' (by decide) ?_)
    exact fun attr member => (cellAttrs_clear prints placed sides attr member).2.2.1
  obtain ⟨trimmed, slashed⟩ := trimEnd_attrsXml (cellAttrs rt placed)
  cases here : placed.cell with
  | none =>
      refine ⟨attrsXml (cellAttrs rt placed) ++ ['/'], rest, ?_, slashed,
        Or.inl ⟨rfl, List.getLast?_append_of_ne_nil _ (by simp), rfl⟩⟩
      have slash : Quiet ['>'] (attrsXml (cellAttrs rt placed) ++ ['/']) :=
        quiet.append (quiet_of_not_mem '>' [] ['/'] (by decide))
      have found := splitOnce_quiet_match ['>'] _ rest (by simp) slash
      rw [← found, List.append_assoc]
      rfl
  | some cell =>
      refine ⟨attrsXml (cellAttrs rt placed), cellInner (some cell) ++ (cellClose ++ rest), ?_,
        trimmed,
        Or.inr ⟨by simp, ?_, rfl⟩⟩
      · have found := splitOnce_quiet_match ['>'] _ (cellInner (some cell) ++ (cellClose ++ rest))
          (by simp) quiet
        rw [← found]
        unfold cellRest cellInner
        simp
      · rcases getLast_attrsXml (cellAttrs rt placed) with empty | ⟨front, shape⟩
        · unfold cellAttrs ownAttrs frontAttrs at empty
          rw [here] at empty
          cases empty
        · rw [shape, List.getLast?_append_of_ne_nil _ (by simp)]
          decide

omit prints sides in
theorem quiet_cellInner (cell : Option Cell) : Quiet cellClose (cellInner cell) := by
  cases cell with
  | none => exact quiet_nil _
  | some cell =>
      refine (Quiet.append (quiet_of_tails _ _ (by decide)) ?_).append
        (quiet_of_tails _ _ (by decide))
      exact quiet_escaped "/table:table-cell>".toList (displayOf cell)

variable (clean : Clean rt placed)

include clean

/-- One round of the reader takes the text of a cell and counts one column. -/
theorem rowCellsLoop_placed (row col : UInt32) (fuel : Nat) (rest : Str) (read : ReadTable)
    (uncovered : splitOnce coveredTag
      (cellXmlSpanned rt placed.cell placed.cols placed.rows ++ rest) = none) :
    rowCellsLoop row (fuel + 1) (cellXmlSpanned rt placed.cell placed.cols placed.rows ++ rest) col
      read =
        rowCellsLoop row fuel rest (col + 1) (placed.read rt row col read) := by
  have opened : nextCell (cellXmlSpanned rt placed.cell placed.cols placed.rows ++ rest) =
      some (false, attrsXml (cellAttrs rt placed) ++ (cellRest placed.cell ++ rest)) := by
    unfold nextCell
    rw [uncovered, cellXmlSpanned_eq, List.append_assoc, List.append_assoc,
      splitOnce_match cellTag _ (by decide)]
  obtain ⟨tag, inside, split, attrs, ends⟩ := splitOnce_cellRest prints placed sides rest
  have repeated := lookup_repeated prints placed sides clean
  unfold repeatedName at repeated
  have one :
      (attrU32 (attrsXml (cellAttrs rt placed)) "table:number-columns-repeated".toList).getD 1 =
      1 := by
    unfold attrU32
    rw [repeated]
    rfl
  rw [rowCellsLoop, opened]
  dsimp only
  rw [if_neg (not_not.mpr (head_cellAttrs placed rest)), split]
  dsimp only
  rw [attrs, one]
  rcases ends with ⟨none_, slash, after⟩ | ⟨some_, open_, after⟩
  · have inner : cellInner placed.cell = [] := by rw [none_]; rfl
    simp only [slash, after, true_or, ↓reduceIte, Bool.false_eq_true]
    rw [← inner, readTableCell_placed prints placed sides clean]
  · have closed := splitOnce_quiet_match cellClose (cellInner placed.cell) rest (by decide)
      (quiet_cellInner placed.cell)
    simp only [open_, after, closed, Bool.false_eq_true, or_self, ↓reduceIte, Option.map_some,
      Option.getD_some]
    rw [readTableCell_placed prints placed sides clean]

end Rows

section Tables

variable {rt : Runtime}

variable (rt) in
/-- A cell that the reader reads as it was placed, up to its column. -/
structure ReadablePlace (placed : Placed) : Prop where
  sides : ∀ cell, placed.cell = some cell → Sides cell
  clean : Clean rt placed

variable (rt) in
/-- The columns are counted from the cells that are there. -/
def readPlaced (row : UInt32) : List Placed → UInt32 → ReadTable → ReadTable
  | [], _, read => read
  | placed :: rest, col, read => readPlaced row rest (col + 1) (placed.read rt row col read)

variable (rt) in
def readRows : List (List Placed) → UInt32 → ReadTable → ReadTable
  | [], _, read => read
  | placed :: rows, row, read => readRows rows (row + 1) (readPlaced rt row placed 1 read)

variable (prints : rt.Prints)

include prints

theorem quiet_placedXml (pattern : Str) (placed : List Placed)
    (readable : ∀ p ∈ placed, ReadablePlace rt p) (tag : Quiet ('<' :: pattern) cellTag)
    (opens : Quiet ('<' :: pattern) "<text:p>".toList)
    (closes : Quiet ('<' :: pattern) "</text:p>".toList) (ends : Quiet ('<' :: pattern) cellClose) :
    Quiet ('<' :: pattern) (placedXml rt placed) := by
  induction placed with
  | nil => exact quiet_nil _
  | cons p placed ih =>
      rw [List.forall_mem_cons] at readable
      unfold placedXml
      rw [List.flatMap_cons]
      exact (quiet_cellXml prints p readable.1.sides pattern tag opens closes ends).append
        (ih readable.2)

theorem rowCellsLoop_row (row : UInt32) (placed : List Placed)
    (readable : ∀ p ∈ placed, ReadablePlace rt p) (fuel : Nat) (col : UInt32) (read : ReadTable)
    (enough : (placedXml rt placed).length ≤ fuel) :
    rowCellsLoop row fuel (placedXml rt placed) col read = readPlaced rt row placed col read := by
  induction placed generalizing fuel col read with
  | nil =>
      cases fuel with
      | zero => rfl
      | succ fuel => rfl
  | cons p placed ih =>
      have covered : splitOnce coveredTag (placedXml rt (p :: placed)) = none :=
        splitOnce_quiet coveredTag _ (by decide) (quiet_placedXml prints _ (p :: placed) readable
          (quiet_of_tails _ _ (by decide)) (quiet_of_tails _ _ (by decide))
          (quiet_of_tails _ _ (by decide)) (quiet_of_tails _ _ (by decide)))
      have shape : placedXml rt (p :: placed) =
          cellXmlSpanned rt p.cell p.cols p.rows ++ placedXml rt placed := by
        unfold placedXml
        rw [List.flatMap_cons]
      have long : 0 < (cellXmlSpanned rt p.cell p.cols p.rows).length := by
        rw [cellXmlSpanned_eq, List.length_append]
        have : cellTag.length = 17 := by decide
        omega
      rw [List.forall_mem_cons] at readable
      rw [shape] at covered enough ⊢
      rw [List.length_append] at enough
      obtain ⟨fuel, rfl⟩ : ∃ n, fuel = n + 1 := ⟨fuel - 1, by omega⟩
      rw [rowCellsLoop_placed prints p readable.1.sides readable.1.clean row col fuel _ read
        covered]
      exact ih readable.2 fuel _ _ (by omega)

theorem tableBodyLoop_rows (rows : List (List Placed))
    (readable : ∀ placed ∈ rows, ∀ p ∈ placed, ReadablePlace rt p) (front tail : Str)
    (quietFront : Quiet rowTag front) (quietTail : Quiet rowTag tail) (fuel : Nat) (row : UInt32)
    (read : ReadTable) (enough : (rows.flatMap (odsRowXml rt)).length ≤ fuel) :
    tableBodyLoop fuel (front ++ (rows.flatMap (odsRowXml rt) ++ tail)) row read =
      readRows rt rows row read := by
  induction rows generalizing front fuel row read with
  | nil =>
      have none_ : splitOnce rowTag (front ++ tail) = none :=
        splitOnce_quiet rowTag _ (by decide) (quietFront.append quietTail)
      cases fuel with
      | zero => rfl
      | succ fuel =>
          rw [List.flatMap_nil, List.nil_append, tableBodyLoop, none_]
          rfl
  | cons placed rows ih =>
      rw [List.forall_mem_cons] at readable
      have shape : front ++ ((placed :: rows).flatMap (odsRowXml rt) ++ tail) =
          front ++ (rowTag ++ ('>' :: (placedXml rt placed ++
            (rowClose ++ (rows.flatMap (odsRowXml rt) ++ tail))))) := by
        have opens : "<table:table-row>".toList = rowTag ++ ['>'] := by decide
        rw [List.flatMap_cons]
        unfold odsRowXml rowClose
        rw [opens]
        simp
      have long : (odsRowXml rt placed).length = 35 + (placedXml rt placed).length := by
        have opens : "<table:table-row>".toList.length = 17 := by decide
        have closes : "</table:table-row>".toList.length = 18 := by decide
        unfold odsRowXml
        rw [List.length_append, List.length_append, opens, closes]
        omega
      have found := splitOnce_quiet_match rowTag front ('>' :: (placedXml rt placed ++
        (rowClose ++ (rows.flatMap (odsRowXml rt) ++ tail)))) (by decide) quietFront
      have tagEnd : splitOnce ['>'] ('>' :: (placedXml rt placed ++
          (rowClose ++ (rows.flatMap (odsRowXml rt) ++ tail)))) =
            some ([], placedXml rt placed ++ (rowClose ++ (rows.flatMap (odsRowXml rt) ++ tail))) :=
        splitOnce_match ['>'] _ (by simp)
      have closed := splitOnce_quiet_match rowClose (placedXml rt placed)
        (rows.flatMap (odsRowXml rt) ++ tail) (by decide)
        (quiet_placedXml prints _ placed readable.1 (quiet_of_tails _ _ (by decide))
          (quiet_of_tails _ _ (by decide)) (quiet_of_tails _ _ (by decide))
          (quiet_of_tails _ _ (by decide)))
      have once : (attrU32 [] "table:number-rows-repeated".toList).getD 1 = 1 := by decide
      rw [List.flatMap_cons, List.length_append] at enough
      obtain ⟨fuel, rfl⟩ : ∃ n, fuel = n + 1 := ⟨fuel - 1, by omega⟩
      rw [shape, tableBodyLoop, found]
      dsimp only
      rw [tagEnd]
      dsimp only
      rw [closed, once]
      simp only [List.getLast?_nil, reduceCtorEq, ↓reduceIte, Option.map_some, Option.getD_some]
      have rest := ih readable.2 [] (quiet_nil _) fuel (row + 1)
        (parseRowCells (placedXml rt placed) row read) (by omega)
      rw [List.nil_append] at rest
      have one : (List.range (1 : UInt32).toNat).foldl (fun read off =>
          parseRowCells (placedXml rt placed) (row + UInt32.ofNat off) read) read =
            parseRowCells (placedXml rt placed) row read := by
        change parseRowCells (placedXml rt placed) (row + 0) read = _
        rw [UInt32.add_zero]
      have cells : parseRowCells (placedXml rt placed) row read = readPlaced rt row placed 1 read :=
        rowCellsLoop_row prints row placed readable.1 _ _ _ (Nat.le_refl _)
      rw [one, rest, cells]
      rfl

variable (rt) in
/-- A tab as it is read, given the rows that were written. -/
def readTable (name : Str) (rows : List (List Placed)) : SheetTab :=
  let read := readRows rt rows 1 (∅, [])
  { name := name, cells := read.1, merges := read.2 }

variable (rt) in
def tableText (name : Str) (rows : List (List Placed)) : Str :=
  "      <table:table table:name=\"".toList ++ xmlEscape name ++ "\">\n".toList ++
    rows.flatMap (odsRowXml rt) ++ "\n      </table:table>\n".toList

theorem quiet_rows (rows : List (List Placed))
    (readable : ∀ placed ∈ rows, ∀ p ∈ placed, ReadablePlace rt p) :
    Quiet tableClose (rows.flatMap (odsRowXml rt)) := by
  induction rows with
  | nil => exact quiet_nil _
  | cons placed rows ih =>
      rw [List.forall_mem_cons] at readable
      rw [List.flatMap_cons]
      refine Quiet.append ?_ (ih readable.2)
      unfold odsRowXml
      refine (Quiet.append (quiet_of_tails _ _ (by decide)) ?_).append
        (quiet_of_tails _ _ (by decide))
      exact quiet_placedXml prints _ placed readable.1 (quiet_of_tails _ _ (by decide))
        (quiet_of_tails _ _ (by decide)) (quiet_of_tails _ _ (by decide))
        (quiet_of_tails _ _ (by decide))

theorem parseTableBody_rows (rows : List (List Placed))
    (readable : ∀ placed ∈ rows, ∀ p ∈ placed, ReadablePlace rt p) :
    parseTableBody ("\n".toList ++ (rows.flatMap (odsRowXml rt) ++ "\n      ".toList)) =
      readRows rt rows 1 (∅, []) := by
  unfold parseTableBody
  refine tableBodyLoop_rows prints rows readable _ _ (quiet_of_not_mem '<' _ _ (by decide))
    (quiet_of_not_mem '<' _ _ (by decide)) _ 1 (∅, []) ?_
  rw [List.length_append, List.length_append]
  omega

/-- The tabs that are read from the text of tables. -/
theorem odsTablesLoop_tables (tables : List (Str × List (List Placed)))
    (readable : ∀ table ∈ tables, ∀ placed ∈ table.2, ∀ p ∈ placed, ReadablePlace rt p)
    (front tail : Str) (quietFront : Quiet tableTag front) (quietTail : Quiet tableTag tail)
    (fuel : Nat) (tabs : List SheetTab)
    (enough : (tables.flatMap fun table => tableText rt table.1 table.2).length ≤ fuel) :
    odsTablesLoop fuel
        (front ++ (tables.flatMap (fun table => tableText rt table.1 table.2) ++ tail)) tabs =
      tabs ++ tables.map fun table => readTable rt table.1 table.2 := by
  induction tables generalizing front fuel tabs with
  | nil =>
      have none_ : splitOnce tableTag (front ++ tail) = none :=
        splitOnce_quiet tableTag _ (by decide) (quietFront.append quietTail)
      rw [List.flatMap_nil, List.nil_append, List.map_nil, List.append_nil]
      cases fuel with
      | zero => rfl
      | succ fuel => rw [odsTablesLoop, none_]
  | cons table tables ih =>
      obtain ⟨name, rows⟩ := table
      rw [List.forall_mem_cons] at readable
      -- The pieces at which the reader stops, in their order.
      have shape (more : Str) : front ++ (tableText rt name rows ++ more) =
          (front ++ "      ".toList) ++
            (tableTag ++ (attrsXml [(" table:name".toList, xmlEscape name)] ++
            ('>' :: (("\n".toList ++ (rows.flatMap (odsRowXml rt) ++ "\n      ".toList)) ++
              (tableClose ++ ("\n".toList ++ more)))))) := by
        have opens : "      <table:table table:name=\"".toList =
            "      ".toList ++ (tableTag ++ (" table:name".toList ++ "=\"".toList)) := by decide
        have middle : "\">\n".toList = '"' :: '>' :: "\n".toList := by decide
        have closes : "\n      </table:table>\n".toList =
            "\n      ".toList ++ (tableClose ++ "\n".toList) := by decide
        unfold tableText
        rw [opens, middle, closes, attrsXml_cons]
        simp only [attrsXml, List.flatMap_nil, List.append_assoc, List.cons_append, List.nil_append,
          List.append_nil]
      have long : 12 < (tableText rt name rows).length := by
        have opens : "      <table:table table:name=\"".toList.length = 31 := by decide
        unfold tableText
        simp only [List.length_append, opens]
        omega
      have clear : '>' ∉ attrsXml [(" table:name".toList, xmlEscape name)] := by
        refine not_mem_attrsXml _ '>' (by decide) ?_
        intro attr member
        rw [List.mem_singleton.mp member]
        exact ⟨by dsimp only; decide, not_mem_xmlEscape _ _ (by decide)⟩
      have named : odsAttrValue (attrsXml [(" table:name".toList, xmlEscape name)])
          "table:name".toList = some (xmlEscape name) := by
        have found := odsAttrValue_found "table:name".toList (by decide) [] " table:name".toList
          (xmlEscape name) [] (by simp) (by decide) (not_mem_xmlEscape _ _ (by decide)) (by simp)
          (by decide)
        rw [← found, attrsXml_cons]
        rfl
      have quietBody : Quiet tableClose
          ("\n".toList ++ (rows.flatMap (odsRowXml rt) ++ "\n      ".toList)) :=
        Quiet.append (quiet_of_not_mem '<' _ _ (by decide))
          ((quiet_rows prints rows readable.1).append (quiet_of_not_mem '<' _ _ (by decide)))
      have tagEnd (more : Str) : splitOnce ['>']
          (attrsXml [(" table:name".toList, xmlEscape name)] ++ '>' :: more) =
            some (attrsXml [(" table:name".toList, xmlEscape name)], more) :=
        splitOnce_quiet_match ['>'] _ more (by simp) (quiet_of_not_mem '>' [] _ clear)
      rw [List.flatMap_cons, List.length_append] at enough
      dsimp only at enough
      obtain ⟨fuel, rfl⟩ : ∃ n, fuel = n + 1 := ⟨fuel - 1, by omega⟩
      rw [List.flatMap_cons, List.append_assoc, shape, odsTablesLoop,
        splitOnce_quiet_match tableTag _ _ (by decide)
          (quietFront.append (quiet_of_not_mem '<' _ _ (by decide)))]
      dsimp only
      rw [if_neg (by rw [attrsXml_cons]; simp), tagEnd]
      dsimp only
      rw [splitOnce_quiet_match tableClose _ _ (by decide) quietBody]
      dsimp only
      rw [named, parseTableBody_rows prints rows readable.1, Option.some_or, Option.getD_some,
        xmlUnescape_escape]
      have rest := ih readable.2 "\n".toList (quiet_of_not_mem '<' _ _ (by decide)) fuel
        (tabs ++ [readTable rt name rows]) (by omega)
      rw [List.append_assoc, List.singleton_append] at rest
      rw [List.map_cons]
      exact rest

end Tables

end EraOne.Tables
