import EraOne.DocxSpans

set_option autoImplicit false

/- What the import makes of the events of an exported paragraph. -/
namespace EraOne.Docs

open Xml

variable (xml : Xml.Reader) (newId : Nat → Str)

theorem importEvents_cons (st : ImportState) (e : Event) (events : List Event) :
    importEvents xml newId st (e :: events) = importEvents xml newId
      (importEvent xml newId st e) events := rfl

theorem importEvents_append (st : ImportState) (front back : List Event) :
    importEvents xml newId st (front ++ back) = importEvents xml newId
      (importEvents xml newId st front) back := List.foldl_append

/-- The elements that the import looks at. -/
def knownNames : List Str :=
  ["body", "p", "pStyle", "numPr", "ilvl", "numId", "r", "b", "i", "u", "strike", "br", "t", "tbl",
    "drawing"].map String.toList

theorem onStart_other (st : ImportState) (name : Str) (attrs : List (Str × Str))
    (other : localName name ∉ knownNames) :
    onStart newId st name attrs = st := by
  unfold onStart
  generalize localName name = short at other
  simp only [knownNames, List.map_cons, List.map_nil, List.mem_cons, not_or] at other
  simp only [other, and_false, or_false, if_false]

theorem onEnd_other (st : ImportState) (name : Str)
    (other : localName name ∉ ["t".toList, "r".toList, "p".toList]) : onEnd st name = st := by
  unfold onEnd
  generalize localName name = short at other
  simp only [List.mem_cons, not_or] at other
  simp only [other, false_and, if_false]

theorem onStart_body (st : ImportState) :
    onStart newId st (w "body") [] = { st with inBody := true } := by
  have name : localName (w "body") = "body".toList := by decide
  unfold onStart
  rw [name]
  simp

theorem onStart_p (st : ImportState) (body : st.inBody = true) :
    onStart newId st (w "p") [] =
      { st with
        inP := true, pStyle := none, listType := none, listLevel := 0
        currentBlock := some (openedBlock (newId st.drawn)), drawn := st.drawn + 1 } := by
  have name : localName (w "p") = "p".toList := by decide
  unfold onStart
  rw [name]
  simp [body]

theorem attrNamed_val (val : Str) : attrNamed [(w "val", val)] "val" = [val] := by
  have name : localName (w "val") = "val".toList := by decide
  unfold attrNamed
  simp [name]

theorem onStart_pStyle (st : ImportState) (val : Str) (paragraph : st.inP = true) :
    onStart newId st (w "pStyle") [(w "val", val)] = { st with pStyle := some val } := by
  have name : localName (w "pStyle") = "pStyle".toList := by decide
  unfold onStart
  rw [name, attrNamed_val]
  simp [paragraph]

theorem onStart_numPr (st : ImportState) (paragraph : st.inP = true) :
    onStart newId st (w "numPr") [] = { st with listType := some .bullet } := by
  have name : localName (w "numPr") = "numPr".toList := by decide
  unfold onStart
  rw [name]
  simp [paragraph]

theorem onStart_ilvl (st : ImportState) (val : Str) (paragraph : st.inP = true) :
    onStart newId st (w "ilvl")
      [(w "val", val)] = { st with listLevel := (Scan.parseU32 val).getD 0 } := by
  have name : localName (w "ilvl") = "ilvl".toList := by decide
  unfold onStart
  rw [name, attrNamed_val]
  simp [paragraph]

theorem onStart_numId (st : ImportState) (val : Str) (paragraph : st.inP = true) :
    onStart newId st (w "numId") [(w "val", val)] =
      { st with listType := if val = "1".toList then some .ordered else st.listType } := by
  have name : localName (w "numId") = "numId".toList := by decide
  unfold onStart
  rw [name, attrNamed_val]
  simp [paragraph]

theorem onStart_r (st : ImportState) (paragraph : st.inP = true) :
    onStart newId st (w "r") [] = { st with inR := true, marks := {} } := by
  have name : localName (w "r") = "r".toList := by decide
  unfold onStart
  rw [name]
  simp [paragraph]

theorem onStart_t (st : ImportState) (attrs : List (Str × Str)) (run : st.inR = true) :
    onStart newId st (w "t") attrs = { st with inT := true } := by
  have name : localName (w "t") = "t".toList := by decide
  unfold onStart
  rw [name]
  simp [run]

theorem onEnd_t (st : ImportState) : onEnd st (w "t") = { st with inT := false } := by
  have name : localName (w "t") = "t".toList := by decide
  unfold onEnd
  rw [name]
  simp

theorem onEnd_r (st : ImportState) : onEnd st (w "r") = { st with inR := false } := by
  have name : localName (w "r") = "r".toList := by decide
  unfold onEnd
  rw [name]
  simp

theorem onEnd_p (st : ImportState) (block : Block) (paragraph : st.inP = true)
    (current : st.currentBlock = some block) :
    onEnd st
      (w "p") =
        { st with
          inP := false, currentBlock := none, blocks := st.blocks ++ [closedBlock st block] } := by
  have name : localName (w "p") = "p".toList := by decide
  unfold onEnd
  rw [name]
  simp [paragraph, current]

/-! ### Runs -/

theorem import_optional (flag : Bool) (e : Event) (st : ImportState) :
    importEvents xml newId st (if flag then [e] else []) = if flag then importEvent xml newId st e
      else st := by
  cases flag with
  | true => rfl
  | false => rfl

theorem onText_onText (st : ImportState) (a b : Str) :
    onText (onText st a) b = onText st (a ++ b) := by
  unfold onText
  by_cases text : st.inT = true
  · rw [if_pos text, if_pos text, if_pos text]
    dsimp only
    rw [Option.map_map]
    congr 1
    cases st.currentBlock with
    | none => rfl
    | some block =>
        rw [Option.map_some, Option.map_some, Function.comp_apply, pushRunText_append]
  · rw [if_neg text, if_neg text, if_neg text]

theorem onText_nil (st : ImportState) : onText st [] = st := by
  unfold onText
  split
  · cases st with
    | mk inBody inP inR inT marks currentBlock pStyle listType listLevel blocks
      legacyFeaturesDropped drawn =>
        cases currentBlock with
        | none => rfl
        | some block => rfl
  · rfl

theorem resolveGeneralRef_named :
    resolveGeneralRef xml "amp".toList = ['&'] ∧ resolveGeneralRef xml "lt".toList = ['<'] := by
  have amp := xml.named "amp".toList (by decide)
  have lt := xml.named "lt".toList (by decide)
  unfold resolveGeneralRef
  rw [amp, lt]
  exact ⟨by decide, by decide⟩

/-- The pieces of a text are taken as the text. -/
theorem import_textEvents (st : ImportState) (s : Str) :
    importEvents xml newId st (textEvents s) = onText st s := by
  induction s generalizing st with
  | nil => exact (onText_nil st).symm
  | cons c s ih =>
      have names := resolveGeneralRef_named xml
      have joined : importEvents xml newId (onText st [c]) (textEvents s) = onText st (c :: s) := by
        rw [ih, onText_onText, List.singleton_append]
      rw [textEvents]
      by_cases amp : c = '&'
      · rw [if_pos amp, importEvents_cons, importEvent, names.1, ← amp]
        exact joined
      · by_cases lt : c = '<'
        · rw [if_neg amp, if_pos lt, importEvents_cons, importEvent, names.2, ← lt]
          exact joined
        · rw [if_neg amp, if_neg lt]
          split
          · rename_i chars rest shape
            rw [shape, importEvents_cons, importEvent, onText_onText,
              List.singleton_append] at joined
            rw [importEvents_cons, importEvent]
            exact joined
          · rw [importEvents_cons, importEvent]
            exact joined

/-! ### A span -/

theorem onStart_b (st : ImportState) (run : st.inR = true) :
    onStart newId st (w "b") [] = { st with marks := { st.marks with bold := true } } := by
  have name : localName (w "b") = "b".toList := by decide
  unfold onStart
  rw [name]
  simp [run]

theorem onStart_i (st : ImportState) (run : st.inR = true) :
    onStart newId st (w "i") [] = { st with marks := { st.marks with italic := true } } := by
  have name : localName (w "i") = "i".toList := by decide
  unfold onStart
  rw [name]
  simp [run]

theorem onStart_u (st : ImportState) (attrs : List (Str × Str)) (run : st.inR = true) :
    onStart newId st (w "u") attrs = { st with marks := { st.marks with underline := true } } := by
  have name : localName (w "u") = "u".toList := by decide
  unfold onStart
  rw [name]
  simp [run]

theorem onStart_strike (st : ImportState) (run : st.inR = true) :
    onStart newId st (w "strike") [] = { st with marks := { st.marks with strike := true } } := by
  have name : localName (w "strike") = "strike".toList := by decide
  unfold onStart
  rw [name]
  simp [run]

theorem import_markEvents (st : ImportState) (span : InlineSpan) (run : st.inR = true)
    (fresh : st.marks = {}) :
    importEvents xml newId st (markEvents span) = { st with marks := runMarks span } := by
  have shape : st = { st with marks := {} } := by rw [← fresh]
  rw [markEvents, importEvents_append, importEvents_append, importEvents_append, import_optional,
    import_optional, import_optional, import_optional, shape]
  unfold runMarks
  cases span.bold <;> cases span.italic <;> cases span.underline <;> cases span.strike <;>
    simp [importEvent, onStart_b, onStart_i, onStart_u, onStart_strike, run]

theorem hasRunProps_plain (span : InlineSpan) (plain : PlainSpan span)
    (bare : hasRunProps span = false) : runMarks span = {} := by
  unfold hasRunProps at bare
  rw [plain.superscript, plain.subscript, plain.fontFamily, plain.fontSizePt, plain.color,
    plain.highlight] at bare
  unfold runMarks
  simp_all

theorem import_runPropsEvents (st : ImportState) (span : InlineSpan) (plain : PlainSpan span)
    (run : st.inR = true) (fresh : st.marks = {}) :
    importEvents xml newId st (runPropsEvents span) = { st with marks := runMarks span } := by
  unfold runPropsEvents
  cases props : hasRunProps span with
  | false =>
      rw [if_neg Bool.false_ne_true, hasRunProps_plain span plain props, ← fresh]
      rfl
  | true =>
      rw [if_pos rfl, importEvents_cons, importEvents_append, importEvent,
        onStart_other newId st (w "rPr") [] (by decide),
        import_markEvents xml newId st span run fresh, importEvents_cons, importEvent,
        onEnd_other _ (w "rPr") (by decide)]
      rfl

/-- A span is taken into the block as coalescing takes it. -/
theorem import_spanEvents (st : ImportState) (span : InlineSpan) (plain : PlainSpan span)
    (paragraph : st.inP = true) (text : st.inT = false) :
    importEvents xml newId st (spanEvents span) =
      { st with
        inR := false, marks := runMarks span
        currentBlock := st.currentBlock.map fun block =>
          { block with inlines := coalesceStep block.inlines span } } := by
  unfold spanEvents
  rw [importEvents_cons, importEvent, onStart_r newId st paragraph, importEvents_append,
    import_runPropsEvents xml newId _ span plain rfl rfl, importEvents_cons, importEvent,
    onStart_t newId _ _ rfl, importEvents_append, import_textEvents, importEvents_cons, importEvent,
    onEnd_t, importEvents_cons, importEvent, onEnd_r, onText, if_pos rfl]
  dsimp only
  rw [importEvents, List.foldl_nil, ← text]
  congr 1
  cases st.currentBlock with
  | none => rfl
  | some block => rw [Option.map_some, Option.map_some, pushRunText_plain _ span plain]

/-! ### A paragraph -/

theorem import_inlineEvents (st : ImportState) (inlines : List InlineSpan)
    (plain : ∀ span ∈ inlines, PlainSpan span) (paragraph : st.inP = true) (run : st.inR = false)
    (text : st.inT = false) :
    ∃ marks, importEvents xml newId st (inlineEvents inlines) =
      { st with
        marks := marks
        currentBlock := st.currentBlock.map fun block =>
          { block with inlines := inlines.foldl coalesceStep block.inlines } } := by
  have spans : ∀ (l : List InlineSpan) (st : ImportState), (∀ span ∈ l, PlainSpan span) →
      st.inP = true → st.inR = false → st.inT = false →
      ∃ marks, importEvents xml newId st (l.flatMap spanEvents) =
        { st with
          marks := marks
          currentBlock := st.currentBlock.map fun block =>
            { block with inlines := l.foldl coalesceStep block.inlines } } := by
    intro l
    induction l with
    | nil =>
        intro st _ _ _ _
        exact ⟨st.marks, by simp [importEvents]⟩
    | cons span l ih =>
        intro st plain paragraph run text
        have first :=
          import_spanEvents xml newId st span (plain span List.mem_cons_self) paragraph text
        obtain ⟨marks, rest⟩ := ih (importEvents xml newId st (spanEvents span))
          (fun other member => plain other (List.mem_cons_of_mem _ member))
            (by rw [first]; exact paragraph) (by rw [first])
          (by rw [first]; exact text)
        refine ⟨marks, ?_⟩
        rw [List.flatMap_cons, importEvents_append, rest, first]
        dsimp only
        rw [Option.map_map, ← run]
        rfl
  unfold inlineEvents
  split
  · rename_i empty
    rw [List.isEmpty_iff.mp empty]
    refine ⟨{}, ?_⟩
    rw [importEvents_cons, importEvent, onStart_r newId st paragraph, importEvents_cons,
      importEvent, onStart_t newId _ _ rfl, importEvents_cons, importEvent, onEnd_t,
      importEvents_cons, importEvent, onEnd_r, importEvents, List.foldl_nil]
    simp [run, text]
  · exact spans inlines st plain paragraph run text

/-- What the properties of a paragraph say of its style. -/
def readStyle (block : Block) : Option Str :=
  if block.blockType = .heading then some (headingStyle block) else none

def readListType (block : Block) : Option ListType :=
  if block.blockType = .listItem then
    some (if block.listType = some .ordered then .ordered else .bullet) else none

def readListLevel (block : Block) : UInt32 :=
  if block.blockType = .listItem then (Scan.parseU32 (decimal (min block.listLevel.toNat 8))).getD 0
    else 0

theorem import_kindEvents (st : ImportState) (block : Block) (paragraph : st.inP = true)
    (style : st.pStyle = none) (listType : st.listType = none) (listLevel : st.listLevel = 0) :
    importEvents xml newId st (kindEvents block) =
      { st with
        pStyle := readStyle block, listType := readListType block,
        listLevel := readListLevel block } := by
  have same : st = { st with pStyle := none, listType := none, listLevel := 0 } := by
    rw [← style, ← listType, ← listLevel]
  unfold kindEvents readStyle readListType readListLevel
  cases block.blockType with
  | heading =>
      dsimp only
      rw [importEvents_cons, valEvent, importEvent, onStart_pStyle newId st _ paragraph, if_pos rfl,
        if_neg (by decide), if_neg (by decide),
        ← listType, ← listLevel]
      rfl
  | listItem =>
      have level := onStart_ilvl newId { st with listType := some .bullet }
        (decimal (min block.listLevel.toNat 8)) paragraph
      have number := onStart_numId newId
        { st with
          listType := some .bullet,
          listLevel := (Scan.parseU32 (decimal (min block.listLevel.toNat 8))).getD 0 }
        (decimal (if block.listType = some .ordered then 1 else 2)) paragraph
      have chosen :
          (if decimal (if block.listType = some .ordered then 1 else 2) = "1".toList then
            some ListType.ordered else some .bullet) =
          some (if block.listType = some .ordered then .ordered else .bullet) := by
        split
        · rfl
        · rfl
      dsimp only
      rw [importEvents_cons, importEvent, onStart_numPr newId st paragraph, importEvents_cons,
        valEvent, importEvent, level, importEvents_cons, valEvent, importEvent, number,
        importEvents_cons, importEvent, onEnd_other _ (w "numPr") (by decide)]
      dsimp only
      rw [chosen, style]
      rfl
  | _ => exact same

/-- Nothing else of the properties is read. -/
theorem import_propsEvents (st : ImportState) (block : Block) (paragraph : st.inP = true)
    (style : st.pStyle = none) (listType : st.listType = none) (listLevel : st.listLevel = 0) :
    importEvents xml newId st (propsEvents block) =
      { st with
        pStyle := readStyle block, listType := readListType block,
        listLevel := readListLevel block } := by
  have align (st : ImportState) : importEvents xml newId st (alignEvents block) = st := by
    unfold alignEvents
    split
    · exact onStart_other newId st (w "jc") _ (by decide)
    · rfl
  have indent (st : ImportState) : importEvents xml newId st (indentEvents block) = st := by
    unfold indentEvents
    split
    · exact onStart_other newId st (w "ind") _ (by decide)
    · rfl
  have spacing (st : ImportState) : importEvents xml newId st (spacingEvents block) = st := by
    unfold spacingEvents
    split
    · exact onStart_other newId st (w "spacing") _ (by decide)
    · rfl
  rw [propsEvents, importEvents_append, importEvents_append, importEvents_append, align, indent,
    spacing, import_kindEvents xml newId st block paragraph style listType listLevel]

theorem import_pPrEvents (st : ImportState) (block : Block) (paragraph : st.inP = true)
    (style : st.pStyle = none) (listType : st.listType = none) (listLevel : st.listLevel = 0) :
    importEvents xml newId st (pPrEvents block) =
      { st with
        pStyle := readStyle block, listType := readListType block,
        listLevel := readListLevel block } := by
  have props := import_propsEvents xml newId st block paragraph style listType listLevel
  unfold pPrEvents
  split
  · rename_i empty
    rw [List.isEmpty_iff.mp empty] at props
    exact props
  · rw [importEvents_cons, importEvent, onStart_other newId st (w "pPr") [] (by decide),
      importEvents_append, props, importEvents_cons, importEvent,
      onEnd_other _ (w "pPr") (by decide)]
    rfl

/-- The import is in the body, between two paragraphs. -/
structure Idle (st : ImportState) : Prop where
  body : st.inBody = true
  paragraph : st.inP = false
  run : st.inR = false
  text : st.inT = false

/-- The block `b` is what the paragraph of `a` is read as. -/
structure Reads (a b : Block) : Prop where
  blockType : b.blockType = a.blockType
  headingLevel : b.headingLevel = if a.blockType = .heading then a.headingLevel else 0
  listType : b.listType = if a.blockType = .listItem then a.listType else none
  listLevel : b.listLevel = if a.blockType = .listItem then a.listLevel else 0
  inlines : b.inlines = keptSpans a.inlines

theorem digits_headingStyle (n : Nat) :
    ("Heading".toList ++ decimal n).filter Char.isDigit = decimal n := by
  have letters : "Heading".toList.filter Char.isDigit = [] := by decide
  rw [List.filter_append, letters, List.nil_append, List.filter_eq_self]
  intro c member
  exact Nat.isDigit_of_mem_toDigits (by decide) (by decide) member

theorem styledBlock_heading (block : Block) (exportable : Exportable block)
    (heading : block.blockType = .heading) (opened : Block) :
    styledBlock opened (headingStyle block) =
      { opened with blockType := .heading, headingLevel := block.headingLevel } := by
  have allowed := exportable.kind
  unfold ExportableKind at allowed
  rw [heading] at allowed
  obtain ⟨bare, low, high⟩ := allowed
  have style : headingStyle block = "Heading".toList ++ decimal block.headingLevel.toNat := by
    unfold headingStyle
    rw [bare, if_neg (by decide), Nat.max_eq_left low, Nat.min_eq_left high]
  have untitled : lowerAscii ("Heading".toList ++ decimal block.headingLevel.toNat) ≠ lowerAscii
      "Title".toList := by
    intro same
    have first : 'h' = 't' := Option.some.inj (congrArg List.head? same)
    exact absurd first (by decide)
  have starts :
      "Heading".toList.isPrefixOf ("Heading".toList ++ decimal block.headingLevel.toNat) = true :=
    List.isPrefixOf_iff_prefix.mpr (List.prefix_append _ _)
  unfold styledBlock
  rw [style, if_neg untitled, if_pos starts, digits_headingStyle, decimal, Scan.parseU32_toDigits,
    Option.getD_some]

/-- A block without spans gets an empty one. -/
theorem Reads.filled {a b : Block} (blockType : b.blockType = a.blockType)
    (headingLevel : b.headingLevel = if a.blockType = .heading then a.headingLevel else 0)
    (listType : b.listType = if a.blockType = .listItem then a.listType else none)
    (listLevel : b.listLevel = if a.blockType = .listItem then a.listLevel else 0)
    (inlines : b.inlines = joinedSpans a.inlines) :
    Reads a (if b.inlines.isEmpty then { b with inlines := [InlineSpan.plain []] } else b) := by
  have kept : keptSpans a.inlines = if b.inlines.isEmpty then [InlineSpan.plain []]
      else b.inlines := by
    unfold keptSpans
    rw [inlines]
    exact (if_congr List.isEmpty_iff rfl rfl).symm
  split
  · rename_i empty
    exact ⟨blockType, headingLevel, listType, listLevel, by rw [kept, if_pos empty]⟩
  · rename_i full
    exact ⟨blockType, headingLevel, listType, listLevel, by rw [kept, if_neg full]⟩

theorem reads_closedBlock (block : Block) (exportable : Exportable block)
    (other : block.blockType ≠ .pageBreak) (st : ImportState) (id : Str)
    (style : st.pStyle = readStyle block) (listType : st.listType = readListType block)
    (listLevel : st.listLevel = readListLevel block) :
    Reads block (closedBlock st { openedBlock id with inlines := joinedSpans block.inlines }) := by
  have allowed := exportable.kind
  unfold ExportableKind at allowed
  unfold readStyle at style
  unfold readListType at listType
  unfold readListLevel at listLevel
  cases kind : block.blockType with
  | paragraph =>
      rw [kind, if_neg (by decide)] at style listType
      unfold closedBlock
      rw [style, listType]
      exact Reads.filled kind.symm (by rw [kind]; rfl) (by rw [kind]; rfl) (by rw [kind]; rfl) rfl
  | heading =>
      rw [kind, if_pos rfl] at style
      rw [kind, if_neg (by decide)] at listType
      unfold closedBlock
      rw [style, listType]
      dsimp only
      rw [styledBlock_heading block exportable kind]
      exact Reads.filled kind.symm (by rw [kind]; rfl) (by rw [kind]; rfl) (by rw [kind]; rfl) rfl
  | listItem =>
      rw [kind] at allowed
      have level :
          (Scan.parseU32 (decimal (min block.listLevel.toNat 8))).getD 0 = block.listLevel := by
        rw [Nat.min_eq_left allowed.2, decimal, Scan.parseU32_toDigits, Option.getD_some]
      have listed : some (if block.listType = some .ordered then ListType.ordered else .bullet) =
          block.listType := by
        cases shape : block.listType with
        | none => exact absurd shape allowed.1
        | some listType =>
            cases listType with
            | bullet => rfl
            | ordered => rfl
      rw [kind, if_neg (by decide)] at style
      rw [kind, if_pos rfl] at listType listLevel
      unfold closedBlock
      rw [style, listType, listLevel, level]
      exact Reads.filled kind.symm (by rw [kind]; rfl) (by rw [kind]; exact listed)
        (by rw [kind]; rfl) rfl
  | pageBreak => exact absurd kind other
  | _ =>
      rw [kind] at allowed
      exact allowed.elim

end EraOne.Docs
