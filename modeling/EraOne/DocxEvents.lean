import EraOne.DocxExport
import EraOne.XmlEvents

set_option autoImplicit false

/- The events that an exported document is the text of. -/
namespace EraOne.Docs

open Tables (Zip replaceChar)
open Xml

/-! ### The export as events -/

/-- A name of the namespace `w`. -/
def w (name : String) : Str := 'w' :: ':' :: name.toList

/-- The events of a text: its references apart from the rest. -/
def textEvents : Str → List Event
  | [] => []
  | c :: s =>
      if c = '&' then .ref "amp".toList :: textEvents s
      else if c = '<' then .ref "lt".toList :: textEvents s
      else
        match textEvents s with
        | .text chars :: rest => .text (c :: chars) :: rest
        | rest => .text [c] :: rest

def valEvent (name : String) (val : Str) : Event := .empty (w name) [(w "val", val)]

def kindEvents (block : Block) : List Event :=
  match block.blockType with
  | .heading => [valEvent "pStyle" (headingStyle block)]
  | .listItem =>
      [.start (w "numPr") [], valEvent "ilvl" (decimal (min block.listLevel.toNat 8)),
        valEvent "numId" (decimal (if block.listType = some .ordered then 1 else 2)),
        .stop (w "numPr")]
  | _ => []

def alignEvents (block : Block) : List Event :=
  if block.align ≠ .left then [valEvent "jc" (alignVal block.align)] else []

def indentEvents (block : Block) : List Event :=
  match block.indentMm with
  | some mm => [.empty (w "ind") [(w "left", decimal (mm.toNat * 56))]]
  | none => []

def lineAttrs (block : Block) : List (Str × Str) :=
  match block.lineSpacing with
  | some spacing => [(w "line", decimal (lineTwips spacing)), (w "lineRule", "auto".toList)]
  | none => []

def spacingEvents (block : Block) : List Event :=
  if block.spaceBeforePt.isSome ∨ block.spaceAfterPt.isSome ∨ block.lineSpacing.isSome then
    [.empty (w "spacing") ([(w "before", decimal ((block.spaceBeforePt.getD 0).toNat * 20)),
      (w "after", decimal ((block.spaceAfterPt.getD 0).toNat * 20))] ++ lineAttrs block)]
  else []

def propsEvents (block : Block) : List Event :=
  kindEvents block ++ alignEvents block ++ indentEvents block ++ spacingEvents block

def markEvents (span : InlineSpan) : List Event :=
  (if span.bold then [Event.empty (w "b") []] else []) ++
    (if span.italic then [Event.empty (w "i") []] else []) ++
    (if span.underline then [Event.empty (w "u") [(w "val", "single".toList)]] else []) ++
    (if span.strike then [Event.empty (w "strike") []] else [])

def runPropsEvents (span : InlineSpan) : List Event :=
  if hasRunProps span then Event.start (w "rPr") [] :: (markEvents span ++ [Event.stop (w "rPr")])
    else []

def spanEvents (span : InlineSpan) : List Event :=
  Event.start (w "r") [] :: (runPropsEvents span ++
    Event.start (w "t") [("xml:space".toList, "preserve".toList)] ::
      (textEvents span.text ++ [Event.stop (w "t"), Event.stop (w "r")]))

def inlineEvents (inlines : List InlineSpan) : List Event :=
  if inlines.isEmpty then
    [Event.start (w "r") [], Event.start (w "t") [], Event.stop (w "t"), Event.stop (w "r")]
  else inlines.flatMap spanEvents

def pPrEvents (block : Block) : List Event :=
  if (propsEvents block).isEmpty then []
    else Event.start (w "pPr") [] :: (propsEvents block ++ [Event.stop (w "pPr")])

def breakEvents : List Event :=
  [Event.start (w "p") [], Event.start (w "r") [], Event.empty (w "br") [(w "type", "page".toList)],
    Event.stop (w "r"), Event.stop (w "p")]

def blockEvents (block : Block) : List Event :=
  if block.blockType = .pageBreak then breakEvents
  else Event.start (w "p")
    [] :: (pPrEvents block ++ inlineEvents block.inlines ++ [Event.stop (w "p")])

def referenceEvents (name id : String) (margin : Str) : List Event :=
  if ¬ margin.isEmpty then
    [Event.empty (w name) [(w "type", "default".toList), ("r:id".toList, id.toList)]]
  else []

def sectEvents (doc : EradDocument) : List Event :=
  let m := decimal (doc.page.marginsMm.toNat * 56)
  Event.start (w "sectPr") [] ::
    Event.empty (w "pgSz")
      [(w "w", decimal (pageWidth doc.page)), (w "h", decimal (pageHeight doc.page))] ::
    Event.empty (w "pgMar") [(w "top", m), (w "right", m), (w "bottom", m), (w "left", m)] ::
    (referenceEvents "headerReference" "rIdHdr" (marginXml "hdr" doc.header) ++
      referenceEvents "footerReference" "rIdFtr"
        (marginXml "ftr" doc.footer) ++ [Event.stop (w "sectPr")])

def declContent : Str := "xml version=\"1.0\" encoding=\"UTF-8\" standalone=\"yes\"".toList

def relationships : Str :=
  "http://schemas.openxmlformats.org/officeDocument/2006/relationships".toList

def documentEvents (doc : EradDocument) : List Event :=
  Event.text ['\n'] ::
    Event.start (w "document") [("xmlns:w".toList, wNs), ("xmlns:r".toList, relationships)] ::
    Event.start (w "body") [] ::
    (doc.blocks.flatMap blockEvents ++ sectEvents doc ++
      [Event.stop (w "body"), Event.stop (w "document")])

/-! ### The exported text -/

theorem escapeDocx_cons (c : Char) (s : Str) :
    escapeDocx (c :: s) =
      (if c = '&' then "&amp;".toList else if c = '<' then "&lt;".toList else [c]) ++ escapeDocx
        s := by
  unfold escapeDocx replaceChar
  rw [List.flatMap_cons, List.flatMap_append]
  congr 1
  by_cases amp : c = '&'
  · rw [if_pos amp, if_pos amp]
    decide
  · by_cases lt : c = '<'
    · rw [if_neg amp, if_neg amp, if_pos lt, List.flatMap_singleton, if_pos lt]
    · rw [if_neg amp, if_neg amp, if_neg lt, List.flatMap_singleton, if_neg lt]

theorem render_textEvents (s : Str) : renderAll (textEvents s) = escapeDocx s := by
  induction s with
  | nil => rfl
  | cons c s ih =>
      rw [escapeDocx_cons, textEvents, ← ih]
      by_cases amp : c = '&'
      · rw [if_pos amp, if_pos amp]
        simp [Xml.render]
      · by_cases lt : c = '<'
        · rw [if_neg amp, if_neg amp, if_pos lt, if_pos lt]
          simp [Xml.render]
        · rw [if_neg amp, if_neg amp, if_neg lt, if_neg lt]
          split
          · rename_i chars rest shape
            rw [shape]
            simp [Xml.render]
          · simp [Xml.render]

theorem render_valEvent (name : String) (val : Str) :
    Xml.render (valEvent name val) = valElement name val := by
  have shape : valElement name val =
      "<w:".toList ++ name.toList ++ " w:val=\"".toList ++ val ++ "\"/>".toList := rfl
  rw [shape]
  simp [valEvent, Xml.render, renderTag, renderAttr, w]

/-- A span with the four marks only, and no control character in its text. -/
structure PlainSpan (span : InlineSpan) : Prop where
  linkUrl : span.linkUrl = none
  fontFamily : span.fontFamily = none
  fontSizePt : span.fontSizePt = none
  color : span.color = none
  highlight : span.highlight = none
  superscript : span.superscript = false
  subscript : span.subscript = false
  text : ∀ c ∈ span.text, 32 ≤ c.toNat

/-- The blocks that the round trip is about. -/
def ExportableKind (block : Block) : Prop :=
  match block.blockType with
  | .paragraph => block.styleName = none
  | .heading => block.styleName = none ∧ 1 ≤ block.headingLevel.toNat ∧ block.headingLevel.toNat ≤ 6
  | .listItem => block.listType ≠ none ∧ block.listLevel.toNat ≤ 8
  | .pageBreak => True
  | _ => False

structure Exportable (block : Block) : Prop where
  kind : ExportableKind block
  spans : ∀ span ∈ block.inlines, PlainSpan span

/-! ### The events are well formed -/

theorem decimal_clear (n : Nat) : ∀ c ∈ decimal n, valueChar c = true := by
  intro c member
  have digit : c.isDigit = true := Nat.isDigit_of_mem_toDigits (by decide) (by decide) member
  have other (d : Char) (plain : d.isDigit = false) : c ≠ d := by
    rintro rfl
    rw [digit] at plain
    cases plain
  unfold valueChar
  simp [other '<' (by decide), other '>' (by decide), other '&' (by decide), other '"' (by decide)]

theorem ok_valEvent (name : String) (val : Str) (isName : IsName (w name))
    (clear : ∀ c ∈ val, valueChar c = true) :
    EventOk (valEvent name val) :=
  ⟨isName, attrsOk_of_keys _ [w "val"] rfl (by decide) (by decide) (by simpa using clear)⟩

theorem ok_kindEvents (block : Block) (exportable : Exportable block) :
    ∀ e ∈ kindEvents block, EventOk e := by
  have allowed := exportable.kind
  unfold ExportableKind at allowed
  unfold kindEvents
  cases kind : block.blockType with
  | heading =>
      rw [kind] at allowed
      have style : ∀ c ∈ headingStyle block, valueChar c = true := by
        unfold headingStyle
        rw [allowed.1, if_neg (by decide)]
        intro c member
        cases List.mem_append.mp member with
        | inl front =>
            exact List.all_eq_true.mp (by decide : "Heading".toList.all valueChar = true) c front
        | inr back => exact decimal_clear _ c back
      simpa using ok_valEvent "pStyle" _ (by decide) style
  | listItem =>
      have level :=
        ok_valEvent "ilvl" (decimal (min block.listLevel.toNat 8)) (by decide) (decimal_clear _)
      have number :=
        ok_valEvent "numId" (decimal (if block.listType = some .ordered then 1 else 2)) (by decide)
          (decimal_clear _)
      have opened : EventOk (.start (w "numPr") []) := ⟨by decide, attrsOk_nil⟩
      have closed : EventOk (.stop (w "numPr")) := show IsName (w "numPr") by decide
      simpa using ⟨opened, level, number, closed⟩
  | _ => simp

theorem ok_propsEvents (block : Block) (exportable : Exportable block) :
    ∀ e ∈ propsEvents block, EventOk e := by
  have align : ∀ e ∈ alignEvents block, EventOk e := by
    unfold alignEvents
    split
    · have clear : ∀ c ∈ alignVal block.align, valueChar c = true := by
        apply List.all_eq_true.mp
        cases block.align
        · decide
        · decide
        · decide
        · decide
      simpa using ok_valEvent "jc" _ (by decide) clear
    · simp
  have indent : ∀ e ∈ indentEvents block, EventOk e := by
    unfold indentEvents
    split
    · rename_i mm _
      have attrs :=
        attrsOk_of_keys [(w "left", decimal (mm.toNat * 56))] [w "left"] rfl (by decide) (by decide)
          (by simpa using decimal_clear _)
      intro e member
      rw [List.mem_singleton.mp member]
      exact ⟨by decide, attrs⟩
    · simp
  have spacing : ∀ e ∈ spacingEvents block, EventOk e := by
    unfold spacingEvents lineAttrs
    split
    · intro e member
      rw [List.mem_singleton.mp member]
      refine ⟨by decide, ?_⟩
      cases block.lineSpacing with
      | none =>
          apply attrsOk_of_keys _ [w "before", w "after"] rfl (by decide) (by decide)
          simpa using ⟨decimal_clear _, decimal_clear _⟩
      | some spacing =>
          have auto : ∀ c ∈ "auto".toList, valueChar c = true := List.all_eq_true.mp (by decide)
          apply attrsOk_of_keys _ [w "before", w "after", w "line", w "lineRule"] rfl (by decide)
            (by decide)
          intro attr inside
          simp only [List.cons_append, List.nil_append, List.mem_cons, List.not_mem_nil,
            or_false] at inside
          rcases inside with rfl | rfl | rfl | rfl
          · exact decimal_clear _
          · exact decimal_clear _
          · exact decimal_clear _
          · exact auto
    · simp
  intro e member
  unfold propsEvents at member
  simp only [List.mem_append] at member
  rcases member with ((kind | aligned) | indented) | spaced
  · exact ok_kindEvents block exportable e kind
  · exact align e aligned
  · exact indent e indented
  · exact spacing e spaced

theorem ok_textEvents (s : Str) (clear : ∀ c ∈ s, 32 ≤ c.toNat) : ∀ e ∈ textEvents s,
    EventOk e := by
  induction s with
  | nil => simp [textEvents]
  | cons c s ih =>
      have inner := ih fun d member => clear d (List.mem_cons_of_mem _ member)
      have first := clear c List.mem_cons_self
      rw [textEvents]
      by_cases amp : c = '&'
      · rw [if_pos amp]
        intro e member
        cases List.mem_cons.mp member with
        | inl here =>
            rw [here]
            exact show IsName "amp".toList by decide
        | inr later => exact inner e later
      · by_cases lt : c = '<'
        · rw [if_neg amp, if_pos lt]
          intro e member
          cases List.mem_cons.mp member with
          | inl here =>
              rw [here]
              exact show IsName "lt".toList by decide
          | inr later => exact inner e later
        · have plain : textChar c = true := by simp [textChar, amp, lt, first]
          rw [if_neg amp, if_neg lt]
          split
          · rename_i chars rest shape
            rw [shape] at inner
            have old := inner _ List.mem_cons_self
            intro e member
            cases List.mem_cons.mp member with
            | inl here =>
                rw [here]
                exact ⟨List.cons_ne_nil _ _, by simpa [plain] using old.2⟩
            | inr later => exact inner e (List.mem_cons_of_mem _ later)
          · intro e member
            cases List.mem_cons.mp member with
            | inl here =>
                rw [here]
                exact ⟨List.cons_ne_nil _ _, by simpa using plain⟩
            | inr later => exact inner e later

section Rendering

variable (upper : Str → Str)

theorem render_optional (flag : Bool) (e : Event) :
    renderAll (if flag then [e] else []) = if flag then Xml.render e else [] := by
  cases flag with
  | true => exact List.append_nil _
  | false => rfl

theorem render_markEvents (span : InlineSpan) : renderAll (markEvents span) = markProps span := by
  have bold : Xml.render (.empty (w "b") []) = "<w:b/>".toList := by decide
  have italic : Xml.render (.empty (w "i") []) = "<w:i/>".toList := by decide
  have underline : Xml.render (.empty (w "u") [(w "val", "single".toList)]) =
      "<w:u w:val=\"single\"/>".toList := by decide
  have strike : Xml.render (.empty (w "strike") []) = "<w:strike/>".toList := by decide
  rw [markEvents, renderAll_append, renderAll_append, renderAll_append, render_optional,
    render_optional, render_optional, render_optional, bold, italic, underline, strike, markProps]

theorem otherProps_plain (span : InlineSpan) (plain : PlainSpan span) :
    otherProps upper span = [] := by
  unfold otherProps
  rw [plain.superscript, plain.subscript, plain.fontFamily, plain.fontSizePt, plain.color,
    plain.highlight]
  rfl

theorem render_runPropsEvents (span : InlineSpan) (plain : PlainSpan span) :
    renderAll (runPropsEvents span) = runProps upper span := by
  have opened : Xml.render (.start (w "rPr") []) = "<w:rPr>".toList := by decide
  have closed : renderAll [.stop (w "rPr")] = "</w:rPr>".toList := by decide
  unfold runPropsEvents runProps
  cases hasRunProps span with
  | true =>
      rw [if_pos rfl, if_pos rfl, otherProps_plain upper span plain, renderAll_cons,
        renderAll_append, render_markEvents, opened, closed, List.append_nil, List.append_assoc]
  | false => rfl

theorem render_spanEvents (span : InlineSpan) (plain : PlainSpan span) :
    renderAll (spanEvents span) = spanXml upper span := by
  have opened : Xml.render (.start (w "r") []) = "<w:r>".toList := by decide
  have text : Xml.render (.start (w "t") [("xml:space".toList, "preserve".toList)]) =
      "<w:t xml:space=\"preserve\">".toList := by decide
  have closed : renderAll [.stop (w "t"), .stop (w "r")] = "</w:t></w:r>".toList := by decide
  have parts : renderAll (spanEvents span) = Xml.render (.start (w "r") []) ++ renderAll
      (runPropsEvents span) ++
      Xml.render (.start (w "t") [("xml:space".toList, "preserve".toList)]) ++ renderAll
        (textEvents span.text) ++
      renderAll [.stop (w "t"), .stop (w "r")] := by
    simp only [spanEvents, renderAll_cons, renderAll_append, List.append_assoc]
  exact parts.trans
    (congrArg₂ (· ++ ·) (congrArg₂ (· ++ ·) (congrArg₂ (· ++ ·) (congrArg₂ (· ++ ·) opened
    (render_runPropsEvents upper span plain)) text) (render_textEvents span.text)) closed)

theorem render_propsEvents (block : Block) (exportable : Exportable block) :
    renderAll (propsEvents block) = paragraphProps block := by
  have kind : renderAll (kindEvents block) = kindProps block := by
    have allowed := exportable.kind
    unfold ExportableKind at allowed
    unfold kindEvents kindProps
    cases kind : block.blockType with
    | paragraph =>
        rw [kind] at allowed
        dsimp only at allowed ⊢
        rw [allowed]
        rfl
    | heading => simp [render_valEvent]
    | listItem => simp [render_valEvent, render_start, render_stop, renderTag, w]
    | _ => rfl
  have align : renderAll (alignEvents block) = alignProps block := by
    unfold alignEvents alignProps
    split
    · simp [render_valEvent]
    · rfl
  have indent : renderAll (indentEvents block) = indentProps block := by
    unfold indentEvents indentProps
    cases block.indentMm with
    | none => rfl
    | some mm => simp [render_empty, renderTag, renderAttr, w]
  have spacing : renderAll (spacingEvents block) = spacingProps block := by
    unfold spacingEvents spacingProps lineAttrs
    split
    · cases block.lineSpacing with
      | none => simp [render_empty, renderTag, renderAttr, w]
      | some spacing => simp [render_empty, renderTag, renderAttr, w]
    · rfl
  rw [propsEvents, renderAll_append, renderAll_append, renderAll_append, kind, align, indent,
    spacing, paragraphProps]

theorem renderAll_flatMap {α : Type} (l : List α) (events : α → List Event) (text : α → Str)
    (each : ∀ a ∈ l, renderAll (events a) = text a) : renderAll
    (l.flatMap events) = l.flatMap text := by
  induction l with
  | nil => rfl
  | cons a l ih =>
      rw [List.flatMap_cons, List.flatMap_cons, renderAll_append, each a List.mem_cons_self,
        ih fun b member => each b (List.mem_cons_of_mem _ member)]

theorem render_ne_nil (e : Event) (ok : EventOk e) : Xml.render e ≠ [] := by
  cases e with
  | text chars => exact ok.1
  | decl content => exact List.cons_ne_nil _ _
  | start name attrs => exact List.cons_ne_nil _ _
  | empty name attrs => exact List.cons_ne_nil _ _
  | stop name => exact List.cons_ne_nil _ _
  | ref name => exact List.cons_ne_nil _ _

theorem render_pPrEvents (block : Block) (exportable : Exportable block) :
    Xml.render (.start (w "p") []) ++ renderAll (pPrEvents block) = paragraphOpen block := by
  have props := render_propsEvents block exportable
  unfold pPrEvents paragraphOpen
  rw [← props]
  cases shape : propsEvents block with
  | nil =>
      show Xml.render (.start (w "p") []) ++ [] = "<w:p>".toList
      decide
  | cons e events =>
      have opened : Xml.render (.start (w "p") []) ++ Xml.render
          (.start (w "pPr") []) = "<w:p><w:pPr>".toList := by decide
      have closed : renderAll [.stop (w "pPr")] = "</w:pPr>".toList := by decide
      have first : Xml.render e ≠ [] := by
        apply render_ne_nil
        apply ok_propsEvents block exportable
        rw [shape]
        exact List.mem_cons_self
      have full : (renderAll (e :: events)).isEmpty = false := by
        rw [renderAll_cons, List.isEmpty_eq_false_iff]
        exact List.append_ne_nil_of_left_ne_nil first _
      rw [full, if_neg Bool.false_ne_true, List.isEmpty_cons, if_neg Bool.false_ne_true,
        renderAll_cons, renderAll_append, closed, ← List.append_assoc, opened, ← List.append_assoc]

theorem render_inlineEvents (inlines : List InlineSpan) (plain : ∀ span ∈ inlines, PlainSpan span) :
    renderAll (inlineEvents inlines) =
      if inlines.isEmpty then "<w:r><w:t></w:t></w:r>".toList
        else inlines.flatMap (spanXml upper) := by
  unfold inlineEvents
  split
  · decide
  · exact renderAll_flatMap inlines spanEvents (spanXml upper) fun span member =>
      render_spanEvents upper span (plain span member)

theorem render_blockEvents (block : Block) (exportable : Exportable block) :
    renderAll (blockEvents block) = blockXml upper block := by
  unfold blockEvents blockXml
  split
  · decide
  · have closed : renderAll [.stop (w "p")] = "</w:p>".toList := by decide
    rw [renderAll_cons, renderAll_append, renderAll_append, closed, ← List.append_assoc,
      ← List.append_assoc, render_pPrEvents block exportable,
        render_inlineEvents upper block.inlines exportable.spans]

end Rendering

section Document

variable (upper : Str → Str)

theorem render_referenceEvents (name id : String) (margin : Str) (text : Str)
    (same : "<w:".toList ++ name.toList ++ " w:type=\"default\" r:id=\"".toList ++ id.toList ++
      "\"/>".toList = text) :
    renderAll (referenceEvents name id margin) = if ¬ margin.isEmpty then text else [] := by
  rw [← same]
  unfold referenceEvents
  split
  · simp [render_empty, renderTag, renderAttr, w]
  · rfl

theorem render_sectEvents (doc : EradDocument) : renderAll (sectEvents doc) = sectXml doc := by
  have header := render_referenceEvents "headerReference" "rIdHdr" (marginXml "hdr" doc.header)
    "<w:headerReference w:type=\"default\" r:id=\"rIdHdr\"/>".toList (by decide)
  have footer := render_referenceEvents "footerReference" "rIdFtr" (marginXml "ftr" doc.footer)
    "<w:footerReference w:type=\"default\" r:id=\"rIdFtr\"/>".toList (by decide)
  unfold sectEvents sectXml
  dsimp only
  rw [renderAll_cons, renderAll_cons, renderAll_cons, renderAll_append, renderAll_append, header,
    footer]
  generalize (if ¬ (marginXml "hdr" doc.header).isEmpty then _ else _ : Str) = first
  generalize (if ¬ (marginXml "ftr" doc.footer).isEmpty then _ else _ : Str) = second
  simp [render_empty, render_start, render_stop, renderTag, renderAttr, w]

/-- The exported part is the text of the document's events. -/
theorem render_documentEvents (doc : EradDocument)
    (exportable : ∀ block ∈ doc.blocks, Exportable block) :
    renderAll (.decl declContent :: documentEvents doc) = documentXml upper doc := by
  have head : Xml.render (.decl declContent) ++ (Xml.render (.text ['\n']) ++
      (Xml.render
        (.start (w "document") [("xmlns:w".toList, wNs), ("xmlns:r".toList, relationships)]) ++
          Xml.render (.start (w "body") []))) =
      "<?xml version=\"1.0\" encoding=\"UTF-8\" standalone=\"yes\"?>\n<w:document xmlns:w=\"".toList ++ wNs ++
        "\" xmlns:r=\"http://schemas.openxmlformats.org/officeDocument/2006/relationships\"><w:body>".toList := by
    have decl : declContent = _ := String.toList_ofList
    have ns : wNs = _ := String.toList_ofList
    have rel : relationships = _ := String.toList_ofList
    refine Eq.trans ?_
      (congrArg₂ (· ++ ·) (congrArg (· ++ wNs) String.toList_ofList.symm) String.toList_ofList.symm)
    rw [decl, ns, rel]
    decide +kernel
  have foot : renderAll [.stop (w "body"), .stop (w "document")] =
      "</w:body></w:document>".toList := by decide
  have blocks : renderAll (doc.blocks.flatMap blockEvents) = doc.blocks.flatMap (blockXml upper) :=
    renderAll_flatMap doc.blocks blockEvents (blockXml upper) fun block member =>
      render_blockEvents upper block (exportable block member)
  have parts : renderAll (.decl declContent :: documentEvents doc) =
      (Xml.render (.decl declContent) ++ (Xml.render (.text ['\n']) ++
        (Xml.render
          (.start (w "document") [("xmlns:w".toList, wNs), ("xmlns:r".toList, relationships)]) ++
            Xml.render (.start (w "body") [])))) ++
        renderAll (doc.blocks.flatMap blockEvents) ++ renderAll (sectEvents doc) ++ renderAll
          [.stop (w "body"), .stop (w "document")] := by
    simp only [documentEvents, renderAll_cons, renderAll_append, List.append_assoc]
  exact parts.trans (congrArg₂ (· ++ ·)
    (congrArg₂ (· ++ ·) (congrArg₂ (· ++ ·) head blocks) (render_sectEvents doc)) foot)

end Document

end EraOne.Docs
