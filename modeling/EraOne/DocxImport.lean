import EraOne.DocsSync
import EraOne.Scan
import EraOne.TablesXlsx
import EraOne.XmlEvents

set_option autoImplicit false

/- DOCX import of `convert/docx_import.rs`: a loop over the events of `word/document.xml`. -/
namespace EraOne.Docs

open Tables (Zip)
open Scan (parseU32)

/-- The part of a name behind its last colon. -/
def localName (name : Str) : Str := (name.reverse.takeWhile (· ≠ ':')).reverse

/-- The loop over the attributes with a local name, by what the last of them says. -/
def attrNamed (attrs : List (Str × Str)) (key : String) : List Str :=
  (attrs.filter fun attr => localName attr.1 = key.toList).map Prod.snd

def resolveGeneralRef (xml : Xml.Reader) (name : Str) : Str :=
  match xml.charRef name with
  | some c => [c]
  | none =>
      if name = "amp".toList then ['&']
      else if name = "lt".toList then ['<']
      else if name = "gt".toList then ['>']
      else if name = "quot".toList then ['"']
      else if name = "apos".toList then ['\'']
      else []

/-- The marks of the run that is read. -/
structure RunMarks where
  bold : Bool := false
  italic : Bool := false
  underline : Bool := false
  strike : Bool := false
  deriving DecidableEq, Repr

def RunMarks.span (marks : RunMarks) (text : Str) : InlineSpan :=
  { InlineSpan.plain text with
    bold := marks.bold, italic := marks.italic, underline := marks.underline,
      strike := marks.strike }

/-- The last span takes more text of the run. -/
def takesText (last : InlineSpan) (marks : RunMarks) : Bool :=
  last.bold = marks.bold && last.italic = marks.italic && last.underline = marks.underline &&
    last.strike = marks.strike && last.linkUrl.isNone && last.fontFamily.isNone &&
      last.fontSizePt.isNone &&
    last.color.isNone && last.highlight.isNone && !last.superscript && !last.subscript

def pushRunText (inlines : List InlineSpan) (text : Str) (marks : RunMarks) : List InlineSpan :=
  if text.isEmpty then inlines
  else
    match inlines.getLast? with
    | some last =>
        if takesText last marks then inlines.dropLast ++ [{ last with text := last.text ++ text }]
        else inlines ++ [marks.span text]
    | none => [marks.span text]

structure ImportState where
  inBody : Bool := false
  inP : Bool := false
  inR : Bool := false
  inT : Bool := false
  marks : RunMarks := {}
  currentBlock : Option Block := none
  pStyle : Option Str := none
  listType : Option ListType := none
  listLevel : UInt32 := 0
  blocks : List Block := []
  legacyFeaturesDropped : Bool := false
  /-- How many block ids were drawn. -/
  drawn : Nat := 0
  deriving DecidableEq, Repr

section Import

variable (xml : Xml.Reader) (newId : Nat → Str)

/-- The block of a paragraph that was opened. -/
def openedBlock (id : Str) : Block := { Block.paragraph id [] with inlines := [] }

/-- An attribute `type` of a break. -/
def pageBreakAttr (st : ImportState) (value : Str) : ImportState :=
  if value = "page".toList then
    { st with
      blocks := match st.currentBlock with
        | some block => st.blocks ++ [{ block with blockType := .pageBreak, inlines := [] }]
        | none => st.blocks
      currentBlock := some (openedBlock (newId st.drawn))
      drawn := st.drawn + 1 }
  else st

/-- `Event::Start` and `Event::Empty`. -/
def onStart (st : ImportState) (name : Str) (attrs : List (Str × Str)) : ImportState :=
  let name := localName name
  if name = "body".toList then { st with inBody := true }
  else if st.inBody ∧ name = "p".toList then
    { st with
      inP := true, pStyle := none, listType := none, listLevel := 0
      currentBlock := some (openedBlock (newId st.drawn)), drawn := st.drawn + 1 }
  else if st.inP ∧ name = "pStyle".toList then
    { st with pStyle := (attrNamed attrs "val").foldl (fun _ value => some value) st.pStyle }
  else if st.inP ∧ name = "numPr".toList then { st with listType := some .bullet }
  else if st.inP ∧ name = "ilvl".toList then
    { st with
      listLevel :=
        (attrNamed attrs "val").foldl (fun _ value => (parseU32 value).getD 0) st.listLevel }
  else if st.inP ∧ name = "numId".toList then
    { st with
      listType := (attrNamed attrs "val").foldl
        (fun found value => if value = "1".toList then some ListType.ordered else found) st.listType
          }
  else if st.inP ∧ name = "r".toList then { st with inR := true, marks := {} }
  else if st.inR ∧ name = "b".toList then { st with marks := { st.marks with bold := true } }
  else if st.inR ∧ name = "i".toList then { st with marks := { st.marks with italic := true } }
  else if st.inR ∧ name = "u".toList then { st with marks := { st.marks with underline := true } }
  else if st.inR ∧ name = "strike".toList then { st with marks := { st.marks with strike := true } }
  else if st.inR ∧ name = "br".toList then (attrNamed attrs "type").foldl (pageBreakAttr newId) st
  else if st.inR ∧ name = "t".toList then { st with inT := true }
  else if name = "tbl".toList ∨ name = "drawing".toList then
    { st with legacyFeaturesDropped := true }
  else st

/-- `Event::Text` and `Event::GeneralRef`. -/
def onText (st : ImportState) (text : Str) : ImportState :=
  if st.inT then
    { st with
      currentBlock := st.currentBlock.map fun block =>
        { block with inlines := pushRunText block.inlines text st.marks } }
  else st

def lowerAscii (s : Str) : Str := s.map Char.toLower

/-- What the style of a paragraph makes of its block. -/
def styledBlock (block : Block) (style : Str) : Block :=
  if lowerAscii style = lowerAscii "Title".toList then
    { block with blockType := .heading, headingLevel := 1, styleName := some "title".toList }
  else if "Heading".toList.isPrefixOf style then
    { block with
      blockType := .heading, headingLevel := (parseU32 (style.filter Char.isDigit)).getD 1 }
  else block

/-- The block of a paragraph that is closed. -/
def closedBlock (st : ImportState) (block : Block) : Block :=
  let block := match st.pStyle with
    | some style => styledBlock block style
    | none => block
  let block := { block with listType := st.listType }
  let block := match st.listType with
    | some listType =>
        { block with
          blockType := .listItem, listLevel := st.listLevel
          listMarker := some (if listType = ListType.ordered then .decimal else .disc) }
    | none => block
  if block.inlines.isEmpty then { block with inlines := [InlineSpan.plain []] } else block

/-- `Event::End`. -/
def onEnd (st : ImportState) (name : Str) : ImportState :=
  let name := localName name
  if name = "t".toList then { st with inT := false }
  else if name = "r".toList then { st with inR := false }
  else if name = "p".toList ∧ st.inP then
    { st with
      inP := false, currentBlock := none
      blocks := match st.currentBlock with
        | some block => st.blocks ++ [closedBlock st block]
        | none => st.blocks }
  else st

def importEvent (st : ImportState) : Xml.Event → ImportState
  | .start name attrs => onStart newId st name attrs
  | .empty name attrs => onStart newId st name attrs
  | .text chars => onText st chars
  | .ref name => onText st (resolveGeneralRef xml name)
  | .stop name => onEnd st name
  | .decl _ => st

def importEvents (st : ImportState) (events : List Xml.Event) : ImportState :=
  events.foldl (importEvent xml newId) st

/-- The document behind the loop; a document without blocks gets an empty paragraph. -/
def importedDoc (st : ImportState) : EradDocument :=
  { EradDocument.empty (newId 0) with
    blocks := if st.blocks.isEmpty then [Block.paragraph (newId st.drawn) []] else st.blocks
    legacyFeaturesDropped := st.legacyFeaturesDropped }

def parseDocumentXml (text : Str) : Option EradDocument :=
  (xml.read text).map fun events =>
    importedDoc newId (importEvents xml newId { drawn := 1 } events)

/-- `import_docx`; `none` where an error is returned. -/
def importDocx (zip : Zip) (data : zip.Bytes) : Option EradDocument :=
  if zip.opens data then
    match zip.byName data "word/document.xml".toList with
    | some (some text) => parseDocumentXml xml newId text
    | _ => none
  else none

end Import

end EraOne.Docs
