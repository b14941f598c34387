import EraOne.Strings

set_option autoImplicit false

/- Document model of `era-docs-core`. -/
namespace EraOne.Docs

inductive BlockType where
  | paragraph | heading | listItem | pageBreak | image | table | bookmark | toc | textBox
  | sectionBreak | footnote
  deriving DecidableEq, Repr

inductive ListType where
  | bullet | ordered
  deriving DecidableEq, Repr

inductive ListMarker where
  | disc | circle | square | decimal | lowerAlpha | lowerRoman
  deriving DecidableEq, Repr

inductive TextAlign where
  | left | center | right | justify
  deriving DecidableEq, Repr

structure InlineSpan where
  text : Str
  bold : Bool
  italic : Bool
  underline : Bool
  strike : Bool
  linkUrl : Option Str
  fontFamily : Option Str
  fontSizePt : Option UInt32
  color : Option Str
  highlight : Option Str
  superscript : Bool
  subscript : Bool
  deriving DecidableEq, Repr

def InlineSpan.plain (text : Str) : InlineSpan where
  text := text
  bold := false
  italic := false
  underline := false
  strike := false
  linkUrl := none
  fontFamily := none
  fontSizePt := none
  color := none
  highlight := none
  superscript := false
  subscript := false

structure Block where
  id : Str
  blockType : BlockType
  headingLevel : UInt32
  listType : Option ListType
  align : TextAlign
  lineSpacing : Option Str
  indentMm : Option UInt32
  spaceBeforePt : Option UInt32
  spaceAfterPt : Option UInt32
  listLevel : UInt32
  listMarker : Option ListMarker
  listRestart : Bool
  styleName : Option Str
  imageUrl : Option Str
  bookmarkName : Option Str
  lang : Option Str
  tableCells : Option (List (List Str))
  inlines : List InlineSpan
  deriving DecidableEq, Repr

def Block.paragraph (id text : Str) : Block where
  id := id
  blockType := .paragraph
  headingLevel := 0
  listType := none
  align := .left
  lineSpacing := none
  indentMm := none
  spaceBeforePt := none
  spaceAfterPt := none
  listLevel := 0
  listMarker := none
  listRestart := false
  styleName := none
  imageUrl := none
  bookmarkName := none
  lang := none
  tableCells := none
  inlines := [InlineSpan.plain text]

structure DocComment where
  id : Str
  blockId : Str
  authorId : Str
  text : Str
  resolved : Bool
  start : Option Nat
  stop : Option Nat
  quote : Option Str
  deriving DecidableEq, Repr

structure PageSetup where
  size : Str := "a4".toList
  orientation : Str := "portrait".toList
  marginsMm : UInt32 := 20
  columns : UInt32 := 1
  deriving DecidableEq, Repr

structure HeaderFooter where
  text : Str := []
  pageNumbers : Bool := false
  deriving DecidableEq, Repr

structure DocRevision where
  id : Str
  blockId : Str
  kind : Str
  before : Str
  after : Str
  authorId : Str
  deriving DecidableEq, Repr

structure NamedStyle where
  name : Str
  fontFamily : Option Str
  fontSizePt : Option UInt32
  bold : Bool
  italic : Bool
  color : Option Str
  deriving DecidableEq, Repr

structure EradDocument where
  id : Str
  tenantId : Str
  driveObjectId : Str
  format : Str
  blocks : List Block
  comments : List DocComment
  page : PageSetup
  header : HeaderFooter
  footer : HeaderFooter
  trackChanges : Bool
  revisions : List DocRevision
  styles : List NamedStyle
  legacyFeaturesDropped : Bool
  deriving DecidableEq, Repr

/-- `EradDocument::empty`; `uuid` is the random id the source draws for the first block. -/
def EradDocument.empty (uuid : Str) : EradDocument where
  id := []
  tenantId := []
  driveObjectId := []
  format := "erad".toList
  blocks := [Block.paragraph uuid []]
  comments := []
  page := {}
  header := {}
  footer := {}
  trackChanges := false
  revisions := []
  styles := []
  legacyFeaturesDropped := false

end EraOne.Docs
