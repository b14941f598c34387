import EraOne.DocsSync

set_option autoImplicit false

/- Text frames of `office-richtext` and the decks of `era-pres-core`. The span functions are the
same file in this crate and in `era-docs-core`. A new frame takes its block id from outside. -/
namespace EraOne.Pres

open Docs (BlockType ListType ListMarker TextAlign InlineSpan MarkArgs updateFirst)

structure Block where
  id : Str
  blockType : BlockType := .paragraph
  headingLevel : UInt32 := 0
  listType : Option ListType := none
  align : TextAlign := .left
  lineSpacing : Option Str := none
  indentMm : Option UInt32 := none
  spaceBeforePt : Option UInt32 := none
  spaceAfterPt : Option UInt32 := none
  listLevel : UInt32 := 0
  listMarker : Option ListMarker := none
  listRestart : Bool := false
  styleName : Option Str := none
  imageUrl : Option Str := none
  bookmarkName : Option Str := none
  lang : Option Str := none
  inlines : List InlineSpan := []
  deriving DecidableEq, Repr

def Block.paragraph (id text : Str) : Block := { id := id, inlines := [InlineSpan.plain text] }

structure TextFrame where
  blocks : List Block
  deriving DecidableEq, Repr

def TextFrame.empty (newId : Str) : TextFrame := ⟨[Block.paragraph newId []]⟩

def TextFrame.ensureNonempty (frame : TextFrame) (newId : Str) : TextFrame :=
  if frame.blocks.isEmpty then TextFrame.empty newId else frame

inductive FrameKey where
  | title | body | body2
  deriving DecidableEq, Repr

/-- The fields of `SetBlockFormat` besides the block. -/
structure FrameFormatArgs where
  align : Option TextAlign
  clearList : Option Bool
  listType : Option ListType
  listLevel : Option UInt32
  listMarker : Option ListMarker
  styleName : Option Str
  deriving DecidableEq, Repr

inductive FrameOp where
  | insertText (blockId : Str) (offset : Nat) (text : Str) (marks : Option InlineSpan)
  | deleteRange (blockId : Str) (start stop : Nat)
  | splitBlock (blockId : Str) (offset : Nat) (newBlockId : Str)
  | mergeBlocks (blockId : Str) (withPrevious : Bool)
  | setMarksRange (blockId : Str) (start stop : Nat) (marks : MarkArgs)
  | setBlockFormat (blockId : Str) (fmt : FrameFormatArgs)
  | insertBlock (afterId : Str) (block : Block)
  deriving DecidableEq, Repr

def copyBlockAttrs (source : Block) (id : Str) (inlines : List InlineSpan) : Block :=
  { source with id := id, listRestart := false, inlines := inlines }

def applyFrameFormat (fmt : FrameFormatArgs) (block : Block) : Block :=
  let block := { block with align := fmt.align.getD block.align }
  let block :=
    if fmt.clearList = some true then
      { block with
        listType := none, listMarker := none, listLevel := 0
        blockType := if block.blockType = .listItem then .paragraph else block.blockType }
    else if fmt.listType.isSome then
      { block with listType := fmt.listType, blockType := .listItem }
    else block
  { block with
    listLevel := fmt.listLevel.getD block.listLevel
    listMarker := fmt.listMarker <|> block.listMarker
    styleName :=
      match fmt.styleName with
      | some name => if name.isEmpty then none else some name
      | none => block.styleName }

def TextFrame.editBlock (frame : TextFrame) (blockId : Str) (edit : Block → Block) : TextFrame :=
  ⟨updateFirst (fun b => b.id = blockId) edit frame.blocks⟩

def TextFrame.position (frame : TextFrame) (blockId : Str) : Option Nat :=
  frame.blocks.findIdx? (fun b => b.id = blockId)

def applyFrameOp (newId : Str) (frame : TextFrame) (op : FrameOp) : TextFrame :=
  let frame := frame.ensureNonempty newId
  match op with
  | .insertText blockId offset text marks =>
      frame.editBlock blockId fun b =>
        { b with inlines := Docs.insertTextPreserving b.inlines offset text marks }
  | .deleteRange blockId start stop =>
      frame.editBlock blockId fun b =>
        { b with inlines := Docs.deleteRangePreserving b.inlines start stop }
  | .splitBlock blockId offset newBlockId =>
      if frame.blocks.any (fun b => b.id = newBlockId) then frame
      else
        match frame.position blockId with
        | none => frame
        | some pos =>
            match frame.blocks[pos]? with
            | none => frame
            | some source =>
                let halves := Docs.splitInlinesAt source.inlines offset
                let left := { source with inlines := halves.1 }
                let right := copyBlockAttrs source newBlockId halves.2
                ⟨(frame.blocks.set pos left).insertIdx (pos + 1) right⟩
  | .mergeBlocks blockId withPrevious =>
      if withPrevious = false then frame
      else
        match frame.position blockId with
        | none => frame
        | some pos =>
            if pos = 0 then frame
            else
              match frame.blocks[pos]?, frame.blocks[pos - 1]? with
              | some block, some previous =>
                  let merged := { previous with
                    inlines := Docs.coalesceAdjacent (previous.inlines ++ block.inlines) }
                  ⟨(frame.blocks.set (pos - 1) merged).eraseIdx pos⟩
              | _, _ => frame
  | .setMarksRange blockId start stop marks =>
      frame.editBlock blockId fun b =>
        { b with inlines := Docs.applyMarksRange b.inlines start stop marks.patch }
  | .setBlockFormat blockId fmt => frame.editBlock blockId (applyFrameFormat fmt)
  | .insertBlock afterId block =>
      match frame.position afterId with
      | some pos => ⟨frame.blocks.insertIdx (pos + 1) block⟩
      | none => ⟨frame.blocks ++ [block]⟩

structure ErapSlide where
  id : Str
  titleFrame : TextFrame
  bodyFrame : TextFrame
  body2Frame : TextFrame
  layout : Str := "title_body".toList
  background : Option Str := none
  notes : Str := []
  imageUrl : Option Str := none
  transition : Str := []
  animation : Str := []
  deriving DecidableEq, Repr

def ErapSlide.applyOp (slide : ErapSlide) (newId : Str) (key : FrameKey) (op : FrameOp) :
    ErapSlide :=
  match key with
  | .title => { slide with titleFrame := applyFrameOp newId slide.titleFrame op }
  | .body => { slide with bodyFrame := applyFrameOp newId slide.bodyFrame op }
  | .body2 => { slide with body2Frame := applyFrameOp newId slide.body2Frame op }

structure ErapDeck where
  id : Str := []
  tenantId : Str
  driveObjectId : Str := []
  format : Str := "erap".toList
  name : Str
  slides : List ErapSlide
  themeBackground : Option Str := none
  defaultLayout : Option Str := none
  masterTitlePlaceholder : Option Str := none
  masterBodyPlaceholder : Option Str := none
  version : UInt64 := 0
  deriving DecidableEq, Repr

end EraOne.Pres
