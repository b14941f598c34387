import EraOne.DocsSpans

set_option autoImplicit false

/- Document operations of `sync.rs`: their transform, their effect, the op log and
the merge of concurrent operations. `usize` is `Nat` with the source's saturation. -/
namespace EraOne.Docs

def usizeMax : Nat := 2 ^ 64 - 1

def saturatingAdd (a b : Nat) : Nat := min (a + b) usizeMax

/-- `x as isize`. -/
def asIsize (x : Nat) : Int := if x < 2 ^ 63 then x else x - 2 ^ 64

/-- `x as usize`. -/
def asUsize (x : Int) : Nat := (x % 2 ^ 64).toNat

/-- Negation on `isize`, which wraps at its minimum. -/
def negIsize (x : Int) : Int := asIsize (asUsize (-x))

/-- The mark fields of `SetMarksRange`. -/
structure MarkArgs where
  bold : Option Bool
  italic : Option Bool
  underline : Option Bool
  strike : Option Bool
  linkUrl : Option Str
  fontFamily : Option Str
  fontSizePt : Option UInt32
  color : Option Str
  highlight : Option Str
  superscript : Option Bool
  subscript : Option Bool
  deriving DecidableEq, Repr

/-- The fields of `SetInlineMarks` besides the block. -/
structure InlineMarkArgs where
  bold : Bool
  italic : Bool
  underline : Bool
  linkUrl : Option Str
  strike : Bool
  superscript : Bool
  subscript : Bool
  deriving DecidableEq, Repr

/-- The fields of `SetBlockFormat` besides the block. -/
structure BlockFormatArgs where
  align : Option TextAlign
  indentMm : Option UInt32
  lineSpacing : Option Str
  spaceBeforePt : Option UInt32
  spaceAfterPt : Option UInt32
  listType : Option ListType
  clearList : Option Bool
  listLevel : Option UInt32
  listMarker : Option ListMarker
  listRestart : Option Bool
  styleName : Option Str
  deriving DecidableEq, Repr

inductive DocOp where
  | insertText (blockId : Str) (offset : Nat) (text : Str) (marks : Option InlineSpan)
  | deleteRange (blockId : Str) (start stop : Nat)
  | setBlockType (blockId : Str) (blockType : BlockType) (headingLevel : UInt32)
  | insertBlock (afterId : Str) (block : Block)
  | splitBlock (blockId : Str) (offset : Nat) (newBlockId : Str)
  | mergeBlocks (blockId : Str) (withPrevious : Bool)
  | setMarksRange (blockId : Str) (start stop : Nat) (marks : MarkArgs)
  | setInlineMarks (blockId : Str) (marks : InlineMarkArgs)
  | setBlockFormat (blockId : Str) (fmt : BlockFormatArgs)
  | addComment (id blockId authorId text : Str) (start stop : Option Nat) (quote : Option Str)
  | resolveComment (id : Str)
  deriving DecidableEq, Repr

def optStringPatch : Option Str → Option (Option Str)
  | none => none
  | some s => if s.isEmpty then some none else some (some s)

def optU32Patch : Option UInt32 → Option (Option UInt32)
  | none => none
  | some n => if n = 0 then some none else some (some n)

/-- The closure of `shift_range`. -/
def shiftOffset (at_ : Nat) (delta : Int) (x : Nat) : Nat :=
  if asIsize x < asIsize at_ then x
  else if delta ≥ 0 then saturatingAdd x (asUsize delta)
  else x - asUsize (negIsize delta)

def shiftRange (start stop at_ : Nat) (delta : Int) : Nat × Nat :=
  let s := shiftOffset at_ delta start
  let e := shiftOffset at_ delta stop
  if s > e then (e, e) else (s, e)

/-- The clamp of a marks range that overlaps the deleted range `[ds, de)`. -/
def clampMarks (s e ds de delLen : Nat) : Nat × Nat :=
  if ds < e ∧ de > s then
    if ds ≤ s ∧ de ≥ e then (ds, ds)
    else if ds ≤ s then (ds, e - delLen)
    else if de ≥ e then (s, ds)
    else (s, e - delLen)
  else (s, e)

/-- Transform `self` against an already applied concurrent `other`. -/
def DocOp.transformAgainst (self other : DocOp) : DocOp :=
  match self, other with
  | .insertText blockId offset text marks, .insertText ob oo ot _ =>
      if blockId = ob then
        .insertText blockId
          (if offset ≥ oo then saturatingAdd offset (byteLen ot) else offset) text marks
      else self
  | .deleteRange blockId start stop, .insertText ob oo ot _ =>
      if blockId = ob then
        let len := byteLen ot
        if oo ≤ start then
          .deleteRange blockId (saturatingAdd start len) (saturatingAdd stop len)
        else if oo < stop then .deleteRange blockId start (saturatingAdd stop len)
        else .deleteRange blockId start stop
      else self
  | .insertText blockId offset text marks, .deleteRange ob start stop =>
      if blockId = ob then
        .insertText blockId
          (if offset ≥ stop then offset - (stop - start)
            else if offset > start then start
            else offset) text marks
      else self
  | .setMarksRange blockId start stop marks, .insertText ob oo ot _ =>
      if blockId = ob then
        let range := shiftRange start stop oo (asIsize (byteLen ot))
        .setMarksRange blockId range.1 range.2 marks
      else self
  | .setMarksRange blockId start stop marks, .deleteRange ob ds de =>
      if blockId = ob then
        let delLen := asIsize (de - ds)
        let shifted := shiftRange start stop de (negIsize delLen)
        let range := clampMarks shifted.1 shifted.2 ds de (asUsize delLen)
        .setMarksRange blockId (min range.1 range.2) range.2 marks
      else self
  | .insertText blockId offset text marks, .splitBlock ob so _ =>
      if blockId = ob then
        if offset > so then .insertText blockId so text marks else self
      else self
  | .splitBlock blockId offset newBlockId, .insertText ob oo ot _ =>
      if blockId = ob then
        .splitBlock blockId
          (if offset ≥ oo then saturatingAdd offset (byteLen ot) else offset) newBlockId
      else self
  | _, _ => self

structure OpLog where
  version : Nat
  ops : List DocOp
  deriving DecidableEq, Repr

def copyBlockAttrs (source : Block) (id : Str) (inlines : List InlineSpan) : Block :=
  { source with id := id, listRestart := false, inlines := inlines }

/-- `iter_mut().find(p)` followed by an edit of the element found. -/
def updateFirst {α : Type} (p : α → Bool) (f : α → α) : List α → List α
  | [] => []
  | a :: l => if p a then f a :: l else a :: updateFirst p f l

def editBlock (doc : EradDocument) (blockId : Str) (edit : Block → Block) : EradDocument :=
  { doc with blocks := updateFirst (fun b => b.id = blockId) edit doc.blocks }

def blockPosition (doc : EradDocument) (blockId : Str) : Option Nat :=
  doc.blocks.findIdx? (fun b => b.id = blockId)

def MarkArgs.patch (marks : MarkArgs) : MarksPatch where
  bold := marks.bold
  italic := marks.italic
  underline := marks.underline
  strike := marks.strike
  linkUrl := optStringPatch marks.linkUrl
  fontFamily := optStringPatch marks.fontFamily
  fontSizePt := optU32Patch marks.fontSizePt
  color := optStringPatch marks.color
  highlight := optStringPatch marks.highlight
  superscript := marks.superscript
  subscript := marks.subscript

def InlineMarkArgs.patch (marks : InlineMarkArgs) : MarksPatch where
  bold := some marks.bold
  italic := some marks.italic
  underline := some marks.underline
  strike := some marks.strike
  linkUrl := optStringPatch marks.linkUrl
  fontFamily := none
  fontSizePt := none
  color := none
  highlight := none
  superscript := some marks.superscript
  subscript := some marks.subscript

/-- The list part of `SetBlockFormat`: clearing wins over a new list type. -/
def applyListFormat (fmt : BlockFormatArgs) (block : Block) : Block :=
  if fmt.clearList = some true then
    { block with
      listType := none, listMarker := none, listLevel := 0, listRestart := false,
      blockType := if block.blockType = .listItem then .paragraph else block.blockType }
  else if fmt.listType.isSome then
    { block with listType := fmt.listType, blockType := .listItem }
  else block

def applyBlockFormat (fmt : BlockFormatArgs) (block : Block) : Block :=
  let block := { block with
    align := fmt.align.getD block.align
    indentMm := fmt.indentMm <|> block.indentMm
    lineSpacing := fmt.lineSpacing <|> block.lineSpacing
    spaceBeforePt := fmt.spaceBeforePt <|> block.spaceBeforePt
    spaceAfterPt := fmt.spaceAfterPt <|> block.spaceAfterPt }
  let block := applyListFormat fmt block
  { block with
    listLevel := fmt.listLevel.getD block.listLevel
    listMarker := fmt.listMarker <|> block.listMarker
    listRestart := fmt.listRestart.getD block.listRestart
    styleName :=
      match fmt.styleName with
      | some name => if name.isEmpty then none else some name
      | none => block.styleName }

def applyOp (doc : EradDocument) (op : DocOp) : EradDocument :=
  match op with
  | .insertText blockId offset text marks =>
      editBlock doc blockId fun b =>
        { b with inlines := insertTextPreserving b.inlines offset text marks }
  | .deleteRange blockId start stop =>
      editBlock doc blockId fun b =>
        { b with inlines := deleteRangePreserving b.inlines start stop }
  | .setBlockType blockId blockType headingLevel =>
      editBlock doc blockId fun b =>
        { b with blockType := blockType, headingLevel := headingLevel }
  | .insertBlock afterId block =>
      match blockPosition doc afterId with
      | some pos => { doc with blocks := doc.blocks.insertIdx (pos + 1) block }
      | none => { doc with blocks := doc.blocks ++ [block] }
  | .splitBlock blockId offset newBlockId =>
      if doc.blocks.any (fun b => b.id = newBlockId) then doc
      else
        match blockPosition doc blockId with
        | some pos =>
            match doc.blocks[pos]? with
            | some source =>
                let halves := splitInlinesAt source.inlines offset
                let left := { source with inlines := halves.1 }
                let right := copyBlockAttrs source newBlockId halves.2
                { doc with blocks := (doc.blocks.set pos left).insertIdx (pos + 1) right }
            | none => doc
        | none => doc
  | .mergeBlocks blockId withPrevious =>
      if withPrevious = false then doc
      else
        match blockPosition doc blockId with
        | some pos =>
            if pos = 0 then doc
            else
              match doc.blocks[pos]?, doc.blocks[pos - 1]? with
              | some block, some previous =>
                  let merged := { previous with
                    inlines := coalesceAdjacent (previous.inlines ++ block.inlines) }
                  { doc with blocks := (doc.blocks.set (pos - 1) merged).eraseIdx pos }
              | _, _ => doc
        | none => doc
  | .setMarksRange blockId start stop marks =>
      editBlock doc blockId fun b =>
        { b with inlines := applyMarksRange b.inlines start stop marks.patch }
  | .setInlineMarks blockId marks =>
      editBlock doc blockId fun b =>
        { b with
          inlines := applyMarksRange b.inlines 0 (byteLen (blockPlain b.inlines)) marks.patch }
  | .setBlockFormat blockId fmt => editBlock doc blockId (applyBlockFormat fmt)
  | .addComment id blockId authorId text start stop quote =>
      if doc.comments.any (fun c => c.id = id) then doc
      else
        { doc with
          comments := doc.comments ++ [⟨id, blockId, authorId, text, false, start, stop, quote⟩] }
  | .resolveComment id =>
      { doc with
        comments := updateFirst (fun c => c.id = id) (fun c => { c with resolved := true })
          doc.comments }

namespace OpLog

def empty : OpLog := ⟨0, []⟩

def append (log : OpLog) (op : DocOp) : OpLog := ⟨log.version + 1, log.ops ++ [op]⟩

def replay (log : OpLog) (doc : EradDocument) : EradDocument := log.ops.foldl applyOp doc

end OpLog

/-- One turn of `merge_concurrent`: transform against every op applied so far, then apply. -/
def mergeStep (state : EradDocument × List DocOp) (op : DocOp) : EradDocument × List DocOp :=
  let transformed := state.2.foldl DocOp.transformAgainst op
  (applyOp state.1 transformed, state.2 ++ [transformed])

def mergeConcurrent (base : EradDocument) (ops : List DocOp) : EradDocument :=
  (ops.foldl mergeStep (base, [])).1

end EraOne.Docs
