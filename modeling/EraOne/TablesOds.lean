import EraOne.TablesXlsx

set_option autoImplicit false

/- ODS export and import of `convert_ods.rs`, as far as the text of `content.xml`: a writer that
walks the grid of a tab, and a reader that searches the text and counts rows and columns. -/
namespace EraOne.Tables

open Scan

/-- The columns and rows of a merge, first to last. -/
structure Merge where
  c1 : UInt32
  r1 : UInt32
  c2 : UInt32
  r2 : UInt32
  deriving DecidableEq, Repr

def Merge.covers (m : Merge) (col row : UInt32) : Bool :=
  col ≥ m.c1 ∧ col ≤ m.c2 ∧ row ≥ m.r1 ∧ row ≤ m.r2

section Styles

def needsAutoStyle (cell : Cell) : Bool := cell.wrap ∨ cell.border ∨ ¬ cell.borderSides.isEmpty

def borderSidesKey (cell : Cell) : Str :=
  if ¬ cell.borderSides.isEmpty then cell.borderSides
  else if cell.border then "tblr".toList
  else []

def baseStyle (cell : Cell) : Str :=
  if cell.format = "0.00".toList then "ce2".toList
  else if cell.format = "%".toList then "cep".toList
  else "Default".toList

def styleNameFor (cell : Cell) : Str :=
  if ¬ needsAutoStyle cell then baseStyle cell
  else
    let sides := borderSidesKey cell
    baseStyle cell ++ (if cell.wrap then "_w".toList else []) ++
      (if ¬ sides.isEmpty then "_b".toList ++ sides else [])

def borderPt : Str := "0.74pt solid #000000".toList

/-- The part after the last `_b`. -/
def styleSides (key : Str) : Str :=
  match splitOnce "_b".toList.reverse key.reverse with
  | some halves => halves.1.reverse
  | none => []

def borderAttr (name : String) : Str :=
  " fo:border".toList ++ name.toList ++ "=\"".toList ++ borderPt ++ ['"']

def borderProps (sides : Str) : Str :=
  if sides.isEmpty then []
  else if sides = "tblr".toList then borderAttr ""
  else
    (if sides.contains 't' then borderAttr "-top" else []) ++
      (if sides.contains 'r' then borderAttr "-right" else []) ++
      (if sides.contains 'b' then borderAttr "-bottom" else []) ++
      (if sides.contains 'l' then borderAttr "-left" else [])

def automaticStyle (key : Str) : Str :=
  let parent :=
    if "ce2".toList.isPrefixOf key then "ce2".toList
    else if "cep".toList.isPrefixOf key then "cep".toList
    else "Default".toList
  let data :=
    if parent = "ce2".toList then " style:data-style-name=\"N2\"".toList
    else if parent = "cep".toList then " style:data-style-name=\"N%\"".toList
    else []
  let props :=
    (if contains "_w".toList key then " fo:wrap-option=\"wrap\"".toList else []) ++
      borderProps (styleSides key)
  "    <style:style style:name=\"".toList ++ xmlEscape key ++
    "\" style:family=\"table-cell\" style:parent-style-name=\"".toList ++ parent ++ ['"'] ++ data ++
    ">\n      <style:table-cell-properties".toList ++ props ++ "/>\n    </style:style>\n".toList

def buildAutomaticStyles (keys : StrMap Unit) : Str :=
  keys.toList.flatMap fun entry => automaticStyle entry.1

def styleKeys (cells : List Cell) : StrMap Unit :=
  cells.foldl
    (fun keys cell => if needsAutoStyle cell then keys.insert (styleNameFor cell) () else keys) ∅

end Styles

section Writer

variable (rt : Runtime)

def parseRange (s : Str) : Option Merge :=
  match splitAll [':'] s with
  | [first, last] =>
      match parseAddr rt first, parseAddr rt last with
      | some (c1, r1), some (c2, r2) => some ⟨min c1 c2, min r1 r2, max c1 c2, max r1 r2⟩
      | _, _ => none
  | _ => none

def mergeCovering (merges : List Str) (col row : UInt32) : Option Merge :=
  (merges.filterMap (parseRange rt)).find? fun m => m.covers col row

/-- The entry of the grid: of several addresses of one place the last. -/
def gridAt (cells : StrMap Cell) (row col : UInt32) : Option Cell :=
  (cells.toList.reverse.find? fun entry => parseAddr rt entry.1 = some (col, row)).map Prod.snd

/-- `max_col` and `max_row`. -/
def gridSize (cells : StrMap Cell) (merges : List Str) : UInt32 × UInt32 :=
  let corners := cells.toList.filterMap (fun entry => parseAddr rt entry.1) ++
    (merges.filterMap (parseRange rt)).map fun m => (m.c2, m.r2)
  corners.foldl (fun size corner => (max size.1 corner.1, max size.2 corner.2)) (1, 1)

def spanAttrs (cols rows : UInt32) : Str :=
  if cols > 1 ∨ rows > 1 then
    " table:number-columns-spanned=\"".toList ++ Nat.toDigits 10 cols.toNat ++
      "\" table:number-rows-spanned=\"".toList ++ Nat.toDigits 10 rows.toNat ++ ['"']
  else []

/-- The text of a cell: its value, else its formula. -/
def displayOf (cell : Cell) : Str := if ¬ cell.value.isEmpty then cell.value else cell.formula

def odsFormula (formula : Str) : Str :=
  let f := trim formula
  if ['='].isPrefixOf f then "of:".toList ++ f.tail else "of:".toList ++ f

def formulaAttr (cell : Cell) : Str :=
  if ¬ cell.formula.isEmpty then
    " table:formula=\"".toList ++ xmlEscape (odsFormula cell.formula) ++ ['"']
  else []

/-- The attribute that says whether the text is a number, and which. -/
def valueAttrs (display : Str) : Str :=
  match rt.parse display with
  | some n => " office:value-type=\"float\" office:value=\"".toList ++ rt.display n ++ ['"']
  | none => " office:value-type=\"string\"".toList

def cellXmlSpanned (cell : Option Cell) (cols rows : UInt32) : Str :=
  match cell with
  | none => "<table:table-cell".toList ++ spanAttrs cols rows ++ "/>".toList
  | some cell =>
      "<table:table-cell table:style-name=\"".toList ++ styleNameFor cell ++ ['"'] ++
        valueAttrs rt (displayOf cell) ++ formulaAttr cell ++ spanAttrs cols rows ++
        "><text:p>".toList ++ xmlEscape (displayOf cell) ++ "</text:p></table:table-cell>".toList

/-- A cell as the writer places it. -/
structure Placed where
  col : UInt32
  cell : Option Cell
  cols : UInt32 := 1
  rows : UInt32 := 1

/-- The loop over the columns of a row. Cells under a merge are left out; `c += 1` wraps, so that
with `max_col` at `u32::MAX` the loop does not end. -/
def rowLoop (cells : StrMap Cell) (merges : List Str) (maxCol row : UInt32) :
    Nat → UInt32 → Option (List Placed)
  | fuel, c =>
      if c ≤ maxCol then
        match fuel with
        | 0 => none
        | fuel + 1 =>
            match mergeCovering rt merges c row with
            | some m =>
                if c = m.c1 ∧ row = m.r1 then
                  (rowLoop cells merges maxCol row fuel (m.c2 + 1)).map
                    (⟨c, gridAt rt cells row c, m.c2 - m.c1 + 1, m.r2 - m.r1 + 1⟩ :: ·)
                else rowLoop cells merges maxCol row fuel (c + 1)
            | none =>
                (rowLoop cells merges maxCol row fuel (c + 1)).map
                  ({ col := c, cell := gridAt rt cells row c } :: ·)
      else some []

def placedXml (placed : List Placed) : Str :=
  placed.flatMap fun p => cellXmlSpanned rt p.cell p.cols p.rows

/-- The numbers `1..=n`. -/
def upTo (n : UInt32) : List UInt32 := (List.range n.toNat).map fun i => UInt32.ofNat (i + 1)

def rowsOf (cells : StrMap Cell) (merges : List Str) : Option (List (List Placed)) :=
  let size := gridSize rt cells merges
  (upTo size.2).mapM fun row => rowLoop rt cells merges size.1 row size.1.toNat 1

def odsRowXml (placed : List Placed) : Str :=
  "<table:table-row>".toList ++ placedXml rt placed ++ "</table:table-row>".toList

def tableXml (name : Str) (cells : StrMap Cell) (merges : List Str) : Option Str := do
  let rows ← rowsOf rt cells merges
  return "      <table:table table:name=\"".toList ++ xmlEscape name ++ "\">\n".toList ++
    rows.flatMap (odsRowXml rt) ++ "\n      </table:table>\n".toList

/-- The tabs that are written: one for the top-level cells where there is none. -/
def odsTabs (sheet : EratSheet) : List SheetTab :=
  if sheet.sheets.isEmpty then [{ name := "Sheet1".toList, cells := sheet.cells }] else sheet.sheets

def contentHead : Str :=
  ("<?xml version=\"1.0\" encoding=\"UTF-8\"?>\n" ++
  "<office:document-content xmlns:office=\"urn:oasis:names:tc:opendocument:xmlns:office:1.0\"\n" ++
  "  xmlns:table=\"urn:oasis:names:tc:opendocument:xmlns:table:1.0\"\n" ++
  "  xmlns:text=\"urn:oasis:names:tc:opendocument:xmlns:text:1.0\"\n" ++
  "  xmlns:style=\"urn:oasis:names:tc:opendocument:xmlns:style:1.0\"\n" ++
  "  xmlns:fo=\"urn:oasis:names:tc:opendocument:xmlns:xsl-fo-compatible:1.0\"\n" ++
  "  office:version=\"1.2\">\n" ++
  "  <office:automatic-styles>\n").toList

def contentMiddle : Str :=
  "\n  </office:automatic-styles>\n  <office:body>\n    <office:spreadsheet>\n".toList

def contentTail : Str :=
  "\n    </office:spreadsheet>\n  </office:body>\n</office:document-content>".toList

def buildContentXml (sheet : EratSheet) : Option Str := do
  let tabs := odsTabs sheet
  let keys := styleKeys (tabs.flatMap fun tab => tab.cells.toList.map Prod.snd)
  let tables ← tabs.mapM fun tab => tableXml rt tab.name tab.cells tab.merges
  return contentHead ++ buildAutomaticStyles keys ++ contentMiddle ++ tables.flatten ++ contentTail

end Writer

section Reader

/-- `attr_value` of this module, which takes either kind of quotes. -/
def odsAttrValue (chunk name : Str) : Option Str :=
  match splitOnce (name ++ "=\"".toList) chunk with
  | some found => (splitOnce ['"'] found.2).map Prod.fst
  | none =>
      match splitOnce (name ++ "='".toList) chunk with
      | some found => (splitOnce ['\''] found.2).map Prod.fst
      | none => none

def attrU32 (chunk name : Str) : Option UInt32 := (odsAttrValue chunk name).bind parseU32

/-- The loop of `strip_inner_tags`. -/
def stripLoop : Bool → Str → Str
  | _, [] => []
  | inTag, c :: s =>
      if c = '<' then stripLoop true s
      else if c = '>' then stripLoop false s
      else if inTag then stripLoop inTag s
      else c :: stripLoop inTag s

def stripInnerTags (s : Str) : Str := stripLoop false s

def normalizeOdsFormula (raw : Str) : Str :=
  let f := xmlUnescape (trim raw)
  let f := trim ((strip "of:".toList f).getD f)
  if ['='].isPrefixOf f then f else '=' :: f

/-- The value that is read: an attribute, else the text of the paragraph. -/
def odsValue (attrs inner : Str) : Str :=
  let value := (((odsAttrValue attrs "office:value".toList).or
    (odsAttrValue attrs "office:string-value".toList)).map xmlUnescape).getD []
  if value.isEmpty then
    match extractTagText inner "text:p".toList with
    | some p => xmlUnescape (stripInnerTags p)
    | none => value
  else value

def cellTag : Str := "<table:table-cell".toList

def coveredTag : Str := "<table:covered-table-cell".toList

def cellClose : Str := "</table:table-cell>".toList

/-- The first cell in the text: whether it is a covered one, and what follows its tag. -/
def nextCell (rest : Str) : Option (Bool × Str) :=
  match splitOnce cellTag rest, splitOnce coveredTag rest with
  | some cell, some covered =>
      if cell.1.length ≤ covered.1.length then some (false, cell.2) else some (true, covered.2)
  | some cell, none => some (false, cell.2)
  | none, some covered => some (true, covered.2)
  | none, none => none

/-- The cells and merges read so far. -/
abbrev ReadTable := StrMap Cell × List Str

/-- What a cell that is not covered adds. -/
def readTableCell (row col : UInt32) (attrs inner : Str) (read : ReadTable) : ReadTable :=
  let formula := ((odsAttrValue attrs "table:formula".toList).map normalizeOdsFormula).getD []
  let value := odsValue attrs inner
  let colSpan := (attrU32 attrs "table:number-columns-spanned".toList).getD 1
  let rowSpan := (attrU32 attrs "table:number-rows-spanned".toList).getD 1
  let cells :=
    if ¬ value.isEmpty ∨ ¬ formula.isEmpty then
      read.1.insert (addrOf col row) { value := value, formula := formula }
    else read.1
  let merges :=
    if colSpan > 1 ∨ rowSpan > 1 then
      read.2 ++ [addrOf col row ++ ':' :: addrOf (col + colSpan - 1) (row + rowSpan - 1)]
    else read.2
  (cells, merges)

/-- The loop of `parse_row_cells` over the rest of the row; every round takes a tag off it. -/
def rowCellsLoop (row : UInt32) : Nat → Str → UInt32 → ReadTable → ReadTable
  | 0, _, _, read => read
  | fuel + 1, rest, col, read =>
      match nextCell rest with
      | none => read
      | some (covered, after) =>
          if ¬ (after.head?.any fun c => " \n\t\r>/".toList.contains c) then
            rowCellsLoop row fuel after col read
          else
            match splitOnce ['>'] after with
            | none => read
            | some (tag, inside) =>
                let attrs := trimEndMatches '/' tag
                let alone := tag.getLast? = some '/' ∨ covered = true
                let closed := splitOnce cellClose inside
                let inner := if alone then [] else (closed.map Prod.fst).getD []
                let next := if covered then read else readTableCell row col attrs inner read
                let col := col +
                  (attrU32 attrs "table:number-columns-repeated".toList).getD 1
                if alone then rowCellsLoop row fuel inside col next
                else
                  match closed with
                  | some halves => rowCellsLoop row fuel halves.2 col next
                  | none => next

def parseRowCells (rowXml : Str) (row : UInt32) (read : ReadTable) : ReadTable :=
  rowCellsLoop row rowXml.length rowXml 1 read

def rowTag : Str := "<table:table-row".toList

def rowClose : Str := "</table:table-row>".toList

/-- The loop of `parse_table_body` over the rest of the body. -/
def tableBodyLoop : Nat → Str → UInt32 → ReadTable → ReadTable
  | 0, _, _, read => read
  | fuel + 1, rest, row, read =>
      match splitOnce rowTag rest with
      | none => read
      | some (_, after) =>
          match splitOnce ['>'] after with
          | none => read
          | some (attrs, inside) =>
              let alone := attrs.getLast? = some '/'
              let rowRepeat := (attrU32 attrs "table:number-rows-repeated".toList).getD 1
              let closed := splitOnce rowClose inside
              let rowBody := if alone then [] else (closed.map Prod.fst).getD []
              let next := (List.range rowRepeat.toNat).foldl
                (fun read off => parseRowCells rowBody (row + UInt32.ofNat off) read) read
              if alone then tableBodyLoop fuel inside (row + rowRepeat) next
              else
                match closed with
                | some halves => tableBodyLoop fuel halves.2 (row + rowRepeat) next
                | none => next

def parseTableBody (body : Str) : ReadTable := tableBodyLoop body.length body 1 (∅, [])

def tableTag : Str := "<table:table".toList

def tableClose : Str := "</table:table>".toList

/-- The loop of `parse_ods_tables`; a longer tag such as that of a row is passed over. -/
def odsTablesLoop : Nat → Str → List SheetTab → List SheetTab
  | 0, _, tabs => tabs
  | fuel + 1, rest, tabs =>
      match splitOnce tableTag rest with
      | none => tabs
      | some (_, after) =>
          if ¬ (after.head?.any fun c => " \n\t\r>".toList.contains c) then
            odsTablesLoop fuel after tabs
          else
            match splitOnce ['>'] after with
            | none => tabs
            | some (attrs, inside) =>
                let name := ((odsAttrValue attrs "table:name".toList).or
                  (odsAttrValue attrs "name".toList)).getD
                    ("Sheet".toList ++ Nat.toDigits 10 (tabs.length + 1))
                match splitOnce tableClose inside with
                | none => tabs
                | some (body, later) =>
                    let read := parseTableBody body
                    odsTablesLoop fuel later
                      (tabs ++ [{ name := xmlUnescape name, cells := read.1, merges := read.2 }])

def parseOdsTables (content : Str) : List SheetTab := odsTablesLoop content.length content []

end Reader

end EraOne.Tables
