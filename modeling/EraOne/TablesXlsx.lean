import EraOne.TablesSync
import EraOne.Search

set_option autoImplicit false

/- XLSX export and import of `convert.rs`: a writer of XML text and a reader that searches it for
substrings. The zip crate is a parameter. -/
namespace EraOne.Tables

open Scan EratSheet

/-- The zip crate, for parts that are text. -/
structure Zip where
  Bytes : Type
  /-- A `ZipWriter` that is given the parts in order and finished. -/
  write : List (Str × Str) → Option Bytes
  /-- `ZipArchive::new` accepts the bytes. -/
  opens : Bytes → Bool
  /-- `by_name` and `read_to_string`; the inner `none` is a part that cannot be read as text. -/
  byName : Bytes → Str → Option (Option Str)

/-- The archive returns the parts that were written. -/
structure Zip.Faithful (zip : Zip) : Prop where
  returns : ∀ parts : List (Str × Str), (parts.map Prod.fst).Nodup →
    ∃ bytes, zip.write parts = some bytes ∧ zip.opens bytes = true ∧
      ∀ name, zip.byName bytes name =
        (parts.find? fun part => part.1 = name).map fun part => some part.2

/-- An archive that is the list of its parts. -/
def Zip.stored : Zip where
  Bytes := List (Str × Str)
  write := some
  opens := fun _ => true
  byName := fun parts name => (parts.find? fun part => part.1 = name).map fun part => some part.2

theorem Zip.stored_faithful : Zip.stored.Faithful where
  returns := fun parts _ => ⟨parts, rfl, rfl, fun _ => rfl⟩

/-- `str::replace` of a character. -/
def replaceChar (c : Char) (by_ s : Str) : Str := s.flatMap fun d => if d = c then by_ else [d]

def xmlEscape (s : Str) : Str :=
  replaceChar '"' "&quot;".toList (replaceChar '>' "&gt;".toList
    (replaceChar '<' "&lt;".toList (replaceChar '&' "&amp;".toList s)))

def xmlUnescape (s : Str) : Str :=
  replaceAll "&amp;".toList ['&'] (replaceAll "&gt;".toList ['>']
    (replaceAll "&lt;".toList ['<'] (replaceAll "&quot;".toList ['"'] s)))

def attrValue (chunk name : Str) : Option Str := do
  let found ← splitOnce (name ++ "=\"".toList) chunk
  let value ← splitOnce ['"'] found.2
  return value.1

/-- The text of the first element whose tag starts with the given one. -/
def extractTagText (chunk tag : Str) : Option Str := do
  let opened ← splitOnce ('<' :: tag) chunk
  let closed ← splitOnce ['>'] opened.2
  if closed.1.getLast? = some '/' then return []
  let text ← splitOnce ("</".toList ++ tag ++ ['>']) closed.2
  return text.1

/-- `str::parse::<usize>` on a 64-bit target. -/
def parseUsize (s : Str) : Option Nat :=
  match parseDigits (dropPlus s) with
  | some n => if n < 2 ^ 64 then some n else none
  | none => none

def readFormula (text : Str) : Str :=
  let f := trim text
  if ['='].isPrefixOf f then f else '=' :: f

/-- The text of `<v>`; with `t="s"` it is an index of the shared strings. Unlike formulas, values
are unescaped. -/
def readValue (shared : List Str) (chunk : Str) : Str :=
  match extractTagText chunk ['v'] with
  | some raw =>
      if contains "t=\"s\"".toList chunk then
        match parseUsize raw with
        | some i => shared[i]?.getD []
        | none => xmlUnescape raw
      else xmlUnescape raw
  | none => []

variable (rt : Runtime)

/-- One chunk of the loop in `parse_sheet_cells`. -/
def readCell (shared : List Str) (chunk : Str) : Option (Str × Cell) :=
  match attrValue chunk ['r'] with
  | some addr =>
      let formula := ((extractTagText chunk ['f']).map readFormula).getD []
      let value := readValue shared chunk
      if value.isEmpty ∧ formula.isEmpty then none
      else some (rt.upper addr, { value := value, formula := formula })
  | none => none

def parseSheetCells (xml : Str) (shared : List Str) : StrMap Cell :=
  ((splitAll "<c ".toList xml).drop 1).foldl
    (fun cells chunk =>
      match readCell rt shared chunk with
      | some entry => cells.insert entry.1 entry.2
      | none => cells) ∅

def cellXml (addr : Str) (cell : Cell) : Str :=
  let v := xmlEscape cell.value
  if cell.formula.isEmpty then
    "<c r=\"".toList ++ addr ++ "\"><v>".toList ++ v ++ "</v></c>".toList
  else
    let f := xmlEscape (trimStartMatches '=' cell.formula)
    "<c r=\"".toList ++ addr ++ "\"><f>".toList ++ f ++ "</f><v>".toList ++ v ++ "</v></c>".toList

/-- The cells of each row; keys that do not parse are left out. -/
def rowMap (cells : StrMap Cell) : Std.ExtTreeMap UInt32 (List (Str × Cell)) compare :=
  cells.toList.foldl
    (fun rows entry =>
      match parseAddr rt entry.1 with
      | some (_, row) => rows.insert row (rows[row]?.getD [] ++ [entry])
      | none => rows) ∅

def rowXml (row : UInt32) (cells : List (Str × Cell)) : Str :=
  "<row r=\"".toList ++ Nat.toDigits 10 row.toNat ++ "\">".toList ++
    cells.flatMap (fun entry => cellXml entry.1 entry.2) ++ "</row>".toList

def worksheetHead : Str :=
  ("<?xml version=\"1.0\" encoding=\"UTF-8\" standalone=\"yes\"?>\n" ++
    "<worksheet xmlns=\"http://schemas.openxmlformats.org/spreadsheetml/2006/main\">" ++
    "<sheetData>").toList

def buildWorksheetXml (cells : StrMap Cell) : Str :=
  worksheetHead ++ (rowMap rt cells).toList.flatMap (fun row => rowXml row.1 row.2) ++
    "</sheetData></worksheet>".toList

def worksheetFile (idx : Nat) : Str := "sheet".toList ++ Nat.toDigits 10 idx ++ ".xml".toList

def relationshipId (idx : Nat) : Str := "rId".toList ++ Nat.toDigits 10 idx

def sheetEntryXml (idx : Nat) (name : Str) : Str :=
  "<sheet name=\"".toList ++ xmlEscape name ++ "\" sheetId=\"".toList ++ Nat.toDigits 10 idx ++
    "\" r:id=\"".toList ++ relationshipId idx ++ "\"/>".toList

def relationshipType : Str :=
  ("http://schemas.openxmlformats.org/officeDocument/2006/relationships/" ++ "worksheet").toList

def relationshipXml (idx : Nat) : Str :=
  "<Relationship Id=\"".toList ++ relationshipId idx ++ "\" Type=\"".toList ++ relationshipType ++
    "\" Target=\"worksheets/".toList ++ worksheetFile idx ++ "\"/>".toList

def overrideXml (idx : Nat) : Str :=
  "<Override PartName=\"/xl/worksheets/".toList ++ worksheetFile idx ++
    ("\" ContentType=\"application/vnd.openxmlformats-officedocument.spreadsheetml." ++
      "worksheet+xml\"/>").toList

def workbookHead : Str :=
  ("<?xml version=\"1.0\" encoding=\"UTF-8\" standalone=\"yes\"?>\n" ++
    "<workbook xmlns=\"http://schemas.openxmlformats.org/spreadsheetml/2006/main\" " ++
    "xmlns:r=\"http://schemas.openxmlformats.org/officeDocument/2006/relationships\">" ++
    "<sheets>").toList

def relationshipsHead : Str :=
  ("<?xml version=\"1.0\" encoding=\"UTF-8\"?>\n" ++
    "<Relationships xmlns=\"http://schemas.openxmlformats.org/package/2006/relationships\">").toList

def contentTypesHead : Str :=
  ("<?xml version=\"1.0\" encoding=\"UTF-8\"?>\n" ++
    "<Types xmlns=\"http://schemas.openxmlformats.org/package/2006/content-types\">\n" ++
    "<Default Extension=\"rels\" " ++
    "ContentType=\"application/vnd.openxmlformats-package.relationships+xml\"/>\n" ++
    "<Default Extension=\"xml\" ContentType=\"application/xml\"/>\n" ++
    "<Override PartName=\"/xl/workbook.xml\" ContentType=\"application/" ++
    "vnd.openxmlformats-officedocument.spreadsheetml.sheet.main+xml\"/>\n").toList

def rootRelationships : Str :=
  ("<?xml version=\"1.0\" encoding=\"UTF-8\"?>\n" ++
    "<Relationships xmlns=\"http://schemas.openxmlformats.org/package/2006/relationships\">\n" ++
    "<Relationship Id=\"rId1\" Type=\"http://schemas.openxmlformats.org/officeDocument/2006/" ++
    "relationships/officeDocument\" Target=\"xl/workbook.xml\"/>\n</Relationships>").toList

/-- The tabs with their 1-based numbers. -/
def numbered (tabs : List (Str × StrMap Cell)) : List ((Str × StrMap Cell) × Nat) := tabs.zipIdx 1

def workbookXml (tabs : List (Str × StrMap Cell)) : Str :=
  workbookHead ++ (numbered tabs).flatMap (fun tab => sheetEntryXml tab.2 tab.1.1) ++
    "</sheets></workbook>".toList

def relationshipsXml (tabs : List (Str × StrMap Cell)) : Str :=
  relationshipsHead ++ (numbered tabs).flatMap (fun tab => relationshipXml tab.2) ++
    "</Relationships>".toList

def contentTypesXml (tabs : List (Str × StrMap Cell)) : Str :=
  contentTypesHead ++ (numbered tabs).flatMap (fun tab => overrideXml tab.2) ++ "\n</Types>".toList

def exportTabs (sheet : EratSheet) : List (Str × StrMap Cell) :=
  let work := sheet.normalizeTabs.flushActiveToTab
  if work.sheets.isEmpty then [("Sheet1".toList, work.cells)]
  else work.sheets.map fun tab => (tab.name, tab.cells)

/-- The parts in the order they are written. -/
def exportParts (tabs : List (Str × StrMap Cell)) : List (Str × Str) :=
  [("[Content_Types].xml".toList, contentTypesXml tabs),
    ("_rels/.rels".toList, rootRelationships),
    ("xl/workbook.xml".toList, workbookXml tabs),
    ("xl/_rels/workbook.xml.rels".toList, relationshipsXml tabs)] ++
  (numbered tabs).map fun tab =>
    ("xl/worksheets/".toList ++ worksheetFile tab.2, buildWorksheetXml rt tab.1.2)

def exportXlsx (zip : Zip) (sheet : EratSheet) : Option zip.Bytes :=
  zip.write (exportParts rt (exportTabs sheet))

def readShared (part : Str) : Option Str := do
  let rest ← match strip ['>'] part with
    | some rest => some rest
    | none => (splitOnce ['>'] part).map Prod.snd
  let text ← splitOnce "</t>".toList rest
  return xmlUnescape text.1

def loadSharedStrings (zip : Zip) (bytes : zip.Bytes) : List Str :=
  match zip.byName bytes "xl/sharedStrings.xml".toList with
  | some (some ss) => ((splitAll "<t".toList ss).drop 1).filterMap readShared
  | _ => []

/-- The tab names with the ids of their relationships. -/
def parseWorkbookSheets (xml : Str) : List (Str × Str) :=
  ((splitAll "<sheet ".toList xml).drop 1).foldl
    (fun out chunk =>
      let name := (attrValue chunk "name".toList).getD
        ("Sheet".toList ++ Nat.toDigits 10 (out.length + 1))
      let rid := ((attrValue chunk "r:id".toList).or (attrValue chunk "id".toList)).getD []
      if rid.isEmpty then out else out ++ [(xmlUnescape name, rid)]) []

def readRelationship (chunk : Str) : Option (Str × Str) := do
  let id ← attrValue chunk "Id".toList
  let target ← attrValue chunk "Target".toList
  let ty := (attrValue chunk "Type".toList).getD []
  if contains "worksheet".toList ty ∨ contains "worksheets/".toList target then
    return (id, target)
  else none

def parseWorkbookRels (xml : Str) : StrMap Str :=
  ((splitAll "<Relationship ".toList xml).drop 1).foldl
    (fun map chunk =>
      match readRelationship chunk with
      | some entry => map.insert entry.1 entry.2
      | none => map) ∅

def worksheetZipPath (target : Str) : Str :=
  let t := trimStartMatches '/' target
  if "xl/".toList.isPrefixOf t then t else "xl/".toList ++ t

/-- One entry of the workbook, with the default target of a missing relationship. -/
def readEntry (zip : Zip) (bytes : zip.Bytes) (shared : List Str) (targets : StrMap Str)
    (tabs : List SheetTab) (entry : Str × Str) : Option (List SheetTab) := do
  let target := targets[entry.2]?.getD ("worksheets/".toList ++ worksheetFile (tabs.length + 1))
  let xml ← (zip.byName bytes (worksheetZipPath target)).join
  return tabs ++ [{ name := entry.1, cells := parseSheetCells rt xml shared }]

def readTabs (zip : Zip) (bytes : zip.Bytes) (shared : List Str) (targets : StrMap Str)
    (entries : List (Str × Str)) : Option (List SheetTab) :=
  entries.foldlM (readEntry rt zip bytes shared targets) []

/-- The tabs of the archive; a workbook without entries falls back to `sheet1.xml`. -/
def importTabs (zip : Zip) (bytes : zip.Bytes) : Option (List SheetTab) := do
  let shared := loadSharedStrings zip bytes
  let workbook ← (zip.byName bytes "xl/workbook.xml".toList).join
  let rels ← (zip.byName bytes "xl/_rels/workbook.xml.rels".toList).getD (some [])
  let targets := parseWorkbookRels rels
  let entries := parseWorkbookSheets workbook
  if entries.isEmpty then
    let xml ← (zip.byName bytes "xl/worksheets/sheet1.xml".toList).join
    return [{ name := "Sheet1".toList, cells := parseSheetCells rt xml shared }]
  else readTabs rt zip bytes shared targets entries

/-- One turn of the last loop of `import_xlsx`: a tab is shown, recalculated and flushed. -/
def recalcTab (sheet : EratSheet) (i : Nat) : Option EratSheet :=
  recalcFlush rt (sheet.switchSheet i)

def recalcAll (tabs : List SheetTab) : Option EratSheet := do
  let sheet := syncActiveFromTab
    (normalizeTabs { EratSheet.empty with sheets := tabs, activeSheet := 0 })
  let n := sheet.sheets.length
  let sheet ← (List.range n).foldlM (recalcTab rt) sheet
  return if n > 0 then sheet.switchSheet 0 else sheet

/-- `import_xlsx`; `none` stands for an error and for a panic of the recalculation. -/
def importXlsx (zip : Zip) (bytes : zip.Bytes) : Option EratSheet := do
  if zip.opens bytes then
    let tabs ← importTabs rt zip bytes
    recalcAll rt tabs
  else none

end EraOne.Tables
