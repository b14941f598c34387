import EraOne.DocsSync
import EraOne.TablesXlsx

set_option autoImplicit false

/- DOCX export of `convert/docx_export.rs`. `str::to_uppercase` and the zip crate are parameters. -/
namespace EraOne.Docs

open Tables (Zip replaceChar)

def wNs : Str := "http://schemas.openxmlformats.org/wordprocessingml/2006/main".toList

def alignVal : TextAlign → Str
  | .left => "left".toList
  | .center => "center".toList
  | .right => "right".toList
  | .justify => "both".toList

def escapeDocx (s : Str) : Str := replaceChar '<' "&lt;".toList (replaceChar '&' "&amp;".toList s)

def decimal (n : Nat) : Str := Nat.toDigits 10 n

/-- An element whose only attribute is `w:val`. -/
def valElement (name : String) (val : Str) : Str :=
  "<w:".toList ++ name.toList ++ " w:val=\"".toList ++ val ++ "\"/>".toList

/-! ### Paragraph properties -/

def headingStyle (block : Block) : Str :=
  if block.styleName = some "title".toList then "Title".toList
  else "Heading".toList ++ decimal (min (max block.headingLevel.toNat 1) 6)

def paragraphStyle (style : Str) : Str :=
  if style = "quote".toList then "Quote".toList
  else if style = "caption".toList then "Caption".toList
  else if style = "normal".toList then "Normal".toList
  else style

/-- The property that says what kind of block a paragraph is. -/
def kindProps (block : Block) : Str :=
  match block.blockType with
  | .heading => valElement "pStyle" (headingStyle block)
  | .listItem =>
      let numId := if block.listType = some .ordered then 1 else 2
      "<w:numPr>".toList ++ valElement "ilvl" (decimal (min block.listLevel.toNat 8)) ++
        valElement "numId" (decimal numId) ++ "</w:numPr>".toList
  | .paragraph =>
      match block.styleName with
      | some style => valElement "pStyle" (paragraphStyle style)
      | none => []
  | _ => []

def alignProps (block : Block) : Str :=
  if block.align ≠ .left then valElement "jc" (alignVal block.align) else []

def indentProps (block : Block) : Str :=
  match block.indentMm with
  | some mm => "<w:ind w:left=\"".toList ++ decimal (mm.toNat * 56) ++ "\"/>".toList
  | none => []

def lineTwips (lineSpacing : Str) : Nat :=
  if lineSpacing = "1.0".toList ∨ lineSpacing = "1".toList then 240
  else if lineSpacing = "1.15".toList then 276
  else if lineSpacing = "1.5".toList then 360
  else if lineSpacing = "2.0".toList ∨ lineSpacing = "2".toList then 480
  else 276

def spacingProps (block : Block) : Str :=
  if block.spaceBeforePt.isSome ∨ block.spaceAfterPt.isSome ∨ block.lineSpacing.isSome then
    let before := (block.spaceBeforePt.getD 0).toNat * 20
    let after := (block.spaceAfterPt.getD 0).toNat * 20
    "<w:spacing w:before=\"".toList ++ decimal before ++ "\" w:after=\"".toList ++ decimal after ++
      ['"'] ++
      (match block.lineSpacing with
        | some spacing =>
            " w:line=\"".toList ++ decimal (lineTwips spacing) ++ "\" w:lineRule=\"auto\"".toList
        | none => []) ++ "/>".toList
  else []

def paragraphProps (block : Block) : Str :=
  kindProps block ++ alignProps block ++ indentProps block ++ spacingProps block

/-! ### Runs -/

section Runs

variable (upper : Str → Str)

/-- `trim_start_matches('#')` and upper case. -/
def hexColor (color : Str) : Str := upper (color.dropWhile (· = '#'))

def highlightVal (hex : Str) : Str :=
  if hex = "FFFF00".toList ∨ hex = "FFEB3B".toList ∨ hex = "FFF59D".toList then "yellow".toList
  else if hex = "00FF00".toList ∨ hex = "C8E6C9".toList then "green".toList
  else if hex = "00FFFF".toList ∨ hex = "B2EBF2".toList then "cyan".toList
  else if hex = "FF0000".toList ∨ hex = "FFCDD2".toList then "red".toList
  else "yellow".toList

def hasRunProps (span : InlineSpan) : Bool :=
  span.bold || span.italic || span.underline || span.strike || span.superscript || span.subscript ||
    span.fontFamily.isSome || span.fontSizePt.isSome || span.color.isSome || span.highlight.isSome

/-- The marks that the import reads. -/
def markProps (span : InlineSpan) : Str :=
  (if span.bold then "<w:b/>".toList else []) ++ (if span.italic then "<w:i/>".toList else []) ++
    (if span.underline then "<w:u w:val=\"single\"/>".toList else []) ++
    (if span.strike then "<w:strike/>".toList else [])

def otherProps (span : InlineSpan) : Str :=
  (if span.superscript then valElement "vertAlign" "superscript".toList
    else if span.subscript then valElement "vertAlign" "subscript".toList else []) ++
    (match span.fontFamily with
      | some family =>
          "<w:rFonts w:ascii=\"".toList ++ escapeDocx family ++ "\" w:hAnsi=\"".toList ++ escapeDocx
            family ++
            "\"/>".toList
      | none => []) ++
    (match span.fontSizePt with
      | some pt =>
          valElement "sz" (decimal (pt * 2).toNat) ++ valElement "szCs" (decimal (pt * 2).toNat)
      | none => []) ++
    (match span.color with
      | some color =>
          if byteLen (hexColor upper color) = 6 then valElement "color" (hexColor upper color)
            else []
      | none => []) ++
    (match span.highlight with
      | some color => valElement "highlight" (highlightVal (hexColor upper color))
      | none => [])

def runProps (span : InlineSpan) : Str :=
  if hasRunProps span then
    "<w:rPr>".toList ++ markProps span ++ otherProps upper span ++ "</w:rPr>".toList
  else []

def spanXml (span : InlineSpan) : Str :=
  "<w:r>".toList ++ runProps upper span ++ "<w:t xml:space=\"preserve\">".toList ++ escapeDocx
    span.text ++
    "</w:t></w:r>".toList

def paragraphOpen (block : Block) : Str :=
  if (paragraphProps block).isEmpty then "<w:p>".toList
  else "<w:p><w:pPr>".toList ++ paragraphProps block ++ "</w:pPr>".toList

def blockXml (block : Block) : Str :=
  if block.blockType = .pageBreak then "<w:p><w:r><w:br w:type=\"page\"/></w:r></w:p>".toList
  else
    paragraphOpen block ++
      (if block.inlines.isEmpty then "<w:r><w:t></w:t></w:r>".toList
        else block.inlines.flatMap (spanXml upper)) ++
      "</w:p>".toList

/-! ### The parts of the archive -/

def pageField : Str :=
  ("<w:r><w:fldChar w:fldCharType=\"begin\"/><w:instrText> PAGE </w:instrText>" ++
    "<w:fldChar w:fldCharType=\"end\"/></w:r>").toList

/-- The text of a header or a footer, none if it is empty. -/
def marginXml (tag : String) (margin : HeaderFooter) : Str :=
  if ¬ margin.text.isEmpty ∨ margin.pageNumbers = true then
    "<?xml version=\"1.0\" encoding=\"UTF-8\" standalone=\"yes\"?>\n<w:".toList ++ tag.toList ++
      " xmlns:w=\"".toList ++ wNs ++ "\"><w:p><w:r><w:t>".toList ++ escapeDocx margin.text ++
      "</w:t></w:r>".toList ++ (if margin.pageNumbers then pageField else []) ++
        "</w:p></w:".toList ++
      tag.toList ++ ">".toList
  else []

def pageWidth (page : PageSetup) : Nat := if page.size = "letter".toList then 12240 else 11906

def pageHeight (page : PageSetup) : Nat :=
  if page.orientation = "landscape".toList then
    (if page.size = "letter".toList then 12240 else 16838)
  else if page.size = "letter".toList then 15840
  else 16838

def sectXml (doc : EradDocument) : Str :=
  let m := decimal (doc.page.marginsMm.toNat * 56)
  "<w:sectPr><w:pgSz w:w=\"".toList ++ decimal (pageWidth doc.page) ++ "\" w:h=\"".toList ++
    decimal (pageHeight doc.page) ++ "\"/><w:pgMar w:top=\"".toList ++ m ++
      "\" w:right=\"".toList ++ m ++
    "\" w:bottom=\"".toList ++ m ++ "\" w:left=\"".toList ++ m ++ "\"/>".toList ++
    (if ¬ (marginXml "hdr" doc.header).isEmpty then
      "<w:headerReference w:type=\"default\" r:id=\"rIdHdr\"/>".toList else []) ++
    (if ¬ (marginXml "ftr" doc.footer).isEmpty then
      "<w:footerReference w:type=\"default\" r:id=\"rIdFtr\"/>".toList
        else []) ++ "</w:sectPr>".toList

def documentXml (doc : EradDocument) : Str :=
  "<?xml version=\"1.0\" encoding=\"UTF-8\" standalone=\"yes\"?>\n<w:document xmlns:w=\"".toList ++
    wNs ++
    "\" xmlns:r=\"http://schemas.openxmlformats.org/officeDocument/2006/relationships\"><w:body>".toList ++
    doc.blocks.flatMap (blockXml upper) ++ sectXml doc ++ "</w:body></w:document>".toList

def contentTypes (doc : EradDocument) : Str :=
  ("<?xml version=\"1.0\" encoding=\"UTF-8\"?>\n" ++
    "<Types xmlns=\"http://schemas.openxmlformats.org/package/2006/content-types\">\n" ++
    "<Default Extension=\"rels\" ContentType=\"application/vnd.openxmlformats-package.relationships+xml\"/>\n" ++
    "<Default Extension=\"xml\" ContentType=\"application/xml\"/>\n" ++
    "<Override PartName=\"/word/document.xml\" ContentType=\"application/" ++
    "vnd.openxmlformats-officedocument.wordprocessingml.document.main+xml\"/>").toList ++
    (if ¬ (marginXml "hdr" doc.header).isEmpty then
      ("<Override PartName=\"/word/header1.xml\" ContentType=\"application/" ++
        "vnd.openxmlformats-officedocument.wordprocessingml.header+xml\"/>").toList else []) ++
    (if ¬ (marginXml "ftr" doc.footer).isEmpty then
      ("<Override PartName=\"/word/footer1.xml\" ContentType=\"application/" ++
        "vnd.openxmlformats-officedocument.wordprocessingml.footer+xml\"/>").toList
          else []) ++ "</Types>".toList

def packageRels : Str :=
  ("<?xml version=\"1.0\" encoding=\"UTF-8\"?>\n" ++
    "<Relationships xmlns=\"http://schemas.openxmlformats.org/package/2006/relationships\">\n" ++
    "<Relationship Id=\"rId1\" Type=\"http://schemas.openxmlformats.org/officeDocument/2006/relationships/" ++
    "officeDocument\" Target=\"word/document.xml\"/>\n</Relationships>").toList

def docRels (doc : EradDocument) : Str :=
  ("<?xml version=\"1.0\" encoding=\"UTF-8\"?>\n" ++
    "<Relationships xmlns=\"http://schemas.openxmlformats.org/package/2006/relationships\">").toList ++
    (if ¬ (marginXml "hdr" doc.header).isEmpty then
      ("<Relationship Id=\"rIdHdr\" Type=\"http://schemas.openxmlformats.org/officeDocument/2006/relationships/" ++
        "header\" Target=\"header1.xml\"/>").toList else []) ++
    (if ¬ (marginXml "ftr" doc.footer).isEmpty then
      ("<Relationship Id=\"rIdFtr\" Type=\"http://schemas.openxmlformats.org/officeDocument/2006/relationships/" ++
        "footer\" Target=\"footer1.xml\"/>").toList else []) ++ "</Relationships>".toList

def documentName : Str := "word/document.xml".toList

def docxParts (doc : EradDocument) : List (Str × Str) :=
  [("[Content_Types].xml".toList, contentTypes doc), ("_rels/.rels".toList, packageRels),
    (documentName, documentXml upper doc), ("word/_rels/document.xml.rels".toList, docRels doc)] ++
    (if ¬ (marginXml "hdr" doc.header).isEmpty then
      [("word/header1.xml".toList, marginXml "hdr" doc.header)] else []) ++
    (if ¬ (marginXml "ftr" doc.footer).isEmpty then
      [("word/footer1.xml".toList, marginXml "ftr" doc.footer)] else [])

def exportDocx (zip : Zip) (doc : EradDocument) : Option zip.Bytes :=
  zip.write (docxParts upper doc)

end Runs

end EraOne.Docs
