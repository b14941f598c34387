import EraOne.PptxText
import EraOne.StableSort
import EraOne.Utf8

set_option autoImplicit false

/- PPTX export and import of `era-pres-core/src/convert.rs`. The zip crate and base64 are
parameters. -/
namespace EraOne.Pres

open Scan
open Utf8 (Bytes utf8)

/-! ### The archive -/

/-- The zip crate, as the converter uses it. -/
structure Archive where
  File : Type
  /-- A `ZipWriter` that is given the parts in order and finished. -/
  write : List (Str × Bytes) → Option File
  /-- At least four bytes, of which the first are `PK`. -/
  signed : File → Bool
  /-- `ZipArchive::new` accepts the bytes. -/
  opens : File → Bool
  /-- The names by index. -/
  names : File → List Str
  /-- `by_name` and `read_to_string`. -/
  readText : File → Str → Option Str

/-- The archive returns the parts that were written. -/
structure Archive.Faithful (zip : Archive) : Prop where
  returns : ∀ parts : List (Str × Bytes), (parts.map Prod.fst).Nodup →
    ∃ file, zip.write parts = some file ∧ zip.signed file = true ∧ zip.opens file = true ∧
      zip.names file = parts.map Prod.fst ∧ ∀ name text, (name, utf8 text) ∈ parts →
        zip.readText file name = some text

/-! ### Export -/

structure DataImage where
  ext : Str
  bytes : Bytes

/-- A slide as the exporter keeps it until the archive is written. -/
structure SlidePart where
  number : Nat
  body : Str
  rels : Str
  notes : Option Str
  media : Option (Str × DataImage)

def decimal (n : Nat) : Str := Nat.toDigits 10 n

def notesSlideXml (notes : Str) : Str :=
  "<?xml version=\"1.0\" encoding=\"UTF-8\"?>\n<p:notes xmlns:a=\"http://schemas.openxmlformats.org/drawingml/2006/main\" ".toList ++
    ("xmlns:r=\"http://schemas.openxmlformats.org/officeDocument/2006/relationships\" ".toList ++
      ("xmlns:p=\"http://schemas.openxmlformats.org/presentationml/2006/main\">\n  <p:cSld><p:spTree>\n".toList ++
        ("    <p:nvGrpSpPr><p:cNvPr id=\"1\" name=\"\"/><p:cNvGrpSpPr/><p:nvPr/></p:nvGrpSpPr>\n    <p:grpSpPr/>\n".toList ++
          ("    <p:sp><p:nvSpPr><p:cNvPr id=\"2\" name=\"Notes\"/><p:cNvSpPr/><p:nvPr><p:ph type=\"body\"/></p:nvPr></p:nvSpPr>\n".toList ++
            ("      <p:txBody><a:p><a:r><a:t>".toList ++ (xml notes ++
              "</a:t></a:r></a:p></p:txBody>\n    </p:sp>\n  </p:spTree></p:cSld>\n</p:notes>".toList))))))

def relationshipXml (id kind target : Str) : Str :=
  "  <Relationship Id=\"".toList ++ (id ++
    ("\" Type=\"http://schemas.openxmlformats.org/officeDocument/2006/relationships/".toList ++
      (kind ++
      ("\" Target=\"".toList ++ (target ++ "\"/>\n".toList)))))

def relationshipsXml (entries : Str) : Str :=
  "<?xml version=\"1.0\" encoding=\"UTF-8\"?>\n".toList ++
    ("<Relationships xmlns=\"http://schemas.openxmlformats.org/package/2006/relationships\">\n".toList ++
      (entries ++ "</Relationships>".toList))

def overrideXml (path kind : Str) : Str :=
  "  <Override PartName=\"/".toList ++ (path ++
    ("\" ContentType=\"application/vnd.openxmlformats-officedocument.presentationml.".toList ++
      (kind ++ "+xml\"/>\n".toList)))

def numberedName (front : Str) (n : Nat) (ending : Str) : Str := front ++ (decimal n ++ ending)

def slideName (n : Nat) : Str := numberedName "ppt/slides/slide".toList n ".xml".toList

def slideRelsName (n : Nat) : Str :=
  numberedName "ppt/slides/_rels/slide".toList n ".xml.rels".toList

def notesName (n : Nat) : Str := numberedName "ppt/notesSlides/notesSlide".toList n ".xml".toList

def mediaFile (n : Nat) (ext : Str) : Str := numberedName "image".toList n ('.' :: ext)

section Export

variable (zip : Archive)

/- `general_purpose::STANDARD.decode`. -/
variable (decodeBase64 : Str → Option Bytes)

def parseDataImage (url : Str) : Option DataImage := do
  let url := trim url
  if "data:image/".toList.isPrefixOf url then
    let (mimeSub, payload) ← splitOnce [';'] (url.drop "data:image/".toList.length)
    let (_, b64) ← splitOnce [','] payload
    if contains "base64".toList (payload.map Char.toLower) then
      let mime := mimeSub.map Char.toLower
      let ext ← if mime = "png".toList then some "png".toList
        else if mime = "jpeg".toList ∨ mime = "jpg".toList then some "jpg".toList else none
      let bytes ← decodeBase64 (trim b64)
      some ⟨ext, bytes⟩
    else none
  else none

/-- The slides from a number on, with so many images before. -/
def exportSlides (themeBg : Option Str) : Nat → Nat → List ErapSlide → List SlidePart
  | _, _, [] => []
  | n, images, slide :: rest =>
      let image := slide.imageUrl.bind (parseDataImage decodeBase64)
      let imageCounter := if image.isSome then images + 1 else images
      let media := image.map fun img => (mediaFile imageCounter img.ext, img)
      let imageRel := (media.map fun m =>
        relationshipXml "rIdImg1".toList "image".toList ("../media/".toList ++ m.1)).getD []
      let notes := if trim slide.notes = [] then none else some (notesSlideXml slide.notes)
      let notesRel := if notes.isSome then
          relationshipXml "rIdNotes".toList "notesSlide".toList
            (numberedName "../notesSlides/notesSlide".toList n ".xml".toList)
        else []
      { number := n
        body := slideXml slide themeBg (if image.isSome then some "rIdImg1".toList else none)
        rels := imageRel ++ notesRel
        notes := notes
        media := media } :: exportSlides themeBg (n + 1) imageCounter rest

def needsExt (parts : List SlidePart) (ext : Str) : Bool :=
  parts.any fun part => part.media.any fun m => decide (m.2.ext = ext)

def contentTypesXml (parts : List SlidePart) : Str :=
  let defaults :=
    "  <Default Extension=\"rels\" ContentType=\"application/vnd.openxmlformats-package.relationships+xml\"/>\n".toList ++
    ("  <Default Extension=\"xml\" ContentType=\"application/xml\"/>\n".toList ++
      ((if needsExt parts "png".toList then
        "  <Default Extension=\"png\" ContentType=\"image/png\"/>\n".toList else []) ++
        (if needsExt parts "jpg".toList then
          "  <Default Extension=\"jpg\" ContentType=\"image/jpeg\"/>\n".toList ++
            "  <Default Extension=\"jpeg\" ContentType=\"image/jpeg\"/>\n".toList
        else [])))
  let overrides := parts.flatMap fun part =>
    overrideXml (slideName part.number) "slide".toList ++
      if part.notes.isSome then overrideXml (notesName part.number) "notesSlide".toList else []
  "<?xml version=\"1.0\" encoding=\"UTF-8\"?>\n<Types xmlns=\"http://schemas.openxmlformats.org/package/2006/content-types\">\n".toList ++
    (defaults ++ (overrideXml "ppt/presentation.xml".toList "presentation.main".toList ++
      (overrides ++ "</Types>".toList)))

def presentationXml (parts : List SlidePart) : Str :=
  "<?xml version=\"1.0\" encoding=\"UTF-8\"?>\n<p:presentation xmlns:a=\"http://schemas.openxmlformats.org/drawingml/2006/main\" ".toList ++
    ("xmlns:r=\"http://schemas.openxmlformats.org/officeDocument/2006/relationships\" ".toList ++
      ("xmlns:p=\"http://schemas.openxmlformats.org/presentationml/2006/main\">\n  <p:sldIdLst>".toList ++
        (parts.flatMap (fun part =>
            "<p:sldId id=\"".toList ++ (decimal (256 + part.number) ++
              ("\" r:id=\"rId".toList ++ (decimal part.number ++ "\"/>".toList)))) ++
          "</p:sldIdLst>\n</p:presentation>".toList)))

def presentationRelsXml (parts : List SlidePart) : Str :=
  relationshipsXml (parts.flatMap fun part =>
    relationshipXml ("rId".toList ++ decimal part.number) "slide".toList
      (numberedName "slides/slide".toList part.number ".xml".toList))

def rootRelsXml : Str :=
  relationshipsXml
    (relationshipXml "rId1".toList "officeDocument".toList "ppt/presentation.xml".toList)

/-- The parts of the archive, group by group as they are written. -/
def pptxGroups (parts : List SlidePart) : List (List (Str × Bytes)) :=
  [[("[Content_Types].xml".toList, utf8 (contentTypesXml parts))],
    [("_rels/.rels".toList, utf8 rootRelsXml)],
    [("ppt/presentation.xml".toList, utf8 (presentationXml parts))],
    [("ppt/_rels/presentation.xml.rels".toList, utf8 (presentationRelsXml parts))],
    parts.map fun part => (slideName part.number, utf8 part.body),
    (parts.filter (·.rels ≠ [])).map fun part =>
      (slideRelsName part.number, utf8 (relationshipsXml part.rels)),
    parts.filterMap fun part => part.notes.map fun notes => (notesName part.number, utf8 notes),
    parts.filterMap fun part => part.media.map fun m => ("ppt/media/".toList ++ m.1, m.2.bytes)]

def ErapSlide.newBlank (newId : Nat → Str) : ErapSlide where
  id := newId 0
  titleFrame := TextFrame.fromPlain (fun _ => newId 1) "Title".toList
  bodyFrame := TextFrame.empty (newId 2)
  body2Frame := TextFrame.empty (newId 3)

/-- `export_pptx`; ids are drawn for the slide of an empty deck. -/
def exportPptx (newId : Nat → Str) (deck : ErapDeck) : Option zip.File :=
  let slides := if deck.slides = [] then [ErapSlide.newBlank newId] else deck.slides
  zip.write (pptxGroups (exportSlides decodeBase64 deck.themeBackground 1 0 slides)).flatten

end Export

/-! ### Import -/

/-- `str::trim_start_matches` of a text; it can be there no more often than the text is long. -/
def dropAll (pattern : Str) : Nat → Str → Str
  | 0, s => s
  | fuel + 1, s => if pattern.isPrefixOf s then dropAll pattern fuel (s.drop pattern.length) else s

def slideNum (name : Str) : Nat :=
  let back := dropAll "ppt/slides/slide".toList name.length name
  let number := (dropAll ".xml".toList.reverse back.length back.reverse).reverse
  ((parseU32 number).map UInt32.toNat).getD 0

def isSlideName (name : Str) : Bool :=
  "ppt/slides/slide".toList.isPrefixOf name && ".xml".toList.isSuffixOf name

section Import

variable (zip : Archive)

/-- The slide that is made of the first two texts; the others are not read. -/
def readSlide (newId : Nat → Str) (slideXml : Str) : ErapSlide :=
  let texts := extractAT slideXml
  let titleFrame := TextFrame.fromPlain (fun i => newId (4 + i)) (texts.getD 0 [])
  { ErapSlide.newBlank newId with
    titleFrame := titleFrame
    bodyFrame :=
      TextFrame.fromPlain (fun i => newId (4 + titleFrame.blocks.length + i)) (texts.getD 1 []) }

def importSlides (file : zip.File) (newId : Nat → Nat → Str) :
    Nat → List Str → Option (List ErapSlide)
  | _, [] => some []
  | i, name :: names => do
      let slideXml ← zip.readText file name
      let rest ← importSlides file newId (i + 1) names
      return readSlide (newId i) slideXml :: rest

def ErapDeck.empty (newId : Nat → Str) : ErapDeck where
  tenantId := []
  name := "deck.erap".toList
  slides := [ErapSlide.newBlank newId]

/-- `import_pptx`; `none` where an error is returned. -/
def importPptx (newId : Nat → Nat → Str) (file : zip.File) : Option ErapDeck :=
  if zip.signed file then
    if zip.opens file then
      let names :=
        ((zip.names file).filter isSlideName).mergeSort fun a b => slideNum a ≤ slideNum b
      if names = [] then none
      else do
        let slides ← importSlides zip file newId 1 names
        if slides.all fun slide => decide (slide.title = [] ∧ slide.body = []) then none
        else some { ErapDeck.empty (newId 0) with slides := slides }
    else none
  else some (ErapDeck.empty (newId 0))

end Import

end EraOne.Pres
