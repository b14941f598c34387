import EraOne.DocxReading
import EraOne.DocxTidy

set_option autoImplicit false

/- When an exported document is imported as it was. -/
namespace EraOne.Docs

open Tables (Zip)
open Xml

/-- The block `b` has the kind, the levels and the spans of `a`; levels are those that the kind
has. -/
structure SameShape (a b : Block) : Prop where
  blockType : b.blockType = a.blockType
  heading : a.blockType = .heading → b.headingLevel = a.headingLevel
  list : a.blockType = .listItem → b.listType = a.listType ∧ b.listLevel = a.listLevel
  spans : a.blockType ≠ .pageBreak → b.inlines = keptSpans a.inlines

/-- The same with the levels of every block, whatever its kind. -/
structure SameFields (a b : Block) : Prop where
  blockType : b.blockType = a.blockType
  headingLevel : b.headingLevel = a.headingLevel
  listType : b.listType = a.listType
  listLevel : b.listLevel = a.listLevel
  spans : a.blockType ≠ .pageBreak → b.inlines = keptSpans a.inlines

/-- A document is exported, imported again, and its blocks are related to the new ones one by
one. -/
def RoundTrips (upper : Str → Str) (xml : Xml.Reader) (newId : Nat → Str) (zip : Zip)
    (related : Block → Block → Prop) (doc : EradDocument) : Prop :=
  ∃ data doc', exportDocx upper zip doc = some data ∧ importDocx xml newId zip data = some doc' ∧
    List.Forall₂ related doc.blocks doc'.blocks

/-- No levels but those of its kind. -/
structure OwnLevels (block : Block) : Prop where
  heading : block.blockType ≠ .heading → block.headingLevel = 0
  list : block.blockType ≠ .listItem → block.listType = none ∧ block.listLevel = 0

section Documents

variable (xml : Xml.Reader) (newId : Nat → Str)

/-! ### A document -/

theorem import_blockEvents (block : Block) (exportable : Exportable block)
    (other : block.blockType ≠ .pageBreak) (st : ImportState) (idle : Idle st) :
    ∃ b, Reads block b ∧ Idle (importEvents xml newId st (blockEvents block)) ∧
      (importEvents xml newId st (blockEvents block)).blocks = st.blocks ++ [b] := by
  let opened : ImportState :=
    { st with
      inP := true, pStyle := none, listType := none, listLevel := 0
      currentBlock := some (openedBlock (newId st.drawn)), drawn := st.drawn + 1 }
  let styled : ImportState :=
    { opened with
      pStyle := readStyle block, listType := readListType block, listLevel := readListLevel block }
  have props := import_pPrEvents xml newId opened block rfl rfl rfl rfl
  obtain ⟨marks, inlines⟩ :=
    import_inlineEvents xml newId styled block.inlines exportable.spans rfl idle.run idle.text
  have closed := onEnd_p
    { styled with
      marks := marks,
      currentBlock :=
        some { openedBlock (newId st.drawn) with inlines := block.inlines.foldl coalesceStep [] } }
    _ rfl rfl
  have run : importEvents xml newId st (blockEvents block) = onEnd
      { styled with
        marks := marks,
        currentBlock :=
          some { openedBlock (newId st.drawn) with inlines := block.inlines.foldl coalesceStep [] }
            }
      (w "p") := by
    unfold blockEvents
    rw [if_neg other, importEvents_cons, importEvent, onStart_p newId st idle.body,
      importEvents_append, importEvents_append, props, inlines]
    rfl
  rw [foldl_coalesceStep_eq] at run closed
  rw [run, closed]
  exact ⟨_, reads_closedBlock block exportable other _ _ rfl rfl rfl,
    ⟨idle.body, rfl, idle.run, idle.text⟩, rfl⟩

theorem onStart_br (st : ImportState) (run : st.inR = true) :
    onStart newId st (w "br") [(w "type", "page".toList)] = pageBreakAttr newId st
      "page".toList := by
  have name : localName (w "br") = "br".toList := by decide
  have type : attrNamed [(w "type", "page".toList)] "type" = ["page".toList] := by decide
  unfold onStart
  rw [name, type]
  simp [run]

/-- A page break comes back as two blocks. -/
theorem import_breakEvents (st : ImportState) (idle : Idle st) :
    ∃ first second, Idle (importEvents xml newId st breakEvents) ∧
      (importEvents xml newId st breakEvents).blocks = st.blocks ++ [first, second] := by
  let opened : ImportState :=
    { st with
      inP := true, pStyle := none, listType := none, listLevel := 0
      currentBlock := some (openedBlock (newId st.drawn)), drawn := st.drawn + 1, inR := true,
        marks := {} }
  let broken : ImportState :=
    { opened with
      blocks :=
        st.blocks ++ [{ openedBlock (newId st.drawn) with blockType := .pageBreak, inlines := [] }]
      currentBlock := some (openedBlock (newId (st.drawn + 1))), drawn := st.drawn + 2 }
  have broke : onStart newId opened (w "br") [(w "type", "page".toList)] = broken :=
    onStart_br newId opened rfl
  have closed := onEnd_p { broken with inR := false } (openedBlock (newId (st.drawn + 1))) rfl rfl
  have run :
      importEvents xml newId st breakEvents = onEnd { broken with inR := false } (w "p") := by
    unfold breakEvents
    rw [importEvents_cons, importEvent, onStart_p newId st idle.body, importEvents_cons,
      importEvent, onStart_r newId _ rfl, importEvents_cons, importEvent, broke, importEvents_cons,
      importEvent, onEnd_r]
    rfl
  rw [run, closed]
  exact ⟨_, closedBlock { broken with inR := false } (openedBlock (newId (st.drawn + 1))),
    ⟨idle.body, rfl, rfl, idle.text⟩,
    List.append_assoc _ _ _⟩

/-- What the paragraphs of a block are read as. -/
def Produces (block : Block) (read : List Block) : Prop :=
  (block.blockType = .pageBreak → read.length = 2) ∧
    (block.blockType ≠ .pageBreak → ∃ b, Reads block b ∧ read = [b])

theorem import_blocks (blocks : List Block) (exportable : ∀ block ∈ blocks, Exportable block)
    (st : ImportState) (idle : Idle st) :
    ∃ pieces, List.Forall₂ Produces blocks pieces ∧
      Idle (importEvents xml newId st (blocks.flatMap blockEvents)) ∧
      (importEvents xml newId st (blocks.flatMap blockEvents)).blocks = st.blocks ++
        pieces.flatten := by
  induction blocks generalizing st with
  | nil => exact ⟨[], List.Forall₂.nil, idle, (List.append_nil _).symm⟩
  | cons block blocks ih =>
      have first : ∃ read, Produces block read ∧
          Idle (importEvents xml newId st (blockEvents block)) ∧
          (importEvents xml newId st (blockEvents block)).blocks = st.blocks ++ read := by
        by_cases kind : block.blockType = .pageBreak
        · obtain ⟨one, two, idle, blocks⟩ := import_breakEvents xml newId st idle
          refine ⟨[one, two], ⟨fun _ => rfl, fun other => absurd kind other⟩, ?_⟩
          unfold blockEvents
          rw [if_pos kind]
          exact ⟨idle, blocks⟩
        · obtain ⟨b, reads, idle, blocks⟩ :=
            import_blockEvents xml newId block (exportable block List.mem_cons_self) kind st idle
          exact ⟨[b], ⟨fun same => absurd same kind, fun _ => ⟨b, reads, rfl⟩⟩, idle, blocks⟩
      obtain ⟨read, produces, between, added⟩ := first
      obtain ⟨pieces, rest, last, more⟩ :=
        ih (fun other member => exportable other (List.mem_cons_of_mem _ member)) _ between
      rw [List.flatMap_cons, importEvents_append]
      refine ⟨read :: pieces, List.Forall₂.cons produces rest, last, ?_⟩
      rw [more, added, List.append_assoc, List.flatten_cons]

/-- Nothing behind the body is read. -/
theorem import_sectEvents (st : ImportState) (doc : EradDocument) :
    importEvents xml newId st (sectEvents doc ++ [Event.stop (w "body"), .stop (w "document")]) =
      st := by
  have reference (name id : String) (margin : Str) (other : localName (w name) ∉ knownNames)
      (st : ImportState) :
      importEvents xml newId st (referenceEvents name id margin) = st := by
    unfold referenceEvents
    split
    · exact onStart_other newId st _ _ other
    · rfl
  unfold sectEvents
  dsimp only
  rw [List.cons_append, List.cons_append, List.cons_append, importEvents_cons, importEvent,
    onStart_other newId st (w "sectPr") _ (by decide),
    importEvents_cons, importEvent, onStart_other newId st (w "pgSz") _ (by decide),
    importEvents_cons, importEvent, onStart_other newId st (w "pgMar") _ (by decide),
    importEvents_append, importEvents_append, importEvents_append, reference _ _ _ (by decide),
    reference _ _ _ (by decide)]
  exact (congrArg (fun st => onEnd (onEnd st (w "body")) (w "document"))
    (onEnd_other st (w "sectPr") (by decide))).trans
    ((congrArg (fun st => onEnd st (w "document")) (onEnd_other st (w "body") (by decide))).trans
      (onEnd_other st (w "document") (by decide)))

/-- The blocks of an exported document's import. -/
theorem import_documentEvents (doc : EradDocument)
    (exportable : ∀ block ∈ doc.blocks, Exportable block) :
    ∃ pieces, List.Forall₂ Produces doc.blocks pieces ∧
      (importEvents xml newId { drawn := 1 } (.decl declContent :: documentEvents doc)).blocks =
        pieces.flatten := by
  have idle : Idle { inBody := true, drawn := 1 } := ⟨rfl, rfl, rfl, rfl⟩
  obtain ⟨pieces, produces, -, blocks⟩ := import_blocks xml newId doc.blocks exportable _ idle
  refine ⟨pieces, produces, ?_⟩
  have opened : onStart newId { drawn := 1 } (w "document")
      [("xmlns:w".toList, wNs), ("xmlns:r".toList, relationships)] = { drawn := 1 } :=
    onStart_other newId _ _ _ (by decide)
  unfold documentEvents
  rw [importEvents_cons, importEvent, importEvents_cons, importEvent, onText, if_neg (by decide),
    importEvents_cons, importEvent, opened, importEvents_cons, importEvent, onStart_body,
    List.append_assoc, importEvents_append, import_sectEvents, blocks]
  rfl

end Documents

section RoundTrip

variable (upper : Str → Str) (xml : Xml.Reader) (newId : Nat → Str) (zip : Zip)

/-! ### The whole way -/

theorem docxParts_nodup (doc : EradDocument) : ((docxParts upper doc).map Prod.fst).Nodup := by
  unfold docxParts
  cases marginXml "hdr" doc.header with
  | nil =>
      cases marginXml "ftr" doc.footer with
      | nil => exact (by decide : ["[Content_Types].xml".toList, "_rels/.rels".toList, documentName,
          "word/_rels/document.xml.rels".toList].Nodup)
      | cons c rest =>
          exact (by decide : ["[Content_Types].xml".toList, "_rels/.rels".toList, documentName,
          "word/_rels/document.xml.rels".toList, "word/footer1.xml".toList].Nodup)
  | cons d other =>
      cases marginXml "ftr" doc.footer with
      | nil => exact (by decide : ["[Content_Types].xml".toList, "_rels/.rels".toList, documentName,
          "word/_rels/document.xml.rels".toList, "word/header1.xml".toList].Nodup)
      | cons c rest =>
          exact (by decide : ["[Content_Types].xml".toList, "_rels/.rels".toList, documentName,
          "word/_rels/document.xml.rels".toList, "word/header1.xml".toList,
          "word/footer1.xml".toList].Nodup)

theorem find_documentName (doc : EradDocument) :
    (docxParts upper doc).find? (fun part => part.1 = "word/document.xml".toList) = some
    (documentName, documentXml upper doc) := by
  have skip (key name text : Str) (rest : List (Str × Str)) (other : name ≠ key) :
      ((name, text) :: rest).find? (fun part => part.1 = key) = rest.find? fun part =>
        part.1 = key :=
    List.find?_cons_of_neg (by simpa using other)
  have take (key text : Str) (rest : List (Str × Str)) :
      ((key, text) :: rest).find? (fun part => part.1 = key) = some (key, text) :=
        List.find?_cons_of_pos (by simp)
  unfold docxParts
  rw [List.append_assoc, List.cons_append, List.cons_append, List.cons_append,
    skip _ _ _ _ (by decide), skip _ _ _ _ (by decide)]
  exact take documentName _ _

/-- More blocks come back than there were, and just more with a page break. -/
theorem length_produces {blocks : List Block} {pieces : List (List Block)}
    (produces : List.Forall₂ Produces blocks pieces) :
    blocks.length ≤ pieces.flatten.length ∧ ((∃ block ∈ blocks, block.blockType = .pageBreak) →
      blocks.length < pieces.flatten.length) := by
  induction produces with
  | nil => exact ⟨le_rfl, fun ⟨_, none_, _⟩ => by cases none_⟩
  | cons first rest ih =>
      rename_i block read blocks pieces
      rw [List.flatten_cons, List.length_append, List.length_cons]
      by_cases kind : block.blockType = .pageBreak
      · have two := first.1 kind
        exact ⟨by omega, fun _ => by omega⟩
      · obtain ⟨b, -, one⟩ := first.2 kind
        have len : read.length = 1 := by rw [one]; rfl
        refine ⟨by omega, ?_⟩
        rintro ⟨other, member, same⟩
        have inside : other ∈ blocks := by
          cases List.mem_cons.mp member with
          | inl here =>
              rw [here] at same
              exact absurd same kind
          | inr later => exact later
        have more := ih.2 ⟨other, inside, same⟩
        omega

/-- A document is exported and imported, and its blocks come back as their paragraphs are read. -/
theorem import_exportDocx (faithful : zip.Faithful) (doc : EradDocument) (some_ : doc.blocks ≠ [])
    (exportable : ∀ block ∈ doc.blocks, Exportable block) :
    ∃ data doc' pieces, exportDocx upper zip doc = some data ∧
      importDocx xml newId zip data = some doc' ∧
      List.Forall₂ Produces doc.blocks pieces ∧ doc'.blocks = pieces.flatten := by
  obtain ⟨data, written, opens, named⟩ :=
    faithful.returns (docxParts upper doc) (docxParts_nodup upper doc)
  obtain ⟨pieces, produces, blocks⟩ := import_documentEvents xml newId doc exportable
  have part : zip.byName data "word/document.xml".toList = some (some (documentXml upper doc)) := by
    rw [named, find_documentName]
    rfl
  have declOk : EventOk (.decl declContent) := List.all_eq_true.mp (by decide)
  have read :
      xml.read (documentXml upper doc) = some (.decl declContent :: documentEvents doc) := by
    rw [← render_documentEvents upper doc exportable]
    exact xml.reads _ _ declOk (tidy_documentEvents doc exportable)
  have filled : pieces.flatten ≠ [] := by
    intro empty
    have few := (length_produces produces).1
    rw [empty, List.length_nil, Nat.le_zero, List.length_eq_zero_iff] at few
    exact some_ few
  refine ⟨data, importedDoc newId (importEvents xml newId { drawn := 1 }
    (.decl declContent :: documentEvents doc)), pieces, written, ?_,
    produces, ?_⟩
  · unfold importDocx
    rw [if_pos opens, part]
    dsimp only
    rw [parseDocumentXml, read, Option.map_some]
  · unfold importedDoc
    dsimp only
    rw [if_neg (by rw [blocks]; simpa using filled), blocks]

theorem reads_produces {blocks : List Block} {pieces : List (List Block)}
    (produces : List.Forall₂ Produces blocks pieces) (unbroken : ∀ block ∈ blocks,
      block.blockType ≠ .pageBreak) : List.Forall₂ Reads blocks pieces.flatten := by
  induction produces with
  | nil => exact List.Forall₂.nil
  | cons first rest ih =>
      obtain ⟨b, reads, one⟩ := first.2 (unbroken _ List.mem_cons_self)
      rw [List.flatten_cons, one, List.singleton_append]
      exact List.Forall₂.cons reads
        (ih fun block member => unbroken block (List.mem_cons_of_mem _ member))

theorem forall₂_iff_of_reads {blocks read : List Block} (related : Block → Block → Prop)
    (own : Block → Prop) (fine : ∀ a b, Reads a b → (related a b ↔ own a))
    (reads : List.Forall₂ Reads blocks read) :
    List.Forall₂ related blocks read ↔ ∀ block ∈ blocks, own block := by
  induction reads with
  | nil => exact ⟨fun _ _ inside => absurd inside List.not_mem_nil, fun _ => List.Forall₂.nil⟩
  | cons first rest ih => rw [List.forall₂_cons, List.forall_mem_cons, fine _ _ first, ih]

theorem roundTrips_iff_own (faithful : zip.Faithful) (doc : EradDocument) (some_ : doc.blocks ≠ [])
    (exportable : ∀ block ∈ doc.blocks, Exportable block) (related : Block → Block → Prop)
    (own : Block → Prop) (fine : ∀ a b, Reads a b → (related a b ↔ own a)) :
    RoundTrips upper xml newId zip related doc ↔
      ∀ block ∈ doc.blocks, block.blockType ≠ .pageBreak ∧ own block := by
  obtain ⟨data, doc', pieces, exported, imported, produces, blocks⟩ :=
    import_exportDocx upper xml newId zip faithful doc some_ exportable
  have way : RoundTrips upper xml newId zip related doc ↔
      List.Forall₂ related doc.blocks pieces.flatten := by
    rw [← blocks]
    constructor
    · rintro ⟨data', doc'', exported', imported', all⟩
      rw [exported, Option.some.injEq] at exported'
      rw [← exported', imported, Option.some.injEq] at imported'
      rwa [imported']
    · exact fun all => ⟨data, doc', exported, imported, all⟩
  rw [way]
  by_cases broken : ∃ block ∈ doc.blocks, block.blockType = .pageBreak
  · have more := (length_produces produces).2 broken
    obtain ⟨block, member, kind⟩ := broken
    exact ⟨fun all => absurd all.length_eq (by omega), fun all => absurd kind (all block member).1⟩
  · have unbroken : ∀ block ∈ doc.blocks, block.blockType ≠ .pageBreak :=
      fun block member kind => broken ⟨block, member, kind⟩
    rw [forall₂_iff_of_reads related own fine (reads_produces produces unbroken)]
    exact ⟨fun all block member => ⟨unbroken block member, all block member⟩,
      fun all block member => (all block member).2⟩

theorem sameShape_of_reads (a b : Block) (reads : Reads a b) : SameShape a b where
  blockType := reads.blockType
  heading := fun kind => by rw [reads.headingLevel, if_pos kind]
  list := fun kind =>
    by rw [reads.listType, reads.listLevel, if_pos kind, if_pos kind]; exact ⟨rfl, rfl⟩
  spans := fun _ => reads.inlines

theorem sameFields_iff_of_reads (a b : Block) (reads : Reads a b) :
    SameFields a b ↔ OwnLevels a := by
  constructor
  · intro same
    constructor
    · intro kind
      rw [← same.headingLevel, reads.headingLevel, if_neg kind]
    · intro kind
      rw [← same.listType, ← same.listLevel, reads.listType, reads.listLevel, if_neg kind,
        if_neg kind]
      exact ⟨rfl, rfl⟩
  · intro own
    refine ⟨reads.blockType, ?_, ?_, ?_, fun _ => reads.inlines⟩
    · rw [reads.headingLevel]
      split
      · rfl
      · rename_i kind
        exact (own.heading kind).symm
    · rw [reads.listType]
      split
      · rfl
      · rename_i kind
        exact (own.list kind).1.symm
    · rw [reads.listLevel]
      split
      · rfl
      · rename_i kind
        exact (own.list kind).2.symm

/-- An exported document comes back with its kinds, levels and joined spans if it has no page break;
with the levels of every block if none has levels that its kind does not have. -/
theorem docx_round_trip_iff (faithful : zip.Faithful) (doc : EradDocument) (some_ : doc.blocks ≠ [])
    (exportable : ∀ block ∈ doc.blocks, Exportable block) :
    (RoundTrips upper xml newId zip SameShape doc ↔
      ∀ block ∈ doc.blocks, block.blockType ≠ .pageBreak) ∧
      (RoundTrips upper xml newId zip SameFields doc ↔
        ∀ block ∈ doc.blocks, block.blockType ≠ .pageBreak ∧ OwnLevels block) := by
  constructor
  · rw [roundTrips_iff_own upper xml newId zip faithful doc some_ exportable SameShape
      (fun _ => True)
      fun a b reads => ⟨fun _ => trivial, fun _ => sameShape_of_reads a b reads⟩]
    simp
  · exact roundTrips_iff_own upper xml newId zip faithful doc some_ exportable SameFields OwnLevels
      sameFields_iff_of_reads

end RoundTrip

/-! ### Two documents -/

/-- A heading and a list item of an empty span and two bold ones. -/
def agenda : EradDocument :=
  { EradDocument.empty [] with
    blocks :=
      [{ Block.paragraph [] "R&D".toList with blockType := .heading, headingLevel := 2 },
        { Block.paragraph [] [] with
          blockType := .listItem, listType := some .ordered, listLevel := 8
          inlines := [InlineSpan.plain [], { InlineSpan.plain " a".toList with bold := true },
            { InlineSpan.plain "b ".toList with bold := true }] }] }

theorem agenda_round_trip : RoundTrips id Xml.plainReader decimal Zip.stored SameShape agenda := by
  refine (docx_round_trip_iff id Xml.plainReader decimal Zip.stored Zip.stored_faithful agenda
    (List.cons_ne_nil _ _) ?_).1.mpr (by decide)
  have plain (text : Str) (bold : Bool) (clear : (text.all fun c => 32 ≤ c.toNat) = true) :
      PlainSpan { InlineSpan.plain text with bold := bold } :=
    ⟨rfl, rfl, rfl, rfl, rfl, rfl, rfl, fun c inside =>
      of_decide_eq_true (List.all_eq_true.mp clear c inside)⟩
  intro block member
  simp only [agenda, List.mem_cons, List.not_mem_nil, or_false] at member
  cases member with
  | inl heading =>
      rw [heading]
      refine ⟨⟨rfl, by decide, by decide⟩, ?_⟩
      intro span inside
      rw [List.mem_singleton.mp inside]
      exact plain _ false (by decide)
  | inr item =>
      rw [item]
      refine ⟨⟨by decide, by decide⟩, ?_⟩
      intro span inside
      simp only [List.mem_cons, List.not_mem_nil, or_false] at inside
      rcases inside with rfl | rfl | rfl
      · exact plain _ false (by decide)
      · exact plain _ true (by decide)
      · exact plain _ true (by decide)

/-- A document of a page break. -/
def blankPage : EradDocument :=
  { EradDocument.empty [] with
    blocks := [{ Block.paragraph [] [] with blockType := .pageBreak, inlines := [] }] }

/-- The paragraph of the page break comes back behind it. -/
theorem page_break_doubled :
    (∀ block ∈ blankPage.blocks, Exportable block) ∧
      ((exportDocx id Zip.stored blankPage).bind
        (importDocx Xml.plainReader decimal Zip.stored)).map
        (fun doc => doc.blocks.map (·.blockType)) = some [.pageBreak, .paragraph] ∧
      ¬ RoundTrips id Xml.plainReader decimal Zip.stored SameShape blankPage := by
  have types :
      ((exportDocx id Zip.stored blankPage).bind
        (importDocx Xml.plainReader decimal Zip.stored)).map
      (fun doc => doc.blocks.map (·.blockType)) = some [.pageBreak, .paragraph] := by decide +kernel
  refine ⟨?_, types, ?_⟩
  · intro block member
    rw [List.mem_singleton.mp member]
    exact ⟨trivial, fun _ none_ => by cases none_⟩
  · rintro ⟨data, doc, exported, imported, all⟩
    rw [exported, Option.bind_some, imported, Option.map_some, Option.some.injEq] at types
    have two := congrArg List.length types
    rw [List.length_map, ← all.length_eq] at two
    exact absurd two (by decide)

end EraOne.Docs
