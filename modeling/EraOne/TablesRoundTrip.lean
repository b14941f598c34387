import EraOne.TablesXml

set_option autoImplicit false

/- The whole workbook, exported and imported: the list of tabs, the relationships that lead to
their worksheets, and the recalculation of every tab at the end. -/
namespace EraOne.Tables

open Scan Maps EratSheet

section Entries

/-- A tab's entry after the start of its tag. -/
def entryBody (idx : Nat) (name : Str) : Str :=
  "name=\"".toList ++ (xmlEscape name ++ ("\" sheetId=\"".toList ++ (Nat.toDigits 10 idx ++
    ("\" r:id=\"".toList ++ (relationshipId idx ++ "\"/>".toList)))))

theorem sheetEntryXml_eq (idx : Nat) (name : Str) :
    sheetEntryXml idx name = "<sheet ".toList ++ entryBody idx name := by
  unfold sheetEntryXml entryBody
  simp only [List.append_assoc]
  rfl

/-- The id that the reader takes for the tab's relationship. A name that ends in `r:id=` is taken
for the attribute. -/
def entryRid (idx : Nat) (name : Str) : Str :=
  if "r:id=".toList <:+ xmlEscape name then " sheetId=".toList else relationshipId idx

theorem not_mem_relationshipId (idx : Nat) (c : Char) (letters : c ∉ "rId".toList)
    (other : c.isDigit = false) : c ∉ relationshipId idx := by
  rw [relationshipId, List.mem_append, not_or]
  exact ⟨letters, digits_not_mem idx c other⟩

theorem quiet_entryBody (idx : Nat) (name : Str) : Quiet "<sheet ".toList (entryBody idx name) := by
  apply quiet_of_not_mem
  have escaped := not_mem_xmlEscape name '<' (Or.inl rfl)
  have digits := digits_not_mem idx '<' (by decide)
  have rid := not_mem_relationshipId idx '<' (by decide) (by decide)
  unfold entryBody
  simp only [List.mem_append, not_or]
  exact ⟨by decide, escaped, by decide, digits, by decide, rid, by decide⟩

theorem entryName (idx : Nat) (name rest : Str) :
    attrValue (entryBody idx name ++ rest) "name".toList = some (xmlEscape name) := by
  have shape :
      entryBody idx name ++ rest = "name".toList ++ "=\"".toList ++ (xmlEscape name ++ '"' ::
      (" sheetId=\"".toList ++
        (Nat.toDigits 10 idx ++ ("\" r:id=\"".toList ++ (relationshipId idx ++
        ("\"/>".toList ++ rest)))))) := by
    unfold entryBody
    simp only [List.append_assoc]
    rfl
  rw [shape]
  exact attrValue_match _ _ _ (not_mem_xmlEscape name '"' (Or.inr (Or.inr rfl)))

/-- An attribute is found at the first quote that its name stands before. -/
theorem attrValue_delimited (name piece rest : Str) (absent : '"' ∉ name) (clear : '"' ∉ piece) :
    attrValue (piece ++ '"' :: rest) name =
      if name ++ ['='] <:+ piece then (splitOnce ['"'] rest).map Prod.fst
        else attrValue rest name := by
  have pattern : name ++ "=\"".toList = (name ++ ['=']) ++ ['"'] := by simp
  unfold attrValue
  rw [pattern, splitOnce_delimited (name ++ ['=']) piece rest '"' (by simpa using absent) clear]
  split
  · rw [Option.bind_eq_bind, Option.bind_some]
    cases splitOnce ['"'] rest <;> rfl
  · cases splitOnce ((name ++ ['=']) ++ ['"']) rest <;> rfl

theorem splitOnce_quote (value rest : Str) (clear : '"' ∉ value) :
    splitOnce ['"'] (value ++ '"' :: rest) = some (value, rest) :=
  splitOnce_quiet_match ['"'] value rest (by simp) (quiet_of_not_mem '"' [] value clear)

theorem not_suffix_of_not_mem (front piece : Str) (c : Char) (needs : c ∈ front)
    (lacks : c ∉ piece) :
    ¬ front <:+ piece :=
  fun ends => lacks (ends.subset needs)

theorem entryRelation (idx : Nat) (name rest : Str) :
    attrValue (entryBody idx name ++ rest) "r:id".toList = some (entryRid idx name) := by
  have shape : entryBody idx name ++ rest = "name=".toList ++ '"' :: (xmlEscape name ++ '"' ::
      (" sheetId=".toList ++ '"' :: (Nat.toDigits 10 idx ++ '"' :: (" r:id=".toList ++ '"' ::
        (relationshipId idx ++ '"' :: ("/>".toList ++ rest)))))) := by
    unfold entryBody
    simp only [List.append_assoc]
    rfl
  have escaped := not_mem_xmlEscape name '"' (Or.inr (Or.inr rfl))
  have digits := digits_not_mem idx '"' (by decide)
  have rid := not_mem_relationshipId idx '"' (by decide) (by decide)
  unfold entryRid
  rw [shape, attrValue_delimited _ _ _ (by decide) (by decide), if_neg (by decide),
    attrValue_delimited _ _ _ (by decide) escaped]
  have front : "r:id".toList ++ ['='] = "r:id=".toList := by decide
  rw [front]
  split
  · rw [splitOnce_quote _ _ (by decide)]
    rfl
  · rw [attrValue_delimited _ _ _ (by decide) (by decide), if_neg (by decide),
      attrValue_delimited _ _ _ (by decide) digits,
      if_neg (not_suffix_of_not_mem _ _ '=' (by decide) (digits_not_mem idx '=' (by decide))),
      attrValue_delimited _ _ _ (by decide) (by decide), if_pos (by decide),
      splitOnce_quote _ _ rid]
    rfl

theorem entryRid_ne_nil (idx : Nat) (name : Str) : entryRid idx name ≠ [] := by
  unfold entryRid relationshipId
  split <;> simp

theorem sheetTag_ne_nil : "<sheet ".toList ≠ [] := by decide

/-- The two attributes that the loop over the tabs reads. -/
def entryAttrs (chunk : Str) : Option Str × Option Str :=
  (attrValue chunk "name".toList, attrValue chunk "r:id".toList)

theorem reads_entries (tabs : List ((Str × StrMap Cell) × Nat)) :
    Reads "<sheet ".toList (fun _ => True) entryAttrs
      (tabs.flatMap (fun tab => sheetEntryXml tab.2 tab.1.1) ++ "</sheets></workbook>".toList)
      (tabs.map fun tab => (some (xmlEscape tab.1.1), some (entryRid tab.2 tab.1.1))) := by
  induction tabs with
  | nil => exact reads_end sheetTag_ne_nil _ (quiet_of_tails _ _ (by decide)) trivial
  | cons tab tabs ih =>
      rw [List.flatMap_cons, sheetEntryXml_eq, List.append_assoc, List.append_assoc]
      refine Reads.item sheetTag_ne_nil ih _ _ (quiet_entryBody tab.2 tab.1.1) trivial ?_
      intro rest _
      rw [entryAttrs, entryName, entryRelation]

/-- The loop keeps every tab, since every id is found and not empty. -/
theorem collect_entries (chunks : List Str) (tabs : List ((Str × StrMap Cell) × Nat))
    (out : List (Str × Str))
    (found : chunks.map entryAttrs =
      tabs.map fun tab => (some (xmlEscape tab.1.1), some (entryRid tab.2 tab.1.1))) :
    chunks.foldl (fun out chunk =>
      let name := (attrValue chunk "name".toList).getD
        ("Sheet".toList ++ Nat.toDigits 10 (out.length + 1))
      let rid := ((attrValue chunk "r:id".toList).or (attrValue chunk "id".toList)).getD []
      if rid.isEmpty then out else out ++ [(xmlUnescape name, rid)]) out =
      out ++ tabs.map fun tab => (tab.1.1, entryRid tab.2 tab.1.1) := by
  induction tabs generalizing chunks out with
  | nil =>
      rw [List.map_nil, List.map_eq_nil_iff] at found
      subst found
      simp
  | cons tab tabs ih =>
      obtain ⟨chunk, chunks, rfl⟩ := List.exists_cons_of_ne_nil
        (l := chunks) (by rintro rfl; cases found)
      rw [List.map_cons, List.map_cons, List.cons.injEq] at found
      obtain ⟨here, later⟩ := found
      obtain ⟨name, rid⟩ := Prod.mk.inj here
      rw [List.foldl_cons, ih chunks _ later]
      dsimp only
      rw [name, rid, Option.some_or, Option.getD_some, Option.getD_some, xmlUnescape_escape,
        if_neg (by simpa using entryRid_ne_nil tab.2 tab.1.1)]
      simp

theorem quiet_workbookHead : Quiet "<sheet ".toList workbookHead :=
  quiet_spelled _ _ _ (spell_append (spell_append (spell_append String.toList_ofList)))
    (by decide +kernel)

/-- The names come back in order, each with an id. -/
theorem parseWorkbookSheets_workbookXml (tabs : List (Str × StrMap Cell)) :
    parseWorkbookSheets (workbookXml tabs) =
      (numbered tabs).map fun tab => (tab.1.1, entryRid tab.2 tab.1.1) := by
  obtain ⟨head, tail, split, -, chunks⟩ := reads_entries (numbered tabs)
  have whole :=
    splitAll_quiet_append sheetTag_ne_nil workbookHead _ head tail quiet_workbookHead split
  unfold parseWorkbookSheets workbookXml
  rw [List.append_assoc, whole, List.drop_one, List.tail_cons]
  have all := collect_entries tail (numbered tabs) [] chunks
  rwa [List.nil_append] at all

end Entries

section Relationships

def targetOf (idx : Nat) : Str := "worksheets/".toList ++ worksheetFile idx

def relationshipBody (idx : Nat) : Str :=
  "Id=\"".toList ++ (relationshipId idx ++ ("\" Type=\"".toList ++ (relationshipType ++
    ("\" Target=\"".toList ++ (targetOf idx ++ "\"/>".toList)))))

theorem relationshipXml_eq (idx : Nat) :
    relationshipXml idx = "<Relationship ".toList ++ relationshipBody idx := by
  unfold relationshipXml relationshipBody targetOf
  simp only [List.append_assoc]
  rfl

theorem not_mem_targetOf (idx : Nat) (c : Char) (letters : c ∉ "worksheets/".toList)
    (file : c ∉ "sheet.xml".toList) (other : c.isDigit = false) : c ∉ targetOf idx := by
  have digits := digits_not_mem idx c other
  have both : "sheet.xml".toList = "sheet".toList ++ ".xml".toList := by decide
  rw [both, List.mem_append, not_or] at file
  unfold targetOf worksheetFile
  simp only [List.mem_append, not_or]
  exact ⟨letters, ⟨file.1, digits⟩, file.2⟩

theorem quiet_relationshipBody (idx : Nat) :
    Quiet "<Relationship ".toList (relationshipBody idx) := by
  apply quiet_of_not_mem
  have rid := not_mem_relationshipId idx '<' (by decide) (by decide)
  have target := not_mem_targetOf idx '<' (by decide) (by decide) (by decide)
  unfold relationshipBody
  simp only [List.mem_append, not_or]
  exact ⟨by decide, rid, by decide, by decide, by decide, target, by decide⟩

theorem relationshipType_plain : '"' ∉ relationshipType ∧ '=' ∉ relationshipType := by
  decide

section Body

variable (idx : Nat) (rest : Str)

theorem relationshipBody_append :
    relationshipBody idx ++ rest = "Id=".toList ++ '"' :: (relationshipId idx ++ '"' ::
      (" Type=".toList ++ '"' :: (relationshipType ++ '"' :: (" Target=".toList ++ '"' ::
        (targetOf idx ++ '"' :: ("/>".toList ++ rest)))))) := by
  unfold relationshipBody
  simp only [List.append_assoc]
  rfl

theorem relationship_id :
    attrValue (relationshipBody idx ++ rest) "Id".toList = some (relationshipId idx) := by
  have rid := not_mem_relationshipId idx '"' (by decide) (by decide)
  rw [relationshipBody_append, attrValue_delimited _ _ _ (by decide) (by decide),
    if_pos (by decide), splitOnce_quote _ _ rid]
  rfl

theorem relationship_target :
    attrValue (relationshipBody idx ++ rest) "Target".toList = some (targetOf idx) := by
  have rid := not_mem_relationshipId idx '"' (by decide) (by decide)
  have plain := not_mem_relationshipId idx '=' (by decide) (by decide)
  have target := not_mem_targetOf idx '"' (by decide) (by decide) (by decide)
  have name : '=' ∈ "Target".toList ++ ['='] := by decide
  rw [relationshipBody_append, attrValue_delimited _ _ _ (by decide) (by decide),
    if_neg (by decide), attrValue_delimited _ _ _ (by decide) rid,
    if_neg (not_suffix_of_not_mem _ _ '=' name plain),
    attrValue_delimited _ _ _ (by decide) (by decide), if_neg (by decide),
    attrValue_delimited _ _ _ (by decide) relationshipType_plain.1,
    if_neg (not_suffix_of_not_mem _ _ '=' name relationshipType_plain.2),
    attrValue_delimited _ _ _ (by decide) (by decide), if_pos (by decide),
    splitOnce_quote _ _ target]
  rfl

theorem readRelationship_body :
    readRelationship (relationshipBody idx ++ rest) = some (relationshipId idx, targetOf idx) := by
  have worksheet : contains "worksheets/".toList (targetOf idx) = true := by
    unfold contains targetOf
    rw [splitOnce_match _ _ (by decide)]
    rfl
  unfold readRelationship
  rw [relationship_id, relationship_target, Option.bind_eq_bind, Option.bind_some, Option.bind_some]
  dsimp only
  rw [if_pos (Or.inr worksheet)]
  rfl

end Body

theorem relationshipTag_ne_nil : "<Relationship ".toList ≠ [] := by decide

theorem reads_relationships (tabs : List ((Str × StrMap Cell) × Nat)) :
    Reads "<Relationship ".toList (fun _ => True) readRelationship
      (tabs.flatMap (fun tab => relationshipXml tab.2) ++ "</Relationships>".toList)
      (tabs.map fun tab => some (relationshipId tab.2, targetOf tab.2)) := by
  induction tabs with
  | nil => exact reads_end relationshipTag_ne_nil _ (quiet_of_tails _ _ (by decide)) trivial
  | cons tab tabs ih =>
      rw [List.flatMap_cons, relationshipXml_eq, List.append_assoc, List.append_assoc]
      exact Reads.item relationshipTag_ne_nil ih _ _ (quiet_relationshipBody tab.2) trivial
        fun rest _ => readRelationship_body tab.2 rest

theorem quiet_relationshipsHead : Quiet "<Relationship ".toList relationshipsHead :=
  quiet_spelled _ _ _ (spell_append String.toList_ofList) (by rfl)

theorem relationshipId_inj (i j : Nat) (same : relationshipId i = relationshipId j) : i = j := by
  have digits := List.append_cancel_left same
  have values := parseDigits_toDigits i
  rw [digits, parseDigits_toDigits, Option.some.injEq] at values
  exact values.symm

/-- A relationship that is found leads to the worksheet of its number. -/
theorem parseWorkbookRels_spec (tabs : List (Str × StrMap Cell)) (key target : Str)
    (found : (parseWorkbookRels (relationshipsXml tabs))[key]? = some target) :
    ∃ idx, key = relationshipId idx ∧ target = targetOf idx := by
  obtain ⟨head, tail, split, -, chunks⟩ := reads_relationships (numbered tabs)
  have whole := splitAll_quiet_append relationshipTag_ne_nil relationshipsHead _ head tail
    quiet_relationshipsHead split
  unfold parseWorkbookRels relationshipsXml at found
  rw [List.append_assoc, whole, List.drop_one, List.tail_cons,
    foldl_insert_eq_ofList readRelationship,
    ← Std.ExtTreeMap.mem_toList_iff_getElem?_eq_some] at found
  · have written := mem_of_mem_toList_ofList _ _ found
    obtain ⟨chunk, member, read⟩ := List.mem_filterMap.mp written
    have listed : some (key, target) ∈ tail.map readRelationship :=
      List.mem_map.mpr ⟨chunk, member, read⟩
    rw [chunks, List.mem_map] at listed
    obtain ⟨tab, -, same⟩ := listed
    obtain ⟨rfl, rfl⟩ := Prod.mk.inj (Option.some.inj same)
    exact ⟨tab.2, rfl, rfl⟩
  · intro next chunk
    cases readRelationship chunk <;> rfl

/-- Whichever id was read for a tab, it leads to the tab's own worksheet: an id that is not known
has the worksheet of the tab's number for its default. -/
theorem target_of_entry (tabs : List (Str × StrMap Cell)) (idx : Nat) (name : Str) :
    (parseWorkbookRels (relationshipsXml tabs))[entryRid idx name]?.getD (targetOf idx) =
      targetOf idx := by
  cases found : (parseWorkbookRels (relationshipsXml tabs))[entryRid idx name]? with
  | none => rfl
  | some target =>
      obtain ⟨other, key, rfl⟩ := parseWorkbookRels_spec tabs _ target found
      unfold entryRid at key
      split at key
      · exact absurd (congrArg List.head? key) (by unfold relationshipId; simp)
      · rw [Option.getD_some, relationshipId_inj _ _ key]

end Relationships

section Parts

variable {rt : Runtime}

theorem worksheetZipPath_targetOf (idx : Nat) :
    worksheetZipPath (targetOf idx) = "xl/worksheets/".toList ++ worksheetFile idx := by
  unfold worksheetZipPath targetOf
  rfl

theorem worksheetFile_inj (i j : Nat) (same : worksheetFile i = worksheetFile j) : i = j := by
  unfold worksheetFile at same
  have digits := List.append_cancel_left (List.append_cancel_right same)
  have values := parseDigits_toDigits i
  rw [digits, parseDigits_toDigits, Option.some.injEq] at values
  exact values.symm

theorem numbered_map_snd (tabs : List (Str × StrMap Cell)) :
    (numbered tabs).map Prod.snd = List.range' 1 tabs.length :=
  List.zipIdx_map_snd 1 tabs

/-- The parts that every workbook has. -/
def fixedNames : List Str :=
  ["[Content_Types].xml".toList, "_rels/.rels".toList, "xl/workbook.xml".toList,
    "xl/_rels/workbook.xml.rels".toList]

variable (rt) in
theorem exportParts_names (tabs : List (Str × StrMap Cell)) :
    (exportParts rt tabs).map Prod.fst = fixedNames ++
      (numbered tabs).map fun tab => "xl/worksheets/".toList ++ worksheetFile tab.2 := by
  unfold exportParts fixedNames
  rw [List.map_append, List.map_map]
  rfl

theorem worksheet_ne (idx : Nat) (name : Str) (other : ¬ "xl/worksheets/".toList <+: name) :
    name ≠ "xl/worksheets/".toList ++ worksheetFile idx := by
  rintro rfl
  exact other (List.prefix_append _ _)

variable (rt) in
theorem nodup_exportParts (tabs : List (Str × StrMap Cell)) :
    ((exportParts rt tabs).map Prod.fst).Nodup := by
  have sheets : ((numbered tabs).map fun tab =>
      "xl/worksheets/".toList ++ worksheetFile tab.2).Nodup := by
    have numbers : ((numbered tabs).map Prod.snd).Nodup := by
      rw [numbered_map_snd]
      exact List.nodup_range'
    have named := numbers.map (f := fun idx => "xl/worksheets/".toList ++ worksheetFile idx)
      fun i j same => worksheetFile_inj i j (List.append_cancel_left same)
    rwa [List.map_map] at named
  rw [exportParts_names, List.nodup_append]
  refine ⟨by decide, sheets, ?_⟩
  intro name fixed other listed
  obtain ⟨tab, -, rfl⟩ := List.mem_map.mp listed
  have fixedOnly : ∀ name ∈ fixedNames, ¬ "xl/worksheets/".toList <+: name := by decide
  exact worksheet_ne tab.2 name (fixedOnly name fixed)

variable (rt) in
theorem worksheet_mem_exportParts (tabs : List (Str × StrMap Cell))
    (tab : (Str × StrMap Cell) × Nat) (listed : tab ∈ numbered tabs) :
    ("xl/worksheets/".toList ++ worksheetFile tab.2, buildWorksheetXml rt tab.1.2) ∈
      exportParts rt tabs := by
  unfold exportParts
  rw [List.mem_append, List.mem_map]
  exact Or.inr ⟨tab, listed, rfl⟩

section Archive

variable (zip : Zip) (bytes : zip.Bytes) (tabs : List (Str × StrMap Cell))
  (stored : ∀ name, zip.byName bytes name =
    ((exportParts rt tabs).find? fun part => part.1 = name).map fun part => some part.2)

include stored

theorem byName_part (part : Str × Str) (member : part ∈ exportParts rt tabs) :
    zip.byName bytes part.1 = some (some part.2) := by
  rw [stored, find?_key _ part (nodup_exportParts rt tabs) member]
  rfl

theorem loadSharedStrings_export : loadSharedStrings zip bytes = [] := by
  have missing : zip.byName bytes "xl/sharedStrings.xml".toList = none := by
    rw [stored, Option.map_eq_none_iff, List.find?_eq_none]
    intro part member same
    have name : part.1 ∈ (exportParts rt tabs).map Prod.fst := List.mem_map_of_mem member
    rw [exportParts_names, decide_eq_true_eq.mp same] at name
    rcases List.mem_append.mp name with fixed | listed
    · revert fixed
      decide
    · obtain ⟨tab, -, same⟩ := List.mem_map.mp listed
      exact worksheet_ne tab.2 "xl/sharedStrings.xml".toList (by decide) same.symm
  unfold loadSharedStrings
  rw [missing]

variable (rt) in
/-- A tab as it is read from the archive. -/
def readTab (tab : Str × StrMap Cell) : SheetTab :=
  { name := tab.1, cells := parseSheetCells rt (buildWorksheetXml rt tab.2) [] }

theorem readEntry_export (tab : Str × StrMap Cell) (done : List SheetTab)
    (listed : (tab, done.length + 1) ∈ numbered tabs) :
    readEntry rt zip bytes [] (parseWorkbookRels (relationshipsXml tabs)) done
      (tab.1, entryRid (done.length + 1) tab.1) = some (done ++ [readTab rt tab]) := by
  have part := worksheet_mem_exportParts rt tabs _ listed
  have found := byName_part zip bytes tabs stored _ part
  have target := target_of_entry tabs (done.length + 1) tab.1
  have path := worksheetZipPath_targetOf (done.length + 1)
  unfold targetOf at target path
  dsimp only at found
  unfold readEntry readTab
  rw [target]
  dsimp only
  rw [path, found, Option.join_some, Option.bind_eq_bind, Option.bind_some, Option.pure_def]

theorem readTabs_export (rest : List (Str × StrMap Cell)) (done : List SheetTab)
    (listed : ∀ tab ∈ rest.zipIdx (done.length + 1), tab ∈ numbered tabs) :
    ((rest.zipIdx (done.length + 1)).map fun tab => (tab.1.1, entryRid tab.2 tab.1.1)).foldlM
      (readEntry rt zip bytes [] (parseWorkbookRels (relationshipsXml tabs))) done =
      some (done ++ rest.map (readTab rt)) := by
  induction rest generalizing done with
  | nil => simp
  | cons tab rest ih =>
      rw [List.zipIdx_cons] at listed ⊢
      have here := listed (tab, done.length + 1) List.mem_cons_self
      have later := ih (done ++ [readTab rt tab]) (by
        intro other member
        refine listed other (List.mem_cons_of_mem _ ?_)
        simpa using member)
      rw [List.length_append, List.length_singleton, List.append_assoc, List.singleton_append]
        at later
      rw [List.map_cons, List.foldlM_cons, readEntry_export zip bytes tabs stored tab done here]
      exact later

theorem importTabs_export (filled : tabs ≠ []) :
    importTabs rt zip bytes = some (tabs.map (readTab rt)) := by
  have workbook := byName_part zip bytes tabs stored ("xl/workbook.xml".toList, workbookXml tabs)
    (by simp [exportParts])
  have rels := byName_part zip bytes tabs stored
    ("xl/_rels/workbook.xml.rels".toList, relationshipsXml tabs) (by simp [exportParts])
  have shared := loadSharedStrings_export zip bytes tabs stored
  have entries := parseWorkbookSheets_workbookXml tabs
  have some_entry : ((numbered tabs).map fun tab => (tab.1.1, entryRid tab.2 tab.1.1)).isEmpty =
      false := by
    cases tabs with
    | nil => exact absurd rfl filled
    | cons tab tabs => rfl
  have read := readTabs_export zip bytes tabs stored tabs [] (fun tab member => member)
  unfold importTabs
  dsimp only at workbook rels ⊢
  rw [shared, workbook, rels, Option.join_some, Option.bind_eq_bind, Option.bind_some,
    Option.getD_some, Option.bind_some, entries, some_entry]
  exact read

end Archive

end Parts

section Recalculation

variable {rt : Runtime}

/-- Two maps show one value and one formula at every key. -/
def SameContents (a b : StrMap Cell) : Prop :=
  ∀ key : Str, a[key]?.map (fun cell => (cell.value, cell.formula)) =
    b[key]?.map (fun cell => (cell.value, cell.formula))

theorem SameContents.value {a b : StrMap Cell} (same : SameContents a b) (key : Str) :
    SameValue a b key := by
  have values := congrArg (Option.map Prod.fst) (same key)
  rwa [Option.map_map, Option.map_map] at values

theorem SameContents.symm {a b : StrMap Cell} (same : SameContents a b) : SameContents b a :=
  fun key => (same key).symm

theorem recalcStep_sameContents (a b next : StrMap Cell) (entry : Str × Str)
    (same : SameContents a b) (step : recalcStep rt a entry = some next) :
    ∃ other, recalcStep rt b entry = some other ∧ SameContents next other := by
  have eval : evalFormula rt a entry.2 = evalFormula rt b entry.2 :=
    evalFormula_congr a b entry.2 fun key _ => same.value key
  have here := same entry.1
  unfold recalcStep at step ⊢
  rw [← eval]
  split at step
  · rename_i val evaluated
    split at step
    · rename_i cell found
      rw [found, Option.map_some, eq_comm, Option.map_eq_some_iff] at here
      obtain ⟨cell', found', shows⟩ := here
      rw [Option.some.injEq] at step
      subst step
      rw [found']
      refine ⟨_, rfl, ?_⟩
      intro key
      rw [Std.ExtTreeMap.getElem?_insert, Std.ExtTreeMap.getElem?_insert]
      split
      · rw [Option.map_some, Option.map_some, (Prod.mk.inj shows).2]
      · exact same key
    · rename_i absent
      rw [absent, Option.map_none, eq_comm, Option.map_eq_none_iff] at here
      rw [Option.some.injEq] at step
      subst step
      rw [here]
      exact ⟨b, rfl, same⟩
  · cases step

theorem recalcPass_sameContents (entries : List (Str × Str)) (a b next : StrMap Cell)
    (same : SameContents a b) (pass : entries.foldlM (recalcStep rt) a = some next) :
    ∃ other, entries.foldlM (recalcStep rt) b = some other ∧ SameContents next other := by
  induction entries generalizing a b with
  | nil =>
      have here : a = next := by simpa using pass
      subst here
      exact ⟨b, rfl, same⟩
  | cons entry entries ih =>
      rw [List.foldlM_cons] at pass
      obtain ⟨middle, step, pass⟩ := Option.bind_eq_some_iff.mp pass
      obtain ⟨middle', step', same'⟩ := recalcStep_sameContents a b middle entry same step
      rw [List.foldlM_cons, step']
      exact ih middle middle' same' pass

theorem formulaEntries_sameContents (a b : StrMap Cell) (same : SameContents a b) :
    formulaEntries a = formulaEntries b := by
  have inside (m n : StrMap Cell) (same : SameContents m n) (entry : Str × Str)
      (member : entry ∈ formulaEntries m) : entry ∈ formulaEntries n := by
    obtain ⟨cell, found, formula, filled⟩ := (mem_formulaEntries m entry.1 entry.2).mp member
    have here := same entry.1
    rw [found, Option.map_some, eq_comm, Option.map_eq_some_iff] at here
    obtain ⟨cell', found', shows⟩ := here
    refine (mem_formulaEntries n entry.1 entry.2).mpr ⟨cell', found', ?_, filled⟩
    rw [(Prod.mk.inj shows).2, formula]
  have perm : (formulaEntries a).Perm (formulaEntries b) := by
    rw [List.perm_ext_iff_of_nodup (formulaEntries_nodup a).of_map (formulaEntries_nodup b).of_map]
    exact fun entry => ⟨inside a b same entry, inside b a same.symm entry⟩
  refine List.Perm.eq_of_pairwise ?_ (formulaEntries_ordered a) (formulaEntries_ordered b) perm
  intro x y _ _ less greater
  rw [Std.OrientedCmp.gt_of_lt less] at greater
  cases greater

/-- A recalculation reads no more of the cells than their values and formulas. -/
theorem recalcCells_isSome_sameContents (a b : StrMap Cell) (same : SameContents a b)
    (returns : (recalcCells rt a).isSome = true) : (recalcCells rt b).isSome = true := by
  obtain ⟨next, pass⟩ := Option.isSome_iff_exists.mp returns
  unfold recalcCells at pass ⊢
  obtain ⟨other, pass', -⟩ := recalcPass_sameContents _ a b next same pass
  rw [← formulaEntries_sameContents a b same, pass']
  rfl

variable (rt) in
/-- A tab with its cells recalculated. -/
def recalculated (tab : SheetTab) : Option SheetTab :=
  (recalcCells rt tab.cells).map fun cells => { tab with cells := cells }

theorem switchSheet_sheets (sheet : EratSheet) (mirror : Mirror sheet) (index : Nat)
    (inside : index < sheet.sheets.length) :
    (sheet.switchSheet index).sheets = sheet.sheets ∧
      (sheet.switchSheet index).activeSheet = index := by
  unfold EratSheet.switchSheet
  dsimp only
  rw [normalizeTabs_of_mirror sheet mirror, flushActiveToTab_of_mirror sheet mirror,
    if_neg (by omega), syncActiveFromTab_of_tabs _ (by dsimp only; omega),
    clampActive_of_lt _ (by dsimp only; omega)]
  exact ⟨rfl, rfl⟩

theorem flush_replaced (sheet : EratSheet) (cells : StrMap Cell) (done rest : List SheetTab)
    (tab : SheetTab) (active : sheet.activeSheet = done.length)
    (tabs : sheet.sheets = done ++ tab :: rest) :
    (flushActiveToTab { sheet with cells := cells }).sheets =
      done ++ { tab with cells := cells } :: rest := by
  have inside : { sheet with cells := cells }.activeSheet <
      { sheet with cells := cells }.sheets.length := by
    dsimp only
    rw [active, tabs, List.length_append, List.length_cons]
    omega
  rw [flushActiveToTab_of_tabs { sheet with cells := cells } (Nat.zero_lt_of_lt inside),
    clampActive_of_lt { sheet with cells := cells } inside]
  unfold EratSheet.editTab
  dsimp only
  rw [active, tabs, List.modify_eq_take_drop, List.take_left, List.drop_left]
  rfl

variable (rt) in
/-- One turn recalculates the tab it is at. -/
theorem recalcTab_sheets (sheet : EratSheet) (mirror : Mirror sheet) (done rest : List SheetTab)
    (tab : SheetTab) (tabs : sheet.sheets = done ++ tab :: rest) :
    (recalcTab rt sheet done.length).map (·.sheets) =
      (recalculated rt tab).map fun next => done ++ next :: rest := by
  have inside : done.length < sheet.sheets.length := by
    rw [tabs, List.length_append, List.length_cons]
    omega
  obtain ⟨-, cells⟩ := switchSheet_of_mirror sheet mirror done.length
  obtain ⟨sheets, active⟩ := switchSheet_sheets sheet mirror done.length inside
  have own : sheet.tabCells done.length = tab.cells := by
    unfold EratSheet.tabCells
    rw [tabs, List.getElem?_append_right (Nat.le_refl _), Nat.sub_self]
    rfl
  rw [if_pos inside, own] at cells
  rw [tabs] at sheets
  unfold recalculated recalcTab recalcFlush recalc
  rw [cells]
  cases recalcCells rt tab.cells with
  | none => rfl
  | some next => exact congrArg some (flush_replaced _ next done rest tab active sheets)

theorem mirror_recalcTab (sheet result : EratSheet) (mirror : Mirror sheet) (index : Nat)
    (turn : recalcTab rt sheet index = some result) : Mirror result :=
  mirror_recalcFlush (sheet.switchSheet index) result
    (Nat.zero_lt_of_lt (switchSheet_of_mirror sheet mirror index).1.1) turn

variable (rt) in
/-- The loop recalculates the tabs that are left, one after the other. -/
theorem recalcLoop_spec (rest done : List SheetTab) (sheet : EratSheet) (mirror : Mirror sheet)
    (tabs : sheet.sheets = done ++ rest) :
    (∀ result ∈ (List.range' done.length rest.length).foldlM (recalcTab rt) sheet,
      Mirror result) ∧
    ((List.range' done.length rest.length).foldlM (recalcTab rt) sheet).map (·.sheets) =
      (rest.mapM (recalculated rt)).map (done ++ ·) := by
  induction rest generalizing done sheet with
  | nil =>
      refine ⟨?_, by simpa using tabs⟩
      intro result same
      cases same
      exact mirror
  | cons tab rest ih =>
      have turn := recalcTab_sheets rt sheet mirror done rest tab tabs
      rw [List.mapM_cons, List.length_cons, List.range'_succ, List.foldlM_cons]
      cases step : recalcTab rt sheet done.length with
      | none =>
          rw [step, Option.map_none, eq_comm, Option.map_eq_none_iff] at turn
          rw [turn]
          exact ⟨by simp, rfl⟩
      | some middle =>
          rw [step, Option.map_some, eq_comm, Option.map_eq_some_iff] at turn
          obtain ⟨next, recalc, tabs'⟩ := turn
          obtain ⟨kept, later⟩ := ih (done ++ [next]) middle
            (mirror_recalcTab sheet middle mirror _ step) (by rw [← tabs']; simp)
          rw [List.length_append, List.length_singleton] at kept later
          rw [recalc]
          refine ⟨kept, later.trans ?_⟩
          cases rest.mapM (recalculated rt) <;> simp

/-- Nothing is seeded where the top level has no cells. -/
theorem normalizeTabs_sheets_of_no_cells (sheet : EratSheet) (none_ : sheet.cells = ∅)
    (tabs : sheet.sheets ≠ []) : sheet.normalizeTabs.sheets = sheet.sheets := by
  have size : 0 < sheet.sheets.length := List.length_pos_of_ne_nil tabs
  have ensured : sheet.ensureTab = sheet := by
    unfold EratSheet.ensureTab
    rw [if_neg (by simpa using tabs)]
  have clamped : sheet.clampActive.sheets = sheet.sheets ∧ sheet.clampActive.cells = ∅ := by
    unfold EratSheet.clampActive
    split
    · exact ⟨rfl, none_⟩
    · exact ⟨rfl, none_⟩
  have seeded : sheet.clampActive.seedTab = sheet.clampActive := by
    unfold EratSheet.seedTab
    rw [if_neg (by rw [clamped.2]; simp)]
  unfold EratSheet.normalizeTabs
  rw [ensured, seeded, syncActiveFromTab_of_tabs _ (by rw [clamped.1]; exact size)]
  dsimp only
  rw [clampActive_of_lt _ (clampActive_lt sheet size), clamped.1]

/-- An import returns if every tab can be recalculated, with the recalculated tabs. -/
theorem recalcAll_sheets (tabs : List SheetTab) (filled : tabs ≠ []) :
    (recalcAll rt tabs).map (·.sheets) = tabs.mapM (recalculated rt) := by
  have sheets := normalizeTabs_sheets_of_no_cells
    { EratSheet.empty with sheets := tabs, activeSheet := 0 } rfl filled
  have mirror := mirror_normalizeTabs { EratSheet.empty with sheets := tabs, activeSheet := 0 }
  unfold recalcAll
  dsimp only
  generalize normalizeTabs { EratSheet.empty with sheets := tabs, activeSheet := 0 } = loaded
    at sheets mirror ⊢
  have synced : loaded.syncActiveFromTab = loaded := by
    rw [syncActiveFromTab_of_tabs _ (Nat.zero_lt_of_lt mirror.1), clampActive_of_lt _ mirror.1,
      ← mirror.2]
  obtain ⟨kept, loop⟩ := recalcLoop_spec rt tabs [] loaded mirror sheets
  rw [List.length_nil, ← List.range_eq_range'] at kept loop
  rw [synced, sheets]
  cases run : (List.range tabs.length).foldlM (recalcTab rt) loaded with
  | none =>
      rw [run] at loop
      rw [Option.bind_eq_bind, Option.bind_none, Option.map_none]
      simpa using loop
  | some result =>
      rw [run, Option.map_some] at loop
      have mirrored := kept result (by rw [run]; rfl)
      rw [Option.bind_eq_bind, Option.bind_some, Option.pure_def, Option.map_some,
        if_pos (List.length_pos_of_ne_nil filled),
        (switchSheet_sheets result mirrored 0 (Nat.zero_lt_of_lt mirrored.1)).1, loop]
      simp

end Recalculation
section RoundTrip

variable {rt : Runtime} {zip : Zip}

/-- A formula of one equals sign and a trimmed body that is not blank. -/
def WellFormedFormula (formula : Str) : Prop :=
  formula.head? = some '=' ∧ formula.tail.head? ≠ some '=' ∧ formula.tail ≠ [] ∧
    trim formula.tail = formula.tail

instance (formula : Str) : Decidable (WellFormedFormula formula) :=
  inferInstanceAs (Decidable (_ ∧ _ ∧ _ ∧ _))

/-- A canonical address whose cell shows something. -/
def WellFormedCell (entry : Str × Cell) : Prop :=
  (∃ col row, col ≠ 0 ∧ row ≠ 0 ∧ entry.1 = addrOf col row) ∧
    (entry.2.value ≠ [] ∨ WellFormedFormula entry.2.formula)

instance (entry : Str × Cell) : Decidable (WellFormedCell entry) :=
  decidable_of_iff
    (((parseAddr Runtime.plain entry.1).any fun position =>
        entry.1 = addrOf position.1 position.2) = true ∧
      (entry.2.value ≠ [] ∨ WellFormedFormula entry.2.formula)) <| by
    refine and_congr_left' ?_
    rw [Option.any_eq_true]
    constructor
    · intro ⟨position, parsed, key⟩
      have valid := parseAddr_ne_zero entry.1 position parsed
      exact ⟨position.1, position.2, valid.1, valid.2, by simpa using key⟩
    · intro ⟨col, row, hcol, hrow, key⟩
      refine ⟨(col, row), ?_, by simpa using key⟩
      rw [key]
      exact parseAddr_addrOf Runtime.plain_lawful col row hcol hrow

/-- A normalised workbook of well-formed cells. -/
structure Exportable (sheet : EratSheet) : Prop where
  normal : sheet.normalizeTabs = sheet
  cells : ∀ tab ∈ sheet.sheets, ∀ entry ∈ tab.cells.toList, WellFormedCell entry

/-- A tab comes back with its name, its addresses and formulas, and the values of the cells that
have no formula. -/
def SameTab (tab back : SheetTab) : Prop :=
  back.name = tab.name ∧ ∀ key : Str,
    back.cells[key]?.map (·.formula) = tab.cells[key]?.map (·.formula) ∧
    ∀ cell, tab.cells[key]? = some cell → cell.formula = [] →
      back.cells[key]?.map (·.value) = some cell.value

variable (rt zip) in
def RoundTrips (sheet : EratSheet) : Prop :=
  ∃ bytes back, exportXlsx rt zip sheet = some bytes ∧ importXlsx rt zip bytes = some back ∧
    List.Forall₂ SameTab sheet.sheets back.sheets

theorem WellFormedCell.readable (lawful : rt.Lawful) {entry : Str × Cell}
    (formed : WellFormedCell entry) :
    Readable rt entry ∧ (parseAddr rt entry.1).isSome = true := by
  obtain ⟨⟨col, row, hcol, hrow, key⟩, shows⟩ := formed
  have fixed := (addrOf_shape lawful col row).1
  have parsed := parseAddr_addrOf lawful col row hcol hrow
  rw [← key] at fixed parsed
  have plain : ∀ c ∈ entry.1, c ≠ '"' ∧ c ≠ 't' ∧ c ≠ '<' := by
    intro c member
    rw [key, addrOf, List.mem_append] at member
    rcases member with letter | digit
    · have upper := columnLetters_upper col c letter
      refine ⟨?_, ?_, ?_⟩ <;> rintro rfl <;> cases upper
    · have numeric := Nat.isDigit_of_mem_toDigits (by decide) (by decide) digit
      refine ⟨?_, ?_, ?_⟩ <;> rintro rfl <;> cases numeric
  refine ⟨⟨⟨fixed, plain⟩, ?_⟩, by rw [parsed]; rfl⟩
  rcases shows with value | formula
  · exact Or.inl value
  · refine Or.inr ?_
    intro empty
    rw [empty] at formula
    exact formula.2.2.1 rfl

/-- The tab that is read from the archive for a tab of the workbook. -/
theorem readTab_cells (lawful : rt.Lawful) (tab : SheetTab)
    (formed : ∀ entry ∈ tab.cells.toList, WellFormedCell entry) (key : Str) :
    (readTab rt (tab.name, tab.cells)).cells[key]? = tab.cells[key]?.map readBack := by
  unfold readTab
  dsimp only
  exact parseSheetCells_getElem? tab.cells
    (fun entry member => ((formed entry member).readable lawful).1)
    (fun entry member => ((formed entry member).readable lawful).2) key

/-- The recalculated tab is the same exactly if every formula is read as it was written. -/
theorem sameTab_iff (lawful : rt.Lawful) (tab back : SheetTab)
    (formed : ∀ entry ∈ tab.cells.toList, WellFormedCell entry)
    (done : recalculated rt (readTab rt (tab.name, tab.cells)) = some back) :
    SameTab tab back ↔ ∀ entry ∈ tab.cells.toList, PlainFormula entry.2.formula := by
  have read := readTab_cells lawful tab formed
  obtain ⟨cells, pass, rfl⟩ := Option.map_eq_some_iff.mp done
  obtain ⟨outside, shape⟩ := recalcPass_frame _ _ cells pass
  have formulas (key : Str) :
      cells[key]?.map (·.formula) = tab.cells[key]?.map fun cell => storedFormula cell.formula := by
    have unvalued := congrArg (Option.map (·.formula)) (shape key)
    rw [read] at unvalued
    simpa [Option.map_map, Function.comp_def, Cell.unvalued, readBack] using unvalued
  constructor
  · rintro ⟨-, same⟩ entry member
    have found := Std.ExtTreeMap.mem_toList_iff_getElem?_eq_some.mp member
    have formula := (same entry.1).1
    dsimp only at formula
    rw [formulas, found, Option.map_some, Option.map_some, Option.some.injEq] at formula
    exact (storedFormula_eq_iff entry.2.formula).mp formula
  · intro plain
    refine ⟨by unfold readTab; rfl, ?_⟩
    intro key
    constructor
    · dsimp only
      rw [formulas]
      cases found : tab.cells[key]? with
      | none => rfl
      | some cell =>
          have member := Std.ExtTreeMap.mem_toList_iff_getElem?_eq_some.mpr found
          rw [Option.map_some, Option.map_some,
            (storedFormula_eq_iff cell.formula).mpr (plain (key, cell) member)]
    · intro cell found empty
      have absent :
          key ∉ (formulaEntries (readTab rt (tab.name, tab.cells)).cells).map Prod.fst := by
        intro listed
        obtain ⟨entry, member, rfl⟩ := List.mem_map.mp listed
        obtain ⟨other, here, formula, filled⟩ := (mem_formulaEntries _ entry.1 entry.2).mp member
        rw [read, found, Option.map_some, Option.some.injEq] at here
        subst here
        rw [← formula, readBack, empty] at filled
        exact filled rfl
      dsimp only
      rw [outside key absent, read, found]
      rfl

/-- Where formulas are read as they were written, the import recalculates what the workbook
itself holds. -/
theorem readTab_sameContents (lawful : rt.Lawful) (tab : SheetTab)
    (formed : ∀ entry ∈ tab.cells.toList, WellFormedCell entry)
    (plain : ∀ entry ∈ tab.cells.toList, PlainFormula entry.2.formula) :
    SameContents (readTab rt (tab.name, tab.cells)).cells tab.cells := by
  intro key
  rw [readTab_cells lawful tab formed]
  cases found : tab.cells[key]? with
  | none => rfl
  | some cell =>
      have member := Std.ExtTreeMap.mem_toList_iff_getElem?_eq_some.mpr found
      have formula := (storedFormula_eq_iff cell.formula).mpr (plain (key, cell) member)
      rw [Option.map_some, Option.map_some, Option.map_some, readBack, formula]

theorem recalculated_isSome (tab : SheetTab) :
    (recalculated rt tab).isSome = (recalcCells rt tab.cells).isSome := by
  unfold recalculated
  rw [Option.isSome_map]

variable (rt) in
/-- Exporting and importing recalculates the tabs as they are read. -/
theorem import_export (faithful : zip.Faithful) (sheet : EratSheet)
    (normal : sheet.normalizeTabs = sheet) :
    ∃ bytes, exportXlsx rt zip sheet = some bytes ∧
      (importXlsx rt zip bytes).map (·.sheets) =
        (sheet.sheets.map fun tab => readTab rt (tab.name, tab.cells)).mapM (recalculated rt) := by
  have mirror := mirror_normalizeTabs sheet
  rw [normal] at mirror
  have size : sheet.sheets ≠ [] := List.ne_nil_of_length_pos (Nat.zero_lt_of_lt mirror.1)
  have tabs : exportTabs sheet = sheet.sheets.map fun tab => (tab.name, tab.cells) := by
    unfold exportTabs
    dsimp only
    rw [normal, flushActiveToTab_of_mirror sheet mirror, if_neg (by simpa using size)]
  obtain ⟨bytes, written, opens, stored⟩ := faithful.returns (exportParts rt (exportTabs sheet))
    (nodup_exportParts rt (exportTabs sheet))
  refine ⟨bytes, written, ?_⟩
  have filled : exportTabs sheet ≠ [] := by
    rw [tabs]
    simpa using size
  unfold importXlsx
  rw [opens, if_pos rfl, importTabs_export zip bytes (exportTabs sheet) stored filled,
    Option.bind_eq_bind, Option.bind_some, recalcAll_sheets _ (by simpa using filled), tabs,
    List.map_map]
  rfl

theorem sheet_roundTrips_iff (faithful : zip.Faithful) (sheet : EratSheet)
    (normal : sheet.normalizeTabs = sheet) :
    RoundTrips rt zip sheet ↔ ∀ tab ∈ sheet.sheets, ∃ back,
      recalculated rt (readTab rt (tab.name, tab.cells)) = some back ∧ SameTab tab back := by
  obtain ⟨bytes, written, sheets⟩ := import_export rt faithful sheet normal
  rw [List.mapM_map, Function.comp_def] at sheets
  rw [← Runs.mapM_forall₂_iff]
  constructor
  · intro ⟨bytes', back, written', imported, same⟩
    rw [written, Option.some.injEq] at written'
    subst written'
    rw [imported, Option.map_some] at sheets
    exact ⟨back.sheets, sheets.symm, same⟩
  · intro ⟨tabs, pass, same⟩
    rw [pass, Option.map_eq_some_iff] at sheets
    obtain ⟨back, imported, rfl⟩ := sheets
    exact ⟨bytes, back, written, imported, same⟩

theorem tab_round_trip_iff (lawful : rt.Lawful) (tab : SheetTab)
    (formed : ∀ entry ∈ tab.cells.toList, WellFormedCell entry) :
    (∃ back, recalculated rt (readTab rt (tab.name, tab.cells)) = some back ∧ SameTab tab back) ↔
      (∀ entry ∈ tab.cells.toList, PlainFormula entry.2.formula) ∧
        (recalcCells rt tab.cells).isSome = true := by
  constructor
  · intro ⟨back, done, same⟩
    have plain := (sameTab_iff lawful tab back formed done).mp same
    refine ⟨plain, recalcCells_isSome_sameContents _ _
      (readTab_sameContents lawful tab formed plain) ?_⟩
    rw [← recalculated_isSome, done]
    rfl
  · intro ⟨plain, returns⟩
    have read := recalcCells_isSome_sameContents _ _
      (readTab_sameContents lawful tab formed plain).symm returns
    rw [← recalculated_isSome, Option.isSome_iff_exists] at read
    obtain ⟨back, done⟩ := read
    exact ⟨back, done, (sameTab_iff lawful tab back formed done).mpr plain⟩

/-- A workbook comes back exactly if no formula holds a character that is escaped, and every tab
can be recalculated. -/
theorem xlsx_round_trip_iff (lawful : rt.Lawful) (faithful : zip.Faithful) (sheet : EratSheet)
    (exportable : Exportable sheet) :
    RoundTrips rt zip sheet ↔
      (∀ tab ∈ sheet.sheets, ∀ entry ∈ tab.cells.toList, PlainFormula entry.2.formula) ∧
      ∀ tab ∈ sheet.sheets, (recalcCells rt tab.cells).isSome = true := by
  rw [sheet_roundTrips_iff faithful sheet exportable.normal, ← forall₂_and]
  refine forall₂_congr ?_
  intro tab member
  exact tab_round_trip_iff lawful tab (exportable.cells tab member)

/-- Markup in values and names, and a formula of plain characters. -/
theorem xlsx_round_trip_markup :
    RoundTrips Runtime.plain Zip.stored (oneTab [("A1".toList, formulaCell "5" ""),
      ("AB12".toList, formulaCell "a<\"&amp;\">" ""),
      ("B1".toList, formulaCell "0" "=SUM(A1:A1)")]) :=
  (xlsx_round_trip_iff Runtime.plain_lawful Zip.stored_faithful _
    ⟨by decide, by decide⟩).mpr ⟨by decide, by decide⟩

/-- A comparison in a formula comes back as an entity. -/
theorem xlsx_round_trip_fails :
    ¬ ∀ (rt : Runtime) (zip : Zip) (sheet : EratSheet), rt.Lawful → zip.Faithful →
      Exportable sheet → RoundTrips rt zip sheet := by
  intro all
  have exportable : Exportable (oneTab [("A1".toList, formulaCell "5" "=IF(A2>1,2,3)")]) :=
    ⟨by decide, by decide⟩
  have trips := (sheet_roundTrips_iff Zip.stored_faithful _ exportable.normal).mp
    (all Runtime.plain Zip.stored _ Runtime.plain_lawful Zip.stored_faithful exportable)
  obtain ⟨plain, -⟩ :=
    (tab_round_trip_iff Runtime.plain_lawful _ (exportable.cells _ (by decide))).mp
      (trips _ List.mem_cons_self)
  revert plain
  decide

end RoundTrip
end EraOne.Tables
