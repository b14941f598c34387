import EraOne.DocsModel
import EraOne.RtfText
import EraOne.Search
import EraOne.TablesAddr

set_option autoImplicit false

/- RTF export of `crates/era-docs-core/src/convert/rtf_export.rs`. -/
namespace EraOne.Docs

open RtfText

def rtfEscapeChar (ch : Char) : Str :=
  if ch = '\\' then ['\\', '\\']
  else if ch = '\x7b' then ['\\', '\x7b']
  else if ch = '\x7d' then ['\\', '\x7d']
  else if ch = '\n' then "\\par ".toList
  else if ch.toNat > 127 then '\\' :: 'u' :: (Nat.toDigits 10 ch.toNat ++ ['?'])
  else [ch]

def rtfEscape (s : Str) : Str := s.flatMap rtfEscapeChar

/-- `str::lines`: a carriage return belongs to the end of a line only before a line feed. -/
def textLines (s : Str) : List Str :=
  let pieces := Scan.splitAll ['\n'] s
  (pieces.dropLast.map fun line => if line.getLast? = some '\r' then line.dropLast else line) ++
    pieces.getLast?.toList.filter (· ≠ [])

def inlineText (block : Block) : Str := block.inlines.flatMap (·.text)

def tableRows (block : Block) : List (List Str) :=
  let fromText := ((textLines (inlineText block)).filter (· ≠ [])).map (Scan.splitAll ['\t'])
  match block.tableCells with
  | some cells => if cells ≠ [] then cells else fromText
  | none => fromText

def emitCell (row : List Str) (i : Nat) : Str :=
  "\\intbl ".toList ++ (rtfEscape (row.getD i []) ++ "\\cell ".toList)

def emitRow (cols : Nat) (row : List Str) : Str :=
  "\\trowd\\trgaph108".toList ++
    ((List.range cols).flatMap (fun i => "\\cellx".toList ++ Nat.toDigits 10 ((i + 1) * 1440)) ++
      (' ' :: ((List.range cols).flatMap (emitCell row) ++ "\\row ".toList)))

def emitTable (block : Block) : Str :=
  let rows := tableRows block
  if rows = [] then "\\par [table]".toList
  else
    let cols := max ((rows.map List.length).foldl max 0) 1
    rows.flatMap (emitRow cols)

/-- A mark around the text of a span. -/
def wrapMark (on : Bool) (start stop : Str) (text : Str) : Str :=
  if on then start ++ (text ++ stop) else text

def emitSpan (span : InlineSpan) : Str :=
  wrapMark span.bold "\\b ".toList "\\b0 ".toList
    (wrapMark span.italic "\\i ".toList "\\i0 ".toList
      (wrapMark span.underline "\\ul ".toList "\\ul0 ".toList
        (wrapMark span.strike "\\strike ".toList "\\strike0 ".toList (rtfEscape span.text))))

def emitSpans (block : Block) : Str := block.inlines.flatMap emitSpan

def imageStub (block : Block) : Str :=
  let stub (text : Str) := "[image:".toList ++ (text ++ [']'])
  let fromText := if inlineText block = [] then "[image]".toList else stub (inlineText block)
  match block.imageUrl with
  | some url => if url ≠ [] then stub url else fromText
  | none => fromText

/-- The start of a paragraph. -/
def emitStart (block : Block) : Str :=
  if block.blockType = .heading then
    let lvl := min (max block.headingLevel.toNat 1) 6
    "\\par\\b\\fs".toList ++ (Nat.toDigits 10 (36 - (lvl - 1) * 4) ++ [' '])
  else if block.blockType = .textBox then "\\par\\box\\brdrs ".toList
  else if block.blockType = .listItem then
    if block.listType = some .ordered then "\\par\\pntext 1. ".toList else "\\par\\bullet ".toList
  else if block.styleName = some "horizontal_line".toList then
    "\\par\\brdrb\\brdrs\\brdrw10\\brsp20 ".toList
  else "\\par ".toList

def emitBlock (block : Block) : Str :=
  match block.blockType with
  | .pageBreak => "\\page ".toList
  | .image => "\\par ".toList ++ rtfEscape (imageStub block)
  | .table => emitTable block
  | .toc => "\\par ".toList ++ rtfEscape (inlineText block)
  | .bookmark =>
      "\\par ".toList ++ rtfEscape ('[' :: ((block.bookmarkName.getD "bookmark".toList) ++ [']']))
  | _ =>
      emitStart block ++ (emitSpans block ++ if block.blockType = .heading then "\\b0\\fs24 ".toList
        else [])

def rtfHead : Str := "\x7b\\rtf1\\ansi\\deff0\x7b\\fonttbl\x7b\\f0 Arial;\x7d\x7d\\f0\\fs24 ".toList

def rtfGroup (word text : Str) : Str := '\x7b' :: (word ++ (rtfEscape text ++ ['\x7d']))

def exportRtf (doc : EradDocument) : Str :=
  rtfHead ++
    ((if doc.header.text ≠ [] then rtfGroup "\\header ".toList doc.header.text ++ "\\par ".toList
      else []) ++
      (doc.blocks.flatMap emitBlock ++
        ((if doc.footer.text ≠ [] then rtfGroup "\\footer ".toList doc.footer.text else []) ++
          ['\x7d'])))

/-! ### Text -/

/-- No control character but line feeds. -/
def Clean (s : Str) : Prop := ∀ c ∈ s, 32 ≤ c.toNat ∨ c = '\n'

/-- The unit that is read for a character. -/
def unitOf (unit : Int → Option Nat) (c : Char) : Option Nat :=
  if c.toNat > 127 then unit c.toNat else some c.toNat

theorem digits_toDigits (n : Nat) : ∀ c ∈ Nat.toDigits 10 n, c.isDigit = true :=
  fun c member => Nat.isDigit_of_mem_toDigits (by decide) (by decide) member

theorem readParam_digits (n : Nat) (rest : Str) :
    readParam (Nat.toDigits 10 n ++ '?' :: rest) = (some (n : Int), '?' :: rest) := by
  have front : (Nat.toDigits 10 n ++ '?' :: rest).takeWhile Char.isDigit = Nat.toDigits 10 n := by
    rw [List.takeWhile_append_of_pos (digits_toDigits n), List.takeWhile_cons_of_neg (by decide),
      List.append_nil]
  have back : (Nat.toDigits 10 n ++ '?' :: rest).dropWhile Char.isDigit = '?' :: rest := by
    rw [List.dropWhile_append_of_pos (digits_toDigits n), List.dropWhile_cons_of_neg (by decide)]
  obtain ⟨c, digits, shape⟩ := List.exists_cons_of_ne_nil (Nat.toDigits_ne_nil (n := n) (b := 10))
  have digit := digits_toDigits n c (by rw [shape]; exact List.mem_cons_self)
  unfold readParam
  split
  · rename_i other sign
    rw [shape, List.cons_append, List.cons.injEq] at sign
    rw [sign.1] at digit
    exact absurd digit (by decide)
  · rw [front, back, Scan.parseDigits_toDigits]
    rfl

theorem readUnits_char (unit : Int → Option Nat) (fuel : Nat) (c : Char) (t : Str)
    (clean : 32 ≤ c.toNat ∨ c = '\n') :
    readUnits unit (fuel + 1) (rtfEscapeChar c ++ t) = (unitOf unit c).bind fun u =>
      (readUnits unit fuel t).map (u :: ·) := by
  unfold rtfEscapeChar
  by_cases escape : c = '\\'
  · rw [if_pos escape, escape]
    rfl
  · rw [if_neg escape]
    by_cases opened : c = '\x7b'
    · rw [if_pos opened, opened]
      rfl
    · rw [if_neg opened]
      by_cases closed : c = '\x7d'
      · rw [if_pos closed, closed]
        rfl
      · rw [if_neg closed]
        by_cases feed : c = '\n'
        · rw [if_pos feed, feed]
          rfl
        · rw [if_neg feed]
          by_cases wide : c.toNat > 127
          · rw [if_pos wide]
            unfold unitOf
            rw [if_pos wide]
            have text : '\\' :: 'u' :: (Nat.toDigits 10 c.toNat ++ ['?']) ++ t = '\\' :: 'u' ::
                (Nat.toDigits 10 c.toNat ++ '?' :: t) := by
              simp
            obtain ⟨d, digits, shape⟩ :=
              List.exists_cons_of_ne_nil (Nat.toDigits_ne_nil (n := c.toNat) (b := 10))
            have digit : d.isAlpha = false :=
              Tables.isDigit_not_isAlpha d
                (digits_toDigits c.toNat d (by rw [shape]; exact List.mem_cons_self))
            have word :
                ('u' :: (Nat.toDigits 10 c.toNat ++ '?' :: t)).takeWhile Char.isAlpha = ['u'] := by
              rw [shape, List.takeWhile_cons_of_pos (by decide), List.cons_append,
                List.takeWhile_cons_of_neg (Bool.eq_false_iff.mp digit)]
            have rest : ('u' :: (Nat.toDigits 10 c.toNat ++ '?' :: t)).dropWhile Char.isAlpha =
                Nat.toDigits 10 c.toNat ++ '?' :: t := by
              rw [shape, List.dropWhile_cons_of_pos (by decide), List.cons_append,
                List.dropWhile_cons_of_neg (Bool.eq_false_iff.mp digit)]
            rw [text, readUnits, if_pos (by decide), word, rest, readParam_digits]
            dsimp only [Option.bind_some]
            rw [if_pos rfl]
            cases unit c.toNat with
            | none => rfl
            | some u => rfl
          · rw [if_neg wide]
            unfold unitOf
            rw [if_neg wide, List.singleton_append]
            have group : ¬ (c = '\x7b' ∨ c = '\x7d' ∨ 127 < c.toNat) := by
              rintro (same | same | above)
              · exact opened same
              · exact closed same
              · exact wide above
            have blank : ¬ (c = '\n' ∨ c = '\r') := by
              rintro (same | same)
              · exact feed same
              · rw [same] at clean
                exact absurd clean (by decide)
            rw [readUnits, if_neg group, if_neg blank]
            · rfl
            · exact fun same _ => escape same
            · exact fun _ _ same _ => escape same

theorem readUnits_escape (unit : Int → Option Nat) (s : Str) (clean : Clean s) (fuel : Nat)
    (enough : s.length ≤ fuel) :
    readUnits unit fuel (rtfEscape s) = s.mapM (unitOf unit) := by
  induction s generalizing fuel with
  | nil => cases fuel <;> rfl
  | cons c s ih =>
      obtain ⟨fuel, rfl⟩ :=
        Nat.exists_eq_add_of_le' (Nat.lt_of_lt_of_le (Nat.zero_lt_succ _) enough)
      have later := ih (fun d member => clean d (List.mem_cons_of_mem c member)) fuel
        (by rw [List.length_cons] at enough; omega)
      rw [rtfEscape, List.flatMap_cons, readUnits_char unit fuel c _ (clean c List.mem_cons_self),
        ← rtfEscape, later, List.mapM_cons]
      cases unitOf unit c with
      | none => rfl
      | some u => cases s.mapM (unitOf unit) <;> rfl

theorem length_rtfEscape (s : Str) : s.length ≤ (rtfEscape s).length := by
  have some_ (c : Char) : 1 ≤ (rtfEscapeChar c).length := by
    apply List.length_pos_iff.mpr
    unfold rtfEscapeChar
    split_ifs <;> exact List.cons_ne_nil _ _
  induction s with
  | nil => exact le_refl 0
  | cons c s ih =>
      have here := some_ c
      rw [rtfEscape, List.flatMap_cons, List.length_append, List.length_cons, ← rtfEscape]
      omega

theorem readText_escape (unit : Int → Option Nat) (s : Str) (clean : Clean s) :
    readText unit (rtfEscape s) = (s.mapM (unitOf unit)).map decodeUtf16 := by
  rw [readText, readUnits_escape unit s clean _ (length_rtfEscape s)]

/-! ### Groups -/

theorem reads_toDigits (n : Nat) : Reads (Nat.toDigits 10 n) [] := by
  apply reads_plain
  intro c member
  have digit := digits_toDigits n c member
  refine ⟨?_, ?_, ?_⟩
  · rintro rfl
    exact absurd digit (by decide)
  · rintro rfl
    exact absurd digit (by decide)
  · rintro rfl
    exact absurd digit (by decide)

theorem reads_rtfEscape (s : Str) : Reads (rtfEscape s) [] := by
  apply reads_flatMap
  intro c
  unfold rtfEscapeChar
  split_ifs with escape opened closed feed wide
  · exact fun _ => rfl
  · exact fun _ => rfl
  · exact fun _ => rfl
  · exact fun _ => rfl
  · have head : Reads ['\\', 'u'] [] := fun _ => rfl
    have mark : Reads ['?'] [] := fun _ => rfl
    exact head.append ((reads_toDigits c.toNat).append mark)
  · apply reads_plain
    intro d member
    rw [List.mem_singleton.mp member]
    exact ⟨escape, opened, closed⟩

/-- The braces that are written depend on no text but whether there is a header and a footer. -/
def writtenBraces (header footer : Bool) : Str :=
  "\x7b\x7b\x7b\x7d\x7d".toList ++
    ((if header then "\x7b\x7d".toList else []) ++
      ((if footer then "\x7b\x7d".toList else []) ++ ['\x7d']))

theorem reads_rtfGroup (word text : Str) (plain : Reads word []) :
    Reads (rtfGroup word text) "\x7b\x7d".toList := by
  have opened : Reads ['\x7b'] ['\x7b'] := fun _ => rfl
  have closed : Reads ['\x7d'] ['\x7d'] := fun _ => rfl
  exact opened.append (plain.append ((reads_rtfEscape text).append closed))

theorem reads_emitSpan (span : InlineSpan) : Reads (emitSpan span) [] := by
  have wrapped (on : Bool) (start stop text : Str) (first : Reads start []) (inner : Reads text [])
      (last : Reads stop []) :
      Reads (wrapMark on start stop text) [] := by
    cases on with
    | true => exact first.append (inner.append last)
    | false => exact inner
  unfold emitSpan
  apply wrapped _ _ _ _ (fun _ => rfl) _ (fun _ => rfl)
  apply wrapped _ _ _ _ (fun _ => rfl) _ (fun _ => rfl)
  apply wrapped _ _ _ _ (fun _ => rfl) _ (fun _ => rfl)
  exact wrapped _ _ _ _ (fun _ => rfl) (reads_rtfEscape span.text) (fun _ => rfl)

theorem reads_emitTable (block : Block) : Reads (emitTable block) [] := by
  have row (cols : Nat) (row : List Str) : Reads (emitRow cols row) [] := by
    have edges :
        Reads ((List.range cols).flatMap fun i =>
          "\\cellx".toList ++ Nat.toDigits 10 ((i + 1) * 1440)) [] := by
      apply reads_flatMap
      intro i
      have word : Reads "\\cellx".toList [] := fun _ => rfl
      exact word.append (reads_toDigits _)
    have cells : Reads ((List.range cols).flatMap (emitCell row)) [] := by
      apply reads_flatMap
      intro i
      have start : Reads "\\intbl ".toList [] := fun _ => rfl
      have stop : Reads "\\cell ".toList [] := fun _ => rfl
      exact start.append ((reads_rtfEscape _).append stop)
    have head : Reads "\\trowd\\trgaph108".toList [] := fun _ => rfl
    have blank : Reads [' '] [] := fun _ => rfl
    have foot : Reads "\\row ".toList [] := fun _ => rfl
    exact head.append (edges.append (blank.append (cells.append foot)))
  unfold emitTable
  dsimp only
  split
  · exact fun _ => rfl
  · exact reads_flatMap _ (row _) _

theorem reads_emitStart (block : Block) : Reads (emitStart block) [] := by
  unfold emitStart
  split_ifs
  · have head : Reads "\\par\\b\\fs".toList [] := fun _ => rfl
    have blank : Reads [' '] [] := fun _ => rfl
    exact head.append ((reads_toDigits _).append blank)
  · exact fun _ => rfl
  · exact fun _ => rfl
  · exact fun _ => rfl
  · exact fun _ => rfl
  · exact fun _ => rfl

theorem reads_emitBlock (block : Block) : Reads (emitBlock block) [] := by
  have paragraph (text : Str) : Reads ("\\par ".toList ++ rtfEscape text) [] := by
    have mark : Reads "\\par ".toList [] := fun _ => rfl
    exact mark.append (reads_rtfEscape text)
  have spans :
      Reads (emitStart block ++ (emitSpans block ++
        if block.blockType = .heading then "\\b0\\fs24 ".toList else [])) [] := by
    have last : Reads (if block.blockType = .heading then "\\b0\\fs24 ".toList else []) [] := by
      split
      · exact fun _ => rfl
      · exact reads_nil
    exact (reads_emitStart block).append
      ((reads_flatMap emitSpan reads_emitSpan block.inlines).append last)
  unfold emitBlock
  cases kind : block.blockType with
  | pageBreak => exact fun _ => rfl
  | image => exact paragraph _
  | table => exact reads_emitTable block
  | toc => exact paragraph _
  | bookmark => exact paragraph _
  | paragraph | heading | listItem | textBox | sectionBreak | footnote =>
      rw [kind] at spans
      exact spans

theorem braces_exportRtf (doc : EradDocument) :
    braces (exportRtf doc) = writtenBraces (doc.header.text ≠ []) (doc.footer.text ≠ []) := by
  have head : Reads rtfHead "\x7b\x7b\x7b\x7d\x7d".toList := fun _ => rfl
  have header :
      Reads (if doc.header.text ≠ [] then
        rtfGroup "\\header ".toList doc.header.text ++ "\\par ".toList else [])
      (if decide (doc.header.text ≠ []) then "\x7b\x7d".toList else []) := by
    by_cases some_ : doc.header.text ≠ []
    · rw [if_pos some_, if_pos (decide_eq_true some_), ← List.append_nil "\x7b\x7d".toList]
      have mark : Reads "\\par ".toList [] := fun _ => rfl
      exact (reads_rtfGroup _ _ fun _ => rfl).append mark
    · rw [if_neg some_, if_neg (by simpa using some_)]
      exact reads_nil
  have footer :
      Reads (if doc.footer.text ≠ [] then rtfGroup "\\footer ".toList doc.footer.text else [])
      (if decide (doc.footer.text ≠ []) then "\x7b\x7d".toList else []) := by
    by_cases some_ : doc.footer.text ≠ []
    · rw [if_pos some_, if_pos (decide_eq_true some_)]
      exact reads_rtfGroup _ _ fun _ => rfl
    · rw [if_neg some_, if_neg (by simpa using some_)]
      exact reads_nil
  have last : Reads ['\x7d'] ['\x7d'] := fun _ => rfl
  have blocks := reads_flatMap emitBlock reads_emitBlock doc.blocks
  exact (head.append (header.append (blocks.append (footer.append last)))).braces

/-- Groups are closed as they are opened, and the last brace closes the document. -/
theorem depth_writtenBraces (header footer : Bool) :
    (writtenBraces header footer).foldlM (fun open_ c => if c = '\x7b' then some (open_ + 1)
      else if open_ = 0 then none else some (open_ - 1)) 0 =
      some 0 := by
  cases header <;> cases footer <;> rfl

/-! ### What is read back -/

theorem mapM_eq_some_map (unit : Int → Option Nat) (f : Char → Nat) (s : Str)
    (each : ∀ c ∈ s, unitOf unit c = some (f c)) :
    s.mapM (unitOf unit) = some (s.map f) := by
  induction s with
  | nil => rfl
  | cons c s ih =>
      rw [List.mapM_cons, each c List.mem_cons_self, ih fun d member =>
        each d (List.mem_cons_of_mem c member)]
      rfl

theorem isSome_of_mapM (unit : Int → Option Nat) (s : Str) (units : List Nat)
    (read : s.mapM (unitOf unit) = some units) :
    ∀ c ∈ s, (unitOf unit c).isSome := by
  induction s generalizing units with
  | nil => exact fun c member => absurd member List.not_mem_nil
  | cons d s ih =>
      rw [List.mapM_cons] at read
      obtain ⟨u, first, read⟩ := Option.bind_eq_some_iff.mp read
      obtain ⟨later, rest, -⟩ := Option.bind_eq_some_iff.mp read
      intro c member
      cases List.mem_cons.mp member with
      | inl here => rw [here, first, Option.isSome_some]
      | inr inside => exact ih later rest c inside

/-- Signed numbers of 16 bits stand for the characters below 32768. -/
theorem readText_signed_iff (s : Str) (clean : Clean s) :
    readText signedUnit (rtfEscape s) = some s ↔ ∀ c ∈ s, c.toNat < 32768 := by
  rw [readText_escape signedUnit s clean]
  constructor
  · intro same c member
    obtain ⟨units, read, -⟩ := Option.map_eq_some_iff.mp same
    have unit := isSome_of_mapM signedUnit s units read c member
    unfold unitOf signedUnit at unit
    split_ifs at unit with wide fits
    · omega
    · cases unit
    · omega
  · intro small
    rw [mapM_eq_some_map signedUnit Char.toNat s, Option.map_some, decodeUtf16_units]
    intro c member
    have below := small c member
    unfold unitOf signedUnit
    split
    · rw [if_pos (by omega)]
      congr 1
      omega
    · rfl

/-- Numbers that are cut to 16 bits stand for the characters of one unit. -/
theorem readText_low_iff (s : Str) (clean : Clean s) :
    readText lowUnit (rtfEscape s) = some s ↔ ∀ c ∈ s, c.toNat < 65536 := by
  have units : s.mapM (unitOf lowUnit) = some (s.map fun c => c.toNat % 65536) := by
    apply mapM_eq_some_map
    intro c member
    unfold unitOf lowUnit
    split
    · congr 1
    · congr 1
      omega
  rw [readText_escape lowUnit s clean, units, Option.map_some, Option.some.injEq]
  constructor
  · intro same
    apply small_of_decodeUtf16 _ s same (List.length_map _).symm
    intro u member
    obtain ⟨c, -, shape⟩ := List.mem_map.mp member
    omega
  · intro small
    have plain : (s.map fun c => c.toNat % 65536) = s.map Char.toNat :=
      List.map_congr_left fun c member => Nat.mod_eq_of_lt (small c member)
    rw [plain, decodeUtf16_units]

/-- Reading the escaped text gives it back exactly if its characters are below 32768 (65536 for a
reader that cuts numbers to 16 bits); the groups of a document are balanced, and its texts open and
close none. -/
theorem rtf_text_iff (s : Str) (doc : EradDocument) :
    (Clean s → (readText signedUnit (rtfEscape s) = some s ↔ ∀ c ∈ s, c.toNat < 32768)) ∧
      (Clean s → (readText lowUnit (rtfEscape s) = some s ↔ ∀ c ∈ s, c.toNat < 65536)) ∧
      depth (exportRtf doc) = some 0 ∧
      braces (exportRtf doc) = writtenBraces (doc.header.text ≠ []) (doc.footer.text ≠ []) := by
  refine ⟨readText_signed_iff s, readText_low_iff s, ?_, braces_exportRtf doc⟩
  unfold depth
  rw [braces_exportRtf]
  exact depth_writtenBraces _ _

/-- The number of a face does not fit into a signed unit. -/
theorem emoji_lost : ¬ ∀ s, Clean s → readText signedUnit (rtfEscape s) = some s := by
  intro kept
  have lost : readText signedUnit (rtfEscape [Char.ofNat 0x1F600]) = none := by decide
  have clean : Clean [Char.ofNat 0x1F600] := by
    intro c member
    rw [List.mem_singleton.mp member]
    decide
  rw [kept _ clean] at lost
  cases lost

end EraOne.Docs
