import EraOne.Literals
import EraOne.PresFrames
import EraOne.TablesXml

set_option autoImplicit false

/- The slides that `era-pres-core/src/convert.rs` writes as XML, and the texts that it reads out of
them. -/
namespace EraOne.Pres

open Scan
open Tables (replaceChar escapeChar decoded special)
open Docs (blockPlain)

/-! ### Frames -/

def TextFrame.plainText (frame : TextFrame) : Str :=
  List.intercalate ['\n'] (frame.blocks.map fun block => blockPlain block.inlines)

def TextFrame.fromPlain (newId : Nat → Str) (text : Str) : TextFrame :=
  ⟨(splitAll ['\n'] text).zipIdx.map fun part => Block.paragraph (newId part.2) part.1⟩

def ErapSlide.title (slide : ErapSlide) : Str := slide.titleFrame.plainText

def ErapSlide.body (slide : ErapSlide) : Str := slide.bodyFrame.plainText

/-! ### Writing -/

def xml (s : Str) : Str :=
  replaceChar '>' "&gt;".toList (replaceChar '<' "&lt;".toList (replaceChar '&' "&amp;".toList s))

def unescape (s : Str) : Str :=
  replaceAll "&amp;".toList ['&']
    (replaceAll "&gt;".toList ['>'] (replaceAll "&lt;".toList ['<'] s))

def runXml (span : Docs.InlineSpan) : Str :=
  "<a:r>".toList ++ ((if span.bold then "<a:rPr b=\"1\"/>".toList else []) ++
    ("<a:t>".toList ++ (xml span.text ++ ("</a:t>".toList ++ "</a:r>".toList))))

def alignXml : Docs.TextAlign → Str
  | .center => "<a:pPr algn=\"ctr\"/>".toList
  | .right => "<a:pPr algn=\"r\"/>".toList
  | _ => []

def paraXml (block : Block) : Str :=
  "<a:p>".toList ++ (alignXml block.align ++ (block.inlines.flatMap runXml ++ "</a:p>".toList))

def frameParasXml (frame : TextFrame) : Str := frame.blocks.flatMap paraXml

def isHexDigit (c : Char) : Bool := c.isDigit || ('a' ≤ c && c ≤ 'f') || ('A' ≤ c && c ≤ 'F')

def exactHex (s : Str) : Option Str :=
  match trim s with
  | '#' :: h =>
      if h.length = 6 ∧ h.all isHexDigit then some (h.map Char.toUpper)
      else if h.length = 3 ∧ h.all isHexDigit then
        some ((h.flatMap fun c => [c, c]).map Char.toUpper)
      else none
  | _ => none

/-- The first color behind a `#`. -/
def firstHex : Str → Option Str
  | [] => none
  | c :: after =>
      if c = '#' then
        let hexLen := (after.takeWhile isHexDigit).length
        if 6 ≤ hexLen then (exactHex ('#' :: after.take 6)).or (firstHex after)
        else if 3 ≤ hexLen then (exactHex ('#' :: after.take 3)).or (firstHex after)
        else firstHex after
      else firstHex after

def parseSolidHex (s : Str) : Option Str := (exactHex (trim s)).or (firstHex (trim s))

def bgXml (slide : ErapSlide) (themeBg : Option Str) : Str :=
  match (slide.background.or themeBg).bind parseSolidHex with
  | some hex =>
      "<p:bg><p:bgPr><a:solidFill><a:srgbClr val=\"".toList ++
        (hex ++ "\"/></a:solidFill></p:bgPr></p:bg>".toList)
  | none => []

def sldHead : Str :=
  "<?xml version=\"1.0\" encoding=\"UTF-8\"?>\n<p:sld xmlns:a=\"http://schemas.openxmlformats.org/drawingml/2006/main\" ".toList ++
    ("xmlns:r=\"http://schemas.openxmlformats.org/officeDocument/2006/relationships\" ".toList ++
      "xmlns:p=\"http://schemas.openxmlformats.org/presentationml/2006/main\">\n  <p:cSld>".toList)

def shapeXml (paras : Str) : Str :=
  "    <p:sp><p:txBody>".toList ++ (paras ++ "</p:txBody></p:sp>\n".toList)

def picXml (rid : Str) : Str :=
  "    <p:pic>\n      <p:nvPicPr><p:cNvPr id=\"10\" name=\"Picture\"/><p:cNvPicPr/><p:nvPr/></p:nvPicPr>\n".toList ++
    ("      <p:blipFill><a:blip r:embed=\"".toList ++
      (rid ++
        ("\"/><a:stretch><a:fillRect/></a:stretch></p:blipFill>\n      <p:spPr><a:xfrm>".toList ++
          ("<a:off x=\"4572000\" y=\"3200400\"/><a:ext cx=\"4572000\" cy=\"2743200\"/></a:xfrm></p:spPr>\n".toList ++
            "    </p:pic>\n".toList))))

def slideXml (slide : ErapSlide) (themeBg : Option Str) (imageRid : Option Str) : Str :=
  sldHead ++ (bgXml slide themeBg ++ ("<p:spTree>\n".toList ++
    (shapeXml (frameParasXml slide.titleFrame) ++
      (shapeXml (if slide.layout = "title_only".toList then []
        else frameParasXml slide.bodyFrame) ++
        ((if slide.layout = "two_column".toList then shapeXml (frameParasXml slide.body2Frame)
          else []) ++
          ((imageRid.map picXml).getD [] ++ "  </p:spTree></p:cSld>\n</p:sld>".toList))))))

/-! ### Reading -/

theorem splitOnce_shorter (pattern s front back : Str)
    (found : splitOnce pattern s = some (front, back)) (nonempty : pattern ≠ []) :
    back.length < s.length := by
  have whole := congrArg List.length (splitOnce_append pattern s front back found)
  have some_ := List.length_pos_iff.mpr nonempty
  rw [List.length_append, List.length_append] at whole
  omega

def extractAT (s : Str) : List Str :=
  match _opened : splitOnce "<a:t>".toList s with
  | none => []
  | some (_, rest) =>
      match _closed : splitOnce "</a:t>".toList rest with
      | none => []
      | some (text, later) => unescape text :: extractAT later
termination_by s.length
decreasing_by
  have first := splitOnce_shorter _ _ _ _ _opened (by decide)
  have second := splitOnce_shorter _ _ _ _ _closed (by decide)
  omega

theorem extractAT_eq (s : Str) :
    extractAT s =
      match splitOnce "<a:t>".toList s with
      | none => []
      | some (_, rest) =>
          match splitOnce "</a:t>".toList rest with
          | none => []
          | some (text, later) => unescape text :: extractAT later := by
  rw [extractAT]
  split
  · rename_i none_
    rw [none_]
  · rename_i found
    rw [found]
    dsimp only
    split
    · rename_i none_
      rw [none_]
    · rename_i later
      rw [later]

/-- A piece of XML from which these texts are read, whatever follows it. -/
def Emits (piece : Str) (texts : List Str) : Prop :=
  ∀ rest, extractAT (piece ++ rest) = texts ++ extractAT rest

theorem Emits.append {a b : Str} {texts more : List Str} (first : Emits a texts)
    (second : Emits b more) :
    Emits (a ++ b) (texts ++ more) := by
  intro rest
  rw [List.append_assoc, first, second, List.append_assoc]

theorem Emits.silent {a b : Str} (first : Emits a []) (second : Emits b []) : Emits (a ++ b) [] :=
  first.append second

theorem emits_flatMap {α : Type} (f : α → Str) (texts : α → List Str)
    (each : ∀ a, Emits (f a) (texts a)) (xs : List α) :
    Emits (xs.flatMap f) (xs.flatMap texts) := by
  induction xs with
  | nil => exact fun rest => rfl
  | cons a xs ih => exact (each a).append ih

theorem emits_quiet (piece : Str) (quiet : Quiet "<a:t>".toList piece) : Emits piece [] := by
  intro rest
  rw [extractAT_eq, extractAT_eq rest, quiet]
  cases splitOnce "<a:t>".toList rest with
  | none => rfl
  | some halves => rfl

theorem emits_literal (piece : Str) (free : clear ['<', 'a', ':', 't', '>'] piece = true) :
    Emits (String.ofList piece).toList [] :=
  emits_quiet _ (quiet_literal _ _ free)

theorem xml_eq (s : Str) : xml s = s.flatMap (decoded fun c => c = '"') := by
  unfold xml replaceChar
  rw [List.flatMap_assoc, List.flatMap_assoc]
  congr 1
  funext c
  by_cases amp : c = '&'
  · subst amp
    decide
  by_cases lt : c = '<'
  · subst lt
    decide
  by_cases gt : c = '>'
  · subst gt
    decide
  by_cases quot : c = '"'
  · subst quot
    decide
  simp only [decoded, escapeChar, amp, lt, gt, quot, decide_false, ↓reduceIte, List.flatMap_cons,
    List.flatMap_nil, List.append_nil, Bool.false_eq_true]

theorem unescape_xml (s : Str) : unescape (xml s) = s := by
  have lt := Tables.replaceAll_decoded '<' (by decide) (fun c => c = '"') (by decide) s
  have gt :=
    Tables.replaceAll_decoded '>' (by decide) (fun c => decide (c = '"') || c = '<') (by decide) s
  have amp := Tables.replaceAll_decoded '&' (by decide)
    (fun c => (decide (c = '"') || c = '<') || c = '>') (by decide) s
  unfold unescape
  rw [xml_eq, show "&lt;".toList = escapeChar '<' from rfl, lt,
    show "&gt;".toList = escapeChar '>' from rfl, gt, show "&amp;".toList = escapeChar '&' from rfl,
      amp]
  conv_rhs => rw [← List.flatMap_singleton' s]
  congr 1
  funext c
  cases plain : special c with
  | true => rcases Tables.special_cases c plain with rfl | rfl | rfl | rfl <;> rfl
  | false => simp [decoded, Tables.escapeChar_plain c plain]

/-- Escaped text opens no tag. -/
theorem not_mem_xml (s : Str) : '<' ∉ xml s := by
  rw [xml_eq, List.mem_flatMap]
  rintro ⟨d, -, member⟩
  cases plain : special d with
  | true =>
      rcases Tables.special_cases d plain with rfl | rfl | rfl | rfl <;> revert member <;> decide
  | false =>
      have same : d = '<' := by
        simpa [decoded, Tables.escapeChar_plain d plain, eq_comm] using member
      rw [same] at plain
      exact absurd plain (by decide)

/-! ### The texts of a slide -/

def TextFrame.runs (frame : TextFrame) : List Str :=
  frame.blocks.flatMap fun block => block.inlines.map (·.text)

/-- The texts of a slide in the order of its shapes. -/
def ErapSlide.runs (slide : ErapSlide) : List Str :=
  slide.titleFrame.runs ++
    ((if slide.layout = "title_only".toList then [] else slide.bodyFrame.runs) ++
      (if slide.layout = "two_column".toList then slide.body2Frame.runs else []))

theorem emits_text (s : Str) : Emits ("<a:t>".toList ++ (xml s ++ "</a:t>".toList)) [s] := by
  intro rest
  have quiet : Quiet "</a:t>".toList (xml s) := quiet_of_not_mem '<' _ _ (not_mem_xml s)
  rw [extractAT_eq, List.append_assoc, splitOnce_match _ _ (by decide)]
  dsimp only
  rw [List.append_assoc, splitOnce_quiet_match _ _ _ (by decide) quiet]
  dsimp only
  rw [unescape_xml, List.singleton_append]

theorem emits_runXml (span : Docs.InlineSpan) : Emits (runXml span) [span.text] := by
  have start : Emits "<a:r>".toList [] := emits_literal _ (by rfl)
  have stop : Emits "</a:r>".toList [] := emits_literal _ (by rfl)
  have bold : Emits (if span.bold then "<a:rPr b=\"1\"/>".toList else []) [] := by
    split
    · exact emits_literal _ (by rfl)
    · exact fun rest => rfl
  have whole := start.append (bold.append ((emits_text span.text).append stop))
  rw [List.append_assoc, List.append_assoc] at whole
  exact whole

theorem emits_frame (frame : TextFrame) : Emits (frameParasXml frame) frame.runs := by
  apply emits_flatMap
  intro block
  have start : Emits "<a:p>".toList [] := emits_literal _ (by rfl)
  have stop : Emits "</a:p>".toList [] := emits_literal _ (by rfl)
  have align : Emits (alignXml block.align) [] := by
    unfold alignXml
    split
    · exact emits_literal _ (by rfl)
    · exact emits_literal _ (by rfl)
    · exact fun rest => rfl
  have runs := emits_flatMap runXml (fun span => [span.text]) emits_runXml block.inlines
  rw [← List.map_eq_flatMap] at runs
  have whole := start.append (align.append (runs.append stop))
  rw [List.append_nil] at whole
  exact whole

theorem emits_shapeXml (paras : Str) (texts : List Str) (inner : Emits paras texts) :
    Emits (shapeXml paras) texts := by
  have start : Emits "    <p:sp><p:txBody>".toList [] := emits_literal _ (by rfl)
  have stop : Emits "</p:txBody></p:sp>\n".toList [] := emits_literal _ (by rfl)
  have whole := start.append (inner.append stop)
  rw [List.append_nil] at whole
  exact whole

theorem emits_plain (s : Str) (plain : '<' ∉ s) : Emits s [] :=
  emits_quiet s (quiet_of_not_mem '<' _ s plain)

theorem not_mem_exactHex (s hex : Str) (read : exactHex s = some hex) : '<' ∉ hex := by
  have upper (h : Str) (digits : ∀ c ∈ h, isHexDigit c = true) : '<' ∉ h.map Char.toUpper := by
    intro member
    obtain ⟨c, inside, same⟩ := List.mem_map.mp member
    have digit := digits c inside
    unfold Char.toUpper at same
    split_ifs at same with lower
    · have code := congrArg (fun d : Char => d.val.toNat) same
      have ascii := UInt32.le_iff_toNat_le.mp lower.1
      have below := UInt32.le_iff_toNat_le.mp lower.2
      have shift : ('A'.val - 'a'.val).toNat = 4294967264 := by decide
      have small : 'a'.val.toNat = 97 := by decide
      have large : 'z'.val.toNat = 122 := by decide
      have sign : '<'.val.toNat = 60 := by decide
      dsimp only at code
      rw [UInt32.toNat_add, shift, sign] at code
      omega
    · rw [same] at digit
      exact absurd digit (by decide)
  unfold exactHex at read
  split at read
  · rename_i h _
    split_ifs at read with six three
    · rw [← Option.some.inj read]
      exact upper h (List.all_eq_true.mp six.2)
    · rw [← Option.some.inj read]
      apply upper
      intro c member
      obtain ⟨d, inside, same⟩ := List.mem_flatMap.mp member
      have twice : c = d := by simpa using same
      rw [twice]
      exact List.all_eq_true.mp three.2 d inside
  · cases read

theorem not_mem_firstHex (s hex : Str) (read : firstHex s = some hex) : '<' ∉ hex := by
  have either (color : Str) (later : Option Str) (ih : later = some hex → '<' ∉ hex)
      (found : (exactHex color).or later = some hex) :
      '<' ∉ hex := by
    rcases Option.or_eq_some_iff.mp found with first | ⟨-, behind⟩
    · exact not_mem_exactHex color hex first
    · exact ih behind
  induction s with
  | nil => cases read
  | cons c after ih =>
      rw [firstHex] at read
      dsimp only at read
      split_ifs at read with mark six three
      · exact either _ _ ih read
      · exact either _ _ ih read
      · exact ih read
      · exact ih read

theorem emits_bgXml (slide : ErapSlide) (themeBg : Option Str) :
    Emits (bgXml slide themeBg) [] := by
  unfold bgXml
  split
  · rename_i hex found
    obtain ⟨source, -, read⟩ := Option.bind_eq_some_iff.mp found
    have plain : '<' ∉ hex := by
      rcases Option.or_eq_some_iff.mp read with first | ⟨-, later⟩
      · exact not_mem_exactHex _ _ first
      · exact not_mem_firstHex _ _ later
    have start : Emits "<p:bg><p:bgPr><a:solidFill><a:srgbClr val=\"".toList [] :=
      emits_literal _ (by rfl)
    have stop : Emits "\"/></a:solidFill></p:bgPr></p:bg>".toList [] := emits_literal _ (by rfl)
    exact start.append ((emits_plain hex plain).append stop)
  · exact fun rest => rfl

theorem emits_picXml (rid : Str) (plain : '<' ∉ rid) : Emits (picXml rid) [] := by
  unfold picXml
  apply Emits.silent (emits_literal _ (by rfl))
  apply Emits.silent (emits_literal _ (by rfl))
  apply Emits.silent (emits_plain rid plain)
  apply Emits.silent (emits_literal _ (by rfl))
  exact Emits.silent (emits_literal _ (by rfl)) (emits_literal _ (by rfl))

theorem emits_sldHead : Emits sldHead [] := by
  unfold sldHead
  apply Emits.silent (emits_literal _ (by rfl))
  exact Emits.silent (emits_literal _ (by rfl)) (emits_literal _ (by rfl))

/-- The reader finds the texts of the runs. -/
theorem extractAT_slideXml (slide : ErapSlide) (themeBg imageRid : Option Str)
    (plain : ∀ rid ∈ imageRid, '<' ∉ rid) :
    extractAT (slideXml slide themeBg imageRid) = slide.runs := by
  have open_ : Emits "<p:spTree>\n".toList [] := emits_literal _ (by rfl)
  have foot : Emits "  </p:spTree></p:cSld>\n</p:sld>".toList [] := emits_literal _ (by rfl)
  have body :
      Emits (if slide.layout = "title_only".toList then [] else frameParasXml slide.bodyFrame)
      (if slide.layout = "title_only".toList then [] else slide.bodyFrame.runs) := by
    split
    · exact fun rest => rfl
    · exact emits_frame slide.bodyFrame
  have body2 :
      Emits (if slide.layout = "two_column".toList then shapeXml (frameParasXml slide.body2Frame)
        else [])
      (if slide.layout = "two_column".toList then slide.body2Frame.runs else []) := by
    split
    · exact emits_shapeXml _ _ (emits_frame slide.body2Frame)
    · exact fun rest => rfl
  have pic : Emits ((imageRid.map picXml).getD []) [] := by
    cases imageRid with
    | none => exact fun rest => rfl
    | some rid => exact emits_picXml rid (plain rid rfl)
  have whole := emits_sldHead.append ((emits_bgXml slide themeBg).append (open_.append
    ((emits_shapeXml _ _ (emits_frame slide.titleFrame)).append
      ((emits_shapeXml _ _ body).append (body2.append (pic.append foot))))))
  have read := whole []
  have none_ : extractAT [] = [] := by
    rw [extractAT_eq]
    rfl
  rw [List.append_nil, none_] at read
  rw [slideXml, read]
  simp only [List.nil_append, List.append_nil, ErapSlide.runs]

end EraOne.Pres
