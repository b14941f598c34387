import EraOne.PptxDeck

set_option autoImplicit false

/- What a deck keeps of its texts when it is exported as PPTX and imported again. -/
namespace EraOne.Pres

open Scan
open Utf8 (Bytes utf8)

/-! ### Plain text -/

theorem intercalate_splitAll (q : Char) (s : Str) : List.intercalate [q] (splitAll [q] s) = s := by
  change replaceAll [q] [q] s = s
  have bounded (n : Nat) (s : Str) (few : s.length ≤ n) : replaceAll [q] [q] s = s := by
    induction n generalizing s with
    | zero =>
        rw [List.eq_nil_of_length_eq_zero (Nat.le_zero.mp few)]
        exact replaceAll_nil [q] [q] (List.cons_ne_nil q [])
    | succ n ih =>
        rw [replaceAll_eq _ _ _ (List.cons_ne_nil q [])]
        split
        · rename_i front back found
          have shorter := splitOnce_shorter [q] s front back found (List.cons_ne_nil q [])
          rw [ih back (by omega)]
          rw [List.append_assoc]
          exact (splitOnce_append [q] s front back found).symm
        · rfl
  exact bounded s.length s (le_refl _)

theorem plainText_fromPlain (newId : Nat → Str) (text : Str) :
    (TextFrame.fromPlain newId text).plainText = text := by
  have paragraph (part : Str × Nat) :
      Docs.blockPlain (Block.paragraph (newId part.2) part.1).inlines = part.1 :=
        List.append_nil part.1
  have texts (parts : List (Str × Nat)) :
      (parts.map fun part => Block.paragraph (newId part.2) part.1).map
        (fun block => Docs.blockPlain block.inlines) = parts.map Prod.fst := by
    rw [List.map_map]
    exact List.map_congr_left fun part _ => paragraph part
  rw [TextFrame.plainText, TextFrame.fromPlain, texts, List.zipIdx_map_fst, intercalate_splitAll]

theorem texts_readSlide (newId : Nat → Str) (slideXml : Str) :
    (readSlide newId slideXml).title = (extractAT slideXml).getD 0 [] ∧
    (readSlide newId slideXml).body = (extractAT slideXml).getD 1 [] :=
  ⟨plainText_fromPlain _ _, plainText_fromPlain _ _⟩

/-! ### Numbers -/

theorem dropAll_match (pattern rest : Str) (fuel : Nat) :
    dropAll pattern (fuel + 1) (pattern ++ rest) = dropAll pattern fuel rest := by
  have starts : pattern.isPrefixOf (pattern ++ rest) = true :=
    List.isPrefixOf_iff_prefix.mpr (List.prefix_append pattern rest)
  rw [dropAll, if_pos starts, List.drop_left]

/-- Digits are not where the text begins. -/
theorem dropAll_digits (c : Char) (pattern digits rest : Str) (foreign : c.isDigit = false)
    (all : ∀ d ∈ digits, d.isDigit = true) (some_ : digits ≠ []) (fuel : Nat) :
    dropAll (c :: pattern) fuel (digits ++ rest) = digits ++ rest := by
  obtain ⟨d, more, rfl⟩ := List.exists_cons_of_ne_nil some_
  have digit := all d List.mem_cons_self
  cases fuel with
  | zero => rfl
  | succ fuel =>
      rw [List.cons_append, dropAll, if_neg]
      rw [List.isPrefixOf, Bool.and_eq_true, beq_iff_eq]
      rintro ⟨same, -⟩
      rw [same, digit] at foreign
      cases foreign

theorem slideNum_slideName (n : Nat) : slideNum (slideName n) = if n < 2 ^ 32 then n else 0 := by
  have digits : ∀ d ∈ decimal n, d.isDigit = true :=
    fun d member => Nat.isDigit_of_mem_toDigits (by decide) (by decide) member
  have some_ : decimal n ≠ [] := Nat.toDigits_ne_nil
  have front : dropAll "ppt/slides/slide".toList (slideName n).length
      (slideName n) = decimal n ++ ".xml".toList := by
    have long : (slideName n).length = (slideName n).length - 1 + 1 := by
      rw [slideName, numberedName, List.length_append]
      have head : "ppt/slides/slide".toList.length = 16 := by decide
      omega
    rw [long, slideName, numberedName, dropAll_match]
    exact dropAll_digits 'p' _ _ _ (by decide) digits some_ _
  have back : dropAll ".xml".toList.reverse (decimal n ++ ".xml".toList).length
      (decimal n ++ ".xml".toList).reverse = (decimal n).reverse := by
    have long :
        (decimal n ++ ".xml".toList).length = (decimal n ++ ".xml".toList).length - 1 + 1 := by
      rw [List.length_append]
      have tail : ".xml".toList.length = 4 := by decide
      omega
    have other := dropAll_digits 'l' ['m', 'x', '.'] (decimal n).reverse [] (by decide)
      (fun d member => digits d (List.mem_reverse.mp member))
        (fun none_ => some_ (List.reverse_eq_nil_iff.mp none_))
      ((decimal n ++ ".xml".toList).length - 1)
    rw [List.append_nil] at other
    rw [long, List.reverse_append, dropAll_match]
    exact other
  have read : parseU32 (decimal n) = if n < 2 ^ 32 then some (UInt32.ofNat n) else none := by
    rw [parseU32, decimal, dropPlus_toDigits, parseDigits_toDigits]
  unfold slideNum
  dsimp only
  rw [front, back, List.reverse_reverse, read]
  split
  · rename_i small
    rw [Option.map_some, Option.getD_some, UInt32.toNat_ofNat', Nat.mod_eq_of_lt small]
  · rfl

/-! ### Parts -/

section

variable (decodeBase64 : Str → Option Bytes) (themeBg : Option Str)

theorem exportSlides_texts (n images : Nat) (slides : List ErapSlide) :
    (exportSlides decodeBase64 themeBg n images slides).map
    (fun part => (extractAT part.body, part.number)) =
      (slides.zipIdx n).map fun entry => (entry.1.runs, entry.2) := by
  induction slides generalizing n images with
  | nil => rfl
  | cons slide slides ih =>
      rw [exportSlides, List.map_cons, ih, List.zipIdx_cons, List.map_cons]
      have texts :=
        extractAT_slideXml slide themeBg
          (if (slide.imageUrl.bind (parseDataImage decodeBase64)).isSome then some "rIdImg1".toList
            else none) (by
        intro rid member
        split at member
        · rw [← Option.some.inj member]
          decide
        · cases member)
      dsimp only
      rw [texts]

end

section

variable (parts : List SlidePart)

/-- Numbers from `n` on. -/
def Numbered (n : Nat) : Prop := parts.map (·.number) = List.range' n parts.length

/-- The parts in the order in which they are read: behind `u32::MAX` the number of a name is not
read. -/
def readOrder : List SlidePart :=
  parts.filter (fun part => 2 ^ 32 ≤ part.number) ++ parts.filter (fun part => part.number < 2 ^ 32)

variable {parts}

theorem Numbered.pairwise {n : Nat} (numbered : Numbered parts n) :
    parts.Pairwise fun a b => a.number < b.number := by
  rw [← List.pairwise_map (f := SlidePart.number) (R := fun m k => m < k), numbered]
  exact List.pairwise_lt_range'

theorem Numbered.nodup {n : Nat} (numbered : Numbered parts n) : parts.Nodup :=
  numbered.pairwise.imp fun below same => by
    rw [same] at below
    exact absurd below (Nat.lt_irrefl _)

theorem Numbered.le {n : Nat} (numbered : Numbered parts n) (part : SlidePart)
    (member : part ∈ parts) : n ≤ part.number := by
  have inside : part.number ∈ List.range' n parts.length := by
    rw [← numbered]
    exact List.mem_map_of_mem member
  exact (List.mem_range'_1.mp inside).1

theorem mem_readOrder (part : SlidePart) : part ∈ readOrder parts ↔ part ∈ parts := by
  rw [readOrder, List.mem_append, List.mem_filter, List.mem_filter, decide_eq_true_eq,
    decide_eq_true_eq, ← and_or_left]
  exact and_iff_left (Nat.lt_or_ge part.number (2 ^ 32)).symm

/-- What a slide is sorted by. -/
def readKey (part : SlidePart) : Nat := if part.number < 2 ^ 32 then part.number else 0

theorem pairwise_readOrder (numbered : Numbered parts 1) :
    (readOrder parts).Pairwise fun a b =>
      decide (readKey a ≤ readKey b) = true ∧
        (decide (readKey b ≤ readKey a) = true → a.number < b.number) := by
  have large (a : SlidePart)
      (member : a ∈ parts.filter fun part => decide (2 ^ 32 ≤ part.number)) : readKey a = 0 := by
    rw [readKey, if_neg (Nat.not_lt.mpr (of_decide_eq_true (List.mem_filter.mp member).2))]
  have small (a : SlidePart) (member : a ∈ parts.filter fun part =>
      decide (part.number < 2 ^ 32)) : readKey a = a.number := by
    rw [readKey, if_pos (of_decide_eq_true (List.mem_filter.mp member).2)]
  rw [readOrder, List.pairwise_append]
  refine ⟨?_, ?_, ?_⟩
  · apply (numbered.pairwise.filter _).imp_of_mem
    intro a b inA inB below
    rw [large a inA, large b inB]
    exact ⟨rfl, fun _ => below⟩
  · apply (numbered.pairwise.filter _).imp_of_mem
    intro a b inA inB below
    rw [small a inA, small b inB]
    exact ⟨decide_eq_true (Nat.le_of_lt below), fun _ => below⟩
  · intro a inA b inB
    have one := numbered.le b (List.mem_filter.mp inB).1
    rw [large a inA, small b inB]
    refine ⟨decide_eq_true (Nat.zero_le _), fun never => ?_⟩
    have zero := of_decide_eq_true never
    omega

/-- The names are sorted as their numbers are read. -/
theorem sorted_names (numbered : Numbered parts 1) :
    (parts.map fun part => slideName part.number).mergeSort (fun a b => slideNum a ≤ slideNum b) =
      (readOrder parts).map fun part => slideName part.number := by
  let le (a b : SlidePart) : Bool := readKey a ≤ readKey b
  have trans (a b c : SlidePart) (first : le a b = true) (second : le b c = true) :
      le a c = true := by
    simp only [le, decide_eq_true_eq] at first second ⊢
    omega
  have total (a b : SlidePart) : (le a b || le b a) = true := by
    simp only [le, Bool.or_eq_true, decide_eq_true_eq]
    omega
  have same : parts.mergeSort le = readOrder parts := by
    have left := StableSort.pairwise_stable le total trans
      (fun a b => a.number < b.number) parts numbered.pairwise numbered.nodup
    have perm : (parts.mergeSort le).Perm (readOrder parts) := by
      have split :=
        List.filter_append_perm (fun part : SlidePart => decide (2 ^ 32 ≤ part.number)) parts
      have negation (part : SlidePart) :
          (!decide (2 ^ 32 ≤ part.number)) = decide (part.number < 2 ^ 32) := by
        rw [← decide_not, decide_eq_decide, Nat.not_le]
      rw [funext negation] at split
      exact (List.mergeSort_perm parts le).trans split.symm
    apply perm.eq_of_pairwise _ left (pairwise_readOrder numbered)
    intro a b _ _ first second
    have below := first.2 second.1
    have above := second.2 first.1
    omega
  rw [← same]
  symm
  apply List.map_mergeSort
  intro a _ b _
  rw [slideNum_slideName, slideNum_slideName]
  rfl

end

/-! ### Names -/

theorem decimal_injective (m n : Nat) (same : decimal m = decimal n) : m = n := by
  have read := parseDigits_toDigits m
  rw [show Nat.toDigits 10 m = Nat.toDigits 10 n from same, parseDigits_toDigits] at read
  exact (Option.some.inj read).symm

theorem numberedName_injective (front ending : Str) (m n : Nat)
    (same : numberedName front m ending = numberedName front n ending) :
    m = n :=
  decimal_injective m n (List.append_cancel_right (List.append_cancel_left same))

theorem mediaFile_injective (m n : Nat) (ext other : Str)
    (same : mediaFile m ext = mediaFile n other) : m = n := by
  have plain (k : Nat) : '.' ∉ decimal k :=
    fun member => absurd (Nat.isDigit_of_mem_toDigits (by decide) (by decide) member) (by decide)
  exact decimal_injective m n
    (eq_of_append_delimiter _ _ _ _ '.' (plain m) (plain n) (List.append_cancel_left same))

/-- Groups of texts that begin apart. -/
theorem nodup_flatten_of_tags (tags : List Str) (groups : List (List Str)) (distinct : tags.Nodup)
    (each : List.Forall₂ (fun tag group => group.Nodup ∧ ∀ name ∈ group, name.take 12 = tag) tags
      groups) :
    groups.flatten.Nodup ∧ ∀ name ∈ groups.flatten, name.take 12 ∈ tags := by
  induction each with
  | nil => exact ⟨List.nodup_nil, fun name member => absurd member List.not_mem_nil⟩
  | @cons tag group tags groups here rest ih =>
      obtain ⟨apart, later⟩ := List.nodup_cons.mp distinct
      obtain ⟨nodup, tagged⟩ := ih later
      rw [List.flatten_cons]
      constructor
      · rw [List.nodup_append]
        refine ⟨here.1, nodup, ?_⟩
        rintro a inA b inB rfl
        rw [← here.2 a inA] at apart
        exact apart (tagged a inB)
      · intro name member
        cases List.mem_append.mp member with
        | inl first =>
            rw [here.2 name first]
            exact List.mem_cons_self
        | inr second => exact List.mem_cons_of_mem _ (tagged name second)

theorem take_literal (name tag : Str) (front : name.take 12 = tag) :
    (String.ofList name).toList.take 12 = (String.ofList tag).toList := by
  rw [String.toList_ofList, String.toList_ofList, front]

theorem nodup_numbered (parts : List SlidePart) (front ending : Str)
    (apart : parts.Pairwise fun a b => a.number < b.number) :
    (parts.map fun part => numberedName front part.number ending).Nodup := by
  rw [List.Nodup, List.pairwise_map]
  apply apart.imp
  intro a b below same
  have equal := numberedName_injective front ending a.number b.number same
  omega

/-- Names of some of the parts. -/
theorem numbered_group (parts : List SlidePart)
    (apart : parts.Pairwise fun a b => a.number < b.number) (front tag ending : Str)
    (long : 12 ≤ front.length) (starts : front.take 12 = tag) (group : List Str)
    (some_ : group.Sublist (parts.map fun part => numberedName front part.number ending)) :
    group.Nodup ∧ ∀ name ∈ group, name.take 12 = tag := by
  refine ⟨(nodup_numbered parts front ending apart).sublist some_, fun name member => ?_⟩
  obtain ⟨part, -, same⟩ := List.mem_map.mp (some_.subset member)
  rw [← same, numberedName, List.take_append_of_le_length long, starts]

/-- Names of some of the parts, each with the part's number. -/
theorem sublist_numbered {α : Type} (parts : List SlidePart) (name : SlidePart → Str)
    (found : SlidePart → Option α) (bytes : α → Bytes) :
    ((parts.filterMap fun part => (found part).map fun a => (name part, bytes a)).map
      Prod.fst).Sublist (parts.map name) := by
  induction parts with
  | nil => exact List.Sublist.refl []
  | cons part parts ih =>
      cases here : found part with
      | none =>
          rw [List.filterMap_cons_none (by rw [here, Option.map_none]), List.map_cons]
          exact ih.cons _
      | some a =>
          rw [List.filterMap_cons_some (by rw [here, Option.map_some]), List.map_cons,
            List.map_cons]
          exact ih.cons_cons _

section

variable (decodeBase64 : Str → Option Bytes) (themeBg : Option Str)

/-- Images are numbered on. -/
theorem media_exportSlides (n images : Nat) (slides : List ErapSlide) :
    (((exportSlides decodeBase64 themeBg n images slides).filterMap (·.media)).map Prod.fst).Nodup ∧
      ∀ name ∈ ((exportSlides decodeBase64 themeBg n images slides).filterMap (·.media)).map
        Prod.fst,
        ∃ k ext, images < k ∧ name = mediaFile k ext := by
  induction slides generalizing n images with
  | nil => exact ⟨List.nodup_nil, fun name member => absurd member List.not_mem_nil⟩
  | cons slide slides ih =>
      rw [exportSlides]
      cases image : slide.imageUrl.bind (parseDataImage decodeBase64) with
      | none =>
          rw [List.filterMap_cons_none rfl]
          exact ih (n + 1) images
      | some img =>
          obtain ⟨nodup, numbered⟩ := ih (n + 1) (images + 1)
          have first (part : SlidePart) (rest : List SlidePart)
              (here : part.media = some (mediaFile (images + 1) img.ext, img)) :
              ((part :: rest).filterMap (·.media)).map Prod.fst = mediaFile
                (images + 1) img.ext :: (rest.filterMap (·.media)).map Prod.fst := by
            rw [List.filterMap_cons_some here, List.map_cons]
          rw [first _ _ rfl, List.nodup_cons]
          constructor
          · refine ⟨fun member => ?_, nodup⟩
            obtain ⟨k, ext, above, same⟩ := numbered _ member
            have equal := mediaFile_injective _ _ _ _ same
            omega
          · intro name member
            cases List.mem_cons.mp member with
            | inl here => exact ⟨images + 1, img.ext, Nat.lt_succ_self images, here⟩
            | inr later =>
                obtain ⟨k, ext, above, same⟩ := numbered name later
                exact ⟨k, ext, by omega, same⟩

theorem numbered_exportSlides (n images : Nat) (slides : List ErapSlide) :
    Numbered (exportSlides decodeBase64 themeBg n images slides) n := by
  have texts :=
    congrArg (List.map Prod.snd) (exportSlides_texts decodeBase64 themeBg n images slides)
  have long := congrArg List.length texts
  rw [List.length_map, List.length_map, List.length_map, List.length_map,
    List.length_zipIdx] at long
  rw [List.map_map, List.map_map] at texts
  unfold Numbered
  rw [long]
  exact texts.trans (List.zipIdx_map_snd n slides)

/-- The beginnings of the names of the groups of parts. -/
def groupTags : List Str :=
  ["[Content_Typ".toList, "_rels/.rels".toList, "ppt/presenta".toList, "ppt/_rels/pr".toList,
    "ppt/slides/s".toList, "ppt/slides/_".toList, "ppt/notesSli".toList, "ppt/media/im".toList]

theorem groups_tagged (slides : List ErapSlide) :
    List.Forall₂ (fun tag group => group.Nodup ∧ ∀ name ∈ group, name.take 12 = tag) groupTags
      ((pptxGroups (exportSlides decodeBase64 themeBg 1 0 slides)).map (List.map Prod.fst)) := by
  have ordered := (numbered_exportSlides decodeBase64 themeBg 1 0 slides).pairwise
  obtain ⟨images, numbered⟩ := media_exportSlides decodeBase64 themeBg 1 0 slides
  generalize exportSlides decodeBase64 themeBg 1 0 slides = parts at ordered images numbered
  have single (name : Str) (bytes : Bytes) (tag : Str) (starts : name.take 12 = tag) :
      ([(name, bytes)].map Prod.fst).Nodup ∧
        ∀ other ∈ [(name, bytes)].map Prod.fst, other.take 12 = tag := by
    refine ⟨List.nodup_singleton name, fun other member => ?_⟩
    rw [List.mem_singleton.mp member, starts]
  have media :
      (parts.filterMap fun part => part.media.map fun m =>
        ("ppt/media/".toList ++ m.1, m.2.bytes)).map Prod.fst =
      ((parts.filterMap (·.media)).map Prod.fst).map ("ppt/media/".toList ++ ·) := by
    rw [List.map_filterMap, List.map_map, List.map_filterMap]
    congr 1
    funext part
    cases part.media <;> rfl
  unfold pptxGroups groupTags
  rw [List.map_cons, List.map_cons, List.map_cons, List.map_cons, List.map_cons, List.map_cons,
    List.map_cons, List.map_cons, List.map_nil]
  refine .cons ?_ (.cons ?_ (.cons ?_ (.cons ?_ (.cons ?_ (.cons ?_ (.cons ?_ (.cons ?_ .nil)))))))
  · exact single _ _ _ (take_literal _ _ rfl)
  · exact single _ _ _ (take_literal _ _ rfl)
  · exact single _ _ _ (take_literal _ _ rfl)
  · exact single _ _ _ (take_literal _ _ rfl)
  · refine numbered_group parts ordered "ppt/slides/slide".toList _ ".xml".toList (by decide)
      (take_literal _ _ rfl) _ ?_
    rw [List.map_map]
    exact List.Sublist.refl _
  · refine numbered_group parts ordered "ppt/slides/_rels/slide".toList _ ".xml.rels".toList
      (by decide) (take_literal _ _ rfl) _ ?_
    rw [List.map_map]
    exact List.filter_sublist.map _
  · refine numbered_group parts ordered "ppt/notesSlides/notesSlide".toList _ ".xml".toList
      (by decide) (take_literal _ _ rfl) _ ?_
    exact sublist_numbered parts (fun part => notesName part.number) (·.notes) utf8
  · rw [media]
    refine ⟨images.map (List.append_right_injective _), fun name member => ?_⟩
    obtain ⟨file, inside, same⟩ := List.mem_map.mp member
    obtain ⟨k, ext, -, shape⟩ := numbered file inside
    rw [← same, shape]
    rfl

theorem nodup_parts (slides : List ErapSlide) :
    ((pptxGroups (exportSlides decodeBase64 themeBg 1 0 slides)).flatten.map Prod.fst).Nodup := by
  rw [List.map_flatten]
  exact (nodup_flatten_of_tags groupTags _ (by decide)
    (groups_tagged decodeBase64 themeBg slides)).1

theorem filter_other (group : List Str) (tag : Str) (tagged : ∀ name ∈ group, name.take 12 = tag)
    (other : tag ≠ "ppt/slides/s".toList) : group.filter isSlideName = [] := by
  rw [List.filter_eq_nil_iff]
  intro name member slide
  obtain ⟨rest, shape⟩ := List.isPrefixOf_iff_prefix.mp (Bool.and_eq_true_iff.mp slide).1
  apply other
  rw [← tagged name member, ← shape]
  rfl

theorem isSlideName_slideName (n : Nat) : isSlideName (slideName n) = true := by
  rw [isSlideName, Bool.and_eq_true, List.isPrefixOf_iff_prefix, List.isSuffixOf_iff_suffix]
  exact ⟨List.prefix_append _ _, (List.suffix_append _ _).trans (List.suffix_append _ _)⟩

/-- Only slides are taken for slides. -/
theorem slide_names (slides : List ErapSlide) :
    ((pptxGroups (exportSlides decodeBase64 themeBg 1 0 slides)).flatten.map Prod.fst).filter
    isSlideName =
      (exportSlides decodeBase64 themeBg 1 0 slides).map fun part => slideName part.number := by
  have tagged := groups_tagged decodeBase64 themeBg slides
  generalize exportSlides decodeBase64 themeBg 1 0 slides = parts at tagged
  unfold pptxGroups groupTags at *
  simp only [List.map_cons, List.map_nil, List.forall₂_cons] at tagged
  obtain ⟨⟨-, types⟩, ⟨-, rels⟩, ⟨-, presentation⟩, ⟨-, presentationRels⟩, -, ⟨-, slideRels⟩,
      ⟨-, notes⟩, ⟨-, media⟩, -⟩ := tagged
  have slides_ :
      ((parts.map fun part => (slideName part.number, utf8 part.body)).map Prod.fst).filter
        isSlideName =
      parts.map fun part => slideName part.number := by
    rw [List.map_map, List.filter_eq_self.mpr]
    · rfl
    · intro name member
      obtain ⟨part, -, same⟩ := List.mem_map.mp member
      rw [← same]
      exact isSlideName_slideName part.number
  simp only [List.flatten_cons, List.flatten_nil, List.map_append, List.filter_append,
    List.map_cons, List.map_nil]
  rw [filter_other _ _ types (by decide), filter_other _ _ rels (by decide),
    filter_other _ _ presentation (by decide),
    filter_other _ _ presentationRels (by decide), slides_, filter_other _ _ slideRels (by decide),
    filter_other _ _ notes (by decide),
    filter_other _ _ media (by decide)]
  rw [List.filter_nil]
  simp only [List.nil_append, List.append_nil]

theorem importSlides_texts (zip : Archive) (file : zip.File) (newId : Nat → Nat → Str) (i : Nat)
    (parts : List SlidePart)
    (kept : ∀ part ∈ parts, zip.readText file (slideName part.number) = some part.body) :
    ∃ back, importSlides zip file newId i
      (parts.map fun part => slideName part.number) = some back ∧
      back.map (fun slide => (slide.title, slide.body)) =
        parts.map fun part =>
          ((extractAT part.body).getD 0 [], (extractAT part.body).getD 1 []) := by
  induction parts generalizing i with
  | nil => exact ⟨[], rfl, rfl⟩
  | cons part parts ih =>
      obtain ⟨back, read, texts⟩ :=
        ih (i + 1) fun other member => kept other (List.mem_cons_of_mem part member)
      refine ⟨readSlide (newId i) part.body :: back, ?_, ?_⟩
      · rw [List.map_cons, importSlides, kept part List.mem_cons_self, read]
        rfl
      · rw [List.map_cons, List.map_cons, texts, (texts_readSlide _ _).1, (texts_readSlide _ _).2]

end

/-! ### The deck -/

/-- The slides in the order in which their names are read. -/
def renumbered (slides : List ErapSlide) : List ErapSlide :=
  ((slides.zipIdx 1).filter (fun entry => 2 ^ 32 ≤ entry.2) ++ (slides.zipIdx 1).filter
    (fun entry => entry.2 < 2 ^ 32)).map Prod.fst

theorem renumbered_eq (slides : List ErapSlide) (small : slides.length < 2 ^ 32) :
    renumbered slides = slides := by
  have below (entry : ErapSlide × Nat) (member : entry ∈ slides.zipIdx 1) : entry.2 < 2 ^ 32 := by
    have bound := List.snd_lt_add_of_mem_zipIdx member
    omega
  have first : (slides.zipIdx 1).filter (fun entry => decide (2 ^ 32 ≤ entry.2)) = [] := by
    rw [List.filter_eq_nil_iff]
    intro entry member
    rw [decide_eq_true_eq, Nat.not_le]
    exact below entry member
  have second :
      (slides.zipIdx 1).filter (fun entry => decide (entry.2 < 2 ^ 32)) = slides.zipIdx 1 := by
    rw [List.filter_eq_self]
    exact fun entry member => decide_eq_true (below entry member)
  rw [renumbered, first, second, List.nil_append, List.zipIdx_map_fst]

/-- The first two texts of a slide. -/
def ErapSlide.firstTexts (slide : ErapSlide) : Str × Str :=
  (slide.runs.getD 0 [], slide.runs.getD 1 [])

def ErapSlide.texts (slide : ErapSlide) : Str × Str := (slide.title, slide.body)

theorem readOrder_texts (decodeBase64 : Str → Option Bytes) (themeBg : Option Str)
    (slides : List ErapSlide) :
    (readOrder (exportSlides decodeBase64 themeBg 1 0 slides)).map
        (fun part => ((extractAT part.body).getD 0 [], (extractAT part.body).getD 1 [])) =
      (renumbered slides).map ErapSlide.firstTexts := by
  have pairs := exportSlides_texts decodeBase64 themeBg 1 0 slides
  generalize exportSlides decodeBase64 themeBg 1 0 slides = parts at pairs
  have chosen (p : Nat → Bool) : (parts.filter fun part => p part.number).map
      (fun part => (extractAT part.body, part.number)) =
        ((slides.zipIdx 1).filter fun entry => p entry.2).map fun entry =>
          (entry.1.runs, entry.2) := by
    have filtered := congrArg (List.filter fun pair => p pair.2) pairs
    rw [List.filter_map, List.filter_map] at filtered
    exact filtered
  have texts (p : Nat → Bool) : (parts.filter fun part => p part.number).map
        (fun part => ((extractAT part.body).getD 0 [], (extractAT part.body).getD 1 [])) =
      (((slides.zipIdx 1).filter fun entry => p entry.2).map Prod.fst).map
        ErapSlide.firstTexts := by
    have read :=
      congrArg (List.map fun pair : List Str × Nat => (pair.1.getD 0 [], pair.1.getD 1 []))
        (chosen p)
    rw [List.map_map, List.map_map] at read
    rw [List.map_map]
    exact read
  rw [readOrder, renumbered, List.map_append, List.map_append, List.map_append]
  rw [texts fun k => decide (2 ^ 32 ≤ k), texts fun k => decide (k < 2 ^ 32)]

/-! ### Whole texts -/

theorem length_blockPlain (inlines : List Docs.InlineSpan) :
    (Docs.blockPlain inlines).length = ((inlines.map (·.text)).map List.length).sum := by
  rw [Docs.blockPlain, List.length_flatMap, List.map_map]
  rfl

/-- A text has the lengths of its runs and a line feed between its paragraphs. -/
theorem length_plainText (frame : TextFrame) (some_ : frame.blocks ≠ []) :
    frame.plainText.length + 1 = (frame.runs.map List.length).sum + frame.blocks.length := by
  have joined (blocks : List Block) (filled : blocks ≠ []) :
      (List.intercalate ['\n'] (blocks.map fun block => Docs.blockPlain block.inlines)).length + 1 =
        ((blocks.flatMap fun block => block.inlines.map (·.text)).map List.length).sum +
          blocks.length := by
    induction blocks with
    | nil => exact absurd rfl filled
    | cons block blocks ih =>
        cases blocks with
        | nil =>
            have one := length_blockPlain block.inlines
            simpa [List.intercalate] using one
        | cons next blocks =>
            have later := ih (List.cons_ne_nil next blocks)
            have one := length_blockPlain block.inlines
            rw [List.map_cons] at later
            rw [List.map_cons, List.map_cons, List.intercalate_cons_cons, List.length_append,
              List.length_append, one, List.flatMap_cons, List.map_append, List.sum_append]
            simp only [List.length_cons, List.length_nil] at later ⊢
            omega
  exact joined frame.blocks some_

theorem blocks_of_runs (frame : TextFrame) (some_ : frame.runs ≠ []) : frame.blocks ≠ [] := by
  intro none_
  rw [TextFrame.runs, none_] at some_
  exact some_ rfl

/-- The first run is the whole text if there is one paragraph and nothing in its other runs. -/
theorem plainText_eq_iff (frame : TextFrame) (first : Str) (rest : List Str)
    (runs : frame.runs = first :: rest) :
    first = frame.plainText ↔ frame.blocks.length = 1 ∧ ∀ t ∈ rest, t = [] := by
  have filled := blocks_of_runs frame (by rw [runs]; exact List.cons_ne_nil first rest)
  have lengths := length_plainText frame filled
  have one := List.length_pos_iff.mpr filled
  rw [runs, List.map_cons, List.sum_cons] at lengths
  constructor
  · intro whole
    rw [← whole] at lengths
    refine ⟨by omega, fun t member => List.length_eq_zero_iff.mp ?_⟩
    have bound := List.le_sum_of_mem (List.mem_map_of_mem (f := List.length) member)
    omega
  · rintro ⟨single, blank⟩
    obtain ⟨block, only⟩ := List.length_eq_one_iff.mp single
    have texts : block.inlines.map (·.text) = first :: rest := by
      rw [← runs, TextFrame.runs, only, List.flatMap_singleton]
    have plain : frame.plainText = (block.inlines.map (·.text)).flatten := by
      rw [TextFrame.plainText, only, List.map_singleton, List.intercalate_singleton,
        Docs.blockPlain, List.flatMap_def]
    rw [plain, texts, List.flatten_cons, List.flatten_eq_nil_iff.mpr blank, List.append_nil]

theorem plainText_eq_nil_iff (frame : TextFrame) (some_ : frame.runs ≠ []) :
    frame.plainText = [] ↔ frame.blocks.length = 1 ∧ ∀ t ∈ frame.runs, t = [] := by
  have filled := blocks_of_runs frame some_
  have lengths := length_plainText frame filled
  have one := List.length_pos_iff.mpr filled
  rw [← List.length_eq_zero_iff]
  constructor
  · intro empty
    refine ⟨by omega, fun t member => List.length_eq_zero_iff.mp ?_⟩
    have bound := List.le_sum_of_mem (List.mem_map_of_mem (f := List.length) member)
    omega
  · rintro ⟨single, blank⟩
    have none_ : (frame.runs.map List.length).sum = 0 := by
      rw [List.sum_eq_zero]
      intro n member
      obtain ⟨t, inside, same⟩ := List.mem_map.mp member
      rw [← same, blank t inside, List.length_nil]
    omega

/-- The title is one run, and the body has nothing behind its first (or the title has nothing behind
its first, and the body nothing at all); both are one paragraph. -/
def ErapSlide.Whole (slide : ErapSlide) : Prop :=
  slide.titleFrame.blocks.length = 1 ∧ slide.bodyFrame.blocks.length = 1 ∧
    (slide.titleFrame.runs.length = 1 ∧ (∀ t ∈ slide.bodyFrame.runs.tail, t = []) ∨
      (∀ t ∈ slide.titleFrame.runs.tail, t = []) ∧ ∀ t ∈ slide.bodyFrame.runs, t = [])

/-- Title and body are shown, and neither is without a run. -/
structure ErapSlide.Filled (slide : ErapSlide) : Prop where
  shown : slide.layout ≠ "title_only".toList
  title : slide.titleFrame.runs ≠ []
  body : slide.bodyFrame.runs ≠ []

theorem firstTexts_iff (slide : ErapSlide) (filled : slide.Filled) :
    slide.firstTexts = slide.texts ↔ slide.Whole := by
  obtain ⟨shown, title, body⟩ := filled
  obtain ⟨first, more, titles⟩ := List.exists_cons_of_ne_nil title
  obtain ⟨text, others, bodies⟩ := List.exists_cons_of_ne_nil body
  have whole := plainText_eq_iff slide.titleFrame first more titles
  have runs :
      slide.runs = first :: (more ++ (text :: others ++
        if slide.layout = "two_column".toList then slide.body2Frame.runs else [])) := by
    rw [ErapSlide.runs, if_neg shown, titles, bodies, List.cons_append]
  rw [ErapSlide.firstTexts, ErapSlide.texts, runs, Prod.mk.injEq, ErapSlide.Whole, titles, bodies]
  cases more with
  | nil =>
      have kept := plainText_eq_iff slide.bodyFrame text others bodies
      change first = slide.titleFrame.plainText ∧ text = slide.bodyFrame.plainText ↔ _
      rw [whole, kept]
      constructor
      · rintro ⟨⟨title, -⟩, body, blank⟩
        exact ⟨title, body, Or.inl ⟨rfl, blank⟩⟩
      · rintro ⟨title, body, ⟨-, blank⟩ | ⟨-, blank⟩⟩
        · exact ⟨⟨title, fun t member => absurd member List.not_mem_nil⟩, body, blank⟩
        · exact ⟨⟨title, fun t member => absurd member List.not_mem_nil⟩, body, fun t member =>
            blank t (List.mem_cons_of_mem text member)⟩
  | cons second more =>
      have empty := plainText_eq_nil_iff slide.bodyFrame body
      rw [bodies] at empty
      change first = slide.titleFrame.plainText ∧ second = slide.bodyFrame.plainText ↔ _
      rw [whole, List.length_cons, List.length_cons, List.tail_cons]
      constructor
      · rintro ⟨⟨title, blank⟩, body⟩
        rw [blank second List.mem_cons_self] at body
        obtain ⟨single, nothing⟩ := empty.mp body.symm
        exact ⟨title, single, Or.inr ⟨blank, nothing⟩⟩
      · rintro ⟨title, single, ⟨never, -⟩ | ⟨blank, nothing⟩⟩
        · omega
        · have none_ : second = [] := blank second List.mem_cons_self
          exact ⟨⟨title, blank⟩, none_.trans (empty.mpr ⟨single, nothing⟩).symm⟩

section

variable (zip : Archive) (decodeBase64 : Str → Option Bytes) (newId : Nat → Str)
  (newIds : Nat → Nat → Str)

/-- The import of the exported deck succeeds with the texts of its slides. -/
def Keeps (deck : ErapDeck) : Prop :=
  ∃ file back, exportPptx zip decodeBase64 newId deck = some file ∧
    importPptx zip newIds file = some back ∧
    back.slides.map ErapSlide.texts = deck.slides.map ErapSlide.texts

theorem texts_eq (slide : ErapSlide) :
    slide.texts = ([], []) ↔ slide.title = [] ∧ slide.body = [] := Prod.mk.injEq .. |>.to_iff

theorem keeps_iff (faithful : zip.Faithful) (deck : ErapDeck)
    (shown : ∃ slide ∈ deck.slides, slide.texts ≠ ([], [])) :
    Keeps zip decodeBase64 newId newIds deck ↔
      (renumbered deck.slides).map ErapSlide.firstTexts = deck.slides.map ErapSlide.texts := by
  obtain ⟨some_, inside, text⟩ := shown
  have filled : deck.slides ≠ [] := List.ne_nil_of_mem inside
  have parts : ∃ parts, parts = exportSlides decodeBase64 deck.themeBackground 1 0 deck.slides :=
    ⟨_, rfl⟩
  obtain ⟨parts, shape⟩ := parts
  have numbered := numbered_exportSlides decodeBase64 deck.themeBackground 1 0 deck.slides
  have names := slide_names decodeBase64 deck.themeBackground deck.slides
  have read := readOrder_texts decodeBase64 deck.themeBackground deck.slides
  obtain ⟨file, written, signed, opens, listed, returned⟩ :=
    faithful.returns _ (nodup_parts decodeBase64 deck.themeBackground deck.slides)
  rw [← shape] at numbered names read written listed returned
  have slides (part : SlidePart) (member : part ∈ readOrder parts) :
      zip.readText file (slideName part.number) = some part.body := by
    apply returned
    rw [List.mem_flatten]
    refine ⟨parts.map fun part => (slideName part.number, utf8 part.body), ?_, ?_⟩
    · unfold pptxGroups
      simp only [List.mem_cons, true_or, or_true]
    · exact List.mem_map_of_mem ((mem_readOrder part).mp member)
  obtain ⟨back, imported, texts⟩ := importSlides_texts zip file newIds 1 (readOrder parts) slides
  rw [read] at texts
  have exported : exportPptx zip decodeBase64 newId deck = some file := by
    rw [exportPptx, if_neg filled, ← shape]
    exact written
  have result : importPptx zip newIds file =
      if back.all fun slide => decide (slide.title = [] ∧ slide.body = []) then none
      else some { ErapDeck.empty (newIds 0) with slides := back } := by
    unfold importPptx
    rw [if_pos signed, if_pos opens]
    dsimp only
    rw [listed, names, sorted_names numbered, if_neg, imported]
    · rfl
    · intro none_
      rw [List.map_eq_nil_iff] at none_
      cases first : deck.slides with
      | nil => exact filled first
      | cons slide rest =>
          rw [first, exportSlides] at shape
          have member := (mem_readOrder _).mpr (show _ ∈ parts from shape ▸ List.mem_cons_self)
          rw [none_] at member
          exact absurd member List.not_mem_nil
  constructor
  · rintro ⟨file', deck', same, opened, kept⟩
    rw [exported] at same
    rw [← Option.some.inj same, result] at opened
    split_ifs at opened with empty
    rw [← Option.some.inj opened] at kept
    exact texts.symm.trans kept
  · intro kept
    refine ⟨file, { ErapDeck.empty (newIds 0) with slides := back }, exported, ?_, texts.trans kept⟩
    rw [result, if_neg]
    intro empty
    have member : some_.texts ∈ back.map ErapSlide.texts := by
      rw [show back.map ErapSlide.texts = _ from texts, kept]
      exact List.mem_map_of_mem inside
    obtain ⟨slide, found, same⟩ := List.mem_map.mp member
    rw [← same] at text
    exact text ((texts_eq slide).mpr (of_decide_eq_true (List.all_eq_true.mp empty slide found)))

/-- The texts are kept exactly if the first run of each slide is its whole title and the second its
whole body, a missing run being empty (of 2 ^ 32 slides and more, those whose numbers are not read
are read first); where title and body have runs, exactly if they are whole. -/
theorem pptx_keeps_texts_iff (faithful : zip.Faithful) (deck : ErapDeck)
    (shown : ∃ slide ∈ deck.slides, slide.texts ≠ ([], [])) :
    (Keeps zip decodeBase64 newId newIds deck ↔
        (renumbered deck.slides).map ErapSlide.firstTexts = deck.slides.map ErapSlide.texts) ∧
      (deck.slides.length < 2 ^ 32 → (∀ slide ∈ deck.slides, slide.Filled) →
        (Keeps zip decodeBase64 newId newIds deck ↔ ∀ slide ∈ deck.slides, slide.Whole)) := by
  have kept := keeps_iff zip decodeBase64 newId newIds faithful deck shown
  refine ⟨kept, fun small filled => ?_⟩
  rw [kept, renumbered_eq deck.slides small, List.map_inj_left]
  constructor
  · intro same slide member
    exact (firstTexts_iff slide (filled slide member)).mp (same slide member)
  · intro whole slide member
    exact (firstTexts_iff slide (filled slide member)).mpr (whole slide member)

end

/-! ### Some decks -/

/-- An archive that is the list of its parts. -/
def Archive.stored : Archive where
  File := List (Str × Bytes)
  write := some
  signed := fun _ => true
  opens := fun _ => true
  names := fun parts => parts.map Prod.fst
  readText := fun parts name =>
    (parts.find? fun part => part.1 = name).bind fun part =>
      part.2.toByteArray.utf8Decode?.map Array.toList

theorem Archive.stored_faithful : Archive.stored.Faithful where
  returns := by
    intro parts distinct
    refine ⟨parts, rfl, rfl, rfl, rfl, fun name text member => ?_⟩
    have found : (parts.find? fun part => decide (part.1 = name)) = some (name, utf8 text) := by
      induction parts with
      | nil => exact absurd member List.not_mem_nil
      | cons part parts ih =>
          obtain ⟨apart, later⟩ := List.nodup_cons.mp distinct
          cases List.mem_cons.mp member with
          | inl here =>
              rw [← here]
              exact List.find?_cons_of_pos (decide_eq_true rfl)
          | inr inside =>
              rw [List.find?_cons_of_neg, ih later inside]
              intro same
              have known := List.mem_map_of_mem (f := Prod.fst) inside
              rw [← of_decide_eq_true same] at known
              exact apart known
    have decoded : (utf8 text).toByteArray.utf8Decode? = some text.toArray :=
      List.utf8Decode?_utf8Encode
    change ((parts.find? fun part => decide (part.1 = name)).bind fun part =>
      part.2.toByteArray.utf8Decode?.map Array.toList) = some text
    rw [found, Option.bind_some, decoded]
    rfl

/-- A deck of one slide. -/
def oneSlide (title body : List Str) : ErapDeck where
  tenantId := []
  name := "deck.erap".toList
  slides := [{ id := "s1".toList, titleFrame := ⟨title.map (Block.paragraph "b".toList)⟩,
               bodyFrame := ⟨body.map (Block.paragraph "b".toList)⟩, body2Frame := ⟨[]⟩ }]

theorem filled_oneSlide (title body : Str) (others : List Str) :
    ∀ slide ∈ (oneSlide [title] (body :: others)).slides, slide.Filled := by
  intro slide member
  have other : "title_body".toList ≠ "title_only".toList := by decide
  rw [List.mem_singleton.mp member]
  exact ⟨other, List.cons_ne_nil _ _, List.cons_ne_nil _ _⟩

theorem agenda_kept :
    Keeps Archive.stored (fun _ => none) (fun _ => []) (fun _ _ => [])
      (oneSlide ["Agenda".toList] ["Item".toList]) := by
  have shown : ∃ slide ∈ (oneSlide ["Agenda".toList] ["Item".toList]).slides,
      slide.texts ≠ ([], []) :=
    ⟨_, List.mem_singleton_self _, fun same => absurd (congrArg Prod.fst same) (by decide)⟩
  apply ((pptx_keeps_texts_iff Archive.stored _ _ _ Archive.stored_faithful _ shown).2 (by decide)
    (filled_oneSlide _ _ [])).mpr
  intro slide member
  rw [List.mem_singleton.mp member]
  exact ⟨rfl, rfl, Or.inl ⟨rfl, fun t none_ => absurd none_ List.not_mem_nil⟩⟩

/-- Of two paragraphs only the first is kept. -/
theorem second_paragraph_lost :
    ¬ ∀ (zip : Archive) (decodeBase64 : Str → Option Bytes) (newId : Nat → Str)
      (newIds : Nat → Nat → Str), zip.Faithful →
      ∀ deck : ErapDeck, (∃ slide ∈ deck.slides, slide.texts ≠ ([], [])) →
        (∀ slide ∈ deck.slides, slide.Filled) →
        Keeps zip decodeBase64 newId newIds deck := by
  intro all
  have shown : ∃ slide ∈ (oneSlide ["T".toList] ["a".toList, "b".toList]).slides,
      slide.texts ≠ ([], []) :=
    ⟨_, List.mem_singleton_self _, fun same => absurd (congrArg Prod.fst same) (by decide)⟩
  have kept := all Archive.stored (fun _ => none) (fun _ => [])
    (fun _ _ => []) Archive.stored_faithful _ shown (filled_oneSlide _ _ _)
  rw [keeps_iff _ _ _ _ Archive.stored_faithful _ shown, renumbered_eq _ (by decide),
    List.map_inj_left] at kept
  exact absurd (congrArg Prod.snd (kept _ (List.mem_singleton_self _))) (by decide)

end EraOne.Pres
