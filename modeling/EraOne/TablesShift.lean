import EraOne.TablesAddr

set_option autoImplicit false

/- What the shift of rows does to the text of a formula. -/
namespace EraOne.Tables

open Scan

/-! ### Cell references of a formula -/

def isQuote (c : Char) : Bool := c = '"' || c = '\''

def quoteStep (open_ : Option Char) (c : Char) : Option Char :=
  match open_ with
  | none => if isQuote c then some c else none
  | some quote => if c = quote then none else some quote

/-- The quote that is open behind a text. -/
def quoteAfter (front : Str) : Option Char := front.foldl quoteStep none

/-- The characters of a name. -/
def isWord (c : Char) : Bool := c.isAlphanum || c = '_' || c = '.' || 128 ≤ c.toNat

/-- `row` is the row number of a cell reference: outside quotes, a word of letters and a positive
number, which names neither a function nor a sheet. -/
structure IsReference (front row back : Str) : Prop where
  outside : quoteAfter front = none
  column : front.reverse.takeWhile isWord ≠ []
  letters : ∀ c ∈ front.reverse.takeWhile isWord, c.isAlpha = true
  digits : ∀ c ∈ row, c.isDigit = true
  number : ∃ r, parseU32 row = some r ∧ r ≠ 0
  ends : ∀ c ∈ back.head?, isWord c = false
  cell : ∀ c ∈ (back.dropWhile isWhitespace).head?, c ≠ '(' ∧ c ≠ '!'

/-- A text with other numbers in the rows of its cell references and no other difference; `front`
stands before it. -/
inductive RowsOnly : Str → Str → Str → Prop where
  | done (front : Str) : RowsOnly front [] []
  | keep (front : Str) (c : Char) (rest out : Str) (next : RowsOnly (front ++ [c]) rest out) :
      RowsOnly front (c :: rest) (c :: out)
  | row (front row row' rest out : Str) (reference : IsReference front row rest) (some_ : row' ≠ [])
      (digits : ∀ c ∈ row', c.isDigit = true) (next : RowsOnly (front ++ row) rest out) :
      RowsOnly front (row ++ rest) (row' ++ out)

/-! ### A text as its numbers and what stands between them -/

/-- The digits a text starts with, and each further character with the digits behind it. -/
def chunks : Str → Str × List (Char × Str)
  | [] => ([], [])
  | c :: s =>
      if c.isDigit then (c :: (chunks s).1, (chunks s).2)
        else ([], (c, (chunks s).1) :: (chunks s).2)

def unchunk (l : List (Char × Str)) : Str := l.flatMap fun x => x.1 :: x.2

@[simp] theorem unchunk_nil : unchunk [] = [] := rfl

@[simp] theorem unchunk_cons (x : Char × Str) (l : List (Char × Str)) :
    unchunk (x :: l) = x.1 :: (x.2 ++ unchunk l) := rfl

@[simp] theorem unchunk_append (l m : List (Char × Str)) :
    unchunk (l ++ m) = unchunk l ++ unchunk m :=
  List.flatMap_append

theorem chunks_digit (c : Char) (s : Str) (digit : c.isDigit = true) :
    chunks (c :: s) = (c :: (chunks s).1, (chunks s).2) := by
  rw [chunks, if_pos digit]

theorem chunks_other (c : Char) (s : Str) (other : c.isDigit = false) :
    chunks (c :: s) = ([], (c, (chunks s).1) :: (chunks s).2) := by
  rw [chunks, if_neg (by simp [other])]

theorem unchunk_chunks (s : Str) : (chunks s).1 ++ unchunk (chunks s).2 = s := by
  induction s with
  | nil => rfl
  | cons c s ih =>
      cases digit : c.isDigit with
      | true => rw [chunks_digit c s digit, List.cons_append, ih]
      | false => rw [chunks_other c s digit, List.nil_append, unchunk_cons, ih]

/-- Chunks hold digits where they should. -/
structure Chunked (lead : Str) (l : List (Char × Str)) : Prop where
  lead : ∀ c ∈ lead, c.isDigit = true
  heads : ∀ x ∈ l, x.1.isDigit = false
  numbers : ∀ x ∈ l, ∀ c ∈ x.2, c.isDigit = true

theorem chunked_chunks (s : Str) : Chunked (chunks s).1 (chunks s).2 := by
  induction s with
  | nil => exact ⟨by simp [chunks], by simp [chunks], by simp [chunks]⟩
  | cons c s ih =>
      cases digit : c.isDigit with
      | true =>
          rw [chunks_digit c s digit]
          exact ⟨by simpa [digit] using ih.lead, ih.heads, ih.numbers⟩
      | false =>
          rw [chunks_other c s digit]
          exact ⟨by simp, by simpa [digit] using ih.heads, by
            intro x member
            cases List.mem_cons.mp member with
            | inl here => rw [here]; exact ih.lead
            | inr later => exact ih.numbers x later⟩

theorem chunks_digits (digits s : Str) (all : ∀ c ∈ digits, c.isDigit = true) :
    chunks (digits ++ s) = (digits ++ (chunks s).1, (chunks s).2) := by
  induction digits with
  | nil => rfl
  | cons c digits ih =>
      have inner := ih (fun d member => all d (List.mem_cons_of_mem _ member))
      rw [List.cons_append, chunks_digit _ _ (all c List.mem_cons_self), inner, List.cons_append]

theorem chunks_unchunk (lead : Str) (l : List (Char × Str)) (chunked : Chunked lead l) :
    chunks (lead ++ unchunk l) = (lead, l) := by
  have inner : chunks (unchunk l) = ([], l) := by
    induction l with
    | nil => rfl
    | cons x l ih =>
        have rest :=
          ih ⟨chunked.lead, fun y member => chunked.heads y (List.mem_cons_of_mem _ member),
          fun y member => chunked.numbers y (List.mem_cons_of_mem _ member)⟩
        rw [unchunk_cons, chunks_other _ _ (chunked.heads x List.mem_cons_self),
          chunks_digits _ _ (chunked.numbers x List.mem_cons_self), rest, List.append_nil]
  rw [chunks_digits _ _ chunked.lead, inner, List.append_nil]

theorem chunks_lead (s : Str) (first : ∀ c ∈ s.head?, c.isDigit = false) : (chunks s).1 = [] := by
  cases s with
  | nil => rfl
  | cons c s => rw [chunks_other c s (first c rfl)]

/-- A text in front of one that starts with no digit has its chunks first. -/
theorem chunks_append (s t : Str) (first : ∀ c ∈ t.head?, c.isDigit = false) :
    chunks (s ++ t) = ((chunks s).1, (chunks s).2 ++ (chunks t).2) := by
  induction s with
  | nil => exact Prod.ext (chunks_lead t first) rfl
  | cons c s ih =>
      rw [List.cons_append]
      cases digit : c.isDigit with
      | true => rw [chunks_digit _ _ digit, chunks_digit _ _ digit, ih]
      | false => rw [chunks_other _ _ digit, chunks_other _ _ digit, ih, List.cons_append]

/-! ### The loop on chunks -/

/-- The bytes of a character, pushed as characters. -/
def pushedBytes (c : Char) : Str := (String.utf8EncodeChar c).map fun b => Char.ofNat b.toNat

def shiftNumber (atRow : UInt32) (delta : Int) (digits : Str) : Str :=
  match parseU32 digits with
  | some r => Nat.toDigits 10 (shiftRow atRow delta r).toNat
  | none => digits

def shiftChunk (atRow : UInt32) (delta : Int) (x : Char × Str) : Str :=
  pushedBytes x.1 ++ if x.1.isAlpha then shiftNumber atRow delta x.2 else x.2

theorem pushedBytes_ascii (c : Char) (ascii : c.toNat < 128) : pushedBytes c = [c] := by
  have small : c.val.toNat ≤ 127 := Nat.le_of_lt_succ ascii
  unfold pushedBytes String.utf8EncodeChar
  dsimp only
  rw [if_pos small, List.map_cons, List.map_nil,
    UInt8.toNat_ofNat_of_lt' (by show c.val.toNat < 256; omega)]
  exact congrArg (fun d => [d]) (Char.ofNat_toNat c)

theorem length_pushedBytes (c : Char) (beyond : 128 ≤ c.toNat) : 2 ≤ (pushedBytes c).length := by
  have large : ¬c.val.toNat ≤ 127 := by
    have same : c.toNat = c.val.toNat := rfl
    omega
  unfold pushedBytes String.utf8EncodeChar
  dsimp only
  rw [if_neg large]
  split_ifs <;> simp

theorem not_digit_of_beyond (c : Char) (beyond : 128 ≤ c.toNat) : c.isDigit = false := by
  have same : c.toNat = c.val.toNat := rfl
  unfold Char.isDigit
  simp only [ge_iff_le, UInt32.le_iff_toNat_le, Bool.and_eq_false_iff, decide_eq_false_iff_not]
  right
  show ¬c.val.toNat ≤ 57
  omega

theorem pushedBytes_beyond (c d : Char) (beyond : 128 ≤ c.toNat) (member : d ∈ pushedBytes c) :
    128 ≤ d.toNat := by
  have large : ¬c.val.toNat ≤ 127 := by
    have same : c.toNat = c.val.toNat := rfl
    omega
  have byte (n : Nat) (low : 128 ≤ n) (high : n < 256) :
      128 ≤ (Char.ofNat (UInt8.ofNat n).toNat).toNat := by
    rw [UInt8.toNat_ofNat_of_lt' high, Char.toNat_ofNat, if_pos (Or.inl (by omega))]
    exact low
  unfold pushedBytes String.utf8EncodeChar at member
  dsimp only at member
  rw [if_neg large] at member
  split_ifs at member
  all_goals
    simp only [List.map_cons, List.map_nil, List.mem_cons, List.not_mem_nil, or_false] at member
    rcases member with rfl | rest
    · exact byte _ (by omega) (by omega)
  · rw [rest]
    exact byte _ (by omega) (by omega)
  · rcases rest with rfl | rfl
    · exact byte _ (by omega) (by omega)
    · exact byte _ (by omega) (by omega)
  · rcases rest with rfl | rfl | rfl
    · exact byte _ (by omega) (by omega)
    · exact byte _ (by omega) (by omega)
    · exact byte _ (by omega) (by omega)

theorem alpha_code (c : Char) (alpha : c.isAlpha = true) : 65 ≤ c.toNat ∧ c.toNat < 128 := by
  have same : c.toNat = c.val.toNat := rfl
  unfold Char.isAlpha Char.isUpper Char.isLower at alpha
  simp only [ge_iff_le, UInt32.le_iff_toNat_le, Bool.or_eq_true, Bool.and_eq_true,
    decide_eq_true_eq] at alpha
  have upper : 'A'.val.toNat = 65 ∧ 'Z'.val.toNat = 90 := ⟨rfl, rfl⟩
  have lower : 'a'.val.toNat = 97 ∧ 'z'.val.toNat = 122 := ⟨rfl, rfl⟩
  omega

theorem not_digit_of_alpha (c : Char) (alpha : c.isAlpha = true) : c.isDigit = false := by
  have code := alpha_code c alpha
  have same : c.toNat = c.val.toNat := rfl
  unfold Char.isDigit
  simp only [ge_iff_le, UInt32.le_iff_toNat_le, Bool.and_eq_false_iff, decide_eq_false_iff_not]
  right
  show ¬c.val.toNat ≤ 57
  omega

theorem digit_code (c : Char) (digit : c.isDigit = true) : c.toNat < 128 := by
  by_contra beyond
  have other := not_digit_of_beyond c (by omega)
  rw [digit] at other
  cases other

section Shift

variable (atRow : UInt32) (delta : Int)

/-- What the loop makes of a text. -/
def shifted (s : Str) : Str := (chunks s).1 ++ (chunks s).2.flatMap (shiftChunk atRow delta)

theorem shifted_digit (c : Char) (s : Str) (digit : c.isDigit = true) :
    shifted atRow delta (c :: s) = c :: shifted atRow delta s := by
  rw [shifted, chunks_digit c s digit, List.cons_append]
  rfl

theorem shifted_other (c : Char) (s : Str) (other : c.isDigit = false) (plain : c.isAlpha = false) :
    shifted atRow delta (c :: s) = pushedBytes c ++ shifted atRow delta s := by
  rw [shifted, chunks_other c s other, List.nil_append, List.flatMap_cons, shiftChunk, plain,
    if_neg (by decide),
    List.append_assoc]
  rfl

/-- The number behind the last of some letters is shifted. -/
theorem shifted_letters (c : Char) (letters s : Str) (first : c.isAlpha = true)
    (all : ∀ d ∈ letters, d.isAlpha = true) :
    shifted atRow delta (c :: (letters ++ s)) =
      c :: letters ++ (shiftNumber atRow delta (chunks s).1 ++ (chunks s).2.flatMap
        (shiftChunk atRow delta)) := by
  have ascii := alpha_code c first
  induction letters generalizing c with
  | nil =>
      rw [shifted, List.nil_append, chunks_other c s (not_digit_of_alpha c first), List.nil_append,
        List.flatMap_cons, shiftChunk, first, if_pos rfl, pushedBytes_ascii c ascii.2,
        List.append_assoc]
  | cons d letters ih =>
      have second := all d List.mem_cons_self
      have inner :=
        ih d second (fun e member => all e (List.mem_cons_of_mem _ member)) (alpha_code d second)
      have lead : (chunks (d :: (letters ++ s))).1 = [] := by
        rw [chunks_other _ _ (not_digit_of_alpha d second)]
      rw [shifted, lead, List.nil_append] at inner
      rw [shifted, List.cons_append, chunks_other c _ (not_digit_of_alpha c first), List.nil_append,
        List.flatMap_cons, shiftChunk, lead, first, if_pos rfl, pushedBytes_ascii c ascii.2, inner]
      rfl

theorem shiftFormulaLoop_eq (fuel : Nat) (s : Str) (enough : s.length ≤ fuel) :
    shiftFormulaLoop atRow delta fuel s = shifted atRow delta s := by
  induction fuel generalizing s with
  | zero =>
      rw [List.length_eq_zero_iff.mp (Nat.le_zero.mp enough)]
      rfl
  | succ fuel ih =>
      cases s with
      | nil => rfl
      | cons c s =>
          have short : s.length ≤ fuel := Nat.le_of_succ_le_succ enough
          rw [shiftFormulaLoop]
          cases first : c.isAlpha with
          | false =>
              rw [if_neg (by decide), ih s short]
              cases digit : c.isDigit with
              | false => exact (shifted_other atRow delta c s digit first).symm
              | true =>
                  have same := pushedBytes_ascii c (digit_code c digit)
                  unfold pushedBytes at same
                  rw [same, shifted_digit atRow delta c s digit]
                  rfl
          | true =>
              have cut : s.takeWhile Char.isAlpha ++ s.dropWhile Char.isAlpha = s :=
                List.takeWhile_append_dropWhile
              have cut' : (s.dropWhile Char.isAlpha).takeWhile Char.isDigit ++
                  (s.dropWhile Char.isAlpha).dropWhile Char.isDigit = s.dropWhile Char.isAlpha :=
                List.takeWhile_append_dropWhile
              have lengths := congrArg List.length cut
              have lengths' := congrArg List.length cut'
              rw [List.length_append] at lengths lengths'
              have behind : ∀ d ∈ ((s.dropWhile Char.isAlpha).dropWhile Char.isDigit).head?,
                  d.isDigit = false := by
                intro d member
                have stops := List.head?_dropWhile_not Char.isDigit (s.dropWhile Char.isAlpha)
                rw [Option.mem_def.mp member] at stops
                simpa using stops
              have parts := chunks_digits ((s.dropWhile Char.isAlpha).takeWhile Char.isDigit)
                ((s.dropWhile Char.isAlpha).dropWhile Char.isDigit)
                  (fun d member => (List.mem_takeWhile_imp member))
              rw [chunks_lead _ behind, List.append_nil, cut'] at parts
              have inner := ih ((s.dropWhile Char.isAlpha).dropWhile Char.isDigit) (by omega)
              rw [shifted, chunks_lead _ behind, List.nil_append] at inner
              have outer := shifted_letters atRow delta c (s.takeWhile Char.isAlpha)
                (s.dropWhile Char.isAlpha) first
                (fun d member => (List.mem_takeWhile_imp member))
              rw [cut, parts] at outer
              rw [if_pos rfl, outer, List.takeWhile_cons_of_pos first,
                List.dropWhile_cons_of_pos first]
              dsimp only
              rw [inner, List.append_assoc]
              rfl

theorem shiftFormulaRows_eq (formula : Str) :
    shiftFormulaRows formula atRow delta = shifted atRow delta formula :=
  shiftFormulaLoop_eq atRow delta formula.length formula le_rfl

end Shift

/-! ### Rows and chunks -/

/-- A number stays, or it is the row of a reference and another number stands there. -/
def NumberAgrees (front number back number' : Str) : Prop :=
  number' = number ∨ (IsReference front number back ∧ number' ≠ [])

/-- Chunks behind `front` agree up to the rows of references. -/
inductive ChunksAgree : Str → List (Char × Str) → List (Char × Str) → Prop where
  | nil (front : Str) : ChunksAgree front [] []
  | cons (front : Str) (c : Char) (number number' : Str) (l l' : List (Char × Str))
      (agrees : NumberAgrees (front ++ [c]) number (unchunk l) number')
      (next : ChunksAgree (front ++ c :: number) l l') :
      ChunksAgree front ((c, number) :: l) ((c, number') :: l')

theorem isReference_ne_nil {front row back : Str} (reference : IsReference front row back) :
    row ≠ [] := by
  intro empty
  obtain ⟨r, parsed, -⟩ := reference.number
  rw [empty] at parsed
  cases parsed

/-- No reference starts its row behind a digit. -/
theorem not_reference_behind_digit (front row back : Str) (c : Char) (digit : c.isDigit = true) :
    ¬IsReference (front ++ [c]) row back := by
  intro reference
  have word : isWord c = true := by
    unfold isWord Char.isAlphanum
    rw [digit]
    simp
  have alpha := reference.letters c (by
    rw [List.reverse_append, List.reverse_singleton, List.singleton_append,
      List.takeWhile_cons_of_pos word]
    exact List.mem_cons_self)
  rw [isDigit_not_isAlpha c digit] at alpha
  cases alpha

theorem lead_of_reference {front row back : Str} (reference : IsReference front row back) :
    (chunks back).1 = [] := by
  apply chunks_lead
  intro c member
  have other := reference.ends c member
  unfold isWord Char.isAlphanum at other
  simp only [Bool.or_eq_false_iff] at other
  exact other.1.1.1.2

theorem numberAgrees_nil (front back : Str) (number' : Str)
    (agrees : NumberAgrees front [] back number') :
    number' = [] := by
  cases agrees with
  | inl same => exact same
  | inr reference => exact absurd rfl (isReference_ne_nil reference.1)

theorem RowsOnly.chunks {front rest out : Str} (rows : RowsOnly front rest out) :
    NumberAgrees front (Tables.chunks rest).1 (unchunk (Tables.chunks rest).2)
      (Tables.chunks out).1 ∧
      ChunksAgree (front ++ (Tables.chunks rest).1) (Tables.chunks rest).2
        (Tables.chunks out).2 := by
  induction rows with
  | done front => exact ⟨Or.inl rfl, ChunksAgree.nil _⟩
  | keep front c rest out next ih =>
      cases digit : c.isDigit with
      | true =>
          rw [chunks_digit c rest digit, chunks_digit c out digit]
          have same := ih.1.resolve_right fun reference =>
            not_reference_behind_digit front _ _ c digit reference.1
          constructor
          · exact Or.inl (congrArg (c :: ·) same)
          · have agree := ih.2
            rwa [List.append_assoc] at agree
      | false =>
          rw [chunks_other c rest digit, chunks_other c out digit]
          constructor
          · exact Or.inl rfl
          · have agree := ih.2
            rw [List.append_assoc] at agree
            rw [List.append_nil]
            exact ChunksAgree.cons front c _ _ _ _ ih.1 agree
  | row front row row' rest out reference some_ digits next ih =>
      have lead := lead_of_reference reference
      have lead' : (Tables.chunks out).1 = [] := by
        have agrees := ih.1
        rw [lead] at agrees
        exact numberAgrees_nil _ _ _ agrees
      have whole := unchunk_chunks rest
      rw [lead, List.nil_append] at whole
      rw [chunks_digits row rest reference.digits, chunks_digits row' out digits, lead, lead',
        List.append_nil, List.append_nil]
      constructor
      · refine Or.inr ⟨?_, some_⟩
        rw [whole]
        exact reference
      · have agree := ih.2
        rwa [lead, List.append_nil] at agree

theorem RowsOnly.keepAll (s front rest out : Str) (next : RowsOnly (front ++ s) rest out) :
    RowsOnly front (s ++ rest) (s ++ out) := by
  induction s generalizing front with
  | nil => rwa [List.append_nil] at next
  | cons c s ih =>
      apply RowsOnly.keep
      apply ih
      rwa [List.append_assoc]

theorem NumberAgrees.rowsOnly {front number number' rest out : Str}
    (agrees : NumberAgrees front number rest number') (digits : ∀ c ∈ number', c.isDigit = true)
    (next : RowsOnly (front ++ number) rest out) :
    RowsOnly front (number ++ rest) (number' ++ out) := by
  cases agrees with
  | inl same =>
      rw [same]
      exact RowsOnly.keepAll number front rest out next
  | inr reference =>
      exact RowsOnly.row front number number' rest out reference.1 reference.2 digits next

theorem ChunksAgree.rowsOnly {front : Str} {l l' : List (Char × Str)}
    (agree : ChunksAgree front l l') (digits : ∀ x ∈ l', ∀ c ∈ x.2, c.isDigit = true) : RowsOnly
    front (unchunk l) (unchunk l') := by
  induction agree with
  | nil front => exact RowsOnly.done front
  | cons front c number number' l l' agrees next ih =>
      have inner := ih fun x member => digits x (List.mem_cons_of_mem _ member)
      rw [unchunk_cons, unchunk_cons]
      apply RowsOnly.keep
      refine agrees.rowsOnly (digits _ List.mem_cons_self) ?_
      rwa [List.append_assoc]

/-- Two texts differ only in the rows of references exactly if their chunks do. -/
theorem rowsOnly_iff (formula out : Str) :
    RowsOnly [] formula out ↔
      NumberAgrees [] (chunks formula).1 (unchunk (chunks formula).2) (chunks out).1 ∧
        ChunksAgree (chunks formula).1 (chunks formula).2 (chunks out).2 := by
  have chunked := chunked_chunks out
  constructor
  · intro rows
    exact rows.chunks
  · rintro ⟨lead, agree⟩
    have rows := lead.rowsOnly chunked.lead (agree.rowsOnly chunked.numbers)
    rwa [unchunk_chunks, unchunk_chunks] at rows

theorem ChunksAgree.heads {front : Str} {l l' : List (Char × Str)}
    (agree : ChunksAgree front l l') :
    l'.map Prod.fst = l.map Prod.fst := by
  induction agree with
  | nil front => rfl
  | cons front c number number' l l' agrees next ih => rw [List.map_cons, List.map_cons, ih]

/-! ### Text beyond ASCII -/

theorem filter_digits (digits : Str) (all : ∀ c ∈ digits, c.isDigit = true) :
    digits.filter (fun c => !c.isDigit) = [] := by
  apply List.filter_eq_nil_iff.mpr
  intro c member
  simp [all c member]

theorem map_fst_chunks (s : Str) : (chunks s).2.map Prod.fst = s.filter fun c => !c.isDigit := by
  induction s with
  | nil => rfl
  | cons c s ih =>
      cases digit : c.isDigit with
      | true => rw [chunks_digit c s digit, List.filter_cons_of_neg (by simp [digit]), ih]
      | false =>
          rw [chunks_other c s digit, List.filter_cons_of_pos (by simp [digit]), List.map_cons, ih]

theorem filter_pushedBytes (c : Char) (other : c.isDigit = false) :
    (pushedBytes c).filter (fun d => !d.isDigit) = pushedBytes c := by
  apply List.filter_eq_self.mpr
  intro d member
  by_cases ascii : c.toNat < 128
  · rw [pushedBytes_ascii c ascii, List.mem_singleton] at member
    simp [member, other]
  · have code := pushedBytes_beyond c d (by omega) member
    simp [not_digit_of_beyond d code]

/-- Characters that their bytes replace without a change are ASCII. -/
theorem ascii_of_pushed (s : Str) (same : s.flatMap pushedBytes = s) : ∀ c ∈ s, c.toNat < 128 := by
  have long (t : Str) : t.length ≤ (t.flatMap pushedBytes).length := by
    induction t with
    | nil => exact Nat.zero_le _
    | cons d t ih =>
        rw [List.flatMap_cons, List.length_append, List.length_cons]
        by_cases ascii : d.toNat < 128
        · rw [pushedBytes_ascii d ascii, List.length_singleton]
          omega
        · have two := length_pushedBytes d (by omega)
          omega
  induction s with
  | nil => simp
  | cons d s ih =>
      have lengths := congrArg List.length same
      have rest := long s
      rw [List.flatMap_cons, List.length_append, List.length_cons] at lengths
      have ascii : d.toNat < 128 := by
        by_contra beyond
        have two := length_pushedBytes d (by omega)
        omega
      rw [List.flatMap_cons, pushedBytes_ascii d ascii, List.singleton_append,
        List.cons.injEq] at same
      intro c member
      cases List.mem_cons.mp member with
      | inl here =>
          rw [here]
          exact ascii
      | inr later => exact ih same.2 c later

section Rewrite

variable (atRow : UInt32) (delta : Int)

theorem shiftNumber_digits (digits : Str) (all : ∀ c ∈ digits, c.isDigit = true) :
    ∀ c ∈ shiftNumber atRow delta digits, c.isDigit = true := by
  unfold shiftNumber
  split
  · intro c member
    exact Nat.isDigit_of_mem_toDigits (by decide) (by decide) member
  · exact all

theorem filter_shiftChunks (l : List (Char × Str)) (heads : ∀ x ∈ l, x.1.isDigit = false)
    (numbers : ∀ x ∈ l, ∀ c ∈ x.2, c.isDigit = true) :
    (l.flatMap (shiftChunk atRow delta)).filter
    (fun c => !c.isDigit) = (l.map Prod.fst).flatMap pushedBytes := by
  induction l with
  | nil => rfl
  | cons x l ih =>
      have inner := ih (fun y member => heads y (List.mem_cons_of_mem _ member))
        (fun y member => numbers y (List.mem_cons_of_mem _ member))
      have tail : (if x.1.isAlpha then shiftNumber atRow delta x.2 else x.2).filter
          (fun c => !c.isDigit) = [] := by
        apply filter_digits
        split
        · exact shiftNumber_digits atRow delta x.2 (numbers x List.mem_cons_self)
        · exact numbers x List.mem_cons_self
      rw [List.flatMap_cons, List.filter_append, inner, shiftChunk, List.filter_append, tail,
        List.append_nil, filter_pushedBytes _ (heads x List.mem_cons_self), List.map_cons,
        List.flatMap_cons]

/-- Only ASCII text comes out with the same characters between its numbers. -/
theorem ascii_of_agree (formula front : Str)
    (agree : ChunksAgree front (chunks formula).2 (chunks (shifted atRow delta formula)).2) :
    ∀ c ∈ formula, c.toNat < 128 := by
  have chunked := chunked_chunks formula
  have heads := agree.heads
  rw [map_fst_chunks, shifted, List.filter_append, filter_digits _ chunked.lead, List.nil_append,
    filter_shiftChunks atRow delta _ chunked.heads chunked.numbers] at heads
  have others := ascii_of_pushed _ heads
  intro c member
  cases digit : c.isDigit with
  | true => exact digit_code c digit
  | false =>
      apply others
      rw [map_fst_chunks, List.mem_filter]
      exact ⟨member, by simp [digit]⟩

/-! ### Which formulas keep what is no reference -/

/-- The shift of a chunk of ASCII text. -/
def shiftPair (x : Char × Str) : Char × Str :=
  (x.1, if x.1.isAlpha then shiftNumber atRow delta x.2 else x.2)

theorem flatMap_shiftChunk (l : List (Char × Str)) (ascii : ∀ x ∈ l, x.1.toNat < 128) :
    l.flatMap (shiftChunk atRow delta) = unchunk (l.map (shiftPair atRow delta)) := by
  induction l with
  | nil => rfl
  | cons x l ih =>
      have inner := ih fun y member => ascii y (List.mem_cons_of_mem _ member)
      rw [List.flatMap_cons, inner, List.map_cons, unchunk_cons, shiftChunk,
        pushedBytes_ascii x.1 (ascii x List.mem_cons_self), List.append_assoc]
      rfl

theorem chunks_shifted (formula : Str) (ascii : ∀ c ∈ formula, c.toNat < 128) :
    chunks (shifted atRow delta formula) =
      ((chunks formula).1, (chunks formula).2.map (shiftPair atRow delta)) := by
  have chunked := chunked_chunks formula
  have heads : ∀ x ∈ (chunks formula).2, x.1.toNat < 128 := by
    intro x member
    apply ascii
    have inside := List.mem_map_of_mem (f := Prod.fst) member
    rw [map_fst_chunks] at inside
    exact List.mem_of_mem_filter inside
  rw [shifted, flatMap_shiftChunk atRow delta _ heads]
  apply chunks_unchunk
  constructor
  · exact chunked.lead
  · intro y member
    obtain ⟨x, inside, rfl⟩ := List.mem_map.mp member
    exact chunked.heads x inside
  · intro y member
    obtain ⟨x, inside, rfl⟩ := List.mem_map.mp member
    unfold shiftPair
    split
    · exact shiftNumber_digits atRow delta x.2 (chunked.numbers x inside)
    · exact chunked.numbers x inside

/-- The shift leaves a number as it is: it is no row number of the code's, or it is written without
leading zeros and stands in front of the inserted row, or not behind the deleted one. -/
def Unshifted (digits : Str) : Prop :=
  ∀ r, parseU32 digits = some r →
    digits = Nat.toDigits 10 r.toNat ∧ ¬(0 < delta ∧ atRow ≤ r) ∧ ¬(delta < 0 ∧ atRow < r)

theorem shiftRow_eq_iff (unit : delta = 1 ∨ delta = -1) (r : UInt32) :
    shiftRow atRow delta r = r ↔ ¬(0 < delta ∧ atRow ≤ r) ∧ ¬(delta < 0 ∧ atRow < r) := by
  have up : r + UInt32.ofInt 1 ≠ r := by
    intro same
    have size := congrArg UInt32.toNat same
    have bound := UInt32.toNat_lt r
    rw [UInt32.toNat_add, show (UInt32.ofInt 1).toNat = 1 by decide] at size
    omega
  have down : r - UInt32.ofInt (- -1) ≠ r := by
    intro same
    have size := congrArg UInt32.toNat same
    have bound := UInt32.toNat_lt r
    rw [UInt32.toNat_sub, show (UInt32.ofInt (- -1)).toNat = 1 by decide] at size
    omega
  unfold shiftRow
  rcases unit with rfl | rfl
  · by_cases behind : r ≥ atRow
    · rw [if_pos ⟨by decide, behind⟩]
      exact iff_of_false up fun none => none.1 ⟨by decide, behind⟩
    · rw [if_neg (by simp [behind]), if_neg (by simp)]
      exact iff_of_true rfl ⟨fun both => behind both.2, by simp⟩
  · rw [if_neg (by simp)]
    by_cases behind : r > atRow
    · rw [if_pos ⟨by decide, behind⟩]
      exact iff_of_false down fun none => none.2 ⟨by decide, behind⟩
    · rw [if_neg (by simp [behind])]
      exact iff_of_true rfl ⟨by simp, fun both => behind both.2⟩

theorem shiftNumber_eq_iff (unit : delta = 1 ∨ delta = -1) (digits : Str) :
    shiftNumber atRow delta digits = digits ↔ Unshifted atRow delta digits := by
  unfold shiftNumber Unshifted
  cases parsed : parseU32 digits with
  | none => simp
  | some r =>
      simp only [Option.some.injEq, forall_eq']
      rw [← shiftRow_eq_iff atRow delta unit r]
      constructor
      · intro same
        have again := parseU32_toDigits (shiftRow atRow delta r)
        rw [same, parsed, Option.some.injEq] at again
        rw [← again] at same
        exact ⟨same.symm, again.symm⟩
      · rintro ⟨printed, stays⟩
        rw [stays, ← printed]

theorem shiftNumber_ne_nil (digits : Str) (some_ : digits ≠ []) :
    shiftNumber atRow delta digits ≠ [] := by
  unfold shiftNumber
  split
  · exact Nat.toDigits_ne_nil
  · exact some_

/-- Chunks agree with their shift exactly if each number does at its place. -/
theorem chunksAgree_map_iff (front : Str) (l : List (Char × Str)) :
    ChunksAgree front l (l.map (shiftPair atRow delta)) ↔
      ∀ before x after, l = before ++ x :: after →
        NumberAgrees (front ++ unchunk before ++ [x.1]) x.2 (unchunk after)
          (shiftPair atRow delta x).2 := by
  induction l generalizing front with
  | nil =>
      constructor
      · intro _ before x after shape
        exact absurd shape.symm (by simp)
      · intro _
        exact ChunksAgree.nil front
  | cons y l ih =>
      constructor
      · intro agree before x after shape
        cases agree with
        | cons _ c number number' _ _ agrees next =>
            cases before with
            | nil =>
                obtain ⟨rfl, rfl⟩ := List.cons.inj shape
                rw [unchunk_nil, List.append_nil]
                exact agrees
            | cons z before =>
                obtain ⟨rfl, shape'⟩ := List.cons.inj shape
                have inner := (ih _).mp next before x after shape'
                rwa [List.append_assoc front] at inner
      · intro each
        have first := each [] y l rfl
        rw [unchunk_nil, List.append_nil] at first
        apply ChunksAgree.cons front y.1 y.2 _ l _ first
        apply (ih _).mpr
        intro before x after shape
        have later := each (y :: before) x after (congrArg (y :: ·) shape)
        rwa [unchunk_cons, ← List.cons_append, ← List.append_assoc front] at later

/-- Every number directly behind a letter is the row of a reference, or the shift leaves it. -/
def OthersStay (formula : Str) : Prop :=
  ∀ front c digits back, formula = front ++ c :: (digits ++ back) → c.isAlpha = true → digits ≠ [] →
    (∀ d ∈ digits, d.isDigit = true) → (∀ d ∈ back.head?, d.isDigit = false) →
      IsReference (front ++ [c]) digits back ∨ Unshifted atRow delta digits

theorem chunksAgree_iff (unit : delta = 1 ∨ delta = -1) (formula : Str) :
    ChunksAgree (chunks formula).1 (chunks formula).2
      ((chunks formula).2.map (shiftPair atRow delta)) ↔
      OthersStay atRow delta formula := by
  have chunked := chunked_chunks formula
  rw [chunksAgree_map_iff]
  constructor
  · intro each front c digits back shape alpha some_ all stops
    have other := not_digit_of_alpha c alpha
    have parts : chunks formula =
        ((chunks front).1, (chunks front).2 ++ (c, digits) :: (chunks back).2) := by
      rw [shape, chunks_append front _ (by simpa using other), chunks_other _ _ other,
        chunks_digits _ _ all, chunks_lead _ stops, List.append_nil]
    have rest := unchunk_chunks back
    rw [chunks_lead _ stops, List.nil_append] at rest
    have agrees := each (chunks front).2 (c, digits) (chunks back).2 (congrArg Prod.snd parts)
    rw [congrArg Prod.fst parts, unchunk_chunks, rest] at agrees
    cases agrees with
    | inl same =>
        have number : (shiftPair atRow delta (c, digits)).2 = shiftNumber atRow delta digits :=
          if_pos alpha
        rw [number] at same
        exact Or.inr ((shiftNumber_eq_iff atRow delta unit digits).mp same)
    | inr reference => exact Or.inl reference.1
  · intro stay before x after shape
    have member : x ∈ (chunks formula).2 := by
      rw [shape]
      exact List.mem_append_right _ List.mem_cons_self
    unfold shiftPair
    dsimp only
    cases alpha : x.1.isAlpha with
    | false => exact Or.inl rfl
    | true =>
        rw [if_pos rfl]
        by_cases empty : x.2 = []
        · rw [empty]
          exact Or.inl rfl
        · have whole := unchunk_chunks formula
          rw [shape, unchunk_append, unchunk_cons, ← List.append_assoc] at whole
          have stops : ∀ d ∈ (unchunk after).head?, d.isDigit = false := by
            cases after with
            | nil => simp
            | cons y after =>
                intro d first
                rw [unchunk_cons, List.head?_cons, Option.mem_some_iff] at first
                rw [← first]
                apply chunked.heads
                rw [shape]
                exact List.mem_append_right _ (List.mem_cons_of_mem _ List.mem_cons_self)
          cases stay _ x.1 x.2 _ whole.symm alpha empty (chunked.numbers x member) stops with
          | inl reference => exact Or.inr ⟨reference, shiftNumber_ne_nil atRow delta x.2 empty⟩
          | inr unshifted => exact Or.inl ((shiftNumber_eq_iff atRow delta unit x.2).mpr unshifted)

/-- The shift changes nothing but rows of references exactly if the formula is ASCII text and every
other number behind a letter stays. -/
theorem shift_rows_only_iff (formula : Str) (unit : delta = 1 ∨ delta = -1) :
    RowsOnly [] formula (shiftFormulaRows formula atRow delta) ↔
      (∀ c ∈ formula, c.toNat < 128) ∧ OthersStay atRow delta formula := by
  rw [shiftFormulaRows_eq, rowsOnly_iff]
  constructor
  · rintro ⟨-, agree⟩
    have ascii := ascii_of_agree atRow delta formula _ agree
    rw [chunks_shifted atRow delta formula ascii] at agree
    exact ⟨ascii, (chunksAgree_iff atRow delta unit formula).mp agree⟩
  · rintro ⟨ascii, stay⟩
    rw [chunks_shifted atRow delta formula ascii]
    exact ⟨Or.inl rfl, (chunksAgree_iff atRow delta unit formula).mpr stay⟩

end Rewrite

theorem shift_rows_only_sum :
    RowsOnly [] "=SUM(A1:A3)".toList (shiftFormulaRows "=SUM(A1:A3)".toList 2 1) ↔
      (∀ c ∈ "=SUM(A1:A3)".toList, c.toNat < 128) ∧ OthersStay 2 1 "=SUM(A1:A3)".toList :=
  shift_rows_only_iff 2 1 "=SUM(A1:A3)".toList (Or.inl rfl)

/-- A row is inserted above the first, and the literal `Q1` becomes `Q2`. -/
theorem literal_shifted :
    ¬RowsOnly [] "=\"Q1\"".toList (shiftFormulaRows "=\"Q1\"".toList 1 1) := by
  have out : shiftFormulaRows "=\"Q1\"".toList 1 1 = "=\"Q2\"".toList := by decide
  have parts : chunks "=\"Q1\"".toList = ([], [('=', []), ('"', []), ('Q', ['1']), ('"', [])]) := by
    decide
  have parts' :
      chunks "=\"Q2\"".toList = ([], [('=', []), ('"', []), ('Q', ['2']), ('"', [])]) := by decide
  rw [out, rowsOnly_iff, parts, parts']
  rintro ⟨-, agree⟩
  cases agree with
  | cons _ _ _ _ _ _ _ next =>
      cases next with
      | cons _ _ _ _ _ _ _ next =>
          cases next with
          | cons _ _ _ _ _ _ agrees _ =>
              cases agrees with
              | inl same => cases same
              | inr reference => exact absurd reference.1.outside (by decide)

end EraOne.Tables
