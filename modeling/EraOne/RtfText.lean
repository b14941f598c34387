import EraOne.Scan

set_option autoImplicit false

/- Text in RTF: what its escapes and control words stand for, and its group braces. -/
namespace EraOne.RtfText

/-! ### UTF-16 -/

def decodeUtf16 : List Nat → Str
  | [] => []
  | [u] => [if 0xD800 ≤ u ∧ u < 0xE000 then Char.ofNat 0xFFFD else Char.ofNat u]
  | u :: v :: rest =>
      if 0xD800 ≤ u ∧ u < 0xDC00 ∧ 0xDC00 ≤ v ∧ v < 0xE000 then
        Char.ofNat (0x10000 + (u - 0xD800) * 0x400 + (v - 0xDC00)) :: decodeUtf16 rest
      else (if 0xD800 ≤ u ∧ u < 0xE000 then Char.ofNat 0xFFFD else Char.ofNat u) :: decodeUtf16
        (v :: rest)

theorem length_decodeUtf16 (units : List Nat) : (decodeUtf16 units).length ≤ units.length := by
  fun_induction decodeUtf16 units with
  | case1 => exact le_refl 0
  | case2 u => exact le_refl 1
  | case3 u v rest pair ih =>
      rw [List.length_cons, List.length_cons, List.length_cons]
      omega
  | case4 u v rest single ih =>
      rw [List.length_cons, List.length_cons]
      exact Nat.succ_le_succ ih

theorem not_surrogate (c : Char) : ¬ (0xD800 ≤ c.toNat ∧ c.toNat < 0xE000) := by
  have valid : c.toNat < 0xD800 ∨ 0xDFFF < c.toNat ∧ c.toNat < 0x110000 := c.valid
  omega

/-- Characters of one unit are read as they are. -/
theorem decodeUtf16_units (s : Str) : decodeUtf16 (s.map Char.toNat) = s := by
  induction s with
  | nil => rfl
  | cons c s ih =>
      have here : (if 0xD800 ≤ c.toNat ∧ c.toNat < 0xE000 then Char.ofNat 0xFFFD
          else Char.ofNat c.toNat) = c := by
        rw [if_neg (not_surrogate c), Char.ofNat_toNat]
      cases s with
      | nil => exact congrArg (fun d => [d]) here
      | cons d s =>
          have apart := not_surrogate c
          rw [List.map_cons] at ih
          rw [List.map_cons, List.map_cons, decodeUtf16, if_neg (by omega), here, ih]

/-- Where as many characters are read as there are units, each is one unit. -/
theorem small_of_decodeUtf16 (units : List Nat) (s : Str) (same : decodeUtf16 units = s)
    (full : s.length = units.length) (small : ∀ u ∈ units, u < 0x10000) : ∀ c ∈ s,
    c.toNat < 0x10000 := by
  have single (u : Nat) (below : u < 0x10000) :
      (if 0xD800 ≤ u ∧ u < 0xE000 then Char.ofNat 0xFFFD else Char.ofNat u).toNat < 0x10000 := by
    split
    · decide
    · rename_i apart
      have valid : u.isValidChar := by
        unfold Nat.isValidChar
        omega
      rw [Char.toNat_ofNat, if_pos valid]
      exact below
  fun_induction decodeUtf16 units generalizing s with
  | case1 =>
      rw [← same]
      exact fun c member => absurd member List.not_mem_nil
  | case2 u =>
      rw [← same]
      intro c member
      rw [List.mem_singleton.mp member]
      exact single u (small u List.mem_cons_self)
  | case3 u v rest pair ih =>
      have few := length_decodeUtf16 rest
      rw [← same, List.length_cons, List.length_cons, List.length_cons] at full
      omega
  | case4 u v rest other ih =>
      rw [← same, List.length_cons, List.length_cons, Nat.add_right_cancel_iff] at full
      rw [← same]
      intro c member
      cases List.mem_cons.mp member with
      | inl here =>
          rw [here]
          exact single u (small u List.mem_cons_self)
      | inr later =>
          exact ih _ rfl full (fun w inside => small w (List.mem_cons_of_mem u inside)) c later

/-! ### Reading -/

section

/- The unit that the number of a `\u` stands for, if it stands for one. -/
variable (unit : Int → Option Nat)

/-- A signed number of 16 bits. -/
def signedUnit (n : Int) : Option Nat :=
  if -32768 ≤ n ∧ n ≤ 32767 then some (n % 65536).toNat else none

/-- The lowest 16 bits of any number. -/
def lowUnit (n : Int) : Option Nat := some (n % 65536).toNat

/-- The number behind a control word, and what follows it. -/
def readParam (s : Str) : Option Int × Str :=
  match s with
  | '-' :: rest =>
      (((Scan.parseDigits (rest.takeWhile Char.isDigit)).map fun n => -(n : Int)),
        rest.dropWhile Char.isDigit)
  | _ =>
      (((Scan.parseDigits (s.takeWhile Char.isDigit)).map fun n => (n : Int)),
        s.dropWhile Char.isDigit)

/-- The blank that ends a control word belongs to it. -/
def dropBlank : Str → Str
  | ' ' :: s => s
  | s => s

/-- The text in units, a line feed for each paragraph mark; nothing where a group begins or ends, a
character is not ASCII, or a number stands for no unit. -/
def readUnits : Nat → Str → Option (List Nat)
  | 0, _ => some []
  | _, [] => some []
  | _, ['\\'] => none
  | fuel + 1, '\\' :: c :: s =>
      if c.isAlpha then
        let (param, rest) := readParam ((c :: s).dropWhile Char.isAlpha)
        let rest := dropBlank rest
        if (c :: s).takeWhile Char.isAlpha = ['u'] then
          match param.bind unit with
          | some u => (readUnits fuel (rest.drop 1)).map (u :: ·)
          | none => none
        else if (c :: s).takeWhile Char.isAlpha = ['p', 'a', 'r'] then
          (readUnits fuel rest).map (10 :: ·)
        else readUnits fuel rest
      else if c = '\\' ∨ c = '\x7b' ∨ c = '\x7d' then (readUnits fuel s).map (c.toNat :: ·)
      else readUnits fuel s
  | fuel + 1, c :: s =>
      if c = '\x7b' ∨ c = '\x7d' ∨ 127 < c.toNat then none
      else if c = '\n' ∨ c = '\r' then readUnits fuel s
      else (readUnits fuel s).map (c.toNat :: ·)

def readText (s : Str) : Option Str := (readUnits unit s.length s).map decodeUtf16

end

/-! ### Groups -/

/-- The braces that are not escaped. -/
def braces : Str → Str
  | [] => []
  | ['\\'] => []
  | '\\' :: _ :: s => braces s
  | c :: s => if c = '\x7b' ∨ c = '\x7d' then c :: braces s else braces s

/-- How many groups are open, as long as none is closed that is not. -/
def depth (s : Str) : Option Nat :=
  (braces s).foldlM (fun open_ c => if c = '\x7b' then some (open_ + 1) else if open_ = 0 then none
    else some (open_ - 1)) 0

/-- Behind this text, which ends in no escape, its braces are read. -/
def Reads (s found : Str) : Prop := ∀ t, braces (s ++ t) = found ++ braces t

theorem Reads.append {s t found more : Str} (first : Reads s found) (second : Reads t more) :
    Reads (s ++ t) (found ++ more) := by
  intro rest
  rw [List.append_assoc, first, second, List.append_assoc]

theorem reads_nil : Reads [] [] := fun _ => rfl

theorem Reads.braces {s found : Str} (reads : Reads s found) : RtfText.braces s = found := by
  have whole := reads []
  rwa [List.append_nil, show RtfText.braces [] = [] from rfl, List.append_nil] at whole

/-- Text without backslashes and braces. -/
theorem reads_plain (s : Str) (plain : ∀ c ∈ s, c ≠ '\\' ∧ c ≠ '\x7b' ∧ c ≠ '\x7d') : Reads s
    [] := by
  intro t
  induction s with
  | nil => rfl
  | cons c s ih =>
      obtain ⟨escape, opened, closed⟩ := plain c List.mem_cons_self
      have later := ih fun d member => plain d (List.mem_cons_of_mem c member)
      rw [List.cons_append, RtfText.braces, if_neg (not_or.mpr ⟨opened, closed⟩), later]
      · exact fun same _ => escape same
      · exact fun _ _ same _ => escape same

theorem reads_flatMap {α : Type} (f : α → Str) (each : ∀ a, Reads (f a) []) (xs : List α) :
    Reads (xs.flatMap f) [] := by
  induction xs with
  | nil => exact reads_nil
  | cons a xs ih => exact (each a).append ih

end EraOne.RtfText
