import EraOne.Strings

set_option autoImplicit false

/- The bytes of texts in UTF-8, and bytes as texts of one character each. -/
namespace EraOne.Utf8

abbrev Bytes := List UInt8

def utf8 (s : Str) : Bytes := s.flatMap String.utf8EncodeChar

@[simp] theorem utf8_nil : utf8 [] = [] := rfl

@[simp] theorem utf8_cons (c : Char) (s : Str) :
    utf8 (c :: s) = String.utf8EncodeChar c ++ utf8 s := rfl

@[simp] theorem utf8_append (s t : Str) : utf8 (s ++ t) = utf8 s ++ utf8 t := List.flatMap_append

theorem length_utf8 (s : Str) : (utf8 s).length = byteLen s := by
  induction s with
  | nil => rfl
  | cons c s ih =>
      rw [utf8_cons, List.length_append, ih, byteLen_cons, String.length_utf8EncodeChar]

theorem utf8_ascii (c : Char) (ascii : c.toNat < 128) :
    String.utf8EncodeChar c = [UInt8.ofNat c.toNat] := by
  have small : c.val.toNat ≤ 0x7f := Nat.le_of_lt_succ ascii
  unfold String.utf8EncodeChar
  dsimp only
  rw [if_pos small]
  rfl

/-- The bytes of other characters are none of ASCII. -/
theorem utf8_outside (c : Char) (outside : 128 ≤ c.toNat) (b : UInt8)
    (member : b ∈ String.utf8EncodeChar c) : 128 ≤ b.toNat := by
  have large : ¬ c.val.toNat ≤ 0x7f := Nat.not_le.mpr outside
  unfold String.utf8EncodeChar at member
  dsimp only at member
  rw [if_neg large] at member
  split at member
  · simp only [List.mem_cons, List.not_mem_nil, or_false] at member
    rcases member with rfl | rfl
    · rw [UInt8.toNat_ofNat']
      omega
    · rw [UInt8.toNat_ofNat']
      omega
  · split at member
    · simp only [List.mem_cons, List.not_mem_nil, or_false] at member
      rcases member with rfl | rfl | rfl
      · rw [UInt8.toNat_ofNat']
        omega
      · rw [UInt8.toNat_ofNat']
        omega
      · rw [UInt8.toNat_ofNat']
        omega
    · simp only [List.mem_cons, List.not_mem_nil, or_false] at member
      rcases member with rfl | rfl | rfl | rfl
      · rw [UInt8.toNat_ofNat']
        omega
      · rw [UInt8.toNat_ofNat']
        omega
      · rw [UInt8.toNat_ofNat']
        omega
      · rw [UInt8.toNat_ofNat']
        omega

/-- Bytes as the characters of the same numbers, so that ASCII patterns are found in any bytes. -/
def byteText (b : Bytes) : Str := b.map fun byte => Char.ofNat byte.toNat

theorem toNat_byteChar (b : UInt8) : (Char.ofNat b.toNat).toNat = b.toNat := by
  have small := b.toNat_lt
  have valid : b.toNat.isValidChar := Or.inl (by omega)
  rw [Char.ofNat, dif_pos valid]
  rfl

theorem byteText_inj (a b : Bytes) : byteText a = byteText b ↔ a = b := by
  refine ⟨fun same => ?_, congrArg byteText⟩
  apply List.map_injective_iff.mpr _ same
  intro x y equal
  rw [← UInt8.toNat_inj, ← toNat_byteChar x, ← toNat_byteChar y]
  exact congrArg Char.toNat equal

theorem byteText_append (a b : Bytes) : byteText (a ++ b) = byteText a ++ byteText b :=
  List.map_append

/-- An ASCII character is a byte of a text exactly if it is in the text. -/
theorem mem_byteText_utf8 (q : Char) (ascii : q.toNat < 128) (s : Str) :
    q ∈ byteText (utf8 s) ↔ q ∈ s := by
  induction s with
  | nil => exact Iff.rfl
  | cons c s ih =>
      rw [utf8_cons, byteText_append, List.mem_append, ih, List.mem_cons]
      apply or_congr_left
      by_cases inside : c.toNat < 128
      · have char : Char.ofNat (UInt8.ofNat c.toNat).toNat = c := by
          rw [UInt8.toNat_ofNat', Nat.mod_eq_of_lt (by omega), Char.ofNat_toNat]
        rw [utf8_ascii c inside, byteText, List.map_singleton, char, List.mem_singleton]
      · constructor
        · intro member
          obtain ⟨b, here, same⟩ := List.mem_map.mp member
          have large := utf8_outside c (Nat.not_lt.mp inside) b here
          rw [← same, toNat_byteChar] at ascii
          omega
        · rintro rfl
          exact absurd ascii inside

/-- No code of a character begins another's. -/
theorem encode_prefix (c d : Char) (x y : Bytes)
    (same : String.utf8EncodeChar c ++ x = String.utf8EncodeChar d ++ y) : c = d := by
  have first := ByteArray.utf8DecodeChar?_utf8EncodeChar_append (b := x.toByteArray) (c := c)
  have second := ByteArray.utf8DecodeChar?_utf8EncodeChar_append (b := y.toByteArray) (c := d)
  rw [← List.toByteArray_append, same, List.toByteArray_append, second] at first
  exact (Option.some.inj first).symm

/-- A text whose bytes are the first of another's is the front of it. -/
theorem prefix_of_utf8_prefix (front s : Str) (starts : utf8 front <+: utf8 s) : front <+: s := by
  induction front generalizing s with
  | nil => exact List.nil_prefix
  | cons c front ih =>
      obtain ⟨rest, whole⟩ := starts
      cases s with
      | nil =>
          rw [utf8_cons, utf8_nil, List.append_assoc] at whole
          exact absurd (List.append_eq_nil_iff.mp whole).1 String.utf8EncodeChar_ne_nil
      | cons d s =>
          rw [utf8_cons, utf8_cons, List.append_assoc] at whole
          have same := encode_prefix c d _ _ whole
          subst same
          exact List.cons_prefix_cons.mpr ⟨rfl, ih s ⟨rest, List.append_cancel_left whole⟩⟩

theorem utf8_inj (a b : Str) (same : utf8 a = utf8 b) : a = b := by
  have first := prefix_of_utf8_prefix a b (by rw [same])
  have second := prefix_of_utf8_prefix b a (by rw [same])
  exact first.eq_of_length_le second.length_le

theorem byteText_utf8 (s : Str) (ascii : ∀ c ∈ s, c.toNat < 128) : byteText (utf8 s) = s := by
  induction s with
  | nil => rfl
  | cons c s ih =>
      rw [List.forall_mem_cons] at ascii
      have char : Char.ofNat (UInt8.ofNat c.toNat).toNat = c := by
        rw [UInt8.toNat_ofNat', Nat.mod_eq_of_lt (by have := ascii.1; omega), Char.ofNat_toNat]
      rw [utf8_cons, utf8_ascii c ascii.1, byteText_append, ih ascii.2, byteText,
        List.map_singleton, char, List.singleton_append]

end EraOne.Utf8
