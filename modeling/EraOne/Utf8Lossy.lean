import EraOne.Utf8

set_option autoImplicit false

/- Any bytes as UTF-8, each piece that is none replaced. -/
namespace EraOne.Utf8

/-- How many bytes a character has behind its first, if it begins with this one. -/
def wanted (b : UInt8) : Option Nat :=
  if b.toNat < 0x80 then some 0
  else if b.toNat < 0xC2 then none
  else if b.toNat < 0xE0 then some 1
  else if b.toNat < 0xF0 then some 2
  else if b.toNat < 0xF5 then some 3
  else none

def isTail (b : UInt8) : Bool := 0x80 ≤ b.toNat && b.toNat < 0xC0

/-- The bytes that may be second: no longer code than needed, no surrogate, nothing above
U+10FFFF. -/
def isSecond (b c : UInt8) : Bool :=
  isTail c && (b.toNat != 0xE0 || 0xA0 ≤ c.toNat) && (b.toNat != 0xED || c.toNat < 0xA0) &&
    (b.toNat != 0xF0 || 0x90 ≤ c.toNat) && (b.toNat != 0xF4 || c.toNat < 0x90)

/-- How many of the next `n` bytes belong to a first byte. -/
def belonging (b : UInt8) (n : Nat) (rest : Bytes) : Nat :=
  match rest.take n with
  | [] => 0
  | c :: more => if isSecond b c then (more.takeWhile isTail).length + 1 else 0

/-- The characters of a text, and between them the longest beginnings of characters that go on
wrong. -/
def piecesFrom : Nat → Bytes → List (Bytes × Bool)
  | 0, _ => []
  | _ + 1, [] => []
  | fuel + 1, b :: rest =>
      match wanted b with
      | none => ([b], false) :: piecesFrom fuel rest
      | some n =>
          (b :: rest.take (belonging b n rest), belonging b n rest == n) :: piecesFrom fuel
            (rest.drop (belonging b n rest))

def pieces (s : Bytes) : List (Bytes × Bool) := piecesFrom s.length s

/-- U+FFFD in UTF-8. -/
def replacement : Bytes := [0xEF, 0xBF, 0xBD]

/-- `String::from_utf8_lossy`. -/
def lossy (s : Bytes) : Bytes :=
  (pieces s).flatMap fun piece => if piece.2 then piece.1 else replacement

theorem belonging_le (b : UInt8) (n : Nat) (rest : Bytes) : belonging b n rest ≤ n := by
  have few := List.length_take_le n rest
  unfold belonging
  split
  · exact Nat.zero_le n
  · rename_i c more shape
    rw [shape, List.length_cons] at few
    split
    · have front := (List.takeWhile_sublist isTail (l := more)).length_le
      omega
    · exact Nat.zero_le n

theorem wanted_le (b : UInt8) (n : Nat) (asked : wanted b = some n) : n ≤ 3 := by
  unfold wanted at asked
  split_ifs at asked
  all_goals
    rw [Option.some.injEq] at asked
    omega

/-- The pieces are the whole text. -/
theorem flatten_piecesFrom (fuel : Nat) (s : Bytes) (enough : s.length ≤ fuel) :
    (piecesFrom fuel s).flatMap (·.1) = s := by
  induction fuel generalizing s with
  | zero =>
      rw [List.eq_nil_of_length_eq_zero (Nat.le_zero.mp enough)]
      rfl
  | succ fuel ih =>
      cases s with
      | nil => rfl
      | cons b rest =>
          rw [List.length_cons] at enough
          unfold piecesFrom
          split
          · rw [List.flatMap_cons, ih rest (by omega), List.singleton_append]
          · rename_i n asked
            have fits : (rest.drop (belonging b n rest)).length ≤ fuel := by
              rw [List.length_drop]
              omega
            rw [List.flatMap_cons, ih _ fits, List.cons_append, List.take_append_drop]

/-- What is replaced is at most three bytes long. -/
theorem replaced_le (fuel : Nat) (s : Bytes) :
    ∀ piece ∈ piecesFrom fuel s, piece.2 = false → piece.1.length ≤ 3 := by
  induction fuel generalizing s with
  | zero => exact fun piece member => absurd member List.not_mem_nil
  | succ fuel ih =>
      cases s with
      | nil => exact fun piece member => absurd member List.not_mem_nil
      | cons b rest =>
          unfold piecesFrom
          split
          · intro piece member _
            cases List.mem_cons.mp member with
            | inl here =>
                rw [here]
                exact Nat.le_add_left 1 2
            | inr later => exact ih rest piece later ‹_›
          · rename_i n asked
            intro piece member cut
            cases List.mem_cons.mp member with
            | inl here =>
                rw [here] at cut ⊢
                have few := wanted_le b n asked
                have most := belonging_le b n rest
                have other := beq_eq_false_iff_ne.mp cut
                have taken := List.length_take_le (belonging b n rest) rest
                rw [List.length_cons]
                omega
            | inr later => exact ih _ piece later cut

/-- No piece to be replaced has fewer bytes than what replaces it. -/
def Kept (s : Bytes) : Prop := ∀ piece ∈ pieces s, piece.2 = false → piece.1.length = 3

theorem length_lossy_iff (s : Bytes) : (lossy s).length = s.length ↔ Kept s := by
  have grows (found : List (Bytes × Bool))
      (small : ∀ piece ∈ found, piece.2 = false → piece.1.length ≤ 3) :
      (found.flatMap (·.1)).length ≤ (found.flatMap fun piece => if piece.2 then piece.1
        else replacement).length ∧
        ((found.flatMap fun piece => if piece.2 then piece.1 else replacement).length =
          (found.flatMap (·.1)).length ↔
          ∀ piece ∈ found, piece.2 = false → piece.1.length = 3) := by
    induction found with
    | nil => exact ⟨le_refl 0, iff_of_true rfl fun piece member => absurd member List.not_mem_nil⟩
    | cons piece found ih =>
        obtain ⟨first, rest⟩ := List.forall_mem_cons.mp small
        obtain ⟨more, exact_⟩ := ih rest
        rw [List.flatMap_cons, List.flatMap_cons, List.length_append, List.length_append,
          List.forall_mem_cons, ← exact_]
        obtain ⟨text, whole⟩ := piece
        cases whole with
        | true =>
            dsimp only
            rw [if_pos rfl]
            refine ⟨Nat.add_le_add_left more _, ?_⟩
            rw [Nat.add_left_cancel_iff]
            exact ⟨fun same => ⟨fun never => Bool.noConfusion never, same⟩, And.right⟩
        | false =>
            have three := first rfl
            have width : replacement.length = 3 := rfl
            dsimp only at three ⊢
            rw [if_neg Bool.false_ne_true, width]
            refine ⟨Nat.add_le_add three more, fun same => ⟨fun _ => by omega, by omega⟩,
              fun both => ?_⟩
            have here := both.1 rfl
            omega
  have whole := (grows (pieces s) (replaced_le s.length s)).2
  rw [pieces, flatten_piecesFrom s.length s (le_refl _)] at whole
  exact whole

/-! ### Texts -/

theorem isTail_ofNat (n : Nat) (tail : 0x80 ≤ n) (below : n < 0xC0) :
    isTail (UInt8.ofNat n) = true := by
  have same : (UInt8.ofNat n).toNat = n := by
    rw [UInt8.toNat_ofNat']
    omega
  rw [isTail, same, Bool.and_eq_true]
  exact ⟨decide_eq_true tail, decide_eq_true below⟩

/-- What is asked of a second byte, on numbers. -/
theorem isSecond_ofNat (m n : Nat) (first : m < 0x100) (tail : 0x80 ≤ n) (below : n < 0xC0)
    (bounds : (m = 0xE0 → 0xA0 ≤ n) ∧ (m = 0xED → n < 0xA0) ∧ (m = 0xF0 → 0x90 ≤ n) ∧
      (m = 0xF4 → n < 0x90)) :
    isSecond (UInt8.ofNat m) (UInt8.ofNat n) = true := by
  have same : (UInt8.ofNat m).toNat = m := by
    rw [UInt8.toNat_ofNat']
    omega
  have other : (UInt8.ofNat n).toNat = n := by
    rw [UInt8.toNat_ofNat']
    omega
  rw [isSecond, isTail_ofNat n tail below, same, other]
  simp only [Bool.true_and, Bool.and_eq_true, Bool.or_eq_true, bne_iff_ne, decide_eq_true_eq]
  omega

theorem wanted_ofNat (m n : Nat) (first : m < 0x100)
    (kind : m < 0x80 ∧ n = 0 ∨ 0xC2 ≤ m ∧ m < 0xE0 ∧ n = 1 ∨ 0xE0 ≤ m ∧ m < 0xF0 ∧ n = 2 ∨
      0xF0 ≤ m ∧ m < 0xF5 ∧ n = 3) :
    wanted (UInt8.ofNat m) = some n := by
  have same : (UInt8.ofNat m).toNat = m := by
    rw [UInt8.toNat_ofNat']
    omega
  rw [wanted, same]
  split_ifs
  all_goals
    first
    | omega
    | (congr 1; omega)

theorem piecesFrom_char (c : Char) (rest : Bytes) (fuel : Nat) :
    piecesFrom (fuel + 1) (String.utf8EncodeChar c ++ rest) = (String.utf8EncodeChar c, true) ::
      piecesFrom fuel rest := by
  have valid : c.val.toNat < 0xD800 ∨ 0xDFFF < c.val.toNat ∧ c.val.toNat < 0x110000 := c.valid
  have step (b : UInt8) (n : Nat) (tail : Bytes) (asked : wanted b = some n)
      (all : belonging b n (tail ++ rest) = n) (width : tail.length = n) :
      piecesFrom (fuel + 1) (b :: tail ++ rest) = (b :: tail, true) :: piecesFrom fuel rest := by
    rw [List.cons_append, piecesFrom, asked]
    dsimp only
    rw [all, ← width, List.take_left, List.drop_left, beq_self_eq_true]
  unfold String.utf8EncodeChar
  dsimp only
  split_ifs with one two three
  · apply step _ 0 [] (wanted_ofNat _ _ (by omega) (by omega)) rfl rfl
  · apply step _ 1 [_] (wanted_ofNat _ _ (by omega) (by omega)) _ rfl
    rw [belonging, List.singleton_append, List.take_succ_cons, List.take_zero]
    dsimp only
    rw [if_pos (isSecond_ofNat _ _ (by omega) (by omega) (by omega) (by omega))]
    rfl
  · apply step _ 2 [_, _] (wanted_ofNat _ _ (by omega) (by omega)) _ rfl
    rw [belonging, List.cons_append, List.singleton_append, List.take_succ_cons,
      List.take_succ_cons, List.take_zero]
    dsimp only
    rw [if_pos (isSecond_ofNat _ _ (by omega) (by omega) (by omega) (by omega)),
      List.takeWhile_cons_of_pos (isTail_ofNat _ (by omega) (by omega))]
    rfl
  · apply step _ 3 [_, _, _] (wanted_ofNat _ _ (by omega) (by omega)) _ rfl
    rw [belonging, List.cons_append, List.cons_append, List.singleton_append, List.take_succ_cons,
      List.take_succ_cons, List.take_succ_cons, List.take_zero]
    dsimp only
    rw [if_pos (isSecond_ofNat _ _ (by omega) (by omega) (by omega) (by omega)),
      List.takeWhile_cons_of_pos (isTail_ofNat _ (by omega) (by omega)),
      List.takeWhile_cons_of_pos (isTail_ofNat _ (by omega) (by omega))]
    rfl

theorem lossy_utf8 (s : Str) : lossy (utf8 s) = utf8 s := by
  have all (fuel : Nat) (enough : (utf8 s).length ≤ fuel) :
      piecesFrom fuel (utf8 s) = s.map fun c => (String.utf8EncodeChar c, true) := by
    induction s generalizing fuel with
    | nil => cases fuel <;> rfl
    | cons c s ih =>
        rw [utf8_cons, List.length_append] at enough
        have some_ := List.length_pos_iff.mpr (String.utf8EncodeChar_ne_nil (c := c))
        obtain ⟨fuel, rfl⟩ := Nat.exists_eq_add_of_le' (show 1 ≤ fuel by omega)
        rw [utf8_cons, piecesFrom_char, ih fuel (by omega), List.map_cons]
  rw [lossy, pieces, all _ (le_refl _), List.flatMap_map]
  rfl

/-! ### Runes -/

/-- The loop of a `range` over a string, with the bytes of a character still to be passed over. -/
def runesFrom : Nat → Bytes → Str
  | _, [] => []
  | skip + 1, _ :: rest => runesFrom skip rest
  | 0, b :: rest =>
      match (b :: rest).toByteArray.utf8DecodeChar? 0 with
      | some c => c :: runesFrom (c.utf8Size - 1) rest
      | none => '\uFFFD' :: runesFrom 0 rest

/-- The characters of a Go string: U+FFFD for each byte that belongs to none. -/
def runes (b : Bytes) : Str := runesFrom 0 b

end EraOne.Utf8
