import EraOne.Base64
import EraOne.MailSmtp
import EraOne.Utf8

set_option autoImplicit false

/- The base64 reader of the SMTP login (`smtp.rs`) with every index and shift checked, on the base64
text of any byte string. -/
namespace EraOne.MailCore

open Scan

/-! ### The reader -/

/-- `TABLE`, as the loops of its initializer fill it. -/
def base64Table : List UInt8 :=
  let t := (List.range 26).foldl (fun t i =>
    (t.set (65 + i) (UInt8.ofNat i)).set (97 + i) (UInt8.ofNat i + 26)) (List.replicate 256 255)
  let t := (List.range 10).foldl (fun t d => t.set (48 + d) (UInt8.ofNat d + 52)) t
  (t.set 43 62).set 47 63

/-- The locals of `base64_decode`. -/
structure Unpacking where
  out : List UInt8
  buf : List UInt8
  n : Nat

def shl (x : UInt8) (k : Nat) : Option UInt8 := if k < 8 then some (x <<< UInt8.ofNat k) else none

def shr (x : UInt8) (k : Nat) : Option UInt8 := if k < 8 then some (x >>> UInt8.ofNat k) else none

/-- The three bytes of a group, read from `buf`. -/
def firstByte (buf : List UInt8) : Option UInt8 := do
  return (← shl (← buf[0]?) 2) ||| (← shr (← buf[1]?) 4)

def secondByte (buf : List UInt8) : Option UInt8 := do
  return (← shl (← buf[1]?) 4) ||| (← shr (← buf[2]?) 2)

def thirdByte (buf : List UInt8) : Option UInt8 := do
  return (← shl (← buf[2]?) 6) ||| (← buf[3]?)

/-- One turn of the loop, for a byte that is no `=`. -/
def unpackStep (s : Unpacking) (b : UInt8) : Option Unpacking := do
  let v ← base64Table[b.toNat]?
  if v = 255 then return s
  else if s.n < s.buf.length then
    let buf := s.buf.set s.n v
    let n := s.n + 1
    if n = 4 then
      return { out := s.out ++ [← firstByte buf, ← secondByte buf, ← thirdByte buf], buf := buf,
               n := 0 }
    else return { s with buf := buf, n := n }
  else none

/-- What follows the loop. -/
def unpackEnd (s : Unpacking) : Option (List UInt8) := do
  let out ← if s.n ≥ 2 then (firstByte s.buf).map fun x => s.out ++ [x] else some s.out
  if s.n ≥ 3 then (secondByte s.buf).map fun y => out ++ [y] else some out

/-- `base64_decode`; `none` when an index or a shift is out of range. -/
def base64DecodeChecked (s : Str) : Option (List UInt8) := do
  let bytes := (s.filter fun c => !isWhitespace c).flatMap String.utf8EncodeChar
  let last ← (bytes.takeWhile (· ≠ 61)).foldlM unpackStep ⟨[], [0, 0, 0, 0], 0⟩
  unpackEnd last

set_option maxRecDepth 4000 in
theorem base64Table_eq :
    base64Table = (List.range 256).map fun n => base64Value (UInt8.ofNat n) := by
  decide

theorem base64Table_getElem? (b : UInt8) : base64Table[b.toNat]? = some (base64Value b) := by
  rw [base64Table_eq, List.getElem?_map, List.getElem?_range b.toNat_lt, Option.map_some,
    UInt8.ofNat_toNat]

theorem unpackStep_eq (s : Unpacking) (b : UInt8) :
    unpackStep s b =
      if base64Value b = 255 then some s
      else if s.n < s.buf.length then
        if s.n + 1 = 4 then do
          let buf := s.buf.set s.n (base64Value b)
          return { out := s.out ++ [← firstByte buf, ← secondByte buf, ← thirdByte buf], buf := buf,
                   n := 0 }
        else some { s with buf := s.buf.set s.n (base64Value b), n := s.n + 1 }
      else none := by
  unfold unpackStep
  rw [base64Table_getElem?]
  rfl

/-- The values held in `buf` are those of an unfinished group. -/
theorem unpack_eq (bytes : List UInt8) (s : Unpacking) (size : s.buf.length = 4) (few : s.n < 4) :
    (bytes.foldlM unpackStep s).bind unpackEnd =
      some (s.out ++ base64Loop (s.buf.take s.n) ((bytes.map base64Value).filter (· ≠ 255))) := by
  induction bytes generalizing s with
  | nil =>
      obtain ⟨out, buf, n⟩ := s
      match buf, size, n, few with
      | [w, x, y, z], _, 0, _ => exact congrArg some (List.append_nil out).symm
      | [w, x, y, z], _, 1, _ => exact congrArg some (List.append_nil out).symm
      | [w, x, y, z], _, 2, _ => rfl
      | [w, x, y, z], _, 3, _ => exact congrArg some (List.append_assoc out _ _)
  | cons b bytes ih =>
      rw [List.foldlM_cons, List.map_cons, unpackStep_eq]
      by_cases outside : base64Value b = 255
      · rw [if_pos outside, List.filter_cons, if_neg (by rw [outside]; decide)]
        exact ih s size few
      rw [if_neg outside, if_pos (show s.n < s.buf.length by omega), List.filter_cons,
        if_pos (decide_eq_true outside)]
      obtain ⟨out, buf, n⟩ := s
      generalize base64Value b = v
      match buf, size, n, few with
      | [w, x, y, z], _, 0, _ => exact ih ⟨out, [v, x, y, z], 1⟩ rfl (show 1 < 4 by decide)
      | [w, x, y, z], _, 1, _ => exact ih ⟨out, [w, v, y, z], 2⟩ rfl (show 2 < 4 by decide)
      | [w, x, y, z], _, 2, _ => exact ih ⟨out, [w, x, v, z], 3⟩ rfl (show 3 < 4 by decide)
      | [w, x, y, z], _, 3, _ =>
          have rest := ih ⟨out ++ [w <<< 2 ||| x >>> 4, x <<< 4 ||| y >>> 2, y <<< 6 ||| v],
            [w, x, y, v], 0⟩ rfl (show 0 < 4 by decide)
          rw [List.append_assoc] at rest
          exact rest

/-- No index and no shift is out of range. -/
theorem base64DecodeChecked_eq (s : Str) : base64DecodeChecked s = some (base64Decode s) :=
  unpack_eq _ ⟨[], [0, 0, 0, 0], 0⟩ rfl (by decide)

/-! ### Base64 text -/

/-- Blanks of ASCII. -/
def isAsciiSpace (c : Char) : Bool := (9 ≤ c.toNat ∧ c.toNat ≤ 13) ∨ c.toNat = 32

/-- A shift to the left and what fills the bits that it leaves. -/
theorem toNat_shiftLeft_or (a b : UInt8) (k : Nat) (hk : k < 8) (fill : b.toNat < 2 ^ k) :
    (a <<< UInt8.ofNat k ||| b).toNat = (a.toNat * 2 ^ k + b.toNat) % 2 ^ 8 := by
  have shift : (UInt8.ofNat k).toNat % 8 = k := by
    rw [UInt8.toNat_ofNat']
    omega
  rw [UInt8.toNat_or, UInt8.toNat_shiftLeft, shift, ← Nat.shiftLeft_eq,
    Nat.shiftLeft_add_eq_or_of_lt fill, Nat.or_mod_two_pow, Nat.mod_eq_of_lt b.toNat_lt]

/-- The reader's groups are those of the text. -/
theorem base64Loop_octets (vs : List Nat) (small : ∀ v ∈ vs, v < 64) :
    base64Loop [] (vs.map UInt8.ofNat) = Base64.octets vs := by
  have value (v : Nat) (hv : v < 64) : (UInt8.ofNat v).toNat = v := by
    rw [UInt8.toNat_ofNat']
    omega
  have first (a b : Nat) (ha : a < 64) (hb : b < 64) :
      UInt8.ofNat a <<< 2 ||| UInt8.ofNat b >>> 4 = UInt8.ofNat (a * 4 + b / 16) := by
    have right : (UInt8.ofNat b >>> 4).toNat = b / 16 := by
      rw [UInt8.toNat_shiftRight, value b hb, Nat.shiftRight_eq_div_pow]
      rfl
    have joined := toNat_shiftLeft_or (UInt8.ofNat a) (UInt8.ofNat b >>> 4) 2 (by decide) (by omega)
    rw [value a ha, right] at joined
    apply UInt8.toNat_inj.mp
    rw [UInt8.toNat_ofNat']
    exact joined
  have second (a b : Nat) (ha : a < 64) (hb : b < 64) :
      UInt8.ofNat a <<< 4 ||| UInt8.ofNat b >>> 2 = UInt8.ofNat (a % 16 * 16 + b / 4) := by
    have right : (UInt8.ofNat b >>> 2).toNat = b / 4 := by
      rw [UInt8.toNat_shiftRight, value b hb, Nat.shiftRight_eq_div_pow]
      rfl
    have joined := toNat_shiftLeft_or (UInt8.ofNat a) (UInt8.ofNat b >>> 2) 4 (by decide) (by omega)
    rw [value a ha, right] at joined
    apply UInt8.toNat_inj.mp
    rw [UInt8.toNat_ofNat']
    refine joined.trans ?_
    omega
  have third (a b : Nat) (ha : a < 64) (hb : b < 64) :
      UInt8.ofNat a <<< 6 ||| UInt8.ofNat b = UInt8.ofNat (a % 4 * 64 + b) := by
    have joined := toNat_shiftLeft_or (UInt8.ofNat a) (UInt8.ofNat b) 6 (by decide)
      (by rw [value b hb]; omega)
    rw [value a ha, value b hb] at joined
    apply UInt8.toNat_inj.mp
    rw [UInt8.toNat_ofNat']
    refine joined.trans ?_
    omega
  induction vs using Base64.octets.induct with
  | case1 a b =>
      simp only [List.forall_mem_cons] at small
      rw [List.map_cons, List.map_cons, List.map_nil, Base64.octets, ← first a b small.1 small.2.1]
      rfl
  | case2 a b c =>
      simp only [List.forall_mem_cons] at small
      rw [List.map_cons, List.map_cons, List.map_cons, List.map_nil, Base64.octets,
        ← first a b small.1 small.2.1, ← second b c small.2.1 small.2.2.1]
      rfl
  | case3 a b c d rest ih =>
      simp only [List.forall_mem_cons] at small
      rw [Base64.octets, ← first a b small.1 small.2.1, ← second b c small.2.1 small.2.2.1,
        ← third c d small.2.2.1 small.2.2.2.1, ← ih small.2.2.2.2]
      rfl
  | case4 vs two three more =>
      -- Fewer than two numbers make no byte.
      cases vs with
      | nil => rfl
      | cons a vs =>
          cases vs with
          | nil => rfl
          | cons b vs =>
              cases vs with
              | nil => exact absurd rfl (two a b)
              | cons c vs =>
                  cases vs with
                  | nil => exact absurd rfl (three a b c)
                  | cons d rest => exact absurd rfl (more a b c d rest)

set_option maxRecDepth 4000 in
/-- The symbols are ASCII, none is a blank or the sign that ends the text, and the table has
them. -/
theorem symbol_facts : ∀ v < 64,
    (Base64.symbol v).toNat < 128 ∧ isWhitespace (Base64.symbol v) = false ∧
      UInt8.ofNat (Base64.symbol v).toNat ≠ 61 ∧
      base64Value (UInt8.ofNat (Base64.symbol v).toNat) = UInt8.ofNat v := by
  decide

theorem encode_solid (padded : Bool) (b : List UInt8) :
    ∀ c ∈ Base64.encode padded b, isWhitespace c = false := by
  intro c member
  rcases List.mem_append.mp member with symbol | sign
  · obtain ⟨v, inside, rfl⟩ := List.mem_map.mp symbol
    exact (symbol_facts v (Base64.sextets_lt b v inside)).2.1
  · cases padded with
    | false => cases sign
    | true =>
        rw [List.eq_of_mem_replicate sign]
        decide

/-- Taking every blank out leaves what taking those of ASCII out leaves. -/
theorem filter_inserted (padded : Bool) (b : List UInt8) (s : Str)
    (inserted : (s.filter fun c => !isAsciiSpace c) = Base64.encode padded b) :
    (s.filter fun c => !isWhitespace c) = Base64.encode padded b := by
  have both : (s.filter fun c => !isWhitespace c) =
      (s.filter fun c => !isAsciiSpace c).filter fun c => !isWhitespace c := by
    rw [List.filter_filter]
    apply List.filter_congr
    intro c _
    cases ascii : isAsciiSpace c with
    | false => rw [Bool.not_false, Bool.and_true]
    | true =>
        have blank : isWhitespace c = true := by
          unfold isAsciiSpace at ascii
          unfold isWhitespace
          rw [decide_eq_true_iff] at ascii ⊢
          omega
        rw [blank]
        rfl
  rw [both, inserted, List.filter_eq_self]
  intro c member
  rw [encode_solid padded b c member, Bool.not_false]

/-- What the loop sees of the text: a byte for each symbol, and nothing of the padding. -/
theorem takeWhile_encode (padded : Bool) (b : List UInt8) :
    ((Base64.encode padded b).flatMap String.utf8EncodeChar).takeWhile (· ≠ 61) =
      (Base64.sextets b).map fun v => UInt8.ofNat (Base64.symbol v).toNat := by
  have symbols (vs : List Nat) (small : ∀ v ∈ vs, v < 64) :
      (vs.map Base64.symbol).flatMap String.utf8EncodeChar =
        vs.map fun v => UInt8.ofNat (Base64.symbol v).toNat := by
    induction vs with
    | nil => rfl
    | cons v vs ih =>
        rw [List.forall_mem_cons] at small
        rw [List.map_cons, List.flatMap_cons, Utf8.utf8_ascii _ (symbol_facts v small.1).1,
          ih small.2, List.map_cons, List.singleton_append]
  have signs : ∀ byte ∈ (if padded then Base64.padding b else []).flatMap String.utf8EncodeChar,
      decide (byte ≠ 61) = false := by
    intro byte member
    obtain ⟨c, sign, inside⟩ := List.mem_flatMap.mp member
    cases padded with
    | false => cases sign
    | true =>
        rw [List.eq_of_mem_replicate sign, Utf8.utf8_ascii '=' (by decide)] at inside
        rw [List.mem_singleton.mp inside]
        decide
  rw [Base64.encode, List.flatMap_append, symbols _ (Base64.sextets_lt b)]
  refine (span_block _ _ _ ?_ signs).1
  intro byte member
  obtain ⟨v, inside, rfl⟩ := List.mem_map.mp member
  exact decide_eq_true (symbol_facts v (Base64.sextets_lt b v inside)).2.2.1

/-- Whatever bytes a client encodes, with or without padding and with any blanks of ASCII put in,
are read back, and on no text does the reader leave its table, its buffer or the width of a byte. -/
theorem base64Decode_encode :
    (∀ (b : List UInt8) (padded : Bool) (s : Str),
      (s.filter fun c => !isAsciiSpace c) = Base64.encode padded b →
        base64DecodeChecked s = some b) ∧
    ∀ s, (base64DecodeChecked s).isSome = true := by
  constructor
  · intro b padded s inserted
    have values : (((Base64.sextets b).map fun v => UInt8.ofNat (Base64.symbol v).toNat).map
        base64Value).filter (· ≠ 255) = (Base64.sextets b).map UInt8.ofNat := by
      have same : ((Base64.sextets b).map fun v => UInt8.ofNat (Base64.symbol v).toNat).map
          base64Value = (Base64.sextets b).map UInt8.ofNat := by
        rw [List.map_map]
        apply List.map_congr_left
        intro v inside
        exact (symbol_facts v (Base64.sextets_lt b v inside)).2.2.2
      rw [same, List.filter_eq_self]
      intro byte member
      obtain ⟨v, inside, rfl⟩ := List.mem_map.mp member
      have small := Base64.sextets_lt b v inside
      rw [decide_eq_true_iff, Ne, ← UInt8.toNat_inj, UInt8.toNat_ofNat']
      change ¬ v % 256 = 255
      omega
    rw [base64DecodeChecked_eq, base64Decode]
    rw [filter_inserted padded b s inserted, takeWhile_encode, values,
      base64Loop_octets _ (Base64.sextets_lt b), Base64.octets_sextets]
  · intro s
    rw [base64DecodeChecked_eq]
    rfl

theorem base64Decode_encode_hello :
    base64DecodeChecked " aGVs\r\nbG8 =\t".toList = some [104, 101, 108, 108, 111] :=
  base64Decode_encode.1 [104, 101, 108, 108, 111] true _ (by decide)

end EraOne.MailCore
