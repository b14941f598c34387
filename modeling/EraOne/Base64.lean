import Mathlib.Data.List.Basic
import Mathlib.Data.UInt

set_option autoImplicit false

/- The standard base64 text of a byte string: groups of 24 bits cut into four numbers below 64, a
last group of 8 or 16 bits filled up with zero bits. -/
namespace EraOne.Base64

def symbols : List Char :=
  "ABCDEFGHIJKLMNOPQRSTUVWXYZabcdefghijklmnopqrstuvwxyz0123456789+/".toList

def symbol (v : Nat) : Char := symbols.getD v 'A'

/-- The numbers that the symbols stand for. -/
def sextets : List UInt8 → List Nat
  | [] => []
  | [a] =>
      let n := a.toNat * 16
      [n / 64, n % 64]
  | [a, b] =>
      let n := (a.toNat * 256 + b.toNat) * 4
      [n / 4096, n / 64 % 64, n % 64]
  | a :: b :: c :: rest =>
      let n := a.toNat * 65536 + b.toNat * 256 + c.toNat
      n / 262144 :: n / 4096 % 64 :: n / 64 % 64 :: n % 64 :: sextets rest

/-- The signs that fill up the last group of four. -/
def padding (bytes : List UInt8) : List Char := List.replicate ((3 - bytes.length % 3) % 3) '='

def encode (padded : Bool) (bytes : List UInt8) : List Char :=
  (sextets bytes).map symbol ++ if padded then padding bytes else []

/-- The bytes that numbers stand for; bits that do not fill a byte are dropped. -/
def octets : List Nat → List UInt8
  | [a, b] => [UInt8.ofNat (a * 4 + b / 16)]
  | [a, b, c] => [UInt8.ofNat (a * 4 + b / 16), UInt8.ofNat (b % 16 * 16 + c / 4)]
  | a :: b :: c :: d :: rest =>
      UInt8.ofNat (a * 4 + b / 16) :: UInt8.ofNat (b % 16 * 16 + c / 4) ::
        UInt8.ofNat (c % 4 * 64 + d) :: octets rest
  | _ => []

theorem sextets_lt (bytes : List UInt8) : ∀ v ∈ sextets bytes, v < 64 := by
  induction bytes using sextets.induct with
  | case1 => exact fun v member => absurd member List.not_mem_nil
  | case2 a =>
      have := a.toNat_lt
      simp only [sextets, List.mem_cons, List.not_mem_nil, or_false]
      omega
  | case3 a b =>
      have := a.toNat_lt
      have := b.toNat_lt
      simp only [sextets, List.mem_cons, List.not_mem_nil, or_false]
      omega
  | case4 a b c rest ih =>
      have := a.toNat_lt
      have := b.toNat_lt
      have := c.toNat_lt
      intro v member
      simp only [sextets, List.mem_cons] at member
      rcases member with same | same | same | same | later
      · omega
      · omega
      · omega
      · omega
      · exact ih v later

/-- The numbers of a byte string give the bytes back. -/
theorem octets_sextets (bytes : List UInt8) : octets (sextets bytes) = bytes := by
  have byte (b : UInt8) (n : Nat) (same : n = b.toNat) : UInt8.ofNat n = b := by
    rw [same, UInt8.ofNat_toNat]
  induction bytes using sextets.induct with
  | case1 => rfl
  | case2 a =>
      have boundA := a.toNat_lt
      simp only [sextets, octets]
      rw [byte a _ (by omega)]
  | case3 a b =>
      have boundA := a.toNat_lt
      have boundB := b.toNat_lt
      simp only [sextets, octets]
      rw [byte a _ (by omega), byte b _ (by omega)]
  | case4 a b c rest ih =>
      have boundA := a.toNat_lt
      have boundB := b.toNat_lt
      have boundC := c.toNat_lt
      simp only [sextets, octets]
      rw [byte a _ (by omega), byte b _ (by omega), byte c _ (by omega), ih]

end EraOne.Base64
