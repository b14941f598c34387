import Mathlib

set_option autoImplicit false

/- Numbers as bytes, the highest first. -/
namespace EraOne.BigEndian

def value (bytes : List UInt8) : Nat := bytes.foldl (fun n b => 256 * n + b.toNat) 0

/-- The lowest `width` bytes of a number. -/
def encode : Nat → Nat → List UInt8
  | 0, _ => []
  | width + 1, n => encode width (n / 256) ++ [UInt8.ofNat n]

theorem value_concat (front : List UInt8) (b : UInt8) :
    value (front ++ [b]) = 256 * value front + b.toNat := by
  unfold value
  rw [List.foldl_append, List.foldl_cons, List.foldl_nil]

@[simp] theorem length_encode (width n : Nat) : (encode width n).length = width := by
  induction width generalizing n with
  | zero => rfl
  | succ width ih => rw [encode, List.length_append, ih, List.length_singleton]

theorem value_encode (width n : Nat) : value (encode width n) = n % 256 ^ width := by
  induction width generalizing n with
  | zero =>
      rw [Nat.pow_zero, Nat.mod_one]
      rfl
  | succ width ih =>
      have low : (UInt8.ofNat n).toNat = n % 256 := UInt8.toNat_ofNat'
      rw [encode, value_concat, ih, low, Nat.pow_succ', Nat.mod_mul]
      omega

/-- `binary.BigEndian.Uint16`. -/
def uint16 (bytes : List UInt8) : UInt16 := UInt16.ofNat (value bytes)

/-- `binary.BigEndian.Uint32`. -/
def uint32 (bytes : List UInt8) : UInt32 := UInt32.ofNat (value bytes)

@[simp] theorem uint16_encode (n : UInt16) : uint16 (encode 2 n.toNat) = n := by
  have small : n.toNat < 256 ^ 2 := n.toNat_lt
  rw [uint16, value_encode, Nat.mod_eq_of_lt small, UInt16.ofNat_toNat]

@[simp] theorem uint32_encode (n : UInt32) : uint32 (encode 4 n.toNat) = n := by
  have small : n.toNat < 256 ^ 4 := n.toNat_lt
  rw [uint32, value_encode, Nat.mod_eq_of_lt small, UInt32.ofNat_toNat]

end EraOne.BigEndian
