import EraOne.SecretSharing

set_option autoImplicit false

/- Threshold sharing of `pam/internal/shamir`. `int` is `Int`, as no value leaves its range, and `%`
is Go's remainder, which takes the sign of the dividend. -/
namespace EraOne.Shamir

inductive ShamirErr where
  | emptySecret
  | invalidThreshold
  | needShares
  | badShare
  | lengthMismatch
  | hexLength
  | hexDigit
  deriving DecidableEq, Repr

def prime : Int := 251

section Hex

/-- The characters `0` to `9` and `a` to `f`. -/
def hexChar (n : Nat) : UInt8 := UInt8.ofNat (if n < 10 then 48 + n else 87 + n)

/-- `hex.EncodeToString`, as bytes. -/
def hexEncode (bytes : List UInt8) : List UInt8 :=
  bytes.flatMap fun b => [hexChar (b.toNat / 16), hexChar (b.toNat % 16)]

def hexValue (c : UInt8) : Option Nat :=
  let n := c.toNat
  if 48 ≤ n ∧ n ≤ 57 then some (n - 48)
  else if 97 ≤ n ∧ n ≤ 102 then some (n - 87)
  else if 65 ≤ n ∧ n ≤ 70 then some (n - 55)
  else none

/-- `hex.DecodeString`. -/
def hexDecode : List UInt8 → Except ShamirErr (List UInt8)
  | [] => .ok []
  | [c] => if (hexValue c).isNone then .error .hexDigit else .error .hexLength
  | c :: d :: rest =>
      match hexValue c, hexValue d with
      | some high, some low => (hexDecode rest).map (UInt8.ofNat (16 * high + low) :: ·)
      | _, _ => .error .hexDigit

end Hex

/-- The loop of `evalPoly`, from a result and a power of `x`. -/
def evalLoop (x : Int) : List Int → Int → Int → Int
  | [], result, _ => result
  | c :: coeffs, result, xPow =>
      evalLoop x coeffs ((result + c * xPow).tmod prime) ((xPow * x).tmod prime)

def evalPoly (coeffs : List Int) (x : Int) : Int := evalLoop x coeffs 0 1

def modInverse (a m : Int) : Int :=
  let a := a.tmod m
  let a := if a < 0 then a + m else a
  (((List.range (m.toNat - 1)).map fun i : Nat => (i : Int) + 1).find? fun x =>
    (a * x).tmod m = 1).getD 1

/-- The loop over the other points, from a numerator and a denominator. -/
def basisLoop (at_ : Int) (i : Nat) (xi : Int) : List ((Int × Int) × Nat) → Int → Int → Int × Int
  | [], num, den => (num, den)
  | (pj, j) :: rest, num, den =>
      if i = j then basisLoop at_ i xi rest num den
      else basisLoop at_ i xi rest ((num * (at_ - pj.1)).tmod prime)
        ((den * (xi - pj.1)).tmod prime)

def lagrangeTerm (points : List (Int × Int)) (at_ : Int) (pi : Int × Int) (i : Nat) : Int :=
  let basis := basisLoop at_ i pi.1 points.zipIdx 1 1
  ((pi.2 * basis.1).tmod prime * modInverse basis.2 prime).tmod prime

def lagrange (points : List (Int × Int)) (at_ : Int) : Int :=
  let result := points.zipIdx.foldl
    (fun result entry => (result + lagrangeTerm points at_ entry.1 entry.2).tmod prime) 0
  if result < 0 then result + prime else result

/-- The coefficients for the byte `b` at `idx`; `random idx` is the buffer that `rand.Read`
filled. -/
def coefficients (threshold : Nat) (random : Nat → Nat → UInt8) (idx : Nat) (b : UInt8) :
    List Int :=
  (b.toNat : Int) :: (List.range (threshold - 1)).map fun j =>
    ((random idx j).toNat : Int).tmod prime

/-- The share whose first byte is `x`. -/
def shareAt (secret : List UInt8) (threshold : Nat) (random : Nat → Nat → UInt8) (x : UInt8) :
    List UInt8 :=
  x :: secret.zipIdx.map fun entry =>
    UInt8.ofInt (evalPoly (coefficients threshold random entry.2 entry.1) x.toNat)

def splitBytes (secret : List UInt8) (parts threshold : Int) (random : Nat → Nat → UInt8) :
    Except ShamirErr (List (List UInt8)) :=
  if parts < threshold ∨ threshold < 2 then .error .invalidThreshold
  else .ok ((List.range parts.toNat).map fun i =>
    shareAt secret threshold.toNat random (UInt8.ofNat (i + 1)))

def split (secret : List UInt8) (parts threshold : Int) (random : Nat → Nat → UInt8) :
    Except ShamirErr (List (List UInt8)) :=
  if secret.length = 0 then .error .emptySecret
  else splitBytes (hexEncode secret) parts threshold random

/-- The byte at `idx`, from the first bytes of the shares and their bytes at `idx + 1`. -/
def combineByte (shares : List (List UInt8)) (idx : Nat) : UInt8 :=
  UInt8.ofInt (lagrange (shares.map fun sh =>
    (((sh[0]?.getD 0).toNat : Int), ((sh[idx + 1]?.getD 0).toNat : Int))) 0)

def combineBytes (shares : List (List UInt8)) : Except ShamirErr (List UInt8) :=
  match shares with
  | first :: _ :: _ =>
      let secretLen := first.length - 1
      if secretLen = 0 then .error .badShare
      else if shares.any fun sh => sh.length ≠ secretLen + 1 then .error .lengthMismatch
      else .ok ((List.range secretLen).map (combineByte shares))
  | _ => .error .needShares

def combine (shares : List (List UInt8)) : Except ShamirErr (List UInt8) :=
  combineBytes shares >>= hexDecode

end EraOne.Shamir
