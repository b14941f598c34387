import EraOne.BigEndian

set_option autoImplicit false

/- Addresses and networks of the `net` package, as bytes. -/
namespace EraOne.IpNet

open BigEndian (value)

abbrev IP := List UInt8

structure IPNet where
  ip : IP
  mask : IP
  deriving DecidableEq, Repr

def v4InV6Prefix : IP := List.replicate 10 0 ++ [0xff, 0xff]

/-- `IP.To4`. -/
def to4 (ip : IP) : Option IP :=
  if ip.length = 4 then some ip
  else if ip.length = 16 ∧ ip.take 12 = v4InV6Prefix then some (ip.drop 12)
  else none

/-- `IP.Mask`; nothing where the lengths differ. -/
def maskIP (ip mask : IP) : IP :=
  let mask := if mask.length = 16 ∧ ip.length = 4 ∧
    mask.take 12 = List.replicate 12 0xff then mask.drop 12 else mask
  let ip := if mask.length = 4 ∧ ip.length = 16 ∧ ip.take 12 = v4InV6Prefix then ip.drop 12 else ip
  if ip.length = mask.length then List.zipWith (· &&& ·) ip mask else []

def networkNumberAndMask (n : IPNet) : Option (IP × IP) :=
  let ip := match to4 n.ip with
    | some ip => some ip
    | none => if n.ip.length = 16 then some n.ip else none
  match ip with
  | none => none
  | some ip =>
      if n.mask.length = 4 then if ip.length = 4 then some (ip, n.mask) else none
      else if n.mask.length = 16 then some (ip, if ip.length = 4 then n.mask.drop 12 else n.mask)
      else none

/-- `IPNet.Contains`. -/
def IPNet.contains (n : IPNet) (ip : IP) : Bool :=
  match networkNumberAndMask n with
  | none => false
  | some (nn, m) =>
      let ip := (to4 ip).getD ip
      ip.length = nn.length && List.zipWith (· &&& ·) nn m == List.zipWith (· &&& ·) ip m

/-- The carry of an increment, from the lowest byte. -/
def carry : IP → IP
  | [] => []
  | b :: rest => if b + 1 > 0 then (b + 1) :: rest else (b + 1) :: carry rest

/-- The next address, with the lowest behind the highest. -/
def incIP (ip : IP) : IP := (carry ip.reverse).reverse

theorem length_carry (ip : IP) : (carry ip).length = ip.length := by
  induction ip with
  | nil => rfl
  | cons b rest ih =>
      rw [carry]
      split
      · rfl
      · rw [List.length_cons, List.length_cons, ih]

@[simp] theorem length_incIP (ip : IP) : (incIP ip).length = ip.length := by
  rw [incIP, List.length_reverse, length_carry, List.length_reverse]

theorem length_iterate (k : Nat) (ip : IP) : (incIP^[k] ip).length = ip.length := by
  induction k with
  | zero => rfl
  | succ k ih => rw [Function.iterate_succ_apply', length_incIP, ih]

theorem value_lt (ip : IP) : value ip < 256 ^ ip.length := by
  induction ip using List.reverseRecOn with
  | nil => exact Nat.one_pos
  | append_singleton front b ih =>
      have low := b.toNat_lt
      rw [BigEndian.value_concat, List.length_append, List.length_singleton, Nat.pow_succ]
      omega

theorem value_inj (a b : IP) (size : a.length = b.length) (same : value a = value b) : a = b := by
  induction a using List.reverseRecOn generalizing b with
  | nil => exact (List.eq_nil_of_length_eq_zero size.symm).symm
  | append_singleton front c ih =>
      cases List.eq_nil_or_concat' b with
      | inl empty =>
          rw [empty, List.length_append, List.length_singleton] at size
          cases size
      | inr some_ =>
          obtain ⟨front', c', shape⟩ := some_
          rw [shape, List.length_append, List.length_append, List.length_singleton,
            List.length_singleton] at size
          rw [shape, BigEndian.value_concat, BigEndian.value_concat] at same
          have low := c.toNat_lt
          have low' := c'.toNat_lt
          rw [shape, ih front' (by omega) (by omega),
            UInt8.toNat_inj.mp (show c.toNat = c'.toNat by omega)]

theorem value_carry (ip : IP) :
    value (carry ip).reverse = (value ip.reverse + 1) % 256 ^ ip.length := by
  induction ip with
  | nil => rfl
  | cons b rest ih =>
      have below := value_lt rest.reverse
      have low := b.toNat_lt
      rw [List.length_reverse] at below
      rw [carry, List.reverse_cons, BigEndian.value_concat, List.length_cons, Nat.pow_succ]
      split
      · rename_i positive
        have next : (b + 1).toNat = b.toNat + 1 := by
          have some_ : 0 < (b + 1).toNat := UInt8.lt_iff_toNat_lt.mp positive
          rw [UInt8.toNat_add] at some_ ⊢
          have one : (1 : UInt8).toNat = 1 := rfl
          omega
        have small : 256 * value rest.reverse + b.toNat + 1 < 256 ^ rest.length * 256 := by
          rw [UInt8.toNat_add] at next
          have one : (1 : UInt8).toNat = 1 := rfl
          omega
        rw [List.reverse_cons, BigEndian.value_concat, next, Nat.mod_eq_of_lt small, Nat.add_assoc]
      · rename_i wraps
        have zero : (b + 1).toNat = 0 := by
          by_contra some_
          exact wraps (UInt8.lt_iff_toNat_lt.mpr (Nat.pos_of_ne_zero some_))
        have last : b.toNat = 255 := by
          rw [UInt8.toNat_add] at zero
          have one : (1 : UInt8).toNat = 1 := rfl
          omega
        rw [List.reverse_cons, BigEndian.value_concat, zero, ih, last,
          Nat.mul_comm (256 ^ rest.length) 256, Nat.add_assoc, show 255 + 1 = 256 * 1 from rfl,
          ← Nat.mul_add, Nat.mul_mod_mul_left]
        rfl

theorem value_incIP (ip : IP) : value (incIP ip) = (value ip + 1) % 256 ^ ip.length := by
  rw [incIP, value_carry, List.reverse_reverse, List.length_reverse]

theorem value_iterate (k : Nat) (ip : IP) :
    value (incIP^[k] ip) = (value ip + k) % 256 ^ ip.length := by
  induction k with
  | zero => exact (Nat.mod_eq_of_lt (value_lt ip)).symm
  | succ k ih =>
      rw [Function.iterate_succ_apply', value_incIP, length_iterate, ih, Nat.mod_add_mod,
        Nat.add_assoc]

/-- Fewer steps than there are addresses do not come back. -/
theorem iterate_inj (ip : IP) (j k : Nat) (first : j < 256 ^ ip.length)
    (second : k < 256 ^ ip.length) (same : incIP^[j] ip = incIP^[k] ip) : j = k := by
  have values := congrArg value same
  rw [value_iterate, value_iterate] at values
  have equal : j ≡ k [MOD 256 ^ ip.length] := Nat.ModEq.add_left_cancel' (value ip) values
  exact Nat.ModEq.eq_of_lt_of_lt equal first second

end EraOne.IpNet
