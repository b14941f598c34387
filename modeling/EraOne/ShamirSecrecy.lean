import EraOne.ShamirSharing

set_option autoImplicit false

/- What fewer than `threshold` shares say about the secret. `Split` sets no bound on `parts`, and
the number of a share is a byte taken modulo `prime`: a share numbered 251 or 0 is the secret
itself. -/
namespace EraOne.Shamir

open EraOne.SecretSharing

section OneByte

variable (threshold : Nat)

theorem coefficients_congr (random other : Nat → Nat → UInt8) (idx : Nat) (b : UInt8)
    (same : ∀ j, ((other idx j).toNat : Int).tmod prime = ((random idx j).toNat : Int).tmod prime) :
    coefficients threshold other idx b = coefficients threshold random idx b := by
  rw [coefficients, coefficients]
  congr 1
  apply List.map_congr_left
  intro j _
  exact same j

theorem tmod_of_low (b : UInt8) (low : b.toNat < 251) :
    (b.toNat : Int).tmod prime = b.toNat := by
  apply Int.tmod_eq_of_lt (Int.natCast_nonneg _)
  rw [prime]
  omega

/-- Coefficients below `prime` can be drawn for any polynomial that has the byte at zero. -/
theorem exists_draw (p : Polynomial (ZMod 251)) (two : 2 ≤ threshold)
    (degree : p.degree < threshold) (b : UInt8)
    (constant : p.eval 0 = ((b.toNat : Int) : ZMod 251)) :
    ∃ draw : Nat → UInt8, (∀ j, (draw j).toNat < 251) ∧
      ∀ random : Nat → Nat → UInt8, ∀ idx, random idx = draw →
        sharePoly threshold random idx b = p := by
  let draw : Nat → UInt8 := fun j => UInt8.ofNat (p.coeff (j + 1)).val
  have drawn : ∀ j, (draw j).toNat = (p.coeff (j + 1)).val := by
    intro j
    have below := ZMod.val_lt (p.coeff (j + 1))
    dsimp only [draw]
    rw [UInt8.toNat_ofNat']
    omega
  have low : ∀ j, (draw j).toNat < 251 := by
    intro j
    rw [drawn]
    exact ZMod.val_lt _
  refine ⟨draw, low, ?_⟩
  intro random idx taken
  have first : p.coeff 0 = ((b.toNat : Int) : ZMod 251) := by
    rw [Polynomial.coeff_zero_eq_eval_zero, constant]
  rw [← polyOf_coeffs p threshold degree, sharePoly, coefficients]
  congr 1
  obtain ⟨n, rfl⟩ : ∃ n, threshold = n + 1 := ⟨threshold - 1, by omega⟩
  rw [List.range_succ_eq_map, List.map_cons, List.map_cons, List.map_map, List.map_map, first,
    Nat.add_sub_cancel]
  congr 1
  apply List.map_congr_left
  intro j _
  dsimp only [Function.comp]
  rw [taken, tmod_of_low _ (low j), drawn, Int.cast_natCast, ZMod.natCast_zmod_val]

/-- The shares of one byte at few points that are not zero are shares of any other byte. -/
theorem exists_draw_of_few (random : Nat → Nat → UInt8) (idx : Nat) (two : 2 ≤ threshold)
    (numbers : Finset UInt8) (few : numbers.card < threshold)
    (nonzero : ∀ x ∈ numbers, x.toNat % 251 ≠ 0) (b c : UInt8) :
    ∃ draw : Nat → UInt8, (∀ j, (draw j).toNat < 251) ∧
      ∀ other : Nat → Nat → UInt8, other idx = draw → ∀ x ∈ numbers,
        evalPoly (coefficients threshold other idx c) x.toNat =
          evalPoly (coefficients threshold random idx b) x.toNat := by
  let point : UInt8 → ZMod 251 := fun x => ((x.toNat : Int) : ZMod 251)
  have apart : (0 : ZMod 251) ∉ numbers.image point := by
    intro member
    obtain ⟨x, inside, zero⟩ := Finset.mem_image.mp member
    dsimp only [point] at zero
    rw [Int.cast_natCast, ZMod.natCast_eq_zero_iff] at zero
    exact nonzero x inside (Nat.mod_eq_zero_of_dvd zero)
  have fewer : (numbers.image point).card < threshold := lt_of_le_of_lt Finset.card_image_le few
  obtain ⟨p, degree, constant, through⟩ :=
    exists_poly_of_few (numbers.image point) apart threshold fewer
      ((c.toNat : Int) : ZMod 251) (fun x => (sharePoly threshold random idx b).eval x)
  obtain ⟨draw, low, drawn⟩ := exists_draw threshold p two degree c constant
  refine ⟨draw, low, ?_⟩
  intro other taken x inside
  have bounds := evalPoly_bounds (coefficients threshold other idx c) x.toNat (Int.natCast_nonneg _)
    (coefficients_nonneg threshold other idx c)
  have bounds' :=
    evalPoly_bounds (coefficients threshold random idx b) x.toNat (Int.natCast_nonneg _)
      (coefficients_nonneg threshold random idx b)
  apply eq_of_cast_eq _ _ bounds.1 bounds.2 bounds'.1 bounds'.2
  rw [cast_evalPoly, cast_evalPoly]
  change (sharePoly threshold other idx c).eval (point x) = (sharePoly threshold random idx b).eval
    (point x)
  rw [drawn other idx taken]
  exact through _ (Finset.mem_image_of_mem point inside)

/-- A share whose number is zero modulo `prime` holds the byte itself. -/
theorem evalPoly_at_zero (random : Nat → Nat → UInt8) (idx : Nat) (b x : UInt8)
    (low : b.toNat < 251) (zero : x.toNat % 251 = 0) :
    evalPoly (coefficients threshold random idx b) x.toNat = b.toNat := by
  have bounds :=
    evalPoly_bounds (coefficients threshold random idx b) x.toNat (Int.natCast_nonneg _)
      (coefficients_nonneg threshold random idx b)
  have at_zero : ((x.toNat : Int) : ZMod 251) = 0 := by
    rw [Int.cast_natCast, ZMod.natCast_eq_zero_iff]
    exact Nat.dvd_of_mod_eq_zero zero
  apply eq_of_cast_eq _ _ bounds.1 bounds.2 (Int.natCast_nonneg _) (by omega)
  rw [cast_evalPoly, at_zero, ← eval_sharePoly_zero threshold random idx b, sharePoly]

end OneByte

section Secrecy

theorem shareAt_congr (secret other : List UInt8) (length : secret.length = other.length)
    (threshold : Nat) (random draws : Nat → Nat → UInt8) (x : UInt8)
    (same : ∀ idx (inside : idx < secret.length) (inside' : idx < other.length),
      evalPoly (coefficients threshold draws idx other[idx]) x.toNat =
        evalPoly (coefficients threshold random idx secret[idx]) x.toNat) :
    shareAt other threshold draws x = shareAt secret threshold random x := by
  rw [shareAt, shareAt]
  congr 1
  apply List.ext_getElem
  · simp [length]
  · intro idx inside inside'
    simp only [List.length_map, List.length_zipIdx] at inside inside'
    simp only [List.getElem_map, List.getElem_zipIdx, Nat.zero_add]
    rw [same idx inside' inside]

theorem shareAt_injective_at_zero (secret other : List UInt8)
    (length : secret.length = other.length) (low : ∀ b ∈ secret, b.toNat < 251)
    (low' : ∀ b ∈ other, b.toNat < 251) (threshold : Nat) (random draws : Nat → Nat → UInt8)
    (x : UInt8) (zero : x.toNat % 251 = 0)
    (same : shareAt other threshold draws x = shareAt secret threshold random x) :
    secret = other := by
  apply List.ext_getElem length
  intro idx inside inside'
  have bytes := congrArg (fun share : List UInt8 => share[idx + 1]?) same
  have below := low _ (List.getElem_mem inside)
  have below' := low' _ (List.getElem_mem inside')
  rw [shareAt_byte threshold draws other x idx inside',
    shareAt_byte threshold random secret x idx inside,
    evalPoly_at_zero threshold draws idx _ x below' zero,
    evalPoly_at_zero threshold random idx _ x below zero, Option.some_inj] at bytes
  have values := congrArg (fun b : UInt8 => (b.toNat : Int)) bytes
  rw [toNat_ofInt _ (Int.natCast_nonneg _) (by omega),
    toNat_ofInt _ (Int.natCast_nonneg _) (by omega)]
    at values
  exact UInt8.toNat_inj.mp (by omega)

theorem split_eq (secret : List UInt8) (nonempty : secret ≠ []) (parts threshold : Int)
    (two : 2 ≤ threshold) (fits : threshold ≤ parts) (random : Nat → Nat → UInt8) :
    split secret parts threshold random = .ok ((List.range parts.toNat).map fun i =>
      shareAt (hexEncode secret) threshold.toNat random (UInt8.ofNat (i + 1))) := by
  have positive : secret.length ≠ 0 := by
    intro zero
    exact nonempty (List.length_eq_zero_iff.mp zero)
  rw [split, if_neg positive, splitBytes, if_neg (by omega)]

/-- Whether the shares that `known` names could come from the other secret. -/
def Explains (secret other : List UInt8) (parts threshold : Int) (random : Nat → Nat → UInt8)
    (known : Finset Nat) : Prop :=
  ∃ draws : Nat → Nat → UInt8, (∀ idx j, (draws idx j).toNat ≤ 250) ∧
    ∃ shares shares', split secret parts threshold random = .ok shares ∧
      split other parts threshold draws = .ok shares' ∧ ∀ i ∈ known, shares'[i]? = shares[i]?

theorem explains_iff (secret other : List UInt8) (nonempty : secret ≠ [])
    (length : secret.length = other.length) (parts threshold : Int) (two : 2 ≤ threshold)
    (fits : threshold ≤ parts) (known : Finset Nat) (returned : ∀ i ∈ known, (i : Int) < parts)
    (random : Nat → Nat → UInt8) :
    Explains secret other parts threshold random known ↔
      ∃ draws : Nat → Nat → UInt8, (∀ idx j, (draws idx j).toNat ≤ 250) ∧
        ∀ i ∈ known, shareAt (hexEncode other) threshold.toNat draws (UInt8.ofNat (i + 1)) =
          shareAt (hexEncode secret) threshold.toNat random (UInt8.ofNat (i + 1)) := by
  have nonempty' : other ≠ [] := by
    intro empty
    rw [empty, List.length_nil] at length
    exact nonempty (List.length_eq_zero_iff.mp length)
  have entry : ∀ (text : List UInt8) (draws : Nat → Nat → UInt8), ∀ i ∈ known,
      ((List.range parts.toNat).map fun i =>
        shareAt (hexEncode text) threshold.toNat draws (UInt8.ofNat (i + 1)))[i]? =
          some (shareAt (hexEncode text) threshold.toNat draws (UInt8.ofNat (i + 1))) := by
    intro text draws i member
    have inside := returned i member
    rw [List.getElem?_map, List.getElem?_range (by omega), Option.map_some]
  constructor
  · rintro ⟨draws, low, shares, shares', made, made', same⟩
    rw [split_eq secret nonempty parts threshold two fits] at made
    rw [split_eq other nonempty' parts threshold two fits] at made'
    cases made
    cases made'
    refine ⟨draws, low, ?_⟩
    intro i member
    have equal := same i member
    rw [entry other draws i member, entry secret random i member] at equal
    exact Option.some_inj.mp equal
  · rintro ⟨draws, low, same⟩
    refine ⟨draws, low, _, _, split_eq secret nonempty parts threshold two fits random,
      split_eq other nonempty' parts threshold two fits draws, ?_⟩
    intro i member
    rw [entry other draws i member, entry secret random i member, same i member]

theorem length_hexEncode_eq {secret other : List UInt8} (length : secret.length = other.length) :
    (hexEncode secret).length = (hexEncode other).length := by
  rw [length_hexEncode, length_hexEncode, length]

theorem explains_of_nonzero (secret other : List UInt8) (length : secret.length = other.length)
    (threshold : Nat) (two : 2 ≤ threshold) (known : Finset Nat) (few : known.card < threshold)
    (random : Nat → Nat → UInt8)
    (nonzero : ∀ i ∈ known, (i + 1) % 256 ≠ 0 ∧ (i + 1) % 256 ≠ 251) :
    ∃ draws : Nat → Nat → UInt8, (∀ idx j, (draws idx j).toNat ≤ 250) ∧
      ∀ i ∈ known, shareAt (hexEncode other) threshold draws (UInt8.ofNat (i + 1)) =
        shareAt (hexEncode secret) threshold random (UInt8.ofNat (i + 1)) := by
  let numbers : Finset UInt8 := known.image fun i => UInt8.ofNat (i + 1)
  have fewer : numbers.card < threshold := lt_of_le_of_lt Finset.card_image_le few
  have apart : ∀ x ∈ numbers, x.toNat % 251 ≠ 0 := by
    intro x member
    obtain ⟨i, inside, rfl⟩ := Finset.mem_image.mp member
    have both := nonzero i inside
    rw [UInt8.toNat_ofNat']
    omega
  have drawn := fun idx => exists_draw_of_few threshold random idx two numbers fewer apart
    ((hexEncode secret).getD idx 0) ((hexEncode other).getD idx 0)
  choose draws low same using drawn
  refine ⟨draws, fun idx j => Nat.le_of_lt_succ (low idx j), ?_⟩
  intro i member
  apply shareAt_congr _ _ (length_hexEncode_eq length)
  intro idx inside inside'
  have equal := same idx draws rfl _ (Finset.mem_image_of_mem _ member)
  rw [List.getD_eq_getElem _ _ inside, List.getD_eq_getElem _ _ inside'] at equal
  exact equal

theorem explains_self (secret : List UInt8) (threshold : Nat) (random : Nat → Nat → UInt8) :
    ∃ draws : Nat → Nat → UInt8, (∀ idx j, (draws idx j).toNat ≤ 250) ∧
      ∀ x, shareAt (hexEncode secret) threshold draws x = shareAt
        (hexEncode secret) threshold random x := by
  let draws : Nat → Nat → UInt8 := fun idx j => UInt8.ofNat ((random idx j).toNat % 251)
  have low : ∀ idx j, (draws idx j).toNat = (random idx j).toNat % 251 := by
    intro idx j
    dsimp only [draws]
    rw [UInt8.toNat_ofNat']
    omega
  refine ⟨draws, ?_, ?_⟩
  · intro idx j
    rw [low]
    omega
  · intro x
    apply shareAt_congr _ _ rfl
    intro idx inside inside'
    rw [coefficients_congr threshold random draws idx _]
    intro j
    have residue := Nat.mod_lt (random idx j).toNat (show 251 > 0 by decide)
    rw [tmod_of_low _ (by rw [low]; exact residue), low, prime, Int.ofNat_tmod]
    rfl

/-- The shares that `known` names leave every secret of the same length possible exactly when none
of them is numbered zero modulo `prime`. -/
theorem shares_hide_iff (secret other : List UInt8) (nonempty : secret ≠ [])
    (length : secret.length = other.length) (parts threshold : Int) (two : 2 ≤ threshold)
    (fits : threshold ≤ parts) (known : Finset Nat) (returned : ∀ i ∈ known, (i : Int) < parts)
    (few : (known.card : Int) < threshold) (random : Nat → Nat → UInt8) :
    Explains secret other parts threshold random known ↔
      (∀ i ∈ known, (i + 1) % 256 ≠ 0 ∧ (i + 1) % 256 ≠ 251) ∨ secret = other := by
  rw [explains_iff secret other nonempty length parts threshold two fits known returned random]
  constructor
  · rintro ⟨draws, -, same⟩
    by_cases nonzero : ∀ i ∈ known, (i + 1) % 256 ≠ 0 ∧ (i + 1) % 256 ≠ 251
    · exact Or.inl nonzero
    · right
      push Not at nonzero
      obtain ⟨i, member, number⟩ := nonzero
      apply hexEncode_injective
      apply shareAt_injective_at_zero _ _ (length_hexEncode_eq length) (hexEncode_low secret)
        (hexEncode_low other) _ _ _ _ _ (same i member)
      rw [UInt8.toNat_ofNat']
      omega
  · rintro (nonzero | rfl)
    · exact explains_of_nonzero secret other length threshold.toNat (by omega) known
        (by omega) random
        nonzero
    · obtain ⟨draws, low, same⟩ := explains_self secret threshold.toNat random
      exact ⟨draws, low, fun i _ => same _⟩

theorem shares_hide_one_of_three :
    Explains [0xa7] [0x15] 3 2 (fun _ _ => 255) {1} :=
  (shares_hide_iff [0xa7] [0x15] (by decide) rfl 3 2 (by decide) (by decide) {1} (by decide)
    (by decide) (fun _ _ => 255)).mpr (Or.inl (by decide))

/-- The last of 251 shares says which of two secrets was split. -/
theorem last_share_reveals :
    ¬ ∀ (secret other : List UInt8), secret ≠ [] → secret.length = other.length →
      ∀ (parts threshold : Int), 2 ≤ threshold → threshold ≤ parts →
        ∀ (known : Finset Nat), (∀ i ∈ known, (i : Int) < parts) → (known.card : Int) < threshold →
          ∀ random, Explains secret other parts threshold random known := by
  intro hidden
  have explained :=
    hidden [0xa7] [0x15] (by decide) rfl 251 2 (by decide) (by decide) {250} (by decide)
      (by decide) (fun _ _ => 255)
  rw [explains_iff [0xa7] [0x15] (by decide) rfl 251 2 (by decide) (by decide) {250}
    (by decide)] at explained
  obtain ⟨draws, -, same⟩ := explained
  have equal := shareAt_injective_at_zero (hexEncode [0xa7]) (hexEncode [0x15])
    (length_hexEncode_eq rfl) (hexEncode_low [0xa7]) (hexEncode_low [0x15]) 2
      (fun _ _ => 255) draws 251
    (by decide) (same 250 (by decide))
  exact absurd (hexEncode_injective _ _ equal) (by decide)

end Secrecy

end EraOne.Shamir
