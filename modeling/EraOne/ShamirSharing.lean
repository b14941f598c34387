import EraOne.Shamir

set_option autoImplicit false

/- The arithmetic of the shares is that of the field of `prime` elements, where any `threshold` of
them determine the secret. -/
namespace EraOne.Shamir

open EraOne.SecretSharing

instance prime_fact : Fact (Nat.Prime 251) := ⟨by norm_num⟩

section Residues

theorem cast_prime : ((prime : Int) : ZMod 251) = 0 := by
  decide

@[simp] theorem cast_tmod (z : Int) : ((z.tmod prime : Int) : ZMod 251) = (z : ZMod 251) := by
  rw [Int.tmod_def, Int.cast_sub, Int.cast_mul, cast_prime, zero_mul, sub_zero]

/-- A residue has one representative below `prime`. -/
theorem eq_of_cast_eq (a b : Int) (low_a : 0 ≤ a) (high_a : a < 251) (low_b : 0 ≤ b)
    (high_b : b < 251) (same : (a : ZMod 251) = (b : ZMod 251)) : a = b := by
  have congruent := (ZMod.intCast_eq_intCast_iff' a b 251).mp same
  rw [Int.emod_eq_of_lt low_a (by exact_mod_cast high_a),
    Int.emod_eq_of_lt low_b (by exact_mod_cast high_b)] at congruent
  exact congruent

theorem tmod_prime_bounds (z : Int) : -251 < z.tmod prime ∧ z.tmod prime < 251 := by
  have above := Int.tmod_lt_of_pos z (b := prime) (by decide)
  have below := Int.lt_tmod_of_pos z (b := prime) (by decide)
  rw [prime] at above below ⊢
  exact ⟨below, above⟩

theorem cast_toNat_injective (x y : UInt8) (low_x : x.toNat < 251) (low_y : y.toNat < 251)
    (same : ((x.toNat : Int) : ZMod 251) = ((y.toNat : Int) : ZMod 251)) : x = y := by
  have equal := eq_of_cast_eq x.toNat y.toNat (by omega) (by omega) (by omega) (by omega) same
  exact UInt8.toNat_inj.mp (by omega)

theorem toNat_ofInt (z : Int) (low : 0 ≤ z) (high : z < 251) :
    ((UInt8.ofInt z).toNat : Int) = z := by
  rw [UInt8.ofInt, UInt8.toNat_ofNat']
  omega

end Residues

section Evaluation

/-- What is left of the loop adds the remaining polynomial, scaled by the power reached. -/
theorem cast_evalLoop (x : Int) (coeffs : List Int) (result xPow : Int) :
    ((evalLoop x coeffs result xPow : Int) : ZMod 251) =
      result + xPow * (polyOf (coeffs.map fun c : Int => (c : ZMod 251))).eval (x : ZMod 251) := by
  induction coeffs generalizing result xPow with
  | nil => simp [evalLoop, polyOf]
  | cons c coeffs ih =>
      rw [evalLoop, ih, List.map_cons, eval_polyOf_cons]
      simp only [cast_tmod, Int.cast_add, Int.cast_mul]
      ring

theorem cast_evalPoly (coeffs : List Int) (x : Int) :
    ((evalPoly coeffs x : Int) : ZMod 251) =
      (polyOf (coeffs.map fun c : Int => (c : ZMod 251))).eval (x : ZMod 251) := by
  rw [evalPoly, cast_evalLoop, Int.cast_zero, Int.cast_one, zero_add, one_mul]

theorem evalLoop_bounds (x : Int) (coeffs : List Int) (result xPow : Int) (nonneg_x : 0 ≤ x)
    (nonneg : ∀ c ∈ coeffs, 0 ≤ c) (low : 0 ≤ result) (high : result < 251)
    (nonneg_pow : 0 ≤ xPow) :
    0 ≤ evalLoop x coeffs result xPow ∧ evalLoop x coeffs result xPow < 251 := by
  induction coeffs generalizing result xPow with
  | nil => exact ⟨low, high⟩
  | cons c coeffs ih =>
      have nonneg_c : 0 ≤ c := nonneg c List.mem_cons_self
      have product : 0 ≤ c * xPow := Int.mul_nonneg nonneg_c nonneg_pow
      apply ih
      · intro d member
        exact nonneg d (List.mem_cons_of_mem c member)
      · exact Int.tmod_nonneg prime (by omega)
      · exact (tmod_prime_bounds _).2
      · exact Int.tmod_nonneg prime (Int.mul_nonneg nonneg_pow nonneg_x)

theorem evalPoly_bounds (coeffs : List Int) (x : Int) (nonneg_x : 0 ≤ x)
    (nonneg : ∀ c ∈ coeffs, 0 ≤ c) : 0 ≤ evalPoly coeffs x ∧ evalPoly coeffs x < 251 := by
  apply evalLoop_bounds x coeffs 0 1 nonneg_x nonneg <;> decide

end Evaluation

section Interpolation

theorem cast_modInverse (a : Int) (nonzero : (a : ZMod 251) ≠ 0) :
    ((modInverse a prime : Int) : ZMod 251) = (a : ZMod 251)⁻¹ := by
  let b : Int := if a.tmod prime < 0 then a.tmod prime + prime else a.tmod prime
  have cast_b : (b : ZMod 251) = a := by
    dsimp only [b]
    split
    · rw [Int.cast_add, cast_prime, add_zero, cast_tmod]
    · exact cast_tmod a
  have nonneg_b : 0 ≤ b := by
    have bounds := tmod_prime_bounds a
    dsimp only [b]
    rw [prime] at bounds ⊢
    split <;> omega
  let candidates : List Int := (List.range (prime.toNat - 1)).map fun i : Nat => (i : Int) + 1
  have unfolded : modInverse a prime = (candidates.find? fun x => (b * x).tmod prime = 1).getD 1 :=
    rfl
  rw [unfolded]
  cases found : candidates.find? fun x => (b * x).tmod prime = 1 with
  | some x =>
      have holds := List.find?_some found
      rw [decide_eq_true_eq] at holds
      have product : (a : ZMod 251) * (x : ZMod 251) = 1 := by
        rw [← cast_b, ← Int.cast_mul, ← cast_tmod, holds, Int.cast_one]
      rw [Option.getD_some]
      exact (inv_eq_of_mul_eq_one_right product).symm
  | none =>
      exfalso
      -- the inverse itself is among the candidates
      let y : Nat := ((a : ZMod 251)⁻¹).val
      have cast_y : ((y : Int) : ZMod 251) = (a : ZMod 251)⁻¹ := by
        rw [Int.cast_natCast, ZMod.natCast_zmod_val]
      have positive : y ≠ 0 := by
        intro zero
        exact inv_ne_zero nonzero ((ZMod.val_eq_zero _).mp zero)
      have below : y < 251 := ZMod.val_lt _
      have member : (y : Int) ∈ candidates := by
        refine List.mem_map.mpr ⟨y - 1, List.mem_range.mpr ?_, by omega⟩
        rw [prime]
        omega
      apply List.find?_eq_none.mp found _ member
      rw [decide_eq_true_eq]
      have bounds := tmod_prime_bounds (b * y)
      have low : 0 ≤ (b * (y : Int)).tmod prime :=
        Int.tmod_nonneg prime (Int.mul_nonneg nonneg_b (by omega))
      apply eq_of_cast_eq _ _ low bounds.2 (by decide) (by decide)
      rw [cast_tmod, Int.cast_mul, cast_b, cast_y, mul_inv_cancel₀ nonzero, Int.cast_one]

/-- The points with their indices, by index. -/
theorem zipIdx_eq_map (points : List (Int × Int)) :
    points.zipIdx = (List.range points.length).map fun j => (points.getD j (0, 0), j) := by
  apply List.ext_getElem
  · simp
  · intro j inside _
    rw [List.length_zipIdx] at inside
    simp [inside]

theorem cast_basisLoop (at_ xi : Int) (i : Nat) (point : Nat → Int × Int) (indices : List Nat)
    (num den : Int) :
    let basis := basisLoop at_ i xi (indices.map fun j => (point j, j)) num den
    (basis.1 : ZMod 251) =
        num * (indices.map fun j => if i = j then 1
          else ((at_ - (point j).1 : Int) : ZMod 251)).prod ∧
      (basis.2 : ZMod 251) =
        den * (indices.map fun j => if i = j then 1
          else ((xi - (point j).1 : Int) : ZMod 251)).prod := by
  induction indices generalizing num den with
  | nil => simp [basisLoop]
  | cons j indices ih =>
      dsimp only at ih ⊢
      rw [List.map_cons, basisLoop]
      by_cases same : i = j
      · rw [if_pos same]
        simp only [List.map_cons, List.prod_cons, if_pos same, one_mul]
        exact ih num den
      · rw [if_neg same, (ih _ _).1, (ih _ _).2]
        simp only [List.map_cons, List.prod_cons, if_neg same, cast_tmod, Int.cast_mul, mul_assoc,
          and_self]

theorem prod_range_except (n i : Nat) (f : Nat → ZMod 251) :
    ((List.range n).map fun j => if i = j then 1 else f j).prod =
      ∏ j ∈ (Finset.range n).erase i, f j := by
  have skipped : (if i = i then (1 : ZMod 251) else f i) = 1 := if_pos rfl
  rw [← List.prod_toFinset _ List.nodup_range, List.toFinset_range,
    ← Finset.prod_erase (Finset.range n) (f := fun j => if i = j then 1 else f j) skipped]
  apply Finset.prod_congr rfl
  intro j member
  exact if_neg (Finset.ne_of_mem_erase member).symm

theorem cast_lagrangeTerm (points : List (Int × Int)) (at_ : Int) (pi : Int × Int) (i : Nat)
    (nonzero : ∀ j ∈ (Finset.range points.length).erase i,
      ((pi.1 : ZMod 251) - ((points.getD j (0, 0)).1 : ZMod 251)) ≠ 0) :
    ((lagrangeTerm points at_ pi i : Int) : ZMod 251) =
      pi.2 * ∏ j ∈ (Finset.range points.length).erase i,
        ((at_ : ZMod 251) - (points.getD j (0, 0)).1) *
          ((pi.1 : ZMod 251) - (points.getD j (0, 0)).1)⁻¹ := by
  have both :=
    cast_basisLoop at_ pi.1 i (fun j => points.getD j (0, 0)) (List.range points.length) 1 1
  dsimp only at both
  rw [← zipIdx_eq_map, prod_range_except, prod_range_except, Int.cast_one, one_mul, one_mul] at both
  simp only [Int.cast_sub] at both
  rw [lagrangeTerm, cast_tmod, Int.cast_mul, cast_tmod, Int.cast_mul, both.1, cast_modInverse,
    both.2, Finset.prod_mul_distrib, Finset.prod_inv_distrib, mul_assoc]
  rw [both.2]
  exact Finset.prod_ne_zero_iff.mpr nonzero

theorem cast_fold_terms (term : (Int × Int) × Nat → Int) (entries : List ((Int × Int) × Nat))
    (result : Int) :
    ((entries.foldl (fun result entry => (result + term entry).tmod prime) result : Int) : ZMod
      251) =
        result + (entries.map fun entry => ((term entry : Int) : ZMod 251)).sum := by
  induction entries generalizing result with
  | nil => simp
  | cons entry entries ih =>
      rw [List.foldl_cons, ih, cast_tmod, Int.cast_add, List.map_cons, List.sum_cons, add_assoc]

theorem fold_terms_bounds (term : (Int × Int) × Nat → Int) (entries : List ((Int × Int) × Nat))
    (result : Int) (low : -251 < result) (high : result < 251) :
    -251 < entries.foldl (fun result entry => (result + term entry).tmod prime) result ∧
      entries.foldl (fun result entry => (result + term entry).tmod prime) result < 251 := by
  induction entries generalizing result with
  | nil => exact ⟨low, high⟩
  | cons entry entries ih =>
      rw [List.foldl_cons]
      have bounds := tmod_prime_bounds (result + term entry)
      exact ih _ bounds.1 bounds.2

/-- The final correction of the sign gives the representative below `prime`. -/
theorem lagrange_bounds (points : List (Int × Int)) (at_ : Int) :
    0 ≤ lagrange points at_ ∧ lagrange points at_ < 251 := by
  have bounds := fold_terms_bounds (fun entry => lagrangeTerm points at_ entry.1 entry.2)
    points.zipIdx 0 (by decide) (by decide)
  rw [lagrange]
  split
  · rw [prime] at *
    omega
  · omega

/-- Through points of a polynomial of low degree, `lagrange` is its value. -/
theorem cast_lagrange (points : List (Int × Int)) (at_ : Int) (p : Polynomial (ZMod 251))
    (apart : (points.map fun point => ((point.1 : Int) : ZMod 251)).Nodup)
    (through : ∀ point ∈ points, (point.2 : ZMod 251) = p.eval (point.1 : ZMod 251))
    (degree : p.degree < points.length) :
    ((lagrange points at_ : Int) : ZMod 251) = p.eval (at_ : ZMod 251) := by
  let v : Nat → ZMod 251 := fun j => ((points.getD j (0, 0)).1 : ZMod 251)
  have at_index : ∀ j (inside : j < points.length), points.getD j (0, 0) = points[j] := by
    intro j inside
    rw [List.getD_eq_getElem?_getD, List.getElem?_eq_getElem inside, Option.getD_some]
  have injective : Set.InjOn v (Finset.range points.length) := by
    intro i inside_i j inside_j same
    rw [Finset.mem_coe, Finset.mem_range] at inside_i inside_j
    dsimp only [v] at same
    rw [at_index i inside_i, at_index j inside_j] at same
    have inside_map : i < (points.map fun point => ((point.1 : Int) : ZMod 251)).length ∧
        j < (points.map fun point => ((point.1 : Int) : ZMod 251)).length := by
      simpa using ⟨inside_i, inside_j⟩
    apply (@List.Nodup.getElem_inj_iff _ _ apart i inside_map.1 j inside_map.2).mp
    simpa using same
  have sum := eval_eq_sum (Finset.range points.length) v injective p (by simpa using degree) at_
  rw [← sum, lagrange]
  have folded :=
    cast_fold_terms (fun entry => lagrangeTerm points at_ entry.1 entry.2) points.zipIdx 0
  rw [Int.cast_zero, zero_add] at folded
  have total : (points.zipIdx.map fun entry =>
      ((lagrangeTerm points at_ entry.1 entry.2 : Int) : ZMod 251)).sum =
        ∑ i ∈ Finset.range points.length, p.eval (v i) *
          ∏ j ∈ (Finset.range points.length).erase i, ((at_ : ZMod 251) - v j) * (v i - v j)⁻¹ := by
    rw [zipIdx_eq_map, List.map_map, ← List.toFinset_range, List.sum_toFinset _ List.nodup_range]
    apply congrArg List.sum
    apply List.map_congr_left
    intro i inside
    rw [List.mem_range] at inside
    dsimp only [Function.comp]
    rw [cast_lagrangeTerm]
    · rw [at_index i inside, through _ (List.getElem_mem inside), ← at_index i inside,
        List.toFinset_range]
    · intro j other
      rw [Finset.mem_erase, Finset.mem_range] at other
      apply sub_ne_zero.mpr
      intro same
      exact other.1 (injective (by simpa using other.2) (by simpa using inside) same.symm)
  split
  · rw [Int.cast_add, cast_prime, add_zero, folded, total]
  · rw [folded, total]

end Interpolation

section HexText

theorem hexValue_hexChar (n : Nat) (small : n < 16) : hexValue (hexChar n) = some n := by
  have all : ∀ m : Fin 16, hexValue (hexChar m.val) = some m.val := by decide
  exact all ⟨n, small⟩

theorem hexChar_low (n : Nat) (small : n < 16) : (hexChar n).toNat < 251 := by
  have all : ∀ m : Fin 16, (hexChar m.val).toNat < 251 := by decide
  exact all ⟨n, small⟩

theorem hexDecode_hexEncode (bytes : List UInt8) : hexDecode (hexEncode bytes) = .ok bytes := by
  induction bytes with
  | nil => rfl
  | cons b bytes ih =>
      have whole : 16 * (b.toNat / 16) + b.toNat % 16 = b.toNat := Nat.div_add_mod b.toNat 16
      have below := b.toNat_lt
      change hexDecode (hexChar (b.toNat / 16) :: hexChar (b.toNat % 16) :: hexEncode bytes) = _
      rw [hexDecode, hexValue_hexChar _ (by omega), hexValue_hexChar _ (by omega), ih]
      dsimp only
      rw [whole, UInt8.ofNat_toNat]
      rfl

theorem hexEncode_low (bytes : List UInt8) : ∀ c ∈ hexEncode bytes, c.toNat < 251 := by
  intro c member
  obtain ⟨b, -, inside⟩ := List.mem_flatMap.mp member
  have below := b.toNat_lt
  simp only [List.mem_cons, List.not_mem_nil, or_false] at inside
  rcases inside with rfl | rfl
  · exact hexChar_low _ (by omega)
  · exact hexChar_low _ (by omega)

theorem length_hexEncode (bytes : List UInt8) : (hexEncode bytes).length = 2 * bytes.length := by
  induction bytes with
  | nil => rfl
  | cons b bytes ih =>
      change (hexEncode bytes).length + 1 + 1 = 2 * (bytes.length + 1)
      omega

theorem hexEncode_injective (bytes others : List UInt8)
    (same : hexEncode bytes = hexEncode others) :
    bytes = others := by
  have decoded := hexDecode_hexEncode bytes
  rw [same, hexDecode_hexEncode] at decoded
  exact (Except.ok.inj decoded).symm

end HexText

section Shares

variable (threshold : Nat) (random : Nat → Nat → UInt8)

/-- The polynomial behind the byte `b` at `idx`. -/
noncomputable def sharePoly (idx : Nat) (b : UInt8) : Polynomial (ZMod 251) :=
  polyOf ((coefficients threshold random idx b).map fun c : Int => (c : ZMod 251))

theorem length_coefficients (idx : Nat) (b : UInt8) (enough : 2 ≤ threshold) :
    (coefficients threshold random idx b).length = threshold := by
  rw [coefficients, List.length_cons, List.length_map, List.length_range]
  omega

theorem coefficients_nonneg (idx : Nat) (b : UInt8) :
    ∀ c ∈ coefficients threshold random idx b, 0 ≤ c := by
  intro c member
  rw [coefficients, List.mem_cons, List.mem_map] at member
  rcases member with rfl | ⟨j, -, rfl⟩
  · exact Int.natCast_nonneg _
  · exact Int.tmod_nonneg prime (Int.natCast_nonneg _)

theorem eval_sharePoly_zero (idx : Nat) (b : UInt8) :
    (sharePoly threshold random idx b).eval 0 = ((b.toNat : Int) : ZMod 251) := by
  rw [sharePoly, coefficients, List.map_cons, eval_polyOf_zero]

theorem degree_sharePoly (idx : Nat) (b : UInt8) (enough : 2 ≤ threshold) :
    (sharePoly threshold random idx b).degree < threshold := by
  have degree :=
    degree_polyOf_lt ((coefficients threshold random idx b).map fun c : Int => (c : ZMod 251))
  rw [List.length_map, length_coefficients threshold random idx b enough] at degree
  exact degree

variable (secret : List UInt8)

@[simp] theorem shareAt_head (x : UInt8) : (shareAt secret threshold random x)[0]? = some x := rfl

@[simp] theorem length_shareAt (x : UInt8) :
    (shareAt secret threshold random x).length = secret.length + 1 := by
  simp [shareAt]

theorem shareAt_byte (x : UInt8) (idx : Nat) (inside : idx < secret.length) :
    (shareAt secret threshold random x)[idx + 1]? =
      some (UInt8.ofInt (evalPoly (coefficients threshold random idx secret[idx]) x.toNat)) := by
  rw [shareAt, List.getElem?_cons_succ, List.getElem?_map, List.getElem?_zipIdx,
    List.getElem?_eq_getElem inside, Option.map_some, Option.map_some, Nat.zero_add]

/-- A byte of a share is the value of the polynomial at the share's number. -/
theorem cast_share_byte (x : UInt8) (idx : Nat) (b : UInt8) :
    (((UInt8.ofInt (evalPoly (coefficients threshold random idx b) x.toNat)).toNat : Int) : ZMod
      251) =
        (sharePoly threshold random idx b).eval ((x.toNat : Int) : ZMod 251) := by
  have bounds :=
    evalPoly_bounds (coefficients threshold random idx b) x.toNat (Int.natCast_nonneg _)
      (coefficients_nonneg threshold random idx b)
  rw [toNat_ofInt _ bounds.1 bounds.2, cast_evalPoly, sharePoly]

theorem combineByte_shares (xs : List UInt8) (distinct : xs.Nodup) (low : ∀ x ∈ xs, x.toNat < 251)
    (two : 2 ≤ threshold) (enough : threshold ≤ xs.length) (idx : Nat)
    (inside : idx < secret.length) (below : secret[idx].toNat < 251) :
    combineByte (xs.map (shareAt secret threshold random)) idx = secret[idx] := by
  let points : List (Int × Int) := xs.map fun x => ((x.toNat : Int),
    ((UInt8.ofInt (evalPoly (coefficients threshold random idx secret[idx]) x.toNat)).toNat : Int))
  have unfolded : combineByte (xs.map (shareAt secret threshold random)) idx =
      UInt8.ofInt (lagrange points 0) := by
    rw [combineByte, List.map_map]
    congr 2
    apply List.map_congr_left
    intro x _
    dsimp only [Function.comp]
    rw [shareAt_head, shareAt_byte threshold random secret x idx inside, Option.getD_some,
      Option.getD_some]
  have apart : (points.map fun point => ((point.1 : Int) : ZMod 251)).Nodup := by
    rw [List.map_map]
    apply List.Nodup.map_on _ distinct
    intro x member_x y member_y same
    exact cast_toNat_injective x y (low x member_x) (low y member_y) same
  have through : ∀ point ∈ points, (point.2 : ZMod 251) =
      (sharePoly threshold random idx secret[idx]).eval (point.1 : ZMod 251) := by
    intro point member
    obtain ⟨x, -, rfl⟩ := List.mem_map.mp member
    exact cast_share_byte threshold random x idx secret[idx]
  have degree : (sharePoly threshold random idx secret[idx]).degree < points.length := by
    apply lt_of_lt_of_le (degree_sharePoly threshold random idx secret[idx] two)
    rw [List.length_map]
    exact_mod_cast enough
  have value := cast_lagrange points 0 _ apart through degree
  have bounds := lagrange_bounds points 0
  rw [Int.cast_zero, eval_sharePoly_zero] at value
  have equal := eq_of_cast_eq _ _ bounds.1 bounds.2 (Int.natCast_nonneg _) (by omega) value
  rw [unfolded, equal]
  apply UInt8.toNat_inj.mp
  have back := toNat_ofInt secret[idx].toNat (Int.natCast_nonneg _) (by omega)
  omega

theorem combineBytes_shares (xs : List UInt8) (distinct : xs.Nodup) (low : ∀ x ∈ xs, x.toNat < 251)
    (two : 2 ≤ threshold) (enough : threshold ≤ xs.length) (nonempty : secret ≠ [])
    (below : ∀ b ∈ secret, b.toNat < 251) :
    combineBytes (xs.map (shareAt secret threshold random)) = .ok secret := by
  obtain ⟨x, y, rest, rfl⟩ : ∃ x y rest, xs = x :: y :: rest := by
    match xs, enough with
    | [], enough => exact absurd (two.trans enough) (by simp)
    | [_], enough => exact absurd (two.trans enough) (by simp)
    | x :: y :: rest, _ => exact ⟨x, y, rest, rfl⟩
  have positive : secret.length ≠ 0 := by
    intro zero
    exact nonempty (List.length_eq_zero_iff.mp zero)
  have lengths : ((x :: y :: rest).map (shareAt secret threshold random)).any
      (fun sh => decide (sh.length ≠ secret.length + 1)) = false := by
    simp
  rw [List.map_cons, List.map_cons] at lengths ⊢
  rw [combineBytes]
  simp only [length_shareAt, Nat.add_sub_cancel]
  rw [if_neg positive, if_neg (by rw [lengths]; simp)]
  congr 1
  apply List.ext_getElem
  · simp
  · intro idx _ inside
    rw [List.getElem_map, List.getElem_range]
    exact combineByte_shares threshold random secret
      (x :: y :: rest) distinct low two enough idx inside
      (below _ (List.getElem_mem inside))

end Shares

section Reconstruction

/-- Any `threshold` distinct shares, in any order, give the secret back. -/
theorem combine_split (secret : List UInt8) (nonempty : secret ≠ []) (parts threshold : Int)
    (two : 2 ≤ threshold) (fits : threshold ≤ parts) (few : parts ≤ 250)
    (random : Nat → Nat → UInt8) :
    ∃ shares, split secret parts threshold random = .ok shares ∧
      ∀ chosen : List (List UInt8), chosen.Nodup → chosen ⊆ shares → threshold ≤ chosen.length →
        combine chosen = .ok secret := by
  have positive : secret.length ≠ 0 := by
    intro zero
    exact nonempty (List.length_eq_zero_iff.mp zero)
  refine ⟨_, by rw [split, if_neg positive, splitBytes, if_neg (by omega)], ?_⟩
  intro chosen distinct returned enough
  let number : List UInt8 → UInt8 := fun share => share[0]?.getD 0
  have numbered : ∀ share ∈ chosen, share = shareAt (hexEncode secret) threshold.toNat random
      (number share) ∧ (number share).toNat < 251 := by
    intro share member
    obtain ⟨i, inside, rfl⟩ := List.mem_map.mp (returned member)
    rw [List.mem_range] at inside
    dsimp only [number]
    rw [shareAt_head, Option.getD_some]
    refine ⟨rfl, ?_⟩
    rw [UInt8.toNat_ofNat']
    omega
  have listed :
      (chosen.map number).map (shareAt (hexEncode secret) threshold.toNat random) = chosen := by
    rw [List.map_map]
    conv_rhs => rw [← List.map_id chosen]
    apply List.map_congr_left
    intro share member
    exact (numbered share member).1.symm
  have apart : (chosen.map number).Nodup := by
    rw [← listed] at distinct
    exact List.Nodup.of_map _ distinct
  have low : ∀ x ∈ chosen.map number, x.toNat < 251 := by
    intro x member
    obtain ⟨share, inside, rfl⟩ := List.mem_map.mp member
    exact (numbered share inside).2
  have encoded : hexEncode secret ≠ [] := by
    intro empty
    have length := length_hexEncode secret
    rw [empty, List.length_nil] at length
    omega
  have combined :=
    combineBytes_shares threshold.toNat random (hexEncode secret) (chosen.map number) apart
      low (by omega) (by rw [List.length_map]; omega) encoded (hexEncode_low secret)
  rw [listed] at combined
  rw [combine, combined]
  exact hexDecode_hexEncode secret

/-- The third and the first of three shares of one byte. -/
theorem combine_split_third_first :
    split [0xa7] 3 2 (fun _ _ => 255) = .ok [[1, 101, 59], [2, 105, 63], [3, 109, 67]] ∧
      combine [[3, 109, 67], [1, 101, 59]] = .ok [0xa7] := by
  have computed : split [0xa7] 3 2 (fun _ _ => 255) =
      .ok [[1, 101, 59], [2, 105, 63], [3, 109, 67]] := rfl
  obtain ⟨shares, returned, recovers⟩ :=
    combine_split [0xa7] (by decide) 3 2 (by decide) (by decide) (by decide) (fun _ _ => 255)
  rw [computed] at returned
  cases returned
  exact ⟨computed, recovers _ (by decide) (by decide) (by decide)⟩

end Reconstruction

end EraOne.Shamir
