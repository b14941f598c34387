import Mathlib

set_option autoImplicit false

/- Threshold sharing over a field: the shares of a secret are the values of a polynomial whose
constant coefficient is the secret. -/
namespace EraOne.SecretSharing

open Polynomial

variable {F : Type} [Field F]

/-- The polynomial with the given coefficients, the constant one first. -/
noncomputable def polyOf (coeffs : List F) : F[X] :=
  match coeffs with
  | [] => 0
  | c :: rest => C c + X * polyOf rest

theorem degree_polyOf_lt (coeffs : List F) : (polyOf coeffs).degree < coeffs.length := by
  rw [Polynomial.degree_lt_iff_coeff_zero]
  induction coeffs with
  | nil => simp [polyOf]
  | cons c rest ih =>
      intro m long
      rw [List.length_cons] at long
      obtain ⟨m, rfl⟩ : ∃ n, m = n + 1 := ⟨m - 1, by omega⟩
      rw [polyOf, coeff_add, coeff_C_succ, coeff_X_mul, ih m (by omega), zero_add]

theorem eval_polyOf_zero (c : F) (rest : List F) : (polyOf (c :: rest)).eval 0 = c := by
  simp [polyOf]

theorem eval_polyOf_cons (c x : F) (rest : List F) :
    (polyOf (c :: rest)).eval x = c + x * (polyOf rest).eval x := by
  simp [polyOf]

/-- Every polynomial below a degree has such coefficients. -/
theorem polyOf_coeffs (p : F[X]) (n : Nat) (degree : p.degree < n) :
    polyOf ((List.range n).map p.coeff) = p := by
  induction n generalizing p with
  | zero =>
      rw [Polynomial.degree_lt_iff_coeff_zero] at degree
      ext m
      rw [degree m (Nat.zero_le _)]
      rfl
  | succ n ih =>
      have shorter : (divX p).degree < n := by
        rw [Polynomial.degree_lt_iff_coeff_zero] at degree ⊢
        intro m long
        rw [coeff_divX]
        exact degree (m + 1) (by omega)
      have tail : (List.range n).map (divX p).coeff = (List.range n).map fun i =>
          p.coeff (i + 1) := by
        simp [coeff_divX]
      have rest := ih (divX p) shorter
      rw [tail] at rest
      rw [List.range_succ_eq_map, List.map_cons, List.map_map, polyOf]
      change C (p.coeff 0) + X * polyOf ((List.range n).map fun i => p.coeff (i + 1)) = p
      rw [rest, add_comm, mul_comm]
      exact divX_mul_X_add p

/-- Enough values give back the value at any other point. -/
theorem eval_eq_sum {ι : Type} [DecidableEq ι] (s : Finset ι) (v : ι → F) (apart : Set.InjOn v s)
    (p : F[X]) (degree : p.degree < s.card) (x : F) :
    ∑ i ∈ s, p.eval (v i) * ∏ j ∈ s.erase i, (x - v j) * (v i - v j)⁻¹ = p.eval x := by
  have through := Lagrange.eq_interpolate (f := p) apart degree
  conv_rhs => rw [through]
  rw [Lagrange.interpolate_apply, eval_finsetSum]
  refine Finset.sum_congr rfl ?_
  intro i member
  rw [eval_mul, eval_C, Lagrange.basis, eval_prod]
  congr 1
  refine Finset.prod_congr rfl ?_
  intro j other
  simp [Lagrange.basisDivisor, mul_comm]

/-- Fewer values than the degree allows leave the constant coefficient free. -/
theorem exists_poly_of_few [DecidableEq F] (points : Finset F) (nonzero : 0 ∉ points) (n : Nat)
    (few : points.card < n) (secret : F) (share : F → F) :
    ∃ p : F[X], p.degree < n ∧ p.eval 0 = secret ∧ ∀ x ∈ points, p.eval x = share x := by
  let value : F → F := fun x => if x = 0 then secret else share x
  have apart : Set.InjOn id ((insert 0 points : Finset F) : Set F) := Function.injective_id.injOn
  refine ⟨Lagrange.interpolate (insert 0 points) id value, ?_, ?_, ?_⟩
  · refine lt_of_lt_of_le (Lagrange.degree_interpolate_lt value apart) ?_
    rw [Finset.card_insert_of_notMem nonzero]
    exact_mod_cast few
  · have at_ := Lagrange.eval_interpolate_at_node value apart (Finset.mem_insert_self 0 points)
    rw [id] at at_
    rw [at_]
    exact if_pos rfl
  · intro x member
    have at_ := Lagrange.eval_interpolate_at_node value apart (Finset.mem_insert_of_mem member)
    rw [id] at at_
    rw [at_]
    refine if_neg ?_
    intro zero
    exact nonzero (zero ▸ member)

end EraOne.SecretSharing
