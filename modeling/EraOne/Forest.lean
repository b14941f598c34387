import Mathlib

set_option autoImplicit false

/- Parent pointers. A map of parents is grounded when every walk along them ends; re-attaching one
node keeps that exactly if the node is not met on the walk from its new parent. -/
namespace EraOne.Forest

variable {α : Type}

/-- The `n`-th node of the walk from `a`, if the walk gets there. -/
def climb (parent : α → Option α) : Nat → α → Option α
  | 0, a => some a
  | n + 1, a => (parent a).bind (climb parent n)

/-- The walk from `a` meets `b`. -/
def Leads (parent : α → Option α) (a b : α) : Prop := ∃ n, climb parent n a = some b

/-- Every walk ends. -/
def Grounded (parent : α → Option α) : Prop := ∀ a, ∃ n, climb parent n a = none

variable (parent : α → Option α)

theorem climb_succ_of_parent (a b : α) (up : parent a = some b) (n : Nat) :
    climb parent (n + 1) a = climb parent n b := by
  rw [climb, up, Option.bind_some]

theorem climb_succ_of_root (a : α) (root : parent a = none) (n : Nat) :
    climb parent (n + 1) a = none := by
  rw [climb, root, Option.bind_none]

theorem climb_add (k n : Nat) (a : α) :
    climb parent (k + n) a = (climb parent k a).bind (climb parent n) := by
  induction k generalizing a with
  | zero => rw [Nat.zero_add, climb, Option.bind_some]
  | succ k ih =>
      rw [Nat.succ_add, climb, climb]
      cases parent a with
      | none => rfl
      | some b =>
          rw [Option.bind_some, Option.bind_some]
          exact ih b

/-- The last step of a walk. -/
theorem climb_succ (n : Nat) (a : α) : climb parent (n + 1) a = (climb parent n a).bind parent := by
  rw [climb_add]
  congr
  funext b
  rw [climb]
  cases parent b <;> rfl

theorem climb_mono (k n : Nat) (a : α) (ended : climb parent k a = none) :
    climb parent (k + n) a = none := by
  rw [climb_add, ended, Option.bind_none]

/-- A walk that comes back to a node goes round for ever. -/
theorem climb_loop (k : Nat) (a : α) (back : climb parent (k + 1) a = some a) (n : Nat) :
    climb parent ((k + 1) * n) a = some a := by
  induction n with
  | zero => rfl
  | succ n ih => rw [Nat.mul_succ, climb_add, ih, Option.bind_some, back]

theorem grounded_no_loop (grounded : Grounded parent) (a : α) (k : Nat) :
    climb parent (k + 1) a ≠ some a := by
  intro back
  obtain ⟨n, ended⟩ := grounded a
  have round := climb_loop parent k a back n
  have reached : (k + 1) * n = n + k * n := by
    rw [Nat.succ_mul, Nat.add_comm]
  rw [reached, climb_mono parent n (k * n) a ended] at round
  cases round

/-- The walk that ends has a last node, which has no parent. -/
theorem last_of_ended (n : Nat) (a : α) (ended : climb parent n a = none) :
    ∃ k stop, climb parent k a = some stop ∧ parent stop = none := by
  induction n generalizing a with
  | zero => cases ended
  | succ n ih =>
      cases up : parent a with
      | none => exact ⟨0, a, rfl, up⟩
      | some b =>
          rw [climb_succ_of_parent parent a b up] at ended
          obtain ⟨k, stop, reached, root⟩ := ih b ended
          exact ⟨k + 1, stop, by rw [climb_succ_of_parent parent a b up, reached], root⟩

section Update

variable [DecidableEq α] (x p : α)

theorem update_other (a : α) (other : a ≠ x) :
    Function.update parent x (some p) a = parent a :=
  Function.update_of_ne other _ _

/-- A walk that does not meet `x` is the same after `x` was re-attached. -/
theorem climb_update (n : Nat) (a : α) (apart : ¬ Leads parent a x) :
    climb (Function.update parent x (some p)) n a = climb parent n a := by
  induction n generalizing a with
  | zero => rfl
  | succ n ih =>
      have other : a ≠ x := fun same => apart ⟨0, by rw [same]; rfl⟩
      rw [climb, climb, update_other parent x p a other]
      cases up : parent a with
      | none => rfl
      | some b =>
          rw [Option.bind_some, Option.bind_some]
          refine ih b ?_
          intro ⟨k, reached⟩
          exact apart ⟨k + 1, by rw [climb_succ_of_parent parent a b up, reached]⟩

/-- The first time a walk meets `x` is also met after `x` was re-attached. -/
theorem leads_update (n : Nat) (a : α) (reached : climb parent n a = some x) :
    Leads (Function.update parent x (some p)) a x := by
  induction n generalizing a with
  | zero =>
      cases reached
      exact ⟨0, rfl⟩
  | succ n ih =>
      by_cases here : a = x
      · exact ⟨0, by rw [here]; rfl⟩
      · cases up : parent a with
        | none =>
            rw [climb_succ_of_root parent a up] at reached
            cases reached
        | some b =>
            rw [climb_succ_of_parent parent a b up] at reached
            obtain ⟨k, later⟩ := ih b reached
            refine ⟨k + 1, ?_⟩
            rw [climb_succ_of_parent _ a b (by rw [update_other parent x p a here, up]), later]

theorem grounded_update_iff (grounded : Grounded parent) :
    Grounded (Function.update parent x (some p)) ↔ ¬ Leads parent p x := by
  constructor
  · intro after ⟨n, reached⟩
    obtain ⟨k, back⟩ := leads_update parent x p n p reached
    refine grounded_no_loop _ after x k ?_
    rw [climb_succ_of_parent _ x p (Function.update_self x (some p) parent), back]
  · intro apart a
    obtain ⟨n, ended⟩ := grounded a
    induction n generalizing a with
    | zero => cases ended
    | succ n ih =>
        by_cases here : a = x
        · obtain ⟨k, endedUp⟩ := grounded p
          refine ⟨k + 1, ?_⟩
          rw [here, climb_succ_of_parent _ x p (Function.update_self x (some p) parent),
            climb_update parent x p k p apart, endedUp]
        · cases up : parent a with
          | none => exact ⟨1, climb_succ_of_root _ a (by rw [update_other parent x p a here, up]) 0⟩
          | some b =>
              rw [climb_succ_of_parent parent a b up] at ended
              obtain ⟨k, endedUp⟩ := ih b ended
              refine ⟨k + 1, ?_⟩
              rw [climb_succ_of_parent _ a b (by rw [update_other parent x p a here, up]), endedUp]

omit [DecidableEq α] in
/-- Nothing leads to a node that is nobody's parent, but the node itself. -/
theorem not_leads_of_leaf (leaf : ∀ a, parent a ≠ some x) (other : p ≠ x) : ¬ Leads parent p x := by
  intro ⟨n, reached⟩
  cases n with
  | zero =>
      cases reached
      exact other rfl
  | succ n =>
      rw [climb_succ, Option.bind_eq_some_iff] at reached
      obtain ⟨a, -, up⟩ := reached
      exact leaf a up

end Update

end EraOne.Forest
