import EraOne.Runs

set_option autoImplicit false

/- Processes that take turns on a shared state. A turn changes the shared state and the process's
own; the environment may change the shared state in between. -/
namespace EraOne.Processes

structure System (σ τ : Type) where
  shared : σ
  locals : List τ := []

inductive Input (ι ε : Type) where
  | begin (call : ι)
  | turn (i : Nat)
  | outside (change : ε)

structure Program (σ τ ι ε : Type) where
  start : ι → τ
  turn : σ → τ → σ × τ
  outside : σ → ε → σ

section Step

variable {σ τ ι ε : Type} (p : Program σ τ ι ε)

def Program.step (s : System σ τ) : Input ι ε → System σ τ
  | .begin call => { s with locals := s.locals ++ [p.start call] }
  | .turn i =>
      match s.locals[i]? with
      | none => s
      | some t => ⟨(p.turn s.shared t).1, s.locals.set i (p.turn s.shared t).2⟩
  | .outside change => { s with shared := p.outside s.shared change }

theorem step_turn (s : System σ τ) (i : Nat) (t : τ) (found : s.locals[i]? = some t) :
    p.step s (.turn i) = ⟨(p.turn s.shared t).1, s.locals.set i (p.turn s.shared t).2⟩ := by
  unfold Program.step
  dsimp only
  rw [found]

theorem step_no_turn (s : System σ τ) (i : Nat) (missing : s.locals[i]? = none) :
    p.step s (.turn i) = s := by
  unfold Program.step
  dsimp only
  rw [missing]

/-- A guard on the process that takes the turn. -/
def OnTurn (guard : σ → τ → Prop) (s : System σ τ) : Input ι ε → Prop
  | .turn i => ∀ t, s.locals[i]? = some t → guard s.shared t
  | _ => True

instance (guard : σ → τ → Prop) [∀ a t, Decidable (guard a t)] (s : System σ τ)
    (input : Input ι ε) :
    Decidable (OnTurn guard s input) :=
  match input with
  | .turn i => decidable_of_iff (∀ t ∈ s.locals[i]?, guard s.shared t) Iff.rfl
  | .begin _ => isTrue trivial
  | .outside _ => isTrue trivial

theorem onTurn_iff (guard : σ → τ → Prop) (s : System σ τ) (i : Nat) (t : τ)
    (found : s.locals[i]? = some t) :
    OnTurn guard s (.turn i : Input ι ε) ↔ guard s.shared t := by
  change (∀ other, s.locals[i]? = some other → guard s.shared other) ↔ _
  rw [found]
  constructor
  · intro all
    exact all t rfl
  · intro holds other same
    rw [← Option.some.inj same]
    exact holds

theorem onTurn_none (guard : σ → τ → Prop) (s : System σ τ) (i : Nat)
    (missing : s.locals[i]? = none) :
    OnTurn guard s (.turn i : Input ι ε) := by
  intro t found
  rw [missing] at found
  cases found

end Step

variable {τ : Type}

theorem forall_set (P : τ → Prop) (ts : List τ) (i : Nat) (next : τ) (all : ∀ t ∈ ts, P t)
    (holds : P next) : ∀ t ∈ ts.set i next, P t := by
  intro t member
  rcases List.mem_or_eq_of_mem_set member with old | rfl
  · exact all t old
  · exact holds

theorem sum_set (weight : τ → Nat) (ts : List τ) (i : Nat) (t next : τ) (found : ts[i]? = some t) :
    ((ts.set i next).map weight).sum + weight t = (ts.map weight).sum + weight next := by
  induction ts generalizing i with
  | nil => simp at found
  | cons head tail ih =>
      cases i with
      | zero =>
          rw [List.getElem?_cons_zero, Option.some.injEq] at found
          subst found
          rw [List.set_cons_zero, List.map_cons, List.map_cons, List.sum_cons, List.sum_cons]
          omega
      | succ i =>
          have rest := ih i found
          rw [List.set_cons_succ, List.map_cons, List.map_cons, List.sum_cons, List.sum_cons]
          omega

end EraOne.Processes
