import Mathlib

set_option autoImplicit false

/- Runs of a step function over a list of inputs. `Always` speaks of every state a
run passes through, `Guarded` of every step it takes. -/
namespace EraOne.Runs

variable {σ ι : Type} (step : σ → ι → σ)

/-- `inv` holds in every state of the run, the first and the last included. -/
def Always (inv : σ → Prop) (start : σ) (inputs : List ι) : Prop :=
  ∀ front, front <+: inputs → inv (front.foldl step start)

/-- Every step is taken in a state in which `guard` allows it. -/
def Guarded (guard : σ → ι → Prop) (start : σ) (inputs : List ι) : Prop :=
  ∀ front input, front ++ [input] <+: inputs → guard (front.foldl step start) input

theorem always_nil (inv : σ → Prop) (start : σ) : Always step inv start [] ↔ inv start := by
  constructor
  · intro all
    exact all [] (List.prefix_refl _)
  · intro holds front within
    rw [List.prefix_nil.mp within]
    exact holds

theorem always_cons (inv : σ → Prop) (start : σ) (input : ι) (rest : List ι) :
    Always step inv start (input :: rest) ↔
      inv start ∧ Always step inv (step start input) rest := by
  constructor
  · intro all
    refine ⟨all [] (List.nil_prefix), ?_⟩
    intro front within
    exact all (input :: front) ((List.prefix_cons_inj input).mpr within)
  · rintro ⟨first, all⟩ front within
    cases front with
    | nil => exact first
    | cons head front =>
        obtain ⟨rfl, tail⟩ := List.cons_prefix_cons.mp within
        exact all front tail

theorem guarded_nil (guard : σ → ι → Prop) (start : σ) : Guarded step guard start [] := by
  intro front input within
  simp at within

theorem guarded_cons (guard : σ → ι → Prop) (start : σ) (input : ι) (rest : List ι) :
    Guarded step guard start (input :: rest) ↔
      guard start input ∧ Guarded step guard (step start input) rest := by
  constructor
  · intro all
    refine ⟨all [] input (by simp), ?_⟩
    intro front next within
    exact all (input :: front) next ((List.prefix_cons_inj input).mpr within)
  · rintro ⟨first, all⟩ front next within
    cases front with
    | nil =>
        obtain ⟨rfl, -⟩ := List.cons_prefix_cons.mp within
        exact first
    | cons head front =>
        obtain ⟨rfl, tail⟩ := List.cons_prefix_cons.mp within
        exact all front next tail

theorem guarded_append (guard : σ → ι → Prop) (start : σ) (front back : List ι) :
    Guarded step guard start (front ++ back) ↔
      Guarded step guard start front ∧ Guarded step guard (front.foldl step start) back := by
  induction front generalizing start with
  | nil =>
      rw [List.nil_append, List.foldl_nil]
      exact (and_iff_right (guarded_nil step guard start)).symm
  | cons input front ih =>
      rw [List.cons_append, guarded_cons, guarded_cons, ih, and_assoc, List.foldl_cons]

theorem Always.start {step : σ → ι → σ} {inv : σ → Prop} {start : σ} {inputs : List ι}
    (all : Always step inv start inputs) : inv start :=
  all [] List.nil_prefix

theorem Always.last {step : σ → ι → σ} {inv : σ → Prop} {start : σ} {inputs : List ι}
    (all : Always step inv start inputs) : inv (inputs.foldl step start) :=
  all inputs (List.prefix_refl _)

/-- An invariant that guarded steps keep holds along guarded runs. -/
theorem always_of_guarded (inv : σ → Prop) (guard : σ → ι → Prop)
    (keeps : ∀ s i, inv s → guard s i → inv (step s i)) (start : σ) (inputs : List ι)
    (first : inv start) (guarded : Guarded step guard start inputs) :
    Always step inv start inputs := by
  induction inputs generalizing start with
  | nil => exact (always_nil step inv start).mpr first
  | cons input rest ih =>
      obtain ⟨allowed, guarded⟩ := (guarded_cons step guard start input rest).mp guarded
      exact (always_cons step inv start input rest).mpr
        ⟨first, ih _ (keeps start input first allowed) guarded⟩

/-- Where guarded steps are good and keep the invariant, every step of a guarded run is good. -/
theorem guarded_of_invariant (inv : σ → Prop) (guard good : σ → ι → Prop)
    (keeps : ∀ s i, inv s → guard s i → good s i ∧ inv (step s i)) (start : σ) (inputs : List ι)
    (first : inv start) (guarded : Guarded step guard start inputs) :
    Guarded step good start inputs := by
  have always := always_of_guarded step inv guard (fun s i holds can => (keeps s i holds can).2)
    start inputs first guarded
  intro front input within
  have before : front <+: inputs := (List.prefix_append front [input]).trans within
  exact (keeps _ input (always front before) (guarded front input within)).1

/-- Along a run of allowed steps, where an allowed step keeps the invariant exactly under its
guard, the run keeps it exactly when all its steps are guarded. -/
theorem always_iff_guarded_of_allowed (inv : σ → Prop) (allowed guard : σ → ι → Prop)
    (exact_ : ∀ s i, inv s → allowed s i → (inv (step s i) ↔ guard s i)) (start : σ)
    (inputs : List ι) (first : inv start) (run : Guarded step allowed start inputs) :
    Always step inv start inputs ↔ Guarded step guard start inputs := by
  induction inputs generalizing start with
  | nil =>
      rw [always_nil]
      exact iff_of_true first (guarded_nil step guard start)
  | cons input rest ih =>
      obtain ⟨can, run⟩ := (guarded_cons step allowed start input rest).mp run
      rw [always_cons, guarded_cons, ← exact_ start input first can]
      constructor
      · rintro ⟨-, later⟩
        exact ⟨later.start, (ih _ later.start run).mp later⟩
      · rintro ⟨next, later⟩
        exact ⟨first, (ih _ next run).mpr later⟩

/-- Where a step keeps the invariant exactly under its guard, so does a run. -/
theorem always_iff_guarded (inv : σ → Prop) (guard : σ → ι → Prop)
    (exact_ : ∀ s i, inv s → (inv (step s i) ↔ guard s i)) (start : σ) (inputs : List ι)
    (first : inv start) :
    Always step inv start inputs ↔ Guarded step guard start inputs :=
  always_iff_guarded_of_allowed step inv (fun _ _ => True) guard
    (fun s i holds _ => exact_ s i holds) start inputs first (fun _ _ _ => trivial)

/-- What is good of a run is often not inductive: it is enough that an invariant, which guarded
steps keep, makes the next state good exactly under the guard. -/
theorem always_iff_guarded_of_invariant (inv good : σ → Prop) (guard : σ → ι → Prop)
    (exact_ : ∀ s i, inv s → (good (step s i) ↔ guard s i))
    (keeps : ∀ s i, inv s → guard s i → inv (step s i)) (start : σ) (inputs : List ι)
    (first : inv start) (fine : good start) :
    Always step good start inputs ↔ Guarded step guard start inputs := by
  induction inputs generalizing start with
  | nil =>
      rw [always_nil]
      exact iff_of_true fine (guarded_nil step guard start)
  | cons input rest ih =>
      rw [always_cons, guarded_cons, and_iff_right fine]
      constructor
      · intro later
        have can := (exact_ start input first).mp later.start
        exact ⟨can, (ih _ (keeps start input first can) later.start).mp later⟩
      · intro ⟨can, later⟩
        exact (ih _ (keeps start input first can) ((exact_ start input first).mpr can)).mpr later

/-- Every entry of the history may follow the ones before it. -/
def Legal {ε : Type} (ok : List ε → ε → Prop) (history : List ε) : Prop :=
  ∀ before entry, before ++ [entry] <+: history → ok before entry

theorem legal_nil {ε : Type} (ok : List ε → ε → Prop) : Legal ok [] := by
  intro before entry within
  simp at within

theorem legal_append_singleton {ε : Type} (ok : List ε → ε → Prop) (history : List ε) (entry : ε) :
    Legal ok (history ++ [entry]) ↔ Legal ok history ∧ ok history entry := by
  constructor
  · intro all
    refine ⟨?_, all history entry (List.prefix_refl _)⟩
    intro before next within
    exact all before next (within.trans (List.prefix_append _ _))
  · rintro ⟨old, last⟩ before next within
    rcases List.prefix_concat_iff.mp within with whole | inside
    · obtain ⟨rfl, rfl⟩ := List.append_singleton_inj.mp whole
      exact last
    · exact old before next inside

/-- Entries that may follow anything keep a history legal. -/
theorem legal_append_of_free {ε : Type} (ok : List ε → ε → Prop) (history entries : List ε)
    (legal : Legal ok history) (free : ∀ entry ∈ entries, ∀ before, ok before entry) :
    Legal ok (history ++ entries) := by
  induction entries generalizing history with
  | nil => rwa [List.append_nil]
  | cons entry entries ih =>
      rw [← List.singleton_append, ← List.append_assoc]
      apply ih
      · exact (legal_append_singleton ok history entry).mpr
          ⟨legal, free entry List.mem_cons_self history⟩
      · intro later member
        exact free later (List.mem_cons_of_mem entry member)

/-- A fallible pass gives related results exactly if every element has one. -/
theorem mapM_forall₂_iff {α β : Type} (f : α → Option β) (R : α → β → Prop) (xs : List α) :
    (∃ ys, xs.mapM f = some ys ∧ List.Forall₂ R xs ys) ↔
      ∀ x ∈ xs, ∃ y, f x = some y ∧ R x y := by
  induction xs with
  | nil => simp
  | cons x xs ih =>
      rw [List.forall_mem_cons, ← ih, List.mapM_cons]
      constructor
      · intro ⟨ys, pass, related⟩
        obtain ⟨y, here, pass⟩ := Option.bind_eq_some_iff.mp pass
        obtain ⟨later, others, whole⟩ := Option.bind_eq_some_iff.mp pass
        rw [Option.pure_def, Option.some.injEq] at whole
        subst whole
        rw [List.forall₂_cons] at related
        exact ⟨⟨y, here, related.1⟩, later, others, related.2⟩
      · intro ⟨⟨y, here, first⟩, later, pass, related⟩
        refine ⟨y :: later, ?_, List.Forall₂.cons first related⟩
        rw [here, pass]
        rfl

end EraOne.Runs
