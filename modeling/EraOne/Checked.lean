import Mathlib.Data.List.Basic

set_option autoImplicit false

/- Computations that check themselves, and when the checks let them through. -/
namespace EraOne.Checked

variable {α β γ : Type}

/-- The computation goes through exactly if the condition holds, and then it has this value. -/
structure Computes (result : Option α) (fits : Prop) (value : α) : Prop where
  passes : fits → result = some value
  stops : ¬ fits → result = none

theorem Computes.eq_some_iff {result : Option α} {fits : Prop} {value : α}
    (computes : Computes result fits value) (a : α) :
    result = some a ↔ fits ∧ a = value := by
  constructor
  · intro found
    by_cases holds : fits
    · rw [computes.passes holds] at found
      exact ⟨holds, (Option.some.inj found).symm⟩
    · rw [computes.stops holds] at found
      cases found
  · rintro ⟨holds, rfl⟩
    exact computes.passes holds

theorem Computes.isSome_iff {result : Option α} {fits : Prop} {value : α}
    (computes : Computes result fits value) :
    result.isSome = true ↔ fits := by
  constructor
  · intro found
    obtain ⟨a, same⟩ := Option.isSome_iff_exists.mp found
    exact ((computes.eq_some_iff a).mp same).1
  · intro holds
    rw [computes.passes holds]
    rfl

theorem Computes.congr {result : Option α} {fits fits' : Prop} {value : α}
    (computes : Computes result fits value) (same : fits ↔ fits') :
    Computes result fits' value where
  passes := fun holds => computes.passes (same.mpr holds)
  stops := fun fails => computes.stops fun holds => fails (same.mp holds)

/-- What checks nothing. -/
theorem computes_some (value : α) : Computes (some value) True value where
  passes := fun _ => rfl
  stops := fun fails => absurd trivial fails

theorem computes_ite (fits : Prop) [Decidable fits] (value : α) :
    Computes (if fits then some value else none) fits value where
  passes := fun holds => if_pos holds
  stops := fun fails => if_neg fails

/-- One computation after the other. -/
theorem Computes.bind {result : Option α} {fits : Prop} {value : α}
    (first : Computes result fits value) {next : α → Option β} {fits' : Prop} {value' : β}
    (second : Computes (next value) fits' value') :
    Computes (result.bind next) (fits ∧ fits') value' where
  passes := fun holds => by rw [first.passes holds.1, Option.bind_some, second.passes holds.2]
  stops := fun fails => by
    by_cases holds : fits
    · rw [first.passes holds, Option.bind_some, second.stops fun holds' => fails ⟨holds, holds'⟩]
    · rw [first.stops holds, Option.bind_none]

theorem Computes.map {result : Option α} {fits : Prop} {value : α}
    (computes : Computes result fits value) (f : α → β) :
    Computes (result.map f) fits (f value) where
  passes := fun holds => by rw [computes.passes holds, Option.map_some]
  stops := fun fails => by rw [computes.stops fails, Option.map_none]

theorem Computes.ite {result result' : Option α} {fits fits' : Prop} {value value' : α} (c : Prop)
    [Decidable c] (yes : Computes result fits value) (no : Computes result' fits' value') :
    Computes (if c then result else result') ((c → fits) ∧ (¬ c → fits'))
      (if c then value else value') := by
  by_cases holds : c
  · rw [if_pos holds, if_pos holds]
    exact yes.congr ⟨fun fits => ⟨fun _ => fits, fun fails => absurd holds fails⟩, fun both =>
      both.1 holds⟩
  · rw [if_neg holds, if_neg holds]
    exact no.congr ⟨fun fits => ⟨fun here => absurd here holds, fun _ => fits⟩, fun both =>
      both.2 holds⟩

/-- What goes on with a value, if there is one. -/
theorem computes_elim (found : Option α) {next : α → Option β} {fits : α → Prop} {value : α → β}
    (none_ : β) (each : ∀ a, Computes (next a) (fits a) (value a)) :
    Computes (found.elim (some none_) next) (∀ a ∈ found, fits a) (found.elim none_ value) := by
  cases found with
  | none =>
      refine (computes_some none_).congr (iff_of_true trivial fun a member => ?_)
      cases member
  | some a =>
      refine (each a).congr ⟨fun fits b member => ?_, fun all => all a rfl⟩
      rw [← Option.some.inj member]
      exact fits

section Loop

variable {f : β → α → Option β} {g : β → α → β}

/-- A loop goes through if each of its steps does, in the state that the steps before it leave. -/
theorem computes_foldlM {fits : β → α → Prop} (each : ∀ b a, Computes (f b a) (fits b a) (g b a))
    (xs : List α) (b : β) :
    Computes (xs.foldlM f b) (∀ front a back, xs = front ++ a :: back → fits (front.foldl g b) a)
      (xs.foldl g b) := by
  induction xs generalizing b with
  | nil =>
      refine (computes_some b).congr (iff_of_true trivial fun front a back whole => ?_)
      have lengths := congrArg List.length whole
      rw [List.length_append, List.length_cons, List.length_nil] at lengths
      omega
  | cons x xs ih =>
      rw [List.foldlM_cons]
      refine ((each b x).bind (ih (g b x))).congr ?_
      constructor
      · rintro ⟨here, later⟩ front a back whole
        cases front with
        | nil =>
            obtain ⟨same, -⟩ := List.cons.inj whole
            rw [← same]
            exact here
        | cons y front =>
            obtain ⟨same, rest⟩ := List.cons.inj whole
            rw [List.foldl_cons, ← same]
            exact later front a back rest
      · intro all
        exact ⟨all [] x xs rfl, fun front a back whole =>
          all (x :: front) a back (by rw [whole, List.cons_append])⟩

/-- Where the state does not matter. -/
theorem computes_foldlM_forall {fits : α → Prop} (each : ∀ b a, Computes (f b a) (fits a) (g b a))
    (xs : List α) (b : β) :
    Computes (xs.foldlM f b) (∀ a ∈ xs, fits a) (xs.foldl g b) := by
  refine (computes_foldlM each xs b).congr
    ⟨fun all a member => ?_, fun all front a back whole => ?_⟩
  · obtain ⟨front, back, whole⟩ := List.append_of_mem member
    exact all front a back whole
  · apply all a
    rw [whole]
    exact List.mem_append_right _ List.mem_cons_self

theorem computes_mapM {f : α → Option β} {g : α → β} {fits : α → Prop}
    (each : ∀ a, Computes (f a) (fits a) (g a)) (xs : List α) :
    Computes (xs.mapM f) (∀ a ∈ xs, fits a) (xs.map g) := by
  induction xs with
  | nil =>
      exact (computes_some []).congr
        (iff_of_true trivial fun _ member => absurd member List.not_mem_nil)
  | cons x xs ih =>
      rw [List.mapM_cons, List.map_cons]
      refine ((each x).bind (ih.bind (computes_some (g x :: xs.map g)))).congr ?_
      rw [and_true, List.forall_mem_cons]

end Loop

end EraOne.Checked
