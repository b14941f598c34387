import Mathlib.Algebra.Order.Group.Basic
import Mathlib.Data.List.Count

set_option autoImplicit false

/- Admissions in a sliding window, and a log of them that forgets what has left the window. -/
namespace EraOne.SlidingWindow

variable {α : Type} [AddCommGroup α] [LinearOrder α]

/-- Any two instants of the interval are less than `width` apart. -/
def Within (width : α) (inside : α → Bool) : Prop :=
  ∀ a b, inside a = true → inside b = true → b - a < width

/-- No interval of that width has more than `limit` of the times. -/
def Spaced (limit : Nat) (width : α) (times : List α) : Prop :=
  ∀ inside, Within width inside → times.countP inside ≤ limit

/-- The log has the times that a window ending at `now`, or later, still sees. -/
def Remembers (width now : α) (log times : List α) : Prop :=
  ∀ cut, now - width ≤ cut → log.countP (fun t => cut < t) = times.countP fun t => cut < t

theorem spaced_nil (limit : Nat) (width : α) : Spaced limit width [] :=
  fun _ _ => Nat.zero_le limit

theorem Spaced.perm {limit : Nat} {width : α} {times times' : List α}
    (spaced : Spaced limit width times) (same : times.Perm times') : Spaced limit width times' := by
  intro inside within
  rw [← same.countP_eq]
  exact spaced inside within

theorem remembers_nil (width now : α) : Remembers width now [] [] := fun _ _ => rfl

theorem Remembers.perm {width now : α} {log times times' : List α}
    (remembers : Remembers width now log times) (same : times.Perm times') :
    Remembers width now log times' := by
  intro cut recent
  rw [remembers cut recent, same.countP_eq]

/-- The log may forget what the window that ends now does not see. -/
theorem Remembers.grant {width now : α} {log times : List α}
    (remembers : Remembers width now log times) :
    Remembers width now (log.filter (fun t => now - width < t) ++ [now]) (now :: times) := by
  intro cut recent
  have same : (log.filter fun t => now - width < t).countP (fun t => cut < t) =
      log.countP fun t => cut < t := by
    rw [List.countP_filter]
    apply List.countP_congr
    intro t _
    rw [Bool.and_eq_true, decide_eq_true_iff, decide_eq_true_iff]
    exact ⟨fun both => both.1, fun after => ⟨after, recent.trans_lt after⟩⟩
  rw [List.countP_append, same, remembers cut recent, List.countP_singleton, List.countP_cons]

theorem Remembers.length_eq {width now : α} {log times : List α}
    (remembers : Remembers width now log times) :
    (log.filter fun t => now - width < t).length = times.countP fun t => now - width < t := by
  rw [← List.countP_eq_length_filter]
  exact remembers (now - width) le_rfl

section Ordered

variable [IsOrderedAddMonoid α]

theorem within_closedOpen (width start : α) :
    Within width fun t => decide (start ≤ t ∧ t < start + width) := by
  intro a b insideA insideB
  obtain ⟨above, -⟩ := decide_eq_true_iff.mp insideA
  obtain ⟨-, below⟩ := decide_eq_true_iff.mp insideB
  rw [sub_lt_iff_lt_add]
  calc b < start + width := below
    _ ≤ a + width := add_le_add_left above width
    _ = width + a := add_comm a width

theorem within_openClosed (width start : α) :
    Within width fun t => decide (start < t ∧ t ≤ start + width) := by
  intro a b insideA insideB
  obtain ⟨above, -⟩ := decide_eq_true_iff.mp insideA
  obtain ⟨-, below⟩ := decide_eq_true_iff.mp insideB
  rw [sub_lt_iff_lt_add]
  calc b ≤ start + width := below
    _ < a + width := add_lt_add_left above width
    _ = width + a := add_comm a width

/-- Where the window that ends now has room, one more time may be admitted. -/
theorem Spaced.cons {limit : Nat} {width now : α} {times : List α}
    (spaced : Spaced limit width times) (room : times.countP (fun t => now - width < t) < limit) :
    Spaced limit width (now :: times) := by
  intro inside within
  rw [List.countP_cons]
  by_cases here : inside now = true
  · -- All that the interval has lies in the window that ends now.
    have inWindow : times.countP inside ≤ times.countP fun t => now - width < t := by
      apply List.countP_mono_left
      intro t _ insideT
      have near := within t now insideT here
      rw [decide_eq_true_iff, sub_lt_comm]
      exact near
    rw [if_pos here]
    omega
  · rw [if_neg here]
    exact spaced inside within

theorem Remembers.later {width clock now : α} {log times : List α}
    (remembers : Remembers width clock log times) (passed : clock ≤ now) :
    Remembers width now log times := by
  intro cut recent
  exact remembers cut ((sub_le_sub_right passed width).trans recent)

end Ordered

section History

variable {ρ : Type} (time : ρ → α) (width : α)

/-- A record joins a history, from which those leave that are a window or more older than it. -/
def observe (history : List ρ) (r : ρ) : List ρ :=
  history.filter (fun x => time r - width < time x) ++ [r]

/-- The records younger than the window counted back from every record, so from the newest. -/
def recent (records : List ρ) : List ρ :=
  records.filter fun x => ∀ y ∈ records, time y - width < time x

variable {time width}

theorem mem_recent (records : List ρ) (x : ρ) :
    x ∈ recent time width records ↔ x ∈ records ∧ ∀ y ∈ records, time y - width < time x := by
  rw [recent, List.mem_filter, decide_eq_true_iff]

/-- A record that is a window or more older than another is kept, though it is not recent. -/
theorem observe_recent_iff [IsOrderedAddMonoid α] (positive : 0 < width) (records : List ρ)
    (r : ρ) :
    observe time width (recent time width records) r = recent time width (records ++ [r]) ↔
      ∀ y ∈ records, time y - width < time r := by
  constructor
  · intro same
    have member : r ∈ recent time width (records ++ [r]) := by
      rw [← same]
      exact List.mem_append_right _ (List.mem_singleton_self r)
    intro y inside
    exact ((mem_recent _ _).mp member).2 y (List.mem_append_left _ inside)
  · intro inOrder
    have itself : ∀ y ∈ records ++ [r], time y - width < time r := by
      intro y inside
      rcases List.mem_append.mp inside with before | last
      · exact inOrder y before
      · rw [List.mem_singleton.mp last]
        exact sub_lt_self _ positive
    rw [observe, recent, recent, List.filter_append, List.filter_filter, List.filter_cons,
      if_pos (decide_eq_true itself), List.filter_nil]
    congr 1
    apply List.filter_congr
    intro x _
    rw [← Bool.decide_and, decide_eq_decide]
    constructor
    · rintro ⟨last, before⟩ y inside
      rcases List.mem_append.mp inside with member | same
      · exact before y member
      · rw [List.mem_singleton.mp same]
        exact last
    · intro all
      exact ⟨all r (List.mem_append_right _ (List.mem_singleton_self r)),
        fun y inside => all y (List.mem_append_left _ inside)⟩

end History

end EraOne.SlidingWindow
