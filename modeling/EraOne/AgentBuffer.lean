import Mathlib

set_option autoImplicit false

/- The ring buffer of the agent (`buffer.rs`). -/
namespace EraOne.Agent

/-- A buffer has room for one event at least, and holds no more events than it has room for. -/
structure RingBuffer (α : Type) where
  capacity : Nat
  items : List α
  dropped : Nat
  positive : 0 < capacity
  room : items.length ≤ capacity

/-- The loop of `requeue_front`, which makes room for so many events; `none` where the fuel does not
last. An empty buffer is popped in vain, and counted as a drop all the same. -/
def makeRoom {α : Type} (capacity waiting : Nat) : Nat → List α → Nat →
    Option { left : List α × Nat // left.1.length + waiting ≤ capacity }
  | 0, _, _ => none
  | fuel + 1, items, dropped =>
      if full : capacity < items.length + waiting then
        makeRoom capacity waiting fuel items.tail (dropped + 1)
      else some ⟨(items, dropped), Nat.le_of_not_lt full⟩

namespace RingBuffer

variable {α : Type}

def new (capacity : Nat) : RingBuffer α where
  capacity := max capacity 1
  items := []
  dropped := 0
  positive := by omega
  room := by simp

def push (buf : RingBuffer α) (env : α) : RingBuffer α :=
  if full : buf.capacity ≤ buf.items.length then
    { buf with
      items := buf.items.tail ++ [env]
      dropped := buf.dropped + 1
      room := by
        have positive := buf.positive
        have room := buf.room
        simp only [List.length_append, List.length_tail, List.length_singleton]
        omega }
  else
    { buf with
      items := buf.items ++ [env]
      room := by
        simp only [List.length_append, List.length_singleton]
        omega }

def drain (buf : RingBuffer α) (n : Nat) : List α × RingBuffer α :=
  let take := min n buf.items.length
  (buf.items.take take,
    { buf with
      items := buf.items.drop take
      room := by
        have room := buf.room
        simp only [List.length_drop]
        omega })

def requeueFront (fuel : Nat) (buf : RingBuffer α) (batch : List α) : Option (RingBuffer α) :=
  if batch.isEmpty then some buf
  else
    (makeRoom buf.capacity batch.length fuel buf.items buf.dropped).map fun left =>
      { buf with
        items := batch ++ left.1.1
        dropped := left.1.2
        room := by
          have room := left.2
          simp only [List.length_append]
          omega }

@[ext]
theorem ext {a b : RingBuffer α} (capacity : a.capacity = b.capacity) (items : a.items = b.items)
    (dropped : a.dropped = b.dropped) : a = b := by
  cases a
  cases b
  simp_all

/-! ### Pushing and draining -/

@[simp] theorem capacity_push (buf : RingBuffer α) (env : α) :
    (buf.push env).capacity = buf.capacity := by
  unfold push
  split <;> rfl

/-- A push drops the oldest event if the buffer is full, and nothing otherwise. -/
theorem push_spec (buf : RingBuffer α) (env : α) :
    (buf.items.length < buf.capacity ∧ (buf.push env).items = buf.items ++ [env] ∧
        (buf.push env).dropped = buf.dropped) ∨
      ∃ oldest rest, buf.items = oldest :: rest ∧ (buf.push env).items = rest ++ [env] ∧
        (buf.push env).dropped = buf.dropped + 1 := by
  unfold push
  split
  · rename_i full
    have some_ : buf.items ≠ [] := by
      intro empty
      have positive := buf.positive
      rw [empty, List.length_nil] at full
      omega
    obtain ⟨oldest, rest, whole⟩ := List.exists_cons_of_ne_nil some_
    refine Or.inr ⟨oldest, rest, whole, ?_, rfl⟩
    show buf.items.tail ++ [env] = rest ++ [env]
    rw [whole, List.tail_cons]
  · rename_i free
    exact Or.inl ⟨Nat.lt_of_not_le free, rfl, rfl⟩

@[simp] theorem drain_fst (buf : RingBuffer α) (n : Nat) : (buf.drain n).1 = buf.items.take n := by
  show buf.items.take (min n buf.items.length) = buf.items.take n
  exact List.take_eq_take_min.symm

@[simp] theorem drain_items (buf : RingBuffer α) (n : Nat) :
    (buf.drain n).2.items = buf.items.drop n := by
  show buf.items.drop (min n buf.items.length) = buf.items.drop n
  exact List.drop_eq_drop_min.symm

@[simp] theorem drain_capacity (buf : RingBuffer α) (n : Nat) :
    (buf.drain n).2.capacity = buf.capacity := rfl

@[simp] theorem drain_dropped (buf : RingBuffer α) (n : Nat) :
    (buf.drain n).2.dropped = buf.dropped := rfl

/-! ### Queueing again -/

end RingBuffer

/-- The loop ends exactly if what waits fits into the buffer at all. -/
theorem makeRoom_spec {α : Type} (capacity waiting fuel : Nat) (items : List α) (dropped : Nat) :
    (makeRoom capacity waiting fuel items dropped).map Subtype.val =
      if waiting ≤ capacity ∧ items.length + waiting - capacity < fuel then
        some (items.drop (items.length + waiting - capacity),
          dropped + (items.length + waiting - capacity))
      else none := by
  induction fuel generalizing items dropped with
  | zero => simp [makeRoom]
  | succ fuel ih =>
      unfold makeRoom
      by_cases full : capacity < items.length + waiting
      · rw [dif_pos full, ih]
        cases items with
        | nil =>
            rw [List.length_nil] at full
            rw [if_neg (by omega), if_neg (by omega)]
        | cons oldest rest =>
            rw [List.tail_cons]
            have excess : (oldest :: rest).length + waiting - capacity =
                rest.length + waiting - capacity + 1 ∨ rest.length + waiting < capacity := by
              simp only [List.length_cons] at full ⊢
              omega
            rcases excess with one | less
            · rw [one, List.drop_succ_cons]
              by_cases fits : waiting ≤ capacity ∧ rest.length + waiting - capacity < fuel
              · rw [if_pos fits, if_pos (by omega)]
                congr 2
                omega
              · rw [if_neg fits, if_neg (by omega)]
            · simp only [List.length_cons] at full
              omega
      · rw [dif_neg full]
        have none_ : items.length + waiting - capacity = 0 := by omega
        rw [none_, if_pos (by omega)]
        rfl

namespace RingBuffer

variable {α : Type}

/-- `requeue_front` comes to an end exactly if the batch fits into an empty buffer. Then it puts the
batch in front, drops the oldest of the events that were there to make room, and counts them. -/
theorem requeueFront_iff (buf next : RingBuffer α) (batch : List α) :
    (∃ fuel, buf.requeueFront fuel batch = some next) ↔
      batch.length ≤ buf.capacity ∧ next.capacity = buf.capacity ∧
        next.items = batch ++ buf.items.drop (buf.items.length + batch.length - buf.capacity) ∧
        next.dropped = buf.dropped + (buf.items.length + batch.length - buf.capacity) := by
  cases batch with
  | nil =>
      have none_ : buf.items.length + ([] : List α).length - buf.capacity = 0 := by
        have room := buf.room
        simp only [List.length_nil]
        omega
      rw [none_]
      constructor
      · rintro ⟨fuel, same⟩
        rw [← Option.some.inj same]
        exact ⟨Nat.zero_le _, rfl, rfl, rfl⟩
      · rintro ⟨_, capacity, items, dropped⟩
        refine ⟨0, congrArg some (ext capacity.symm ?_ dropped.symm)⟩
        rw [items]
        rfl
  | cons first others =>
      simp only [requeueFront, List.isEmpty_cons, Bool.false_eq_true, if_false,
        Option.map_eq_some_iff]
      constructor
      · rintro ⟨fuel, left, ends, same⟩
        have spec := makeRoom_spec buf.capacity (first :: others).length fuel buf.items buf.dropped
        rw [ends, Option.map_some] at spec
        split at spec
        · rename_i fits
          have value := Option.some.inj spec
          subst same
          simp only [value]
          exact ⟨fits.1, trivial, trivial, trivial⟩
        · cases spec
      · rintro ⟨fits, capacity, items, dropped⟩
        have spec := makeRoom_spec buf.capacity (first :: others).length
          (buf.items.length + (first :: others).length - buf.capacity + 1) buf.items buf.dropped
        rw [if_pos ⟨fits, Nat.lt_succ_self _⟩, Option.map_eq_some_iff] at spec
        obtain ⟨left, ends, value⟩ := spec
        refine ⟨_, left, ends, ext capacity.symm ?_ ?_⟩
        · show first :: others ++ left.1.1 = next.items
          rw [items, value]
        · show left.1.2 = next.dropped
          rw [dropped, value]

/-- A batch that was just drained goes back to where it was, and the loop ends at its first test. -/
theorem requeueFront_drain (buf : RingBuffer α) (n fuel : Nat) :
    (buf.drain n).2.requeueFront (fuel + 1) (buf.drain n).1 = some buf := by
  unfold requeueFront
  by_cases empty : (buf.drain n).1.isEmpty = true
  · rw [if_pos empty]
    apply congrArg some
    refine ext (drain_capacity buf n) ?_ (drain_dropped buf n)
    rw [List.isEmpty_iff, drain_fst] at empty
    have whole := List.take_append_drop n buf.items
    rw [empty, List.nil_append] at whole
    rw [drain_items, whole]
  · have room := buf.room
    have fits :
        ¬ (buf.drain n).2.capacity < (buf.drain n).2.items.length + (buf.drain n).1.length := by
      rw [drain_capacity, drain_items, drain_fst, List.length_drop, List.length_take]
      omega
    rw [if_neg empty, makeRoom, dif_neg fits, Option.map_some]
    apply congrArg some
    refine ext (drain_capacity buf n) ?_ (drain_dropped buf n)
    show (buf.drain n).1 ++ (buf.drain n).2.items = buf.items
    rw [drain_fst, drain_items, List.take_append_drop]

end RingBuffer

end EraOne.Agent
