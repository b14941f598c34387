import EraOne.TablesOverflow
import EraOne.Runs

set_option autoImplicit false

/- The debounced flush of a session sheet to Drive, in `server.rs` of the tables engine. Connections
apply ops; each applied op spawns a task that takes a generation, sleeps, reads the sheet if its
generation is still the last one, and puts it. The lock is held for one event at a time. -/
namespace EraOne.Tables

open Runs

inductive FlushPhase where
  /-- The op is applied; the task has not taken its generation. -/
  | spawned
  | sleeping (gen : UInt64)
  /-- The put is in flight. -/
  | putting (put : Nat)
  | done
  deriving DecidableEq

/-- A task of `schedule_drive_flush`. -/
structure FlushTask where
  tenantId : Str
  userId : Str
  phase : FlushPhase
  deriving DecidableEq

/-- The arguments of a `storage.put`; its JSON is that of the sheet. -/
structure DrivePut where
  tenantId : Str
  userId : Str
  name : Str
  sheet : EratSheet
  completed : Bool := false
  deriving DecidableEq

/-- One sheet of the session store, its flush tasks, the puts in the order in which they read the
sheet, and what the storage has. -/
structure FlushState where
  sheet : EratSheet
  flushGen : Option UInt64 := none
  tasks : List FlushTask := []
  puts : List DrivePut := []
  stored : Option EratSheet := none
  deriving DecidableEq

inductive FlushEvent where
  | op (op : SheetOp) (tenantId userId : Str)
  | start (task : Nat)
  | wake (task : Nat)
  | putDone (task : Nat)
  deriving DecidableEq

def FlushState.setPhase (s : FlushState) (i : Nat) (phase : FlushPhase) : FlushState :=
  { s with tasks := s.tasks.modify i fun task => { task with phase := phase } }

def putName (id : Str) (sheet : EratSheet) : Str :=
  if sheet.name.isEmpty then id ++ ".erat".toList else sheet.name

def FlushState.send (s : FlushState) (put : DrivePut) : FlushState :=
  { s with puts := s.puts ++ [put] }

/-- The storage has what the put that completes last brings. -/
def FlushState.complete (s : FlushState) (i : Nat) : FlushState :=
  { s with
    puts := s.puts.modify i fun put => { put with completed := true }
    stored := (s.puts[i]?.map (·.sheet)).or s.stored }

section Events

variable (rt : Runtime) (id : Str)

/-- An event that cannot happen leaves the state as it is: a blocked op, or a task in another
phase. An op whose recalculation panics has edited the sheet in place, and no task is spawned. -/
def flushStep (s : FlushState) : FlushEvent → FlushState
  | .op op tenantId userId =>
      if blockedByProtect rt s.sheet op then s
      else
        match applyOp rt s.sheet op with
        | none => { s with sheet := served rt s.sheet op }
        | some sheet =>
            { s with sheet := sheet, tasks := s.tasks ++ [⟨tenantId, userId, .spawned⟩] }
  | .start i =>
      match s.tasks[i]? with
      | some ⟨_, _, .spawned⟩ =>
          let gen := saturatingSucc (s.flushGen.getD 0)
          { s with flushGen := some gen }.setPhase i (.sleeping gen)
      | _ => s
  | .wake i =>
      match s.tasks[i]? with
      | some ⟨tenantId, userId, .sleeping gen⟩ =>
          if s.flushGen ≠ some gen then s.setPhase i .done
          else
            (s.send ⟨tenantId, userId, putName id s.sheet, s.sheet, false⟩).setPhase i
              (.putting s.puts.length)
      | _ => s
  | .putDone i =>
      match s.tasks[i]? with
      | some ⟨_, _, .putting put⟩ => (s.complete put).setPhase i .done
      | _ => s

/-- A put completes before those that read the sheet after it, and no op panics. -/
def InOrder (s : FlushState) : FlushEvent → Prop
  | .op op _ _ => blockedByProtect rt s.sheet op = true ∨ (applyOp rt s.sheet op).isSome = true
  | .putDone i =>
      match s.tasks[i]? with
      | some ⟨_, _, .putting put⟩ => ∀ later ∈ s.puts.drop (put + 1), later.completed = false
      | _ => True
  | _ => True

instance (s : FlushState) (event : FlushEvent) : Decidable (InOrder rt s event) := by
  unfold InOrder
  split
  · infer_instance
  · split <;> infer_instance
  · infer_instance

end Events

/-- When an op was applied and no task is pending, the storage has the session's sheet. -/
def FlushSettled (s : FlushState) : Prop :=
  s.tasks ≠ [] → (∀ task ∈ s.tasks, task.phase = .done) → s.stored = some s.sheet

/-- The task that will flush the last op: one that has no generation yet, one with the last
generation, or one that has read the sheet as it is. -/
def FlushCovered (s : FlushState) : Prop :=
  s.tasks = [] ∨ (∃ task ∈ s.tasks, task.phase = .spawned) ∨
    (∃ task ∈ s.tasks, ∃ gen, task.phase = .sleeping gen ∧ s.flushGen = some gen) ∨
    s.puts.getLast?.map (·.sheet) = some s.sheet

/-- Puts that have not completed belong to a task, and the last one that has is stored. -/
structure PutsTracked (s : FlushState) : Prop where
  flying : ∀ i put, s.puts[i]? = some put → put.completed = false →
    ∃ task ∈ s.tasks, task.phase = .putting i
  stored : ∀ i put, s.puts[i]? = some put → put.completed = true →
    (∀ later ∈ s.puts.drop (i + 1), later.completed = false) → s.stored = some put.sheet

theorem settled_of_tracked (s : FlushState) (covered : FlushCovered s) (tracked : PutsTracked s) :
    FlushSettled s := by
  intro some_ finished
  rcases covered with none_ | ⟨task, member, spawned⟩ | ⟨task, member, gen, sleeping, -⟩ | last
  · exact absurd none_ some_
  · rw [finished task member] at spawned
    cases spawned
  · rw [finished task member] at sleeping
    cases sleeping
  · obtain ⟨put, lastPut, same⟩ := Option.map_eq_some_iff.mp last
    rw [List.getLast?_eq_getElem?] at lastPut
    have completed : put.completed = true := by
      by_contra flying
      obtain ⟨task, member, putting⟩ := tracked.flying _ put lastPut (by simpa using flying)
      rw [finished task member] at putting
      cases putting
    rw [← same]
    refine tracked.stored _ put lastPut completed ?_
    intro later behind
    have bound := (List.getElem?_eq_some_iff.mp lastPut).1
    rw [List.drop_of_length_le (by omega)] at behind
    cases behind

section Steps

variable {s : FlushState}

/-- A task in another phase is not the one that moves. -/
theorem mem_setPhase (i : Nat) (phase : FlushPhase) (task moved : FlushTask)
    (member : task ∈ s.tasks) (here : s.tasks[i]? = some moved)
    (apart : task.phase ≠ moved.phase) : task ∈ (s.setPhase i phase).tasks := by
  obtain ⟨k, there⟩ := List.mem_iff_getElem?.mp member
  have ne : i ≠ k := by
    rintro rfl
    rw [here, Option.some.injEq] at there
    exact apart (congrArg FlushTask.phase there.symm)
  refine List.mem_iff_getElem?.mpr ⟨k, ?_⟩
  unfold FlushState.setPhase
  dsimp only
  rw [List.getElem?_modify_ne _ _ ne, there]

theorem moved_mem_setPhase (i : Nat) (phase : FlushPhase) (moved : FlushTask)
    (here : s.tasks[i]? = some moved) :
    { moved with phase := phase } ∈ (s.setPhase i phase).tasks := by
  refine List.mem_iff_getElem?.mpr ⟨i, ?_⟩
  unfold FlushState.setPhase
  dsimp only
  rw [List.getElem?_modify_eq, here]
  rfl

/-- A task that moves on keeps the cover if it was not the one with the last generation. -/
theorem covered_move (covered : FlushCovered s) (i : Nat) (phase : FlushPhase) (moved : FlushTask)
    (here : s.tasks[i]? = some moved) (spawned : moved.phase ≠ .spawned)
    (old : ∀ gen, s.flushGen = some gen → moved.phase ≠ .sleeping gen) :
    FlushCovered (s.setPhase i phase) := by
  rcases covered with none_ | ⟨task, member, waits⟩ | ⟨task, member, gen, sleeping, last⟩ | put
  · rw [none_] at here
    cases here
  · refine Or.inr (Or.inl ⟨task, mem_setPhase i phase task moved member here ?_, waits⟩)
    rw [waits]
    exact Ne.symm spawned
  · refine Or.inr (Or.inr (Or.inl
      ⟨task, mem_setPhase i phase task moved member here ?_, gen, sleeping, last⟩))
    rw [sleeping]
    exact Ne.symm (old gen last)
  · exact Or.inr (Or.inr (Or.inr put))

theorem tracked_move (tracked : PutsTracked s) (i : Nat) (phase : FlushPhase) (moved : FlushTask)
    (here : s.tasks[i]? = some moved) (idle : ∀ put, moved.phase ≠ .putting put) :
    PutsTracked (s.setPhase i phase) := by
  refine ⟨?_, tracked.stored⟩
  intro k put found flying
  obtain ⟨task, member, putting⟩ := tracked.flying k put found flying
  refine ⟨task, mem_setPhase i phase task moved member here ?_, putting⟩
  rw [putting]
  exact Ne.symm (idle k)

theorem tracked_send (tracked : PutsTracked s) (i gen : _) (put : DrivePut)
    (new : put.completed = false) (moved : FlushTask) (here : s.tasks[i]? = some moved)
    (sleeping : moved.phase = .sleeping gen) :
    PutsTracked ((s.send put).setPhase i (.putting s.puts.length)) := by
  constructor
  · intro k other found flying
    change (s.puts ++ [put])[k]? = some other at found
    rw [List.getElem?_append] at found
    split at found
    · obtain ⟨task, member, putting⟩ := tracked.flying k other found flying
      refine ⟨task, mem_setPhase i _ task moved member here ?_, putting⟩
      rw [putting, sleeping]
      exact fun same => by cases same
    · rename_i past
      have last : k = s.puts.length := by
        have bound := (List.getElem?_eq_some_iff.mp found).1
        rw [List.length_singleton] at bound
        omega
      subst last
      exact ⟨_, moved_mem_setPhase i _ moved here, rfl⟩
  · intro k other found completed later
    change (s.puts ++ [put])[k]? = some other at found
    change ∀ later ∈ (s.puts ++ [put]).drop (k + 1), later.completed = false at later
    rw [List.getElem?_append] at found
    split at found
    · rename_i inside
      refine tracked.stored k other found completed ?_
      intro behind member
      refine later behind ?_
      rw [List.drop_append_of_le_length (by omega)]
      exact List.mem_append_left _ member
    · have same := List.mem_of_getElem? found
      rw [List.mem_singleton] at same
      rw [same, new] at completed
      cases completed

theorem tracked_complete (tracked : PutsTracked s) (i k : Nat) (moved : FlushTask)
    (here : s.tasks[i]? = some moved) (putting : moved.phase = .putting k)
    (ordered : ∀ later ∈ s.puts.drop (k + 1), later.completed = false) :
    PutsTracked ((s.complete k).setPhase i .done) := by
  have puts (j : Nat) (put : DrivePut)
      (found : ((s.complete k).setPhase i .done).puts[j]? = some put) :
      ∃ before, s.puts[j]? = some before ∧ put.sheet = before.sheet ∧
        (j = k ∧ put.completed = true ∨ j ≠ k ∧ put = before) := by
    change (s.puts.modify k _)[j]? = some put at found
    rw [List.getElem?_modify] at found
    obtain ⟨before, there, rfl⟩ := Option.map_eq_some_iff.mp found
    refine ⟨before, there, ?_⟩
    by_cases same : k = j
    · rw [if_pos same]
      exact ⟨rfl, Or.inl ⟨same.symm, rfl⟩⟩
    · rw [if_neg same]
      exact ⟨rfl, Or.inr ⟨Ne.symm same, rfl⟩⟩
  constructor
  · intro j put found flying
    obtain ⟨before, there, -, ⟨-, completed⟩ | ⟨apart, rfl⟩⟩ := puts j put found
    · rw [completed] at flying
      cases flying
    · obtain ⟨task, member, flies⟩ := tracked.flying j put there flying
      refine ⟨task, mem_setPhase i _ task moved member here ?_, flies⟩
      rw [flies, putting]
      intro same
      cases same
      exact apart rfl
  · intro j put found completed later
    obtain ⟨before, there, sheet, ⟨rfl, -⟩ | ⟨apart, rfl⟩⟩ := puts j put found
    · change (s.puts[j]?.map (·.sheet)).or s.stored = _
      rw [there, sheet]
      rfl
    · by_cases known : k < s.puts.length
      · have order : k < j := by
          by_contra after
          have flying := later { s.puts[k] with completed := true }
            (List.mem_iff_getElem?.mpr ⟨k - (j + 1), by
              change ((s.puts.modify k _).drop (j + 1))[k - (j + 1)]? = _
              rw [List.getElem?_drop, show j + 1 + (k - (j + 1)) = k by omega,
                List.getElem?_modify_eq, List.getElem?_eq_getElem known]
              rfl⟩)
          cases flying
        -- A put that reads the sheet later has completed, against the order.
        have stale := ordered put (List.mem_iff_getElem?.mpr ⟨j - (k + 1), by
          rw [List.getElem?_drop, show k + 1 + (j - (k + 1)) = j by omega, there]⟩)
        rw [completed] at stale
        cases stale
      · have idle : s.complete k = s := by
          unfold FlushState.complete
          rw [List.modify_eq_self (by omega), List.getElem?_eq_none (by omega)]
          rfl
        rw [idle] at later ⊢
        exact tracked.stored j put there completed later

theorem sheets_complete (k : Nat) :
    (s.complete k).puts.map (·.sheet) = s.puts.map (·.sheet) := by
  unfold FlushState.complete
  dsimp only
  refine List.ext_getElem? ?_
  intro j
  rw [List.getElem?_map, List.getElem?_map, List.getElem?_modify]
  cases s.puts[j]? with
  | none => rfl
  | some put =>
      by_cases same : k = j
      · simp [same]
      · simp [same]

theorem flush_step (rt : Runtime) (id : Str) (event : FlushEvent)
    (invariant : FlushCovered s ∧ PutsTracked s) (ordered : InOrder rt s event) :
    FlushCovered (flushStep rt id s event) ∧ PutsTracked (flushStep rt id s event) := by
  obtain ⟨covered, tracked⟩ := invariant
  cases event with
  | op op tenantId userId =>
      unfold flushStep
      dsimp only
      split
      · exact ⟨covered, tracked⟩
      · rename_i free
        split
        · rename_i panics
          rw [InOrder, panics] at ordered
          simp [free] at ordered
        · refine ⟨Or.inr (Or.inl ⟨_, List.mem_append_right _ (List.mem_singleton_self _), rfl⟩),
            ?_, tracked.stored⟩
          intro k put found flying
          obtain ⟨task, member, putting⟩ := tracked.flying k put found flying
          exact ⟨task, List.mem_append_left _ member, putting⟩
  | start i =>
      unfold flushStep
      dsimp only
      split
      · rename_i tenantId userId here
        refine ⟨Or.inr (Or.inr (Or.inl ⟨_, moved_mem_setPhase i _ _ here, _, rfl, rfl⟩)), ?_⟩
        have taken : PutsTracked { s with flushGen := some (saturatingSucc (s.flushGen.getD 0)) } :=
          ⟨tracked.flying, tracked.stored⟩
        exact tracked_move taken i _ _ here (by simp)
      · exact ⟨covered, tracked⟩
  | wake i =>
      unfold flushStep
      dsimp only
      split
      · rename_i tenantId userId gen here
        split
        · rename_i old
          refine ⟨covered_move covered i _ _ here (by simp) ?_,
            tracked_move tracked i _ _ here (by simp)⟩
          intro last is_ same
          cases same
          exact old is_
        · refine ⟨Or.inr (Or.inr (Or.inr ?_)), tracked_send tracked i gen _ rfl _ here rfl⟩
          change (s.puts ++ [_]).getLast?.map _ = some s.sheet
          rw [List.getLast?_append, List.getLast?_singleton]
          rfl
      · exact ⟨covered, tracked⟩
  | putDone i =>
      unfold InOrder at ordered
      unfold flushStep
      dsimp only at ordered ⊢
      split
      · rename_i tenantId userId put here
        rw [here] at ordered
        refine ⟨?_, tracked_complete tracked i put _ here rfl ordered⟩
        refine covered_move ?_ i .done _ here (by simp) (by simp)
        rcases covered with none_ | waits | sleeps | last
        · exact Or.inl none_
        · exact Or.inr (Or.inl waits)
        · exact Or.inr (Or.inr (Or.inl sleeps))
        · refine Or.inr (Or.inr (Or.inr ?_))
          rw [← List.getLast?_map, sheets_complete, List.getLast?_map]
          exact last
      · exact ⟨covered, tracked⟩

end Steps

variable (rt : Runtime) (id : Str)

/-- When puts complete in the order in which they read the sheet, and no op panics, every state of
every interleaving settles to the sheet of the last applied op. -/
theorem drive_flush_settles (sheet : EratSheet) (events : List FlushEvent)
    (ordered : Guarded (flushStep rt id) (InOrder rt) { sheet := sheet } events) :
    Always (flushStep rt id) FlushSettled { sheet := sheet } events := by
  have always :=
    always_of_guarded (flushStep rt id) (fun s => FlushCovered s ∧ PutsTracked s) (InOrder rt)
      (fun _ event invariant allowed => flush_step rt id event invariant allowed)
      { sheet := sheet } events ⟨Or.inl rfl, ⟨by simp, by simp⟩⟩ ordered
  intro front within
  obtain ⟨covered, tracked⟩ := always front within
  exact settled_of_tracked _ covered tracked

/-- Two ops whose puts are both in flight. -/
def twoFlushes : List FlushEvent :=
  [.op (.freezePanes 1 0) "t1".toList "ann".toList, .start 0, .wake 0,
    .op (.freezePanes 2 0) "t1".toList "bob".toList, .start 1, .wake 1]

theorem drive_flush_settles_two :
    Always (flushStep Runtime.plain "s1".toList) FlushSettled { sheet := EratSheet.empty }
      (twoFlushes ++ [.putDone 0, .putDone 1]) := by
  apply drive_flush_settles
  unfold twoFlushes
  simp only [List.cons_append, List.nil_append, guarded_cons]
  exact ⟨by decide, by decide, by decide, by decide, by decide, by decide, by decide, by decide,
    guarded_nil _ _ _⟩

/-- The first put completes after the second and takes the storage back to the first op. -/
theorem drive_flush_goes_back :
    ¬ ∀ (rt : Runtime) (id : Str) (sheet : EratSheet) (events : List FlushEvent),
      Always (flushStep rt id) FlushSettled { sheet := sheet } events := by
  intro all
  have last := (all Runtime.plain "s1".toList EratSheet.empty
    (twoFlushes ++ [.putDone 1, .putDone 0])).last
  have stored := last (by decide) (by decide)
  revert stored
  decide

end EraOne.Tables
