import EraOne.KeyedList
import EraOne.Strings

set_option autoImplicit false

/- The boards of the projects application (`era-projects-core`). -/
namespace EraOne.Projects

open KeyedList

def FORMAT : Str := "eraj".toList

structure ProjectTask where
  id : Str
  title : Str := []
  board : Str := "backlog".toList
  sortKey : Int := 0
  deriving DecidableEq

structure ErajBoard where
  format : Str := FORMAT
  id : Str := []
  name : Str := "Untitled.eraj".toList
  tasks : List ProjectTask := []
  version : Option Nat := some 0
  deriving DecidableEq

inductive BoardError where
  | unexpectedFormat (format : Str)
  | taskIdRequired
  | duplicateTaskId (id : Str)
  deriving DecidableEq

/-- The loop over the tasks, with the ids it has seen. -/
def checkTasks (seen : List Str) : List ProjectTask → Except BoardError Unit
  | [] => .ok ()
  | t :: rest =>
      if t.id = [] then .error .taskIdRequired
      else if t.id ∈ seen then .error (.duplicateTaskId t.id)
      else checkTasks (t.id :: seen) rest

def ErajBoard.validate (b : ErajBoard) : Except BoardError Unit :=
  if b.format ≠ FORMAT ∧ b.format ≠ [] then .error (.unexpectedFormat b.format)
    else checkTasks [] b.tasks

/-- What becomes of a board that is read: a missing format is filled in. -/
def ErajBoard.load (b : ErajBoard) : Except BoardError ErajBoard :=
  let board := if b.format = [] then { b with format := FORMAT } else b
  board.validate.map fun _ => board

def ErajBoard.upsertTask (b : ErajBoard) (task : ProjectTask) : ErajBoard :=
  { b with tasks := upsert ProjectTask.id task b.tasks }

def ErajBoard.removeTask (b : ErajBoard) (id : Str) : Bool × ErajBoard :=
  let left := b.tasks.filter fun t => t.id ≠ id
  (left.length ≠ b.tasks.length, { b with tasks := left })

/-! ### Boards that can be saved -/

/-- The tasks after a failing one do not matter. -/
theorem checkTasks_iff (seen : List Str) (tasks : List ProjectTask) :
    checkTasks seen tasks = .ok () ↔
      (∀ t ∈ tasks, t.id ≠ []) ∧ (tasks.map ProjectTask.id).Nodup ∧ ∀ t ∈ tasks, t.id ∉ seen := by
  induction tasks generalizing seen with
  | nil => simp [checkTasks]
  | cons t rest ih =>
      rw [checkTasks]
      by_cases empty : t.id = []
      · simp [empty]
      · by_cases twice : t.id ∈ seen
        · simp [empty, twice]
        · rw [if_neg empty, if_neg twice, ih]
          rw [List.forall_mem_cons, List.forall_mem_cons, List.map_cons, List.nodup_cons,
            List.mem_map]
          simp only [List.mem_cons, not_or, not_exists, not_and]
          constructor
          · rintro ⟨named, distinct, fresh⟩
            exact ⟨⟨empty, named⟩, ⟨fun t' member => (fresh t' member).1, distinct⟩, twice,
              fun t' member => (fresh t' member).2⟩
          · rintro ⟨⟨-, named⟩, ⟨apart, distinct⟩, -, fresh⟩
            exact ⟨named, distinct, fun t' member => ⟨apart t' member, fresh t' member⟩⟩

theorem validate_iff (b : ErajBoard) :
    b.validate = .ok () ↔ (b.format = FORMAT ∨ b.format = []) ∧
      (∀ t ∈ b.tasks, t.id ≠ []) ∧ (b.tasks.map ProjectTask.id).Nodup := by
  unfold ErajBoard.validate
  by_cases known : b.format = FORMAT ∨ b.format = []
  · rw [if_neg (by tauto), checkTasks_iff, and_iff_right known]
    simp
  · rw [if_pos (by tauto)]
    exact iff_of_false (by simp) fun all => known all.1

theorem validate_of_load (raw b : ErajBoard) (read : raw.load = .ok b) : b.validate = .ok () := by
  unfold ErajBoard.load at read
  dsimp only at read
  generalize (if raw.format = [] then { raw with format := FORMAT } else raw) = board at read
  cases valid : board.validate with
  | error err =>
      rw [valid] at read
      cases read
  | ok u =>
      rw [valid] at read
      rw [← Except.ok.inj read, valid]

/-! ### Edits -/

inductive Edit where
  | upsert (task : ProjectTask)
  | remove (id : Str)

def Edit.apply (b : ErajBoard) : Edit → ErajBoard
  | .upsert task => b.upsertTask task
  | .remove id => (b.removeTask id).2

/-- What an edit makes of the tasks by their ids. -/
def Edit.applyTable (table : Str → Option ProjectTask) : Edit → Str → Option ProjectTask
  | .upsert task => Function.update table task.id (some task)
  | .remove id => Function.update table id none

def Edit.write : Edit → Write ProjectTask Str
  | .upsert task => .put task
  | .remove id => .drop id

theorem distinct_tasks (tasks : List ProjectTask) :
    Distinct ProjectTask.id (fun _ => True) tasks ↔ (tasks.map ProjectTask.id).Nodup := by
  unfold Distinct
  rw [List.nodup_iff_pairwise_ne, List.pairwise_map]
  simp

theorem apply_tasks (b : ErajBoard) (e : Edit)
    (distinct : Distinct ProjectTask.id (fun _ => True) b.tasks) :
    (e.apply b).tasks = write ProjectTask.id (fun _ => True) b.tasks e.write := by
  cases e with
  | upsert task => rfl
  | remove id => exact (remove_eq_filter (fun _ => True) id b.tasks trivial distinct).symm

theorem apply_format (b : ErajBoard) (e : Edit) : (e.apply b).format = b.format := by
  cases e <;> rfl

theorem applyTable_eq_writeTable (table : Str → Option ProjectTask) (e : Edit) :
    e.applyTable table = writeTable ProjectTask.id table e.write := by
  cases e <;> rfl

theorem loads_write (e : Edit) : e.write.Loads ProjectTask.id (fun _ => True) := by
  cases e <;> trivial

theorem foldl_apply (edits : List Edit) (b : ErajBoard)
    (distinct : Distinct ProjectTask.id (fun _ => True) b.tasks) :
    (edits.foldl Edit.apply b).tasks = (edits.map Edit.write).foldl
    (write ProjectTask.id fun _ => True) b.tasks ∧
      (edits.foldl Edit.apply b).format = b.format := by
  induction edits generalizing b with
  | nil => exact ⟨rfl, rfl⟩
  | cons e rest ih =>
      have tasks := apply_tasks b e distinct
      have next : Distinct ProjectTask.id (fun _ => True) (e.apply b).tasks := by
        rw [tasks]
        exact distinct_write e.write b.tasks (loads_write e) distinct
      obtain ⟨last, format⟩ := ih (e.apply b) next
      rw [List.foldl_cons, List.map_cons, List.foldl_cons, ← tasks]
      exact ⟨last, format.trans (apply_format b e)⟩

/-- After any edits of a board that was read: the tasks are the ones that were put last under their
ids and not removed since, and the board can be saved unless one of them has no id. -/
theorem edits_spec (raw b : ErajBoard) (edits : List Edit) (read : raw.load = .ok b) :
    (∀ t, t ∈ (edits.foldl Edit.apply b).tasks ↔
        edits.foldl Edit.applyTable (fun id => b.tasks.find? fun t => t.id = id) t.id = some t) ∧
      ((edits.foldl Edit.apply b).validate = .ok () ↔
        edits.foldl Edit.applyTable (fun id => b.tasks.find? fun t => t.id = id) [] = none) := by
  obtain ⟨format, named, distinct⟩ := (validate_iff b).mp (validate_of_load raw b read)
  rw [← distinct_tasks] at distinct
  obtain ⟨tasks, sameFormat⟩ := foldl_apply edits b distinct
  have loads : ∀ w ∈ edits.map Edit.write, w.Loads ProjectTask.id fun _ => True := by
    intro w member
    obtain ⟨e, -, rfl⟩ := List.mem_map.mp member
    exact loads_write e
  have run := lookup_run (edits.map Edit.write) b.tasks
    (fun id => b.tasks.find? fun t => t.id = id) loads distinct
    fun _ _ => rfl
  rw [← tasks, List.foldl_map] at run
  simp only [← applyTable_eq_writeTable] at run
  obtain ⟨still, lookups⟩ := run
  constructor
  · intro t
    rw [← lookups t.id trivial, lookup_eq_some_iff _ t _ trivial still]
  · rw [validate_iff, sameFormat, and_iff_right format, and_iff_left ((distinct_tasks _).mp still),
      ← lookups [] trivial, ← Option.not_isSome_iff_eq_none, lookup_isSome_iff]
    push Not
    rfl

/-- A task without an id is in the way until it is removed. -/
theorem unnamed_unsaved :
    ([.upsert { id := [] }, .upsert { id := ['t'] }].foldl Edit.apply ({} : ErajBoard)).validate ≠
    .ok () := by
  intro saved
  have none_ := (edits_spec {} {} [.upsert { id := [] }, .upsert { id := ['t'] }] rfl).2.mp saved
  simp [Edit.applyTable] at none_

end EraOne.Projects
