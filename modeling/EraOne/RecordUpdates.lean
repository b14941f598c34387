import EraOne.GoTime
import EraOne.Maps
import EraOne.Processes
import EraOne.Strings
import EraOne.Visits

set_option autoImplicit false

/- Updates of one record in the SQLite stores of the service desk and of the control plane
(`internal/store/sqlite.go`), and the sweep over overdue incidents (`internal/sla/engine.go`). Each
update reads the row in one statement, runs a callback on it and writes it back in another. -/
namespace EraOne.Desk

open GoTime Processes Runs Visits

/-! ### Records -/

structure Incident where
  id : Str
  tenantID : Str
  title : Str
  description : Str
  status : Str
  priority : Str
  nodeID : Str
  requester : Str
  assignee : Str
  slaDueAt : Option Time
  slaBreached : Bool
  createdAt : Time
  updatedAt : Time
  deriving DecidableEq

structure ServiceRequest where
  id : Str
  tenantID : Str
  title : Str
  category : Str
  status : Str
  nodeID : Str
  requester : Str
  assignee : Str
  slaStatus : Str
  createdAt : Time
  updatedAt : Time
  deriving DecidableEq

structure Problem where
  id : Str
  tenantID : Str
  title : Str
  status : Str
  nodeID : Str
  assignee : Str
  slaStatus : Str
  createdAt : Time
  updatedAt : Time
  deriving DecidableEq

/-- A case of the control plane. -/
structure Case where
  id : Str
  title : Str
  status : Str
  tenantID : Str
  assignee : Str
  detectionID : Str
  nodeID : Str
  createdAt : Time
  updatedAt : Time
  deriving DecidableEq

/-- How a kind of record is updated: `stamp` sets its time of update, and `save` is the `UPDATE`
statement, which takes its columns from the new record and leaves the others of the row. -/
structure Kind (R : Type) where
  stamp : Time → R → R
  save : R → R → R

def incidents : Kind Incident where
  stamp now i := { i with updatedAt := now }
  save row i :=
    { row with
      title := i.title, description := i.description, status := i.status, priority := i.priority
      nodeID := i.nodeID, requester := i.requester, assignee := i.assignee, slaDueAt := i.slaDueAt
      slaBreached := i.slaBreached, updatedAt := i.updatedAt }

def requests : Kind ServiceRequest where
  stamp now r := { r with updatedAt := now }
  save row r :=
    { row with
      title := r.title, category := r.category, status := r.status, nodeID := r.nodeID
      requester := r.requester, assignee := r.assignee, slaStatus := r.slaStatus
      updatedAt := r.updatedAt }

def problems : Kind Problem where
  stamp now p := { p with updatedAt := now }
  save row p :=
    { row with
      title := p.title, status := p.status, nodeID := p.nodeID, assignee := p.assignee
      slaStatus := p.slaStatus, updatedAt := p.updatedAt }

def cases : Kind Case where
  stamp now c := { c with updatedAt := now }
  save row c :=
    { row with
      title := c.title, status := c.status, assignee := c.assignee, detectionID := c.detectionID
      nodeID := c.nodeID, updatedAt := c.updatedAt }

/-! ### Calls and their statements -/

section Store

variable {R : Type}

/-- A call of an `Update…` function: the record, the callback, and what the clock reads after it. -/
structure Update (R : Type) where
  id : Str
  fn : R → R
  now : Time

/-- What a call makes of a record. -/
def Update.apply (kind : Kind R) (u : Update R) (row : R) : R := kind.stamp u.now (u.fn row)

/-- An update, or a sweep that lists all rows and updates some of them. -/
inductive Call (R : Type) where
  | update (u : Update R)
  | sweep (choose : List R → List (Update R))

inductive Statement (R : Type) where
  | list (choose : List R → List (Update R))
  | select (u : Update R)
  | update (u : Update R) (new : R)

/-- A call under way: the statements it has still to issue, and what its updates returned. -/
structure Worker (R : Type) where
  pending : List (Statement R)
  returned : List (Str × Bool) := []

/-- The rows of a table, with those of the start and the updates written since. -/
structure Table (R : Type) where
  rows : StrMap R
  first : StrMap R
  written : List (Update R) := []

def Table.start (rows : StrMap R) : Table R where
  rows := rows
  first := rows

def Call.worker : Call R → Worker R
  | .update u => { pending := [.select u] }
  | .sweep choose => { pending := [.list choose] }

def amend (rows : StrMap R) (id : Str) (f : R → R) : StrMap R :=
  match rows[id]? with
  | some row => rows.insert id (f row)
  | none => rows

/-- One statement of a call. What the database says of an `UPDATE` is not looked at. -/
def statement (kind : Kind R) (order : Order R) (t : Table R) (w : Worker R) : Table R × Worker R :=
  match w.pending with
  | [] => (t, w)
  | .list choose :: rest =>
      (t, { w with pending := (choose (order.visit t.rows.values)).map .select ++ rest })
  | .select u :: rest =>
      match t.rows[u.id]? with
      | none => (t, { w with pending := rest, returned := w.returned ++ [(u.id, false)] })
      | some row => (t, { w with pending := .update u (u.apply kind row) :: rest })
  | .update u new :: rest =>
      ({ t with
         rows := amend t.rows u.id fun row => kind.save row new, written := t.written ++ [u] },
        { w with pending := rest, returned := w.returned ++ [(u.id, true)] })

/-- Calls on one table, statement by statement. Nothing else changes the table. -/
def updates (kind : Kind R) (order : Order R) : Program (Table R) (Worker R) (Call R) Empty where
  start := Call.worker
  turn := statement kind order
  outside t _ := t

/-- Every row is what the updates written to it, one after the other, make of the first one. -/
def Intact (kind : Kind R) (s : System (Table R) (Worker R)) : Prop :=
  ∀ id : Str, s.shared.rows[id]? =
    s.shared.first[id]?.map fun row =>
      (s.shared.written.filter (·.id = id)).foldl (fun row u => u.apply kind row) row

/-- An `UPDATE` writes what its callback makes of the row as it now is. -/
def Current (kind : Kind R) (t : Table R) (w : Worker R) : Prop :=
  match w.pending with
  | .update u new :: _ => ∀ row ∈ t.rows[u.id]?, kind.save row new = u.apply kind row
  | _ => True

theorem intact_start (kind : Kind R) (rows : StrMap R) : Intact kind ⟨Table.start rows, []⟩ := by
  intro id
  change rows[id]? = rows[id]?.map fun row => row
  rw [Option.map_id']

theorem getElem?_amend (rows : StrMap R) (id other : Str) (f : R → R) :
    (amend rows id f)[other]? = if id = other then rows[other]?.map f else rows[other]? := by
  unfold amend
  split
  · rename_i row found
    rw [Std.ExtTreeMap.getElem?_insert]
    by_cases same : id = other
    · subst same
      rw [if_pos Std.compare_self, if_pos rfl, found, Option.map_some]
    · rw [if_neg (fun equal => same (Std.LawfulEqCmp.eq_of_compare equal)), if_neg same]
  · rename_i missing
    split
    · rename_i same
      rw [← same, missing, Option.map_none]
    · rfl

/-- The row that an update writes is good exactly if it is written from the current one. -/
theorem intact_update_iff (kind : Kind R) (t : Table R) (u : Update R) (new : R)
    (ws vs : List (Worker R)) (intact : Intact kind ⟨t, ws⟩) :
    Intact kind
        ⟨{ t with
           rows := amend t.rows u.id fun row => kind.save row new,
           written := t.written ++ [u] }, vs⟩ ↔
      ∀ row ∈ t.rows[u.id]?, kind.save row new = u.apply kind row := by
  unfold Intact at intact ⊢
  dsimp only at intact ⊢
  constructor
  · intro after row found
    have here := after u.id
    have before := intact u.id
    rw [getElem?_amend, if_pos rfl, found, Option.map_some] at here
    rw [Option.mem_def.mp found] at before
    obtain ⟨first, start, folded⟩ := Option.map_eq_some_iff.mp before.symm
    rw [start, Option.map_some, Option.some.injEq, List.filter_append, List.foldl_append,
      folded] at here
    simpa using here
  · intro current id
    rw [getElem?_amend]
    by_cases same : u.id = id
    · subst same
      rw [if_pos rfl, List.filter_append]
      have before := intact u.id
      cases found : t.rows[u.id]? with
      | none =>
          rw [found] at before
          rw [Option.map_none, Option.map_eq_none_iff.mp before.symm, Option.map_none]
      | some row =>
          rw [found] at before
          obtain ⟨first, start, folded⟩ := Option.map_eq_some_iff.mp before.symm
          rw [start, Option.map_some, Option.map_some, List.foldl_append, folded, current row found]
          simp
    · rw [if_neg same, intact id, List.filter_append]
      simp [same]

/-- A statement keeps the table intact exactly if what it writes is current. -/
theorem intact_step_iff (kind : Kind R) (order : Order R) (s : System (Table R) (Worker R))
    (input : Input (Call R) Empty) (intact : Intact kind s) :
    Intact kind ((updates kind order).step s input) ↔ OnTurn (Current kind) s input := by
  cases input with
  | begin call => exact iff_of_true intact trivial
  | outside change => cases change
  | turn i =>
      cases found : s.locals[i]? with
      | none =>
          rw [step_no_turn _ s i found]
          exact iff_of_true intact (onTurn_none _ s i found)
      | some w =>
          rw [step_turn _ s i w found, onTurn_iff _ s i w found]
          change Intact kind ⟨(statement kind order s.shared w).1, _⟩ ↔ _
          unfold Current statement
          cases pending : w.pending with
          | nil => exact iff_of_true intact trivial
          | cons head rest =>
              cases head with
              | list choose => exact iff_of_true intact trivial
              | select u =>
                  refine iff_of_true ?_ trivial
                  dsimp only
                  split <;> exact intact
              | update u new => exact intact_update_iff kind s.shared u new s.locals _ intact

theorem intact_iff (kind : Kind R) (order : Order R) (rows : StrMap R)
    (inputs : List (Input (Call R) Empty)) :
    Always (updates kind order).step (Intact kind) ⟨Table.start rows, []⟩ inputs ↔
      Guarded (updates kind order).step (OnTurn (Current kind)) ⟨Table.start rows, []⟩ inputs :=
  always_iff_guarded _ (Intact kind) _ (intact_step_iff kind order) _ inputs
    (intact_start kind rows)

/-! ### Rows that nobody else changes -/

/-- An `UPDATE` is issued only right after its `SELECT`. -/
def Worker.Paired (w : Worker R) : Prop := ∀ s ∈ w.pending.tail, ∀ u new, s ≠ .update u new

theorem paired_statement (kind : Kind R) (order : Order R) (t : Table R) (w : Worker R)
    (paired : w.Paired) :
    (statement kind order t w).2.Paired := by
  unfold Worker.Paired at paired ⊢
  unfold statement
  cases pending : w.pending with
  | nil =>
      dsimp only
      rw [pending]
      intro s member
      simp at member
  | cons head rest =>
      rw [pending, List.tail_cons] at paired
      cases head with
      | list choose =>
          intro s member u new
          rcases List.mem_append.mp (List.mem_of_mem_tail member) with selected | later
          · obtain ⟨v, -, rfl⟩ := List.mem_map.mp selected
            simp
          · exact paired s later u new
      | select v =>
          dsimp only
          split
          · intro s member
            exact paired s (List.mem_of_mem_tail member)
          · exact paired
      | update v new =>
          intro s member
          exact paired s (List.mem_of_mem_tail member)

theorem paired_step (kind : Kind R) (order : Order R) (s : System (Table R) (Worker R))
    (input : Input (Call R) Empty) (paired : ∀ w ∈ s.locals, w.Paired) :
    ∀ w ∈ ((updates kind order).step s input).locals, w.Paired := by
  cases input with
  | begin call =>
      change ∀ w ∈ s.locals ++ [call.worker], w.Paired
      intro w member
      rcases List.mem_append.mp member with old | new
      · exact paired w old
      · rw [List.mem_singleton.mp new]
        cases call <;> simp [Worker.Paired, Call.worker]
  | outside change => cases change
  | turn i =>
      cases found : s.locals[i]? with
      | none =>
          rw [step_no_turn _ s i found]
          exact paired
      | some w =>
          rw [step_turn _ s i w found]
          exact forall_set _ _ _ _ paired
            (paired_statement kind order s.shared w (paired w (List.mem_of_getElem? found)))

/-- A call that is about to write has just read. -/
theorem read_of_update (kind : Kind R) (order : Order R) (t : Table R) (w : Worker R) (u : Update R)
    (new : R) (paired : w.Paired)
    (next : (statement kind order t w).2.pending.head? = some (.update u new)) :
    ∃ row, t.rows[u.id]? = some row ∧ new = u.apply kind row := by
  unfold Worker.Paired at paired
  unfold statement at next
  cases pending : w.pending with
  | nil =>
      rw [pending] at next
      dsimp only at next
      rw [pending] at next
      cases next
  | cons head rest =>
      rw [pending, List.tail_cons] at paired
      rw [pending] at next
      have later (here : rest.head? = some (.update u new)) : False :=
        paired _ (List.mem_of_mem_head? here) u new rfl
      cases head with
      | list choose =>
          rcases List.mem_append.mp (List.mem_of_mem_head? next) with selected | later
          · obtain ⟨v, -, other⟩ := List.mem_map.mp selected
            cases other
          · exact absurd rfl (paired _ later u new)
      | update v old => exact (later next).elim
      | select v =>
          dsimp only at next
          split at next
          · exact (later next).elim
          · rename_i row found
            simp only [List.head?_cons, Option.some.injEq, Statement.update.injEq] at next
            rw [← next.1]
            exact ⟨row, found, next.2.symm⟩

section Reading

variable (kind : Kind R) (order : Order R) (rows : StrMap R)

/-- The table and the calls under way after some inputs. -/
def after (inputs : List (Input (Call R) Empty)) : System (Table R) (Worker R) :=
  inputs.foldl (updates kind order).step ⟨Table.start rows, []⟩

theorem after_append (inputs : List (Input (Call R) Empty)) (input : Input (Call R) Empty) :
    after kind order rows (inputs ++ [input]) =
      (updates kind order).step (after kind order rows inputs) input := by
  unfold after
  rw [List.foldl_append, List.foldl_cons, List.foldl_nil]

theorem paired_after (inputs : List (Input (Call R) Empty)) :
    ∀ w ∈ (after kind order rows inputs).locals, w.Paired := by
  induction inputs using List.reverseRecOn with
  | nil => simp [after]
  | append_singleton inputs input ih =>
      rw [after_append]
      exact paired_step kind order _ input ih

/-- A row to be written was made from what the call's last statement read. -/
def MadeFromRead (inputs : List (Input (Call R) Empty)) (i : Nat) (u : Update R) (new : R) : Prop :=
  ∃ front back row, inputs = front ++ .turn i :: back ∧ .turn i ∉ back ∧
    (after kind order rows front).shared.rows[u.id]? = some row ∧ new = u.apply kind row

theorem MadeFromRead.later {inputs : List (Input (Call R) Empty)} {i : Nat} {u : Update R} {new : R}
    (made : MadeFromRead kind order rows inputs i u new) (input : Input (Call R) Empty)
    (other : input ≠ .turn i) : MadeFromRead kind order rows (inputs ++ [input]) i u new := by
  obtain ⟨front, back, row, rfl, idle, read, made⟩ := made
  refine ⟨front, back ++ [input], row, by simp, ?_, read, made⟩
  intro member
  rcases List.mem_append.mp member with old | last
  · exact idle old
  · exact other (List.mem_singleton.mp last).symm

theorem madeFromRead (inputs : List (Input (Call R) Empty)) (i : Nat) (w : Worker R) (u : Update R)
    (new : R) (here : (after kind order rows inputs).locals[i]? = some w)
    (next : w.pending.head? = some (.update u new)) :
    MadeFromRead kind order rows inputs i u new := by
  induction inputs using List.reverseRecOn with
  | nil => simp [after] at here
  | append_singleton inputs input ih =>
      rw [after_append] at here
      cases input with
      | outside change => cases change
      | begin call =>
          change ((after kind order rows inputs).locals ++ [call.worker])[i]? = some w at here
          by_cases old : i < (after kind order rows inputs).locals.length
          · rw [List.getElem?_append_left old] at here
            exact (ih here).later kind order rows _ (by simp)
          · rw [List.getElem?_append_right (by omega)] at here
            have last := List.mem_singleton.mp (List.mem_of_getElem? here)
            rw [last] at next
            cases call <;> simp [Call.worker] at next
      | turn j =>
          cases found : (after kind order rows inputs).locals[j]? with
          | none =>
              rw [step_no_turn _ _ j found] at here
              refine (ih here).later kind order rows _ ?_
              intro same
              rw [Input.turn.inj same, here] at found
              cases found
          | some v =>
              rw [step_turn _ _ j v found] at here
              dsimp only at here
              by_cases same : j = i
              · subst same
                rw [List.getElem?_set_self (List.getElem?_eq_some_iff.mp found).1] at here
                have paired := paired_after kind order rows inputs v (List.mem_of_getElem? found)
                rw [← Option.some.inj here] at next
                obtain ⟨row, read, made⟩ := read_of_update kind order _ v u new paired next
                exact ⟨inputs, [], row, rfl, List.not_mem_nil, read, made⟩
              · rw [List.getElem?_set_ne same] at here
                exact (ih here).later kind order rows _ (fun turn => same (Input.turn.inj turn))

/-- A call whose next statement is an `UPDATE` finds its row as it read it, and its callback changes
no column that is not written. -/
def Undisturbed (inputs : List (Input (Call R) Empty)) (i : Nat) : Prop :=
  ∀ front back w u new, inputs = front ++ .turn i :: back → .turn i ∉ back →
    (after kind order rows inputs).locals[i]? = some w → w.pending.head? = some (.update u new) →
      (after kind order rows front).shared.rows[u.id]? =
        (after kind order rows inputs).shared.rows[u.id]? ∧
        ∀ row, kind.save row (u.apply kind row) = u.apply kind row

/-- No update is lost where no call finds its row changed between its `SELECT` and its `UPDATE`. -/
theorem intact_of_undisturbed (inputs : List (Input (Call R) Empty))
    (undisturbed : ∀ front i, front ++ [.turn i] <+: inputs → Undisturbed kind order rows front i) :
    Always (updates kind order).step (Intact kind) ⟨Table.start rows, []⟩ inputs := by
  rw [intact_iff]
  intro front input within
  cases input with
  | begin call => trivial
  | outside change => trivial
  | turn i =>
      intro w here
      unfold Current
      split
      · rename_i u new rest pending
        have next : w.pending.head? = some (.update u new) := by rw [pending, List.head?_cons]
        obtain ⟨before, back, row, split_, idle, read, made⟩ :=
          madeFromRead kind order rows front i w u new here next
        obtain ⟨same, narrow⟩ :=
          undisturbed front i within before back w u new split_ idle here next
        intro now current
        have equal : row = now := Option.some.inj (read.symm.trans (same.trans current))
        rw [made, equal]
        exact narrow now
      · trivial

end Reading

end Store

/-! ### The service desk and the control plane -/

def statusClosed : Str := "closed".toList

def statusResolved : Str := "resolved".toList

/-- What `CheckBreaches` makes of an overdue incident. -/
def escalate (i : Incident) : Incident :=
  { i with
    slaBreached := true
    priority :=
      if i.priority = [] ∨ i.priority = "low".toList then "high".toList
      else if i.priority = "medium".toList then "critical".toList
      else i.priority }

def overdue (now : Time) (i : Incident) : Bool :=
  match i.slaDueAt with
  | none => false
  | some due =>
      !i.slaBreached && i.status ≠ statusClosed && i.status ≠ statusResolved && now.after due

/-- `CheckBreaches`, with what the clock reads in the update of each incident. -/
def checkBreaches (now : Time) (clock : Str → Time) : Call Incident :=
  .sweep fun rows => (rows.filter (overdue now)).map fun i => ⟨i.id, escalate, clock i.id⟩

/-- The callback of a `PATCH` of an incident. -/
def patchIncident (status assignee : Str) (i : Incident) : Incident :=
  { i with
    status := if status ≠ [] then status else i.status
    assignee := if assignee ≠ [] then assignee else i.assignee }

/-- The callbacks of the service desk stay within the columns that are written, so that an update of
a row nobody has written since it was read is current. -/
theorem save_apply (i : Incident) (id status assignee : Str) (now : Time) :
    incidents.save i
      ((⟨id, patchIncident status assignee, now⟩ : Update Incident).apply incidents i) =
        (⟨id, patchIncident status assignee, now⟩ : Update Incident).apply incidents i ∧
      incidents.save i ((⟨id, escalate, now⟩ : Update Incident).apply incidents i) =
        (⟨id, escalate, now⟩ : Update Incident).apply incidents i :=
  ⟨rfl, rfl⟩

/-- On one table of records, whatever the order of the statements of any calls, no update is lost
exactly if every `UPDATE` is current. -/
theorem updates_kept_iff (order : Order Incident) (rows : StrMap Incident)
    (inputs : List (Input (Call Incident) Empty)) :
    (Always (updates incidents order).step (Intact incidents) ⟨Table.start rows, []⟩ inputs ↔
      Guarded (updates incidents order).step (OnTurn (Current incidents))
        ⟨Table.start rows, []⟩ inputs) ∧
    (∀ (order : Order ServiceRequest) (rows : StrMap ServiceRequest)
        (inputs : List (Input (Call ServiceRequest) Empty)),
      Always (updates requests order).step (Intact requests) ⟨Table.start rows, []⟩ inputs ↔
        Guarded (updates requests order).step (OnTurn (Current requests))
          ⟨Table.start rows, []⟩ inputs) ∧
    (∀ (order : Order Problem) (rows : StrMap Problem) (inputs : List (Input (Call Problem) Empty)),
      Always (updates problems order).step (Intact problems) ⟨Table.start rows, []⟩ inputs ↔
        Guarded (updates problems order).step (OnTurn (Current problems))
          ⟨Table.start rows, []⟩ inputs) ∧
    ∀ (order : Order Case) (rows : StrMap Case) (inputs : List (Input (Call Case) Empty)),
      Always (updates cases order).step (Intact cases) ⟨Table.start rows, []⟩ inputs ↔
        Guarded (updates cases order).step (OnTurn (Current cases)) ⟨Table.start rows, []⟩ inputs :=
  ⟨intact_iff incidents order rows inputs, intact_iff requests, intact_iff problems,
    intact_iff cases⟩

def openIncident : Incident where
  id := "I1".toList
  tenantID := "t1".toList
  title := "mail down".toList
  description := []
  status := "new".toList
  priority := "low".toList
  nodeID := []
  requester := []
  assignee := []
  slaDueAt := some (unix 100)
  slaBreached := false
  createdAt := unix 0
  updatedAt := unix 0

/-- An incident is assigned while the sweep holds the row it read before. -/
def assignedDuringSweep : List (Input (Call Incident) Empty) :=
  [.begin (checkBreaches (unix 200) fun _ => unix 201),
    .begin (.update ⟨"I1".toList, patchIncident [] "bob".toList, unix 202⟩),
    .turn 0, .turn 0, .turn 1, .turn 1, .turn 0]

/-- The sweep writes the incident back without its assignee. -/
theorem assignee_lost :
    ¬ Always (updates incidents Order.asListed).step (Intact incidents)
      ⟨Table.start (Std.ExtTreeMap.ofList [("I1".toList, openIncident)]), []⟩
        assignedDuringSweep := by
  intro always
  have last := always.last "I1".toList
  revert last
  decide +kernel

end EraOne.Desk
