import EraOne.MailHistory
import EraOne.MailRules

set_option autoImplicit false

/- Concurrent calls of `PGStore` (`pgstore.go`). A call reads the row of a hold, decides in Go and
writes by id; each statement takes effect alone, and they come in any order. -/
namespace EraOne.Mail

open Runs

section Model

inductive PgCall where
  | approve (now : Time) (id moderator : Str)
  | reject (now : Time) (id moderator comment : Str)
  | expirePending (now : Time) (autoApprove : Bool)

/-- The columns that an `UPDATE` sets. -/
structure PgUpdate where
  status : Option HoldStatus := none
  comment : Option Str := none
  approvedBy : Option (List Str) := none
  updatedAt : Time

def PgUpdate.apply (u : PgUpdate) (r : HoldRecord) : HoldRecord :=
  { r with
    status := u.status.getD r.status, comment := u.comment.getD r.comment
    approvedBy := u.approvedBy.getD r.approvedBy, updatedAt := u.updatedAt }

/-- What a call is about to do. -/
inductive PgPhase where
  | idle
  | begun (call : PgCall)
  /-- The row as it was read, the update to run, and the record to return. -/
  | update (id : Str) (read : HoldRecord) (set : PgUpdate) (result : HoldRecord)
  | expire (now : Time) (autoApprove : Bool) (ids : List Str)
  | reread (now : Time) (autoApprove : Bool) (id : Str) (ids : List Str)

/-- What a call has returned for a hold; `ExpirePending` returns a list of records. -/
inductive PgOutcome where
  | acted (id : Str) (result : Except HoldErr HoldRecord)
  | expired (id : Str) (record : HoldRecord)

structure PgState where
  table : Holds
  threads : Nat → PgPhase := fun _ => .idle
  outcomes : List PgOutcome := []

inductive PgEvent where
  | begin (i : Nat) (call : PgCall)
  | run (i : Nat)

/-- The moderator is not a column. -/
def pgGet (table : Holds) (id : Str) : Option HoldRecord :=
  table[id]?.map fun r => { r with consumedBy := [] }

def pgUpdate (table : Holds) (id : Str) (u : PgUpdate) : Holds :=
  match table[id]? with
  | none => table
  | some r => table.insert id (u.apply r)

variable (rt : Runtime)

/-- The update and the record of an approval that is allowed. -/
def planApprove (now : Time) (moderator : Str) (r : HoldRecord) : PgUpdate × HoldRecord :=
  if r.requireAll ∧ moderator ≠ adminName then
    let approvedBy :=
      if containsFold rt r.approvedBy moderator then r.approvedBy else r.approvedBy ++ [moderator]
    if !allApproved rt r.moderators approvedBy then
      ({ approvedBy := some approvedBy, updatedAt := now },
        { r with approvedBy := approvedBy, updatedAt := now })
    else
      ({ status := some .approved, approvedBy := some approvedBy, updatedAt := now },
        { r with
          approvedBy := approvedBy, status := .approved, consumedBy := moderator,
          updatedAt := now })
  else
    ({ status := some .approved, updatedAt := now },
      { r with status := .approved, consumedBy := moderator, updatedAt := now })

def planAct (now : Time) (moderator : Str) (status : HoldStatus) (comment : Str) (r : HoldRecord) :
    PgUpdate × HoldRecord :=
  ({ status := some status, comment := some comment, updatedAt := now },
    { r with status := status, comment := comment, consumedBy := moderator, updatedAt := now })

/-- The checks of `Approve` and `act` on the row that was read. -/
def checkRow (id moderator : Str) : Option HoldRecord → Except HoldErr HoldRecord
  | none => .error (.notFound id)
  | some r =>
      if r.status ≠ .pending then .error (.notPending id r.status)
      else if !mayAct rt r moderator then .error (.notAllowed moderator)
      else .ok r

def PgState.set (s : PgState) (i : Nat) (phase : PgPhase) : PgState :=
  { s with threads := Function.update s.threads i phase }

def PgState.return (s : PgState) (i : Nat) (outcome : PgOutcome) : PgState :=
  { s.set i .idle with outcomes := s.outcomes ++ [outcome] }

/-- A call that acts on one hold reads its row. -/
def PgState.select (s : PgState) (i : Nat) (id moderator : Str)
    (plan : HoldRecord → PgUpdate × HoldRecord) :
    PgState :=
  match checkRow rt id moderator (pgGet s.table id) with
  | .error e => s.return i (.acted id (.error e))
  | .ok r => s.set i (.update id r (plan r).1 (plan r).2)

/-- `SELECT id … WHERE status='pending' AND expires_at < now`. -/
def selectExpired (table : Holds) (now : Time) : List Str :=
  (table.toList.filter fun entry => entry.2.status = .pending ∧ entry.2.expiresAt < now).map
    Prod.fst

/-- The update of `ExpirePending`. -/
def expireUpdate (now : Time) (autoApprove : Bool) : PgUpdate :=
  if autoApprove then { status := some .approved, comment := some [], updatedAt := now }
  else { status := some .expired, comment := some "ttl expired".toList, updatedAt := now }

def pgRun (s : PgState) (i : Nat) : PgState :=
  match s.threads i with
  | .idle => s
  | .begun (.approve now id moderator) => s.select rt i id moderator (planApprove rt now moderator)
  | .begun (.reject now id moderator comment) =>
      if comment = [] then s.return i (.acted id (.error .commentRequired))
      else s.select rt i id moderator (planAct now moderator .rejected comment)
  | .begun (.expirePending now autoApprove) =>
      s.set i (.expire now autoApprove (selectExpired s.table now))
  | .update id _ set result =>
      { s with table := pgUpdate s.table id set }.return i (.acted id (.ok result))
  | .expire _ _ [] => s.set i .idle
  | .expire now autoApprove (id :: ids) =>
      { s with table := pgUpdate s.table id (expireUpdate now autoApprove) }.set i
        (.reread now autoApprove id ids)
  | .reread now autoApprove id ids =>
      { s.set i (.expire now autoApprove ids) with
        outcomes := s.outcomes ++ (pgGet s.table id).toList.map (.expired id) }

def pgStep (s : PgState) : PgEvent → PgState
  | .begin i call =>
      match s.threads i with
      | .idle => s.set i (.begun call)
      | _ => s
  | .run i => pgRun rt s i

end Model

section Property

/-- The final status that a call returned for the hold, or the status of the record it reported as
expired. -/
def PgOutcome.final (id : Str) : PgOutcome → Option HoldStatus
  | .acted other (.ok r) => if other = id ∧ r.status ≠ .pending then some r.status else none
  | .acted _ (.error _) => none
  | .expired other r => if other = id then some r.status else none

def PgState.finals (s : PgState) (id : Str) : List HoldStatus :=
  s.outcomes.filterMap (PgOutcome.final id)

/-- At most one call resolved the hold, with the status that is stored. -/
def ResolvedOnce (s : PgState) : Prop :=
  ∀ id, (s.finals id).length ≤ 1 ∧ ∀ status ∈ s.finals id, ∃ r, s.table[id]? = some r ∧
    r.status = status

/-- A step leaves every recorded approval where it is. -/
def KeepsApprovals (rt : Runtime) (s : PgState) (event : PgEvent) : Prop :=
  ∀ (id : Str) (r : HoldRecord), s.table[id]? = some r →
    ∃ next : HoldRecord, (pgStep rt s event).table[id]? = some next ∧ r.approvedBy ⊆ next.approvedBy

/-- An `UPDATE` finds the columns it sets as its call read them. -/
def NotOvertaken (s : PgState) : PgEvent → Prop
  | .begin _ _ => True
  | .run i =>
      match s.threads i with
      | .update id read set _ => ∀ r, s.table[id]? = some r →
          (set.status.isSome → r.status = read.status) ∧
            (set.approvedBy.isSome → r.approvedBy = read.approvedBy)
      | .expire _ _ (id :: _) => ∀ r, s.table[id]? = some r → r.status = .pending
      | _ => True

end Property

section Plans

variable (rt : Runtime)

/-- What every plan of a call is: it ends the hold or leaves it pending, and forgets no approval. -/
structure PlanOk (read : HoldRecord) (plan : PgUpdate × HoldRecord) : Prop where
  ends : ∀ status, plan.1.status = some status → plan.2.status = status ∧ status ≠ .pending
  waits : plan.1.status = none → plan.2.status = .pending
  keeps : ∀ got, plan.1.approvedBy = some got → read.approvedBy ⊆ got

theorem planApprove_ok (now : Time) (moderator : Str) (r : HoldRecord)
    (pending : r.status = .pending) :
    PlanOk r (planApprove rt now moderator r) := by
  have grows : r.approvedBy ⊆
      if containsFold rt r.approvedBy moderator then r.approvedBy
        else r.approvedBy ++ [moderator] := by
    split
    · exact List.Subset.refl _
    · exact List.subset_append_left _ _
  rw [planApprove]
  by_cases many : r.requireAll = true ∧ moderator ≠ adminName
  · rw [if_pos many]
    generalize (if containsFold rt r.approvedBy moderator then r.approvedBy
      else r.approvedBy ++ [moderator]) = got at grows ⊢
    dsimp only
    split
    · constructor
      · intro status ends
        cases ends
      · intro _
        exact pending
      · intro written same
        cases same
        exact grows
    · constructor
      · intro status ends
        cases ends
        exact ⟨rfl, nofun⟩
      · intro waits
        cases waits
      · intro written same
        cases same
        exact grows
  · rw [if_neg many]
    constructor
    · intro status ends
      cases ends
      exact ⟨rfl, nofun⟩
    · intro waits
      cases waits
    · intro written same
      cases same

theorem planAct_ok (now : Time) (moderator comment : Str) (r : HoldRecord) :
    PlanOk r (planAct now moderator .rejected comment r) := by
  constructor
  · intro status ends
    cases ends
    exact ⟨rfl, nofun⟩
  · intro waits
    cases waits
  · intro written same
    cases same

theorem checkRow_ok (id moderator : Str) (row : Option HoldRecord) (r : HoldRecord)
    (checked : checkRow rt id moderator row = .ok r) : row = some r ∧ r.status = .pending := by
  cases row with
  | none => cases checked
  | some found =>
      rw [checkRow] at checked
      split at checked
      · cases checked
      · rename_i pending
        split at checked
        · cases checked
        · cases checked
          exact ⟨rfl, not_not.mp pending⟩

end Plans

section Tables

theorem getElem?_pgUpdate (table : Holds) (id other : Str) (u : PgUpdate) :
    (pgUpdate table id u)[other]? = if id = other then table[other]?.map u.apply
    else table[other]? := by
  rw [pgUpdate]
  by_cases same : id = other
  · subst same
    rw [if_pos rfl]
    cases row : table[id]? with
    | none => exact row
    | some r => rw [getElem?_insert_hold, if_pos rfl, Option.map_some]
  · rw [if_neg same]
    cases table[id]? with
    | none => rfl
    | some r => rw [getElem?_insert_hold, if_neg same]

theorem isSome_pgUpdate (table : Holds) (id other : Str) (u : PgUpdate) :
    (pgUpdate table id u)[other]?.isSome = table[other]?.isSome := by
  rw [getElem?_pgUpdate]
  split
  · rw [Option.isSome_map]
  · rfl

theorem isSome_selectExpired (table : Holds) (now : Time) :
    ∀ id ∈ selectExpired table now, table[id]?.isSome := by
  intro id member
  rw [selectExpired, List.mem_map] at member
  obtain ⟨⟨key, r⟩, listed, rfl⟩ := member
  have found := Std.ExtTreeMap.mem_toList_iff_getElem?_eq_some.mp (List.mem_filter.mp listed).1
  rw [found]
  rfl

theorem expireUpdate_status (now : Time) (autoApprove : Bool) (r : HoldRecord) :
    ((expireUpdate now autoApprove).apply r).status ≠ .pending ∧
      ((expireUpdate now autoApprove).apply r).approvedBy = r.approvedBy := by
  cases autoApprove
  · exact ⟨nofun, rfl⟩
  · exact ⟨nofun, rfl⟩

end Tables

section Invariant

/-- What holds of a call between its statements. -/
def PhaseOk (table : Holds) : PgPhase → Prop
  | .idle | .begun _ => True
  | .update id read set result =>
      table[id]?.isSome ∧ read.status = .pending ∧ PlanOk read (set, result)
  | .expire _ _ ids => ∀ id ∈ ids, table[id]?.isSome
  | .reread _ _ id ids =>
      (∃ r, table[id]? = some r ∧ r.status ≠ .pending) ∧ ∀ id ∈ ids, table[id]?.isSome

/-- The call has expired the hold and is about to report it. -/
def PgPhase.reports (id : Str) : PgPhase → Prop
  | .reread _ _ other _ => other = id
  | _ => False

/-- Who resolved a hold: nobody while it is pending, and else one call that has returned or will
report it. -/
structure PgInv (s : PgState) : Prop where
  phases : ∀ i, PhaseOk s.table (s.threads i)
  untouched : ∀ (id : Str) (r : HoldRecord), s.table[id]? = some r → r.status = .pending →
    s.finals id = []
  once : ResolvedOnce s
  unreported : ∀ i id, (s.threads i).reports id → s.finals id = []
  single : ∀ i j id, (s.threads i).reports id → (s.threads j).reports id → i = j

theorem finals_append (s : PgState) (id : Str) (outcomes : List PgOutcome) :
    ({ s with outcomes := s.outcomes ++ outcomes } : PgState).finals id =
      s.finals id ++ outcomes.filterMap (PgOutcome.final id) :=
  List.filterMap_append

theorem not_reports_of_pending (s : PgState) (inv : PgInv s) (id : Str) (r : HoldRecord)
    (found : s.table[id]? = some r) (pending : r.status = .pending) (i : Nat) :
    ¬ (s.threads i).reports id := by
  intro reports
  have phase := inv.phases i
  cases shape : s.threads i with
  | reread now autoApprove other ids =>
      rw [shape] at reports phase
      cases reports
      obtain ⟨⟨row, at_, ended⟩, -⟩ := phase
      cases found.symm.trans at_
      exact ended pending
  | _ =>
      rw [shape] at reports
      exact reports

/-- A call goes on, and where it is to report a hold nobody else is or has. -/
theorem pgInv_set (s : PgState) (inv : PgInv s) (i : Nat) (phase : PgPhase)
    (ok : PhaseOk s.table phase) (alone : ∀ id, phase.reports id → s.finals id = [] ∧
      ∀ j, (s.threads j).reports id → j = i) :
    PgInv (s.set i phase) := by
  have here : (s.set i phase).threads i = phase := Function.update_self ..
  have elsewhere : ∀ j, j ≠ i → (s.set i phase).threads j = s.threads j :=
    fun j different => Function.update_of_ne different ..
  constructor
  · intro j
    by_cases same : j = i
    · subst same
      rwa [here]
    · rw [elsewhere j same]
      exact inv.phases j
  · exact inv.untouched
  · exact inv.once
  · intro j id reports
    by_cases same : j = i
    · subst same
      rw [here] at reports
      exact (alone id reports).1
    · rw [elsewhere j same] at reports
      exact inv.unreported j id reports
  · intro j k id first second
    by_cases same : j = i
    · subst same
      by_cases both : k = j
      · exact both.symm
      · rw [here] at first
        rw [elsewhere k both] at second
        exact ((alone id first).2 k second).symm
    · rw [elsewhere j same] at first
      by_cases both : k = i
      · subst both
        rw [here] at second
        exact (alone id second).2 j first
      · rw [elsewhere k both] at second
        exact inv.single j k id first second

theorem pgInv_set_silent (s : PgState) (inv : PgInv s) (i : Nat) (phase : PgPhase)
    (ok : PhaseOk s.table phase) (silent : ∀ id, ¬ phase.reports id) : PgInv (s.set i phase) :=
  pgInv_set s inv i phase ok fun id reports => absurd reports (silent id)

/-- A return that resolves nothing. -/
theorem pgInv_silent (s : PgState) (inv : PgInv s) (outcome : PgOutcome)
    (none_ : ∀ id, outcome.final id = none) :
    PgInv { s with outcomes := s.outcomes ++ [outcome] } := by
  have same :
      ∀ id, ({ s with outcomes := s.outcomes ++ [outcome] } : PgState).finals id = s.finals id := by
    intro id
    rw [finals_append, List.filterMap_cons_none (none_ id), List.filterMap_nil, List.append_nil]
  constructor
  · exact inv.phases
  · intro id r found pending
    rw [same]
    exact inv.untouched id r found pending
  · intro id
    rw [same]
    exact inv.once id
  · intro i id reports
    rw [same]
    exact inv.unreported i id reports
  · exact inv.single

/-- An update that sets no status, or ends a pending hold. -/
theorem pgInv_write (s : PgState) (inv : PgInv s) (id : Str) (u : PgUpdate)
    (allowed : ∀ r, s.table[id]? = some r →
      u.status = none ∨ r.status = .pending ∧ ∃ status, u.status = some status ∧
        status ≠ .pending) :
    PgInv { s with table := pgUpdate s.table id u } := by
  -- a row that is pending after the update, or was not before it, has its status from before
  have stays : ∀ (other : Str) (next : HoldRecord), (pgUpdate s.table id u)[other]? = some next →
      ∃ r, s.table[other]? = some r ∧
        (next.status = .pending ∨ r.status ≠ .pending → next.status = r.status) := by
    intro other next found
    rw [getElem?_pgUpdate] at found
    split at found
    · rename_i same
      subst same
      rw [Option.map_eq_some_iff] at found
      obtain ⟨r, found, rfl⟩ := found
      refine ⟨r, found, ?_⟩
      rcases allowed r found with unset | ⟨pending, status, set_, ended⟩
      · intro _
        rw [PgUpdate.apply, unset]
        rfl
      · rintro (waits | different)
        · rw [PgUpdate.apply, set_] at waits
          exact absurd waits ended
        · exact absurd pending different
    · exact ⟨next, found, fun _ => rfl⟩
  constructor
  · intro i
    have phase := inv.phases i
    change PhaseOk (pgUpdate s.table id u) (s.threads i)
    cases shape : s.threads i with
    | idle => trivial
    | begun call => trivial
    | update other read set result =>
        rw [shape] at phase
        exact ⟨by rw [isSome_pgUpdate]; exact phase.1, phase.2⟩
    | expire now autoApprove ids =>
        rw [shape] at phase
        intro other member
        rw [isSome_pgUpdate]
        exact phase other member
    | reread now autoApprove other ids =>
        rw [shape] at phase
        obtain ⟨⟨r, found, ended⟩, later⟩ := phase
        constructor
        · have there : (pgUpdate s.table id u)[other]?.isSome := by rw [isSome_pgUpdate, found]; rfl
          obtain ⟨next, at_⟩ := Option.isSome_iff_exists.mp there
          obtain ⟨row, was, same⟩ := stays other next at_
          cases found.symm.trans was
          refine ⟨next, at_, ?_⟩
          rw [same (Or.inr ended)]
          exact ended
        · intro one member
          rw [isSome_pgUpdate]
          exact later one member
  · intro other next found pending
    obtain ⟨r, was, same⟩ := stays other next found
    rw [same (Or.inl pending)] at pending
    exact inv.untouched other r was pending
  · intro other
    refine ⟨(inv.once other).1, ?_⟩
    intro status member
    obtain ⟨r, found, same⟩ := (inv.once other).2 status member
    have there : (pgUpdate s.table id u)[other]?.isSome := by rw [isSome_pgUpdate, found]; rfl
    obtain ⟨next, at_⟩ := Option.isSome_iff_exists.mp there
    obtain ⟨row, was, keeps⟩ := stays other next at_
    cases found.symm.trans was
    refine ⟨next, at_, ?_⟩
    by_cases pending : r.status = .pending
    · change status ∈ s.finals other at member
      rw [inv.untouched other r found pending] at member
      cases member
    · rw [keeps (Or.inr pending), same]
  · exact inv.unreported
  · exact inv.single

/-- A call resolves a hold that nobody has, and nobody else is about to. -/
theorem pgInv_resolve (s : PgState) (inv : PgInv s) (i : Nat) (phase : PgPhase)
    (ok : PhaseOk s.table phase) (silent : ∀ id, ¬ phase.reports id) (id : Str) (r : HoldRecord)
    (found : s.table[id]? = some r) (ended : r.status ≠ .pending)
    (alone : ∀ j, (s.threads j).reports id → j = i) (first : s.finals id = []) (outcome : PgOutcome)
    (final : ∀ other, outcome.final other = if id = other then some r.status else none) :
    PgInv { s.set i phase with outcomes := s.outcomes ++ [outcome] } := by
  have goes := pgInv_set_silent s inv i phase ok silent
  have here : ({ s.set i phase with outcomes := s.outcomes ++ [outcome] } : PgState).finals id =
      [r.status] := by
    change (s.outcomes ++ [outcome]).filterMap (PgOutcome.final id) = _
    rw [List.filterMap_append, show s.outcomes.filterMap (PgOutcome.final id) = [] from first,
      List.filterMap_cons_some ((final id).trans (if_pos rfl))]
    rfl
  have elsewhere : ∀ other, id ≠ other →
      ({ s.set i phase with outcomes := s.outcomes ++ [outcome] } : PgState).finals other = s.finals
        other := by
    intro other different
    change (s.outcomes ++ [outcome]).filterMap (PgOutcome.final other) = _
    rw [List.filterMap_append, List.filterMap_cons_none ((final other).trans (if_neg different)),
      List.filterMap_nil, List.append_nil]
    rfl
  have unclaimed : ∀ j, ¬ ((s.set i phase).threads j).reports id := by
    intro j reports
    change (Function.update s.threads i phase j).reports id at reports
    by_cases same : j = i
    · subst same
      rw [Function.update_self] at reports
      exact silent id reports
    · rw [Function.update_of_ne same] at reports
      exact same (alone j reports)
  constructor
  · exact goes.phases
  · intro other row at_ pending
    by_cases same : id = other
    · subst same
      cases found.symm.trans at_
      exact absurd pending ended
    · rw [elsewhere other same]
      exact inv.untouched other row at_ pending
  · intro other
    by_cases same : id = other
    · subst same
      rw [here]
      refine ⟨Nat.le_refl 1, ?_⟩
      intro status member
      rw [List.mem_singleton] at member
      exact ⟨r, found, member.symm⟩
    · rw [elsewhere other same]
      exact inv.once other
  · intro j other reports
    by_cases same : id = other
    · subst same
      exact absurd reports (unclaimed j)
    · rw [elsewhere other same]
      exact goes.unreported j other reports
  · exact goes.single

end Invariant

section Steps

variable (rt : Runtime) (s : PgState) (inv : PgInv s) (i : Nat)

include inv

theorem pgInv_return_silent (outcome : PgOutcome) (none_ : ∀ id, outcome.final id = none) :
    PgInv (s.return i outcome) :=
  pgInv_silent (s.set i .idle) (pgInv_set_silent s inv i .idle trivial fun _ => id) outcome none_

theorem pgInv_select (id moderator : Str) (plan : HoldRecord → PgUpdate × HoldRecord)
    (planned : ∀ r, r.status = .pending → PlanOk r (plan r)) : PgInv
    (s.select rt i id moderator plan) := by
  rw [PgState.select]
  split
  · exact pgInv_return_silent s inv i _ fun _ => rfl
  · rename_i r checked
    obtain ⟨got, pending⟩ := checkRow_ok rt id moderator _ r checked
    rw [pgGet, Option.map_eq_some_iff] at got
    obtain ⟨row, found, -⟩ := got
    apply pgInv_set_silent s inv i
    · exact ⟨by rw [found]; rfl, pending, planned r pending⟩
    · exact fun _ => not_false

theorem pgInv_update (id : Str) (read : HoldRecord) (set : PgUpdate) (result : HoldRecord)
    (there : s.table[id]?.isSome) (waiting : read.status = .pending)
    (plan : PlanOk read (set, result)) (as_read : ∀ r, s.table[id]? = some r → set.status.isSome →
      r.status = read.status) :
    PgInv ({ s with table := pgUpdate s.table id set }.return i (.acted id (.ok result))) := by
  obtain ⟨r, found⟩ := Option.isSome_iff_exists.mp there
  cases set_ : set.status with
  | none =>
      have written := pgInv_write s inv id set fun _ _ => Or.inl set_
      apply pgInv_return_silent _ written i
      intro other
      rw [PgOutcome.final, if_neg]
      exact fun both => both.2 (plan.waits set_)
  | some status =>
      obtain ⟨same, ended⟩ := plan.ends status set_
      have pending : r.status = .pending := by
        rw [as_read r found (by rw [set_]; rfl), waiting]
      have written := pgInv_write s inv id set fun row at_ => by
        cases found.symm.trans at_
        exact Or.inr ⟨pending, status, set_, ended⟩
      have now_ : (pgUpdate s.table id set)[id]? = some (set.apply r) := by
        rw [getElem?_pgUpdate, if_pos rfl, found, Option.map_some]
      have stored : (set.apply r).status = status := by
        rw [PgUpdate.apply, set_]
        rfl
      apply pgInv_resolve _ written i .idle trivial (fun _ => not_false) id (set.apply r) now_
      · rw [stored]
        exact ended
      · intro j reports
        exact absurd reports (not_reports_of_pending s inv id r found pending j)
      · exact inv.untouched id r found pending
      · intro other
        dsimp only at same
        rw [PgOutcome.final, stored, same]
        simp only [ended, ne_eq, not_false_eq_true, and_true]

theorem pgInv_expire (now : Time) (autoApprove : Bool) (id : Str) (ids : List Str)
    (there : ∀ one ∈ id :: ids, s.table[one]?.isSome)
    (pending : ∀ r, s.table[id]? = some r → r.status = .pending) :
    PgInv ({ s with table := pgUpdate s.table id (expireUpdate now autoApprove) }.set i
      (.reread now autoApprove id ids)) := by
  obtain ⟨r, found⟩ := Option.isSome_iff_exists.mp (there id List.mem_cons_self)
  have sets : ∃ status, (expireUpdate now autoApprove).status = some status ∧
      status ≠ .pending := by
    cases autoApprove
    · exact ⟨.expired, rfl, nofun⟩
    · exact ⟨.approved, rfl, nofun⟩
  have written := pgInv_write s inv id (expireUpdate now autoApprove)
    fun row at_ => Or.inr ⟨pending row at_, sets⟩
  apply pgInv_set _ written i
  · constructor
    · refine ⟨_, ?_, (expireUpdate_status now autoApprove r).1⟩
      rw [getElem?_pgUpdate, if_pos rfl, found, Option.map_some]
    · intro one member
      rw [isSome_pgUpdate]
      exact there one (List.mem_cons_of_mem id member)
  · rintro other rfl
    exact ⟨inv.untouched id r found (pending r found),
      fun j reports => absurd reports (not_reports_of_pending s inv id r found (pending r found) j)⟩

theorem pgInv_reread (now : Time) (autoApprove : Bool) (id : Str) (ids : List Str)
    (shape : s.threads i = .reread now autoApprove id ids) :
    PgInv { s.set i (.expire now autoApprove ids) with
      outcomes := s.outcomes ++ (pgGet s.table id).toList.map (.expired id) } := by
  have phase := inv.phases i
  rw [shape] at phase
  obtain ⟨⟨r, found, ended⟩, later⟩ := phase
  have claims : (s.threads i).reports id := by
    rw [shape]
    rfl
  rw [pgGet, found]
  apply pgInv_resolve s inv i (.expire now autoApprove ids) later
    (fun _ => not_false) id r found ended
  · exact fun j reports => inv.single j i id reports claims
  · exact inv.unreported i id claims
  · intro other
    rfl

theorem pgInv_step (event : PgEvent) (guarded : NotOvertaken s event) :
    PgInv (pgStep rt s event) := by
  cases event with
  | begin i call =>
      rw [pgStep]
      split
      · exact pgInv_set_silent s inv i _ trivial fun _ => not_false
      · exact inv
  | run i =>
      have phase := inv.phases i
      rw [pgStep, pgRun]
      rw [NotOvertaken] at guarded
      split
      · exact inv
      · exact pgInv_select rt s inv i _ _ _ fun r => planApprove_ok rt _ _ r
      · split
        · exact pgInv_return_silent s inv i _ fun _ => rfl
        · exact pgInv_select rt s inv i _ _ _ fun r _ => planAct_ok _ _ _ r
      · apply pgInv_set_silent s inv i
        · exact isSome_selectExpired s.table _
        · exact fun _ => not_false
      · rename_i id read set result shape
        rw [shape] at phase guarded
        exact pgInv_update s inv i id read set result phase.1 phase.2.1 phase.2.2
          fun r found => (guarded r found).1
      · exact pgInv_set_silent s inv i _ trivial fun _ => not_false
      · rename_i now autoApprove id ids shape
        rw [shape] at phase guarded
        exact pgInv_expire s inv i now autoApprove id ids phase guarded
      · rename_i now autoApprove id ids shape
        exact pgInv_reread s inv i now autoApprove id ids shape

/-- A step whose update finds the columns as they were read forgets no approval. -/
theorem keepsApprovals_step (event : PgEvent) (guarded : NotOvertaken s event) :
    KeepsApprovals rt s event := by
  have unchanged : ∀ after : PgState, after.table = s.table → ∀ (id : Str) (r : HoldRecord),
      s.table[id]? = some r → ∃ next : HoldRecord, after.table[id]? = some next ∧
        r.approvedBy ⊆ next.approvedBy := by
    intro after same id r found
    exact ⟨r, by rw [same, found], List.Subset.refl _⟩
  have updated : ∀ (id : Str) (u : PgUpdate),
      (∀ r, s.table[id]? = some r → r.approvedBy ⊆ (u.apply r).approvedBy) →
      ∀ (other : Str) (r : HoldRecord), s.table[other]? = some r →
        ∃ next : HoldRecord, (pgUpdate s.table id u)[other]? = some next ∧
          r.approvedBy ⊆ next.approvedBy := by
    intro id u grows other r found
    rw [getElem?_pgUpdate]
    split
    · rename_i same
      subst same
      rw [found, Option.map_some]
      exact ⟨_, rfl, grows r found⟩
    · exact ⟨r, found, List.Subset.refl _⟩
  have selected : ∀ i id moderator plan, (s.select rt i id moderator plan).table = s.table := by
    intro i id moderator plan
    rw [PgState.select]
    split <;> rfl
  intro id r found
  cases event with
  | begin i call =>
      apply unchanged _ _ id r found
      rw [pgStep]
      split <;> rfl
  | run i =>
      have phase := inv.phases i
      rw [pgStep, pgRun]
      rw [NotOvertaken] at guarded
      split
      · exact unchanged s rfl id r found
      · exact unchanged _ (selected _ _ _ _) id r found
      · split
        · exact unchanged _ rfl id r found
        · exact unchanged _ (selected _ _ _ _) id r found
      · exact unchanged _ rfl id r found
      · rename_i other read set result shape
        rw [shape] at phase guarded
        apply updated other set _ id r found
        intro row at_
        rw [PgUpdate.apply]
        cases written : set.approvedBy with
        | none => exact List.Subset.refl _
        | some got =>
            rw [(guarded row at_).2 (by rw [written]; rfl)]
            exact phase.2.2.keeps got written
      · exact unchanged _ rfl id r found
      · rename_i now autoApprove other ids shape
        apply updated other (expireUpdate now autoApprove) _ id r found
        intro row _
        rw [(expireUpdate_status now autoApprove row).2]
        exact List.Subset.refl _
      · exact unchanged _ rfl id r found

end Steps

section Runs

/-- In every interleaving in which each `UPDATE` finds the columns it sets as its call read them, a
hold is resolved at most once, with the stored status, and no approval is forgotten. -/
theorem pg_holds_resolve_once (rt : Runtime) (table : Holds) (events : List PgEvent)
    (guarded : Guarded (pgStep rt) NotOvertaken { table := table } events) :
    Always (pgStep rt) ResolvedOnce { table := table } events ∧
      Guarded (pgStep rt) (KeepsApprovals rt) { table := table } events := by
  have start : PgInv { table := table } := by
    constructor
    · exact fun _ => trivial
    · exact fun _ _ _ _ => rfl
    · intro id
      exact ⟨Nat.zero_le 1, fun status member => by cases member⟩
    · exact fun _ _ reports => reports.elim
    · exact fun _ _ _ reports => reports.elim
  constructor
  · have always := always_of_guarded (pgStep rt) PgInv NotOvertaken
      (fun s event inv allowed => pgInv_step rt s inv event allowed) _ events start guarded
    exact fun front within => (always front within).once
  · exact guarded_of_invariant (pgStep rt) PgInv NotOvertaken (KeepsApprovals rt)
      (fun s event inv allowed =>
        ⟨keepsApprovals_step rt s inv event allowed, pgInv_step rt s inv event allowed⟩)
      _ events start guarded

end Runs

section Example

def waitingHold (moderators : List Str) (requireAll : Bool) : HoldRecord :=
  { id := "h1".toList, ruleID := "r1".toList, sender := "u@c".toList, recipients := ["x@out".toList]
    subject := "s".toList, moderators := moderators, raw := "body".toList, expiresAt := 100
    requireAll := requireAll, level := 0 }

def oneHold (moderators : List Str) (requireAll : Bool) : PgState :=
  { table := (∅ : Holds).insert "h1".toList (waitingHold moderators requireAll) }

def approveBy (i : Nat) (moderator : Str) : PgEvent := .begin i (.approve 1 "h1".toList moderator)

/-- Both approve one after the other, and a third call comes too late. -/
def inTurn : List PgEvent :=
  [approveBy 0 "a@c".toList, .run 0, .run 0, approveBy 1 "b@c".toList, .run 1, .run 1,
    .begin 2 (.reject 2 "h1".toList "a@c".toList "no".toList), .run 2]

theorem approvals_in_turn :
    (inTurn.foldl (pgStep plainRuntime) (oneHold ["a@c".toList, "b@c".toList] true)).finals
    "h1".toList =
        [.approved] ∧
      Always (pgStep plainRuntime) ResolvedOnce (oneHold ["a@c".toList, "b@c".toList] true) inTurn ∧
      Guarded (pgStep plainRuntime) (KeepsApprovals plainRuntime)
        (oneHold ["a@c".toList, "b@c".toList] true)
        inTurn := by
  refine ⟨rfl, pg_holds_resolve_once plainRuntime _ inTurn ?_⟩
  simp only [inTurn, guarded_cons]
  refine ⟨trivial, trivial, ?_, trivial, trivial, ?_, trivial, trivial, guarded_nil _ _ _⟩
  · intro r found
    cases found
    exact ⟨fun _ => rfl, fun _ => rfl⟩
  · intro r found
    cases found
    exact ⟨fun _ => rfl, fun _ => rfl⟩

/-- Two calls read a hold before either writes. -/
def crossing (first second : PgEvent) : List PgEvent :=
  [first, second, .run 0, .run 1, .run 0, .run 1]

/-- A hold is approved and rejected, and of two approvals one is forgotten. -/
theorem crossing_calls_resolve_twice :
    ¬ (∀ (rt : Runtime) (table : Holds) (events : List PgEvent),
        Always (pgStep rt) ResolvedOnce { table := table } events) ∧
      ¬ ∀ (rt : Runtime) (table : Holds) (events : List PgEvent),
        Guarded (pgStep rt) (KeepsApprovals rt) { table := table } events := by
  constructor
  · intro once
    let events := crossing (approveBy 0 "a@c".toList)
      (.begin 1 (.reject 1 "h1".toList "b@c".toList "no".toList))
    have always : Always (pgStep plainRuntime) ResolvedOnce
        (oneHold ["a@c".toList, "b@c".toList] false) events :=
      once plainRuntime _ events
    have finals :
        (events.foldl (pgStep plainRuntime) (oneHold ["a@c".toList, "b@c".toList] false)).finals
        "h1".toList = [.approved, .rejected] := rfl
    have short := (always.last "h1".toList).1
    rw [finals] at short
    exact absurd short (by decide)
  · intro kept
    let events := crossing (approveBy 0 "a@c".toList) (approveBy 1 "b@c".toList)
    let before := (events.dropLast).foldl (pgStep plainRuntime)
      (oneHold ["a@c".toList, "b@c".toList, "d@c".toList] true)
    have keeps : KeepsApprovals plainRuntime before (.run 1) :=
      kept plainRuntime _ events events.dropLast (.run 1) (List.prefix_refl _)
    have first : before.table["h1".toList]?.map HoldRecord.approvedBy = some ["a@c".toList] := rfl
    have last :
        (pgStep plainRuntime before (.run 1)).table["h1".toList]?.map HoldRecord.approvedBy =
      some ["b@c".toList] := rfl
    obtain ⟨r, found, listed⟩ := Option.map_eq_some_iff.mp first
    obtain ⟨next, stored, within⟩ := keeps _ r found
    rw [stored, Option.map_some, Option.some_inj] at last
    rw [listed, last] at within
    exact absurd (within List.mem_cons_self) (by decide)

end Example

end EraOne.Mail
