import EraOne.CtlNetwork
import EraOne.Enforcement

set_option autoImplicit false

/- The memory store of the control plane behind tenant views (`memory.go`, `memory_case_ops.go`,
`memory_deploy.go`, `tenant_scope.go`). A view is a copy of the struct: the maps and the jobs that
it points to are those of the store, its slices and policies are its own. A request takes its view
at the start, and requests come one after the other. -/
namespace EraOne.Tenants

open GoTime Ctl

/-- An incident. -/
structure Case where
  id : Str
  title : Str := []
  status : Str := []
  tenantID : Str := []
  assignee : Str := []
  detectionID : Str := []
  nodeID : Str := []
  createdAt : Time := zeroTime
  updatedAt : Time := zeroTime

structure CaseNote where
  id : Str
  caseID : Str
  author : Str
  body : Str
  createdAt : Time

structure TimelineEvent where
  id : Str
  caseID : Str
  kind : Str
  actor : Str
  detail : Str
  createdAt : Time

structure AuditEntry where
  id : Str
  action : Str
  actor : Str
  target : Str
  detail : Str
  createdAt : Time

structure PolicyBundle where
  version : Str
  rules : List (Str × Str)

structure DeployJob where
  id : Str
  tenantID : Str := []
  nodeID : Str := []
  packageRef : Str := []
  otaToken : Str := []
  reboot : Bool := false
  status : Str := []
  createdAt : Time := zeroTime
  updatedAt : Time := zeroTime

structure PatchJob where
  id : Str
  tenantID : Str := []
  nodeID : Str := []
  cveID : Str := []
  product : Str := []
  packageRef : Str := []
  status : Str := []
  createdAt : Time := zeroTime

structure MemoryStore where
  cmdb : Cmdb := {}
  cases : StrMap Case := ∅
  notes : StrMap (List CaseNote) := ∅
  timeline : StrMap (List TimelineEvent) := ∅
  audit : List AuditEntry := []
  policy : PolicyBundle
  enforcement : Enforcement.MemoryStore
  deployJobs : List DeployJob := []
  patchJobs : List PatchJob := []

/-- The calls of the repository, with the ids that they draw and the times that they read. -/
inductive Op where
  | upsertAssetFull (a : Asset) (now : Time)
  | replaceAssetSoftware (nodeID tenantID : Str) (items : List (Option AssetSoftware)) (now : Time)
  | getAsset (nodeID : Str)
  | listAssets (order : MapOrder)
  | createCase (c : Case) (event : Str) (now opened : Time)
  | getCase (id : Str)
  | updateCase (id : Str) (fn : Case → Case) (now : Time)
  | listCases (order : Visits.Order Case)
  | addCaseNote (caseID author body note : Str) (now : Time)
  | addTimeline (caseID kind actor detail event : Str) (now : Time)
  | getCaseDetail (id : Str)
  | recordAudit (action actor target detail entry : Str) (now : Time)
  | listAudit (limit : Int)
  | policy
  | setPolicy (p : PolicyBundle)
  | enforcement (op : Enforcement.Op)
  | createDeployJob (j : DeployJob) (now : Time)
  | getDeployJob (id : Str)
  | listDeployJobs
  | updateDeployJob (id status : Str) (now : Time)
  | createPatchJob (j : PatchJob) (now : Time)
  | listPatchJobs

inductive Answer where
  | done
  | asset (a : Option Asset)
  | assets (list : List Asset)
  | case_ (c : Option Case)
  | cases (list : List Case)
  | note (n : Option CaseNote)
  | event (e : Option TimelineEvent)
  | detail (d : Option (Case × List CaseNote × List TimelineEvent))
  | audit (list : List AuditEntry)
  | policy (p : PolicyBundle)
  | enforcement (a : Enforcement.Answer)
  | job (j : Option DeployJob)
  | jobs (list : List DeployJob)
  | patches (list : List PatchJob)

def statusNew : Str := "new".toList

def rolloutPending : Str := "pending".toList

namespace MemoryStore

/-- The clock is read for the case and again for its first event. -/
def createCase (c : Case) (event : Str) (now opened : Time) (m : MemoryStore) : MemoryStore :=
  let c := { c with
    createdAt := now
    updatedAt := now
    status := if c.status = [] then statusNew else c.status }
  let ev : TimelineEvent :=
    ⟨event, c.id, "created".toList, "system".toList, "case opened".toList, opened⟩
  { m with
    cases := m.cases.insert c.id c
    timeline := m.timeline.insert c.id (m.timeline[c.id]?.getD [] ++ [ev]) }

def updateCase (id : Str) (fn : Case → Case) (now : Time) (m : MemoryStore) :
    MemoryStore × Option Case :=
  match m.cases[id]? with
  | none => (m, none)
  | some c =>
      let c := { fn c with
        updatedAt := now }
      ({ m with cases := m.cases.insert id c }, some c)

def addCaseNote (caseID author body note : Str) (now : Time) (m : MemoryStore) :
    MemoryStore × Option CaseNote :=
  if m.cases[caseID]?.isNone then (m, none)
  else
    let n : CaseNote := ⟨note, caseID, author, body, now⟩
    ({ m with notes := m.notes.insert caseID (m.notes[caseID]?.getD [] ++ [n]) }, some n)

def addTimeline (caseID kind actor detail event : Str) (now : Time) (m : MemoryStore) :
    MemoryStore × Option TimelineEvent :=
  if m.cases[caseID]?.isNone then (m, none)
  else
    let ev : TimelineEvent := ⟨event, caseID, kind, actor, detail, now⟩
    ({ m with timeline := m.timeline.insert caseID (m.timeline[caseID]?.getD [] ++ [ev]) }, some ev)

def getCaseDetail (id : Str) (m : MemoryStore) :
    Option (Case × List CaseNote × List TimelineEvent) :=
  m.cases[id]?.map fun c => (c, m.notes[id]?.getD [], m.timeline[id]?.getD [])

def listCases (order : Visits.Order Case) (tenantFilter : Str) (m : MemoryStore) : List Case :=
  (order.visit (m.cases.toList.map Prod.snd)).filter fun c =>
    ¬ (tenantFilter ≠ [] ∧ c.tenantID ≠ tenantFilter)

/-- The newest entries, the oldest of them first. -/
def listAudit (limit : Int) (m : MemoryStore) : List AuditEntry :=
  let limit := if limit ≤ 0 ∨ m.audit.length < limit then m.audit.length else limit.toNat
  m.audit.drop (m.audit.length - limit)

def createDeployJob (j : DeployJob) (now : Time) (m : MemoryStore) : MemoryStore :=
  let j := { j with
    createdAt := if j.createdAt.isZero then now else j.createdAt
    updatedAt := now
    status := if j.status = [] then rolloutPending else j.status }
  { m with deployJobs := m.deployJobs ++ [j] }

/-- The loop of `UpdateDeployJob`, which writes the first job of the id. -/
def setStatus (id status : Str) (now : Time) : List DeployJob → List DeployJob × Option DeployJob
  | [] => ([], none)
  | j :: rest =>
      if j.id = id then
        let j := { j with
          status := status
          updatedAt := now }
        (j :: rest, some j)
      else
        let done := setStatus id status now rest
        (j :: done.1, done.2)

def updateDeployJob (id status : Str) (now : Time) (m : MemoryStore) :
    MemoryStore × Option DeployJob :=
  let done := setStatus id status now m.deployJobs
  ({ m with deployJobs := done.1 }, done.2)

def createPatchJob (j : PatchJob) (now : Time) (m : MemoryStore) : MemoryStore :=
  let j := { j with
    createdAt := if j.createdAt.isZero then now else j.createdAt
    status := if j.status = [] then rolloutPending else j.status }
  { m with patchJobs := m.patchJobs ++ [j] }

/-- What a request leaves of the store after its calls on a copy: the maps, and the jobs that were
there. -/
def leaves (m view : MemoryStore) : MemoryStore :=
  { view with
    audit := m.audit
    policy := m.policy
    enforcement := m.enforcement
    deployJobs := view.deployJobs.take m.deployJobs.length
    patchJobs := m.patchJobs }

section Calls

/- `DefaultEnforcementPolicy`. -/
variable (default : Enforcement.EnforcementPolicy)

/-- A call on a store with a tenant filter, which the base store leaves empty. -/
def step (tenantFilter : Str) (m : MemoryStore) : Op → MemoryStore × Answer
  | .upsertAssetFull a now => ({ m with cmdb := m.cmdb.upsertAssetFull now a }, .done)
  | .replaceAssetSoftware nodeID tenantID items now =>
      ({ m with cmdb := m.cmdb.replaceAssetSoftware now nodeID tenantID items }, .done)
  | .getAsset nodeID => (m, .asset (m.cmdb.assets.get nodeID))
  | .listAssets order => (m, .assets (m.cmdb.listAssets order tenantFilter))
  | .createCase c event now opened => (m.createCase c event now opened, .done)
  | .getCase id => (m, .case_ m.cases[id]?)
  | .updateCase id fn now =>
      let updated := m.updateCase id fn now
      (updated.1, .case_ updated.2)
  | .listCases order => (m, .cases (m.listCases order tenantFilter))
  | .addCaseNote caseID author body note now =>
      let added := m.addCaseNote caseID author body note now
      (added.1, .note added.2)
  | .addTimeline caseID kind actor detail event now =>
      let added := m.addTimeline caseID kind actor detail event now
      (added.1, .event added.2)
  | .getCaseDetail id => (m, .detail (m.getCaseDetail id))
  | .recordAudit action actor target detail entry now =>
      ({ m with audit := m.audit ++ [⟨entry, action, actor, target, detail, now⟩] }, .done)
  | .listAudit limit => (m, .audit (m.listAudit limit))
  | .policy => (m, .policy m.policy)
  | .setPolicy p => ({ m with policy := p }, .done)
  | .enforcement op =>
      let done := m.enforcement.step default op
      ({ m with enforcement := done.1 }, .enforcement done.2)
  | .createDeployJob j now => (m.createDeployJob j now, .done)
  | .getDeployJob id => (m, .job (m.deployJobs.find? fun j => j.id = id))
  | .listDeployJobs => (m, .jobs m.deployJobs)
  | .updateDeployJob id status now =>
      let updated := m.updateDeployJob id status now
      (updated.1, .job updated.2)
  | .createPatchJob j now => (m.createPatchJob j now, .done)
  | .listPatchJobs => (m, .patches m.patchJobs)

/-- The calls of a request, one after the other. -/
def runOps (tenantFilter : Str) (m : MemoryStore) : List Op → MemoryStore × List Answer
  | [] => (m, [])
  | op :: rest =>
      let done := m.step default tenantFilter op
      let later := done.1.runOps tenantFilter rest
      (later.1, done.2 :: later.2)

end Calls

end MemoryStore

/-- A request: the header with its tenant, and the calls that its handler makes. -/
structure Request where
  tenantID : Str
  ops : List Op

section Requests

variable (default : Enforcement.EnforcementPolicy) (multiTenant : Bool)

/-- `Scoped` gives a copy where there are tenants and the request names one. -/
def isScoped (tenantID : Str) : Bool := multiTenant && tenantID ≠ []

def Request.tenantFilter (r : Request) : Str :=
  if isScoped multiTenant r.tenantID then r.tenantID else []

namespace MemoryStore

def serve (m : MemoryStore) (r : Request) : MemoryStore × List Answer :=
  let done := m.runOps default (r.tenantFilter multiTenant) r.ops
  (if isScoped multiTenant r.tenantID then m.leaves done.1 else done.1, done.2)

def run (m : MemoryStore) : List Request → MemoryStore × List (List Answer)
  | [] => (m, [])
  | r :: rest =>
      let served := m.serve default multiTenant r
      let later := served.1.run rest
      (later.1, served.2 :: later.2)

end MemoryStore

end Requests

/-! ### What a view keeps for itself -/

/-- The call writes a slice or a policy of the struct. -/
def Op.onCopy : Op → Bool
  | .recordAudit .. => true
  | .setPolicy _ => true
  | .enforcement (.set ..) => true
  | .enforcement (.rollback ..) => true
  | .createDeployJob .. => true
  | .createPatchJob .. => true
  | _ => false

/-- The calls of a request that reach the store. -/
def Request.kept (multiTenant : Bool) (r : Request) : List Op :=
  if isScoped multiTenant r.tenantID then r.ops.filter fun op => !op.onCopy else r.ops

/-- The line that a call adds to the audit log. -/
def Op.entry : Op → Option AuditEntry
  | .recordAudit action actor target detail entry now =>
      some ⟨entry, action, actor, target, detail, now⟩
  | _ => none

section Lost

variable (default : Enforcement.EnforcementPolicy) (multiTenant : Bool)

/-- The filter of a view is for its lists. -/
theorem step_state (m : MemoryStore) (tenantFilter : Str) (op : Op) :
    (m.step default tenantFilter op).1 = (m.step default [] op).1 := by
  cases op <;> rfl

theorem length_setStatus (id status : Str) (now : Time) (jobs : List DeployJob) :
    (MemoryStore.setStatus id status now jobs).1.length = jobs.length := by
  induction jobs with
  | nil => rfl
  | cons j rest ih =>
      rw [MemoryStore.setStatus]
      split
      · rfl
      · simp [ih]

theorem take_setStatus (id status : Str) (now : Time) (jobs : List DeployJob) (n : Nat) :
    (MemoryStore.setStatus id status now jobs).1.take n =
      (MemoryStore.setStatus id status now (jobs.take n)).1 := by
  induction jobs generalizing n with
  | nil => simp [MemoryStore.setStatus]
  | cons j rest ih =>
      cases n with
      | zero => simp [MemoryStore.setStatus]
      | succ n =>
          rw [List.take_succ_cons, MemoryStore.setStatus, MemoryStore.setStatus]
          split
          · simp
          · simp [ih]

theorem jobs_step (m : MemoryStore) (tenantFilter : Str) (op : Op) :
    m.deployJobs.length ≤ (m.step default tenantFilter op).1.deployJobs.length := by
  cases op with
  | updateCase id fn now =>
      show _ ≤ (m.updateCase id fn now).1.deployJobs.length
      unfold MemoryStore.updateCase
      split <;> simp
  | addCaseNote caseID author body note now =>
      show _ ≤ (m.addCaseNote caseID author body note now).1.deployJobs.length
      unfold MemoryStore.addCaseNote
      split <;> simp
  | addTimeline caseID kind actor detail event now =>
      show _ ≤ (m.addTimeline caseID kind actor detail event now).1.deployJobs.length
      unfold MemoryStore.addTimeline
      split <;> simp
  | createDeployJob j now => simp [MemoryStore.step, MemoryStore.createDeployJob]
  | updateDeployJob id status now =>
      simp [MemoryStore.step, MemoryStore.updateDeployJob, length_setStatus]
  | _ => exact Nat.le_refl _

theorem leaves_onCopy (m view : MemoryStore) (tenantFilter : Str) (op : Op)
    (room : m.deployJobs.length ≤ view.deployJobs.length) (own : op.onCopy = true) :
    m.leaves (view.step default tenantFilter op).1 = m.leaves view := by
  cases op with
  | createDeployJob j now =>
      simp [MemoryStore.leaves, MemoryStore.step, MemoryStore.createDeployJob,
        List.take_append_of_le_length room]
  | recordAudit | setPolicy | enforcement | createPatchJob => rfl
  | _ => simp [Op.onCopy] at own

theorem leaves_shared (m view : MemoryStore) (tenantFilter : Str) (op : Op)
    (shared : op.onCopy = false) :
    m.leaves (view.step default tenantFilter op).1 = ((m.leaves view).step default [] op).1 := by
  cases op with
  | updateCase id fn now =>
      simp only [MemoryStore.step, MemoryStore.updateCase, MemoryStore.leaves]
      cases view.cases[id]? <;> rfl
  | addCaseNote caseID author body note now =>
      cases found : view.cases[caseID]? <;>
        simp [MemoryStore.step, MemoryStore.addCaseNote, MemoryStore.leaves, found]
  | addTimeline caseID kind actor detail event now =>
      cases found : view.cases[caseID]? <;>
        simp [MemoryStore.step, MemoryStore.addTimeline, MemoryStore.leaves, found]
  | updateDeployJob id status now =>
      simp [MemoryStore.step, MemoryStore.updateDeployJob, MemoryStore.leaves, take_setStatus]
  | enforcement op =>
      cases op with
      | get | list => rfl
      | set | rollback => simp [Op.onCopy] at shared
  | recordAudit | setPolicy | createDeployJob | createPatchJob => simp [Op.onCopy] at shared
  | _ => rfl

theorem leaves_self (m : MemoryStore) : m.leaves m = m := by simp [MemoryStore.leaves]

/-- The calls of a request on a copy leave the store as those of them do that are not for the copy
alone. -/
theorem leaves_runOps (m view : MemoryStore) (tenantFilter : Str) (ops : List Op)
    (room : m.deployJobs.length ≤ view.deployJobs.length) :
    m.leaves (view.runOps default tenantFilter ops).1 =
      ((m.leaves view).runOps default [] (ops.filter fun op => !op.onCopy)).1 := by
  induction ops generalizing view with
  | nil => rfl
  | cons op rest ih =>
      have later := ih (view.step default tenantFilter op).1
        (Nat.le_trans room (jobs_step default view tenantFilter op))
      show m.leaves ((view.step default tenantFilter op).1.runOps default tenantFilter rest).1 = _
      cases own : op.onCopy with
      | true =>
          rw [later, leaves_onCopy default m view tenantFilter op room own,
            List.filter_cons_of_neg (by simp [own])]
      | false =>
          rw [later, leaves_shared default m view tenantFilter op own,
            List.filter_cons_of_pos (by simp [own])]
          rfl

theorem runOps_state (m : MemoryStore) (tenantFilter : Str) (ops : List Op) :
    (m.runOps default tenantFilter ops).1 = (m.runOps default [] ops).1 := by
  induction ops generalizing m with
  | nil => rfl
  | cons op rest ih =>
      show ((m.step default tenantFilter op).1.runOps default tenantFilter rest).1 = _
      rw [ih, step_state]
      rfl

theorem serve_state (m : MemoryStore) (r : Request) :
    (m.serve default multiTenant r).1 = (m.runOps default [] (r.kept multiTenant)).1 := by
  unfold MemoryStore.serve Request.kept
  dsimp only
  split
  · rw [leaves_runOps default m m _ r.ops (Nat.le_refl _), leaves_self]
  · exact runOps_state default m _ r.ops

theorem runOps_append (m : MemoryStore) (tenantFilter : Str) (first rest : List Op) :
    (m.runOps default tenantFilter (first ++ rest)).1 =
      ((m.runOps default tenantFilter first).1.runOps default tenantFilter rest).1 := by
  induction first generalizing m with
  | nil => rfl
  | cons op first ih => exact ih _

theorem run_state (m : MemoryStore) (requests : List Request) :
    (m.run default multiTenant requests).1 =
      (m.runOps default [] (requests.flatMap (Request.kept multiTenant))).1 := by
  induction requests generalizing m with
  | nil => rfl
  | cons r rest ih =>
      show ((m.serve default multiTenant r).1.run default multiTenant rest).1 = _
      rw [ih, List.flatMap_cons, runOps_append, serve_state]

theorem run_answers (m : MemoryStore) (before : List Request) (r : Request) (after : List Request) :
    (m.run default multiTenant (before ++ r :: after)).2[before.length]? =
      some (((m.run default multiTenant before).1.serve default multiTenant r).2) := by
  induction before generalizing m with
  | nil => rfl
  | cons first before ih => exact ih _

/-! ### The audit log -/

theorem audit_step (m : MemoryStore) (tenantFilter : Str) (op : Op) :
    (m.step default tenantFilter op).1.audit = m.audit ++ op.entry.toList := by
  cases op with
  | updateCase id fn now =>
      show (m.updateCase id fn now).1.audit = _
      unfold MemoryStore.updateCase
      split <;> simp [Op.entry]
  | addCaseNote caseID author body note now =>
      show (m.addCaseNote caseID author body note now).1.audit = _
      unfold MemoryStore.addCaseNote
      split <;> simp [Op.entry]
  | addTimeline caseID kind actor detail event now =>
      show (m.addTimeline caseID kind actor detail event now).1.audit = _
      unfold MemoryStore.addTimeline
      split <;> simp [Op.entry]
  | _ => simp [MemoryStore.step, Op.entry, MemoryStore.createCase, MemoryStore.createDeployJob,
      MemoryStore.updateDeployJob, MemoryStore.createPatchJob]

theorem audit_runOps (m : MemoryStore) (tenantFilter : Str) (ops : List Op) :
    (m.runOps default tenantFilter ops).1.audit = m.audit ++ ops.filterMap Op.entry := by
  induction ops generalizing m with
  | nil => simp [MemoryStore.runOps]
  | cons op rest ih =>
      show ((m.step default tenantFilter op).1.runOps default tenantFilter rest).1.audit = _
      rw [ih, audit_step, List.append_assoc]
      cases said : op.entry <;> simp [said]

theorem onCopy_of_entry (op : Op) (shared : op.onCopy = false) : op.entry = none := by
  cases op <;> first | rfl | simp [Op.onCopy] at shared

theorem entries_kept (r : Request) :
    (r.kept multiTenant).filterMap Op.entry =
      if isScoped multiTenant r.tenantID then [] else r.ops.filterMap Op.entry := by
  unfold Request.kept
  split
  · rw [List.filterMap_eq_nil_iff]
    intro op member
    apply onCopy_of_entry
    simpa using (List.mem_filter.mp member).2
  · rfl

theorem entries_sublist (requests : List Request) :
    ((requests.flatMap (Request.kept multiTenant)).filterMap Op.entry).Sublist
      ((requests.flatMap Request.ops).filterMap Op.entry) := by
  induction requests with
  | nil => exact List.Sublist.refl _
  | cons r rest ih =>
      rw [List.flatMap_cons, List.flatMap_cons, List.filterMap_append, List.filterMap_append]
      refine List.Sublist.append ?_ ih
      rw [entries_kept]
      split
      · exact List.nil_sublist _
      · exact List.Sublist.refl _

/-- The log loses nothing exactly if no request with a view says anything to it. -/
theorem entries_eq_iff (requests : List Request) :
    (requests.flatMap (Request.kept multiTenant)).filterMap Op.entry =
        (requests.flatMap Request.ops).filterMap Op.entry ↔
      ∀ r ∈ requests, isScoped multiTenant r.tenantID → ∀ op ∈ r.ops, op.entry = none := by
  induction requests with
  | nil => simp
  | cons r rest ih =>
      rw [List.forall_mem_cons, ← ih, List.flatMap_cons, List.flatMap_cons, List.filterMap_append,
        List.filterMap_append, entries_kept]
      have later := (entries_sublist multiTenant rest).length_le
      split
      · rename_i view
        have quiet : (∀ op ∈ r.ops, op.entry = none) ↔ r.ops.filterMap Op.entry = [] :=
          List.filterMap_eq_nil_iff.symm
        rw [List.nil_append, quiet]
        constructor
        · intro same
          have lengths := congrArg List.length same
          rw [List.length_append] at lengths
          have none_ : r.ops.filterMap Op.entry = [] := List.eq_nil_of_length_eq_zero (by omega)
          rw [none_, List.nil_append] at same
          exact ⟨fun _ => none_, same⟩
        · rintro ⟨silent, same⟩
          rw [silent view, List.nil_append, same]
      · rename_i base
        simp [base]

end Lost

/-- After every run of requests the memory store is as if exactly the calls had been made on it that
write no slice or policy through a view. A request is answered as if it came alone after those, and
the audit log is the one of a store without views exactly if no request with a view records
anything. -/
theorem run_views (default : Enforcement.EnforcementPolicy) (multiTenant : Bool) (m : MemoryStore)
    (requests : List Request) :
    (m.run default multiTenant requests).1 =
        (m.runOps default [] (requests.flatMap (Request.kept multiTenant))).1 ∧
      (∀ before r after, requests = before ++ r :: after →
        (m.run default multiTenant requests).2[before.length]? =
          some ((m.runOps default [] (before.flatMap (Request.kept multiTenant))).1.runOps default
            (r.tenantFilter multiTenant) r.ops).2) ∧
      ((m.run default multiTenant requests).1.audit = (m.run default false requests).1.audit ↔
        ∀ r ∈ requests, isScoped multiTenant r.tenantID → ∀ op ∈ r.ops, op.entry = none) := by
  refine ⟨run_state default multiTenant m requests, ?_, ?_⟩
  · intro before r after parted
    subst parted
    rw [run_answers, run_state]
    rfl
  · have single : requests.flatMap (Request.kept false) = requests.flatMap Request.ops := rfl
    rw [run_state, run_state, audit_runOps, audit_runOps, List.append_cancel_left_eq, single,
      entries_eq_iff]

end EraOne.Tenants
