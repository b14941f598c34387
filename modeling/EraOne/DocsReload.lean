import EraOne.DocsSingleWriter

set_option autoImplicit false

/- Reload after a restart. A document lives in three places: the session, the blob last
written to storage and the op log row. A reload replays the whole log over the blob. -/
namespace EraOne.Docs

open Runs PgPersist

variable {w : Wire}

/-- A request on one document, besides its creation. -/
inductive EngineCall where
  | sync (op : DocOp)
  | snapshot (principal : Principal)
  deriving DecidableEq, Repr

/-- The state after a request. -/
def serve (objectId : Str) (state : AppState w) : EngineCall → AppState w
  | .sync op => (state.applySyncOp objectId op).1
  | .snapshot principal => (state.snapshot principal objectId).1

/-- The request is answered without an error. -/
def Acknowledged (objectId : Str) (state : AppState w) : EngineCall → Prop
  | .sync op => (state.applySyncOp objectId op).2.toOption.isSome
  | .snapshot principal => (state.snapshot principal objectId).2.toOption.isSome

instance (objectId : Str) (state : AppState w) : DecidablePred (Acknowledged objectId state)
  | .sync op => inferInstanceAs (Decidable ((state.applySyncOp objectId op).2.toOption.isSome))
  | .snapshot principal =>
      inferInstanceAs (Decidable ((state.snapshot principal objectId).2.toOption.isSome))

/-- After a restart the document is what the session holds now. -/
def Reloads (objectId : Str) (principal : Principal) (state : AppState w) : Prop :=
  ∃ doc, state.sessions.docs[objectId]? = some doc ∧
    (state.restart.documentFor objectId principal).2.toOption = some doc

/-- An op has no text with a NUL character, and a snapshot of the document's own tenant comes
before the first op. -/
def InStep (objectId : Str) (state : AppState w) : EngineCall → Prop
  | .sync op => op.nulFree = true
  | .snapshot principal =>
      state.sessions.tenants[objectId]? = some principal.tenantId →
        ∀ log, state.sessions.logs[objectId]? = some log → log.ops = []

/-- The three copies of a document: the session's `doc` and `log`, the blob `base`, and a
row that holds the ops of `log`, which the column takes. -/
structure Persisted (state : AppState w) (tenantId objectId : Str) (doc base : EradDocument)
    (log : OpLog) : Prop where
  tenant : state.sessions.tenants[objectId]? = some tenantId
  session : state.sessions.docs[objectId]? = some doc
  logged : state.sessions.logs[objectId]? = some log
  blob : state.storage tenantId objectId = some (w.docToJson base)
  row : ∃ rows, state.pg = some rows ∧ tenantForObject rows objectId = some tenantId ∧
    (loadLog rows tenantId objectId).ops = log.ops
  taken : log.ops.all DocOp.nulFree = true

theorem isSession_self (row : DocSession w) (tenantId objectId : Str) :
    isSession tenantId objectId row = true ↔
      row.tenantId = tenantId ∧ row.driveObjectId = objectId := by
  simp [isSession]

/-- Saving a log keeps the row's owner, and the log reads back. -/
theorem saveLog_row (faithful : w.Faithful) (rows rows' : List (DocSession w))
    (tenantId objectId : Str) (log : OpLog) (owner : tenantForObject rows objectId = some tenantId)
    (saved : saveLog rows tenantId objectId log = some rows') :
    tenantForObject rows' objectId = some tenantId ∧
      (loadLog rows' tenantId objectId).ops = log.ops := by
  obtain ⟨row, found, rfl⟩ := Option.map_eq_some_iff.mp owner
  have member := List.mem_of_find?_eq_some found
  have object : row.driveObjectId = objectId := by simpa using List.find?_some found
  have present : rows.any (isSession row.tenantId objectId) = true := by
    rw [List.any_eq_true]
    exact ⟨row, member, (isSession_self row _ _).mpr ⟨rfl, object⟩⟩
  unfold saveLog at saved
  simp only [present, ↓reduceIte, Option.ite_none_right_eq_some, Option.some.injEq] at saved
  obtain ⟨-, rfl⟩ := saved
  generalize hupdate : (fun r : DocSession w =>
    if isSession row.tenantId objectId r = true then
      { r with version := asIsize log.version, opsJson := log.ops.map w.opToJson } else r) = update
  have keepsObject (r : DocSession w) : (update r).driveObjectId = r.driveObjectId := by
    subst hupdate
    dsimp only
    split <;> rfl
  have keepsTenant (r : DocSession w) : (update r).tenantId = r.tenantId := by
    subst hupdate
    dsimp only
    split <;> rfl
  constructor
  · rw [tenantForObject, List.find?_map]
    have same : ((fun r : DocSession w => decide (r.driveObjectId = objectId)) ∘ update) =
        fun r => decide (r.driveObjectId = objectId) := by
      funext r
      simp [keepsObject]
    rw [same, found]
    simp [keepsTenant]
  · rw [loadLog, List.find?_map]
    have same : (isSession row.tenantId objectId ∘ update) = isSession row.tenantId objectId := by
      funext r
      simp [isSession, keepsObject, keepsTenant]
    rw [same]
    obtain ⟨first, hit⟩ := Option.isSome_iff_exists.mp (List.find?_isSome.mpr
      ⟨row, member, (isSession_self row _ _).mpr ⟨rfl, object⟩⟩)
    have key := List.find?_some hit
    rw [hit]
    subst hupdate
    simp only [Option.map_some, key, ↓reduceIte, List.filterMap_map]
    simp [faithful.op]

/-- A reload replays the logged ops over the blob. -/
theorem Persisted.reload {state : AppState w} {tenantId objectId : Str} {doc base : EradDocument}
    {log : OpLog} (faithful : w.Faithful)
    (persisted : Persisted state tenantId objectId doc base log) (principal : Principal)
    (member : principal.tenantId = tenantId) :
    (state.restart.documentFor objectId principal).2 = .ok (log.replay base) := by
  obtain ⟨rows, enabled, owner, ops⟩ := persisted.row
  subst member
  simp [AppState.documentFor, AppState.restart, SessionStore.empty, AppState.tenantOf, enabled,
    owner, persisted.blob, faithful.doc, AppState.openSession, OpLog.replay, ops]

theorem Persisted.reloads_iff {state : AppState w} {tenantId objectId : Str}
    {doc base : EradDocument} {log : OpLog} (faithful : w.Faithful)
    (persisted : Persisted state tenantId objectId doc base log) (principal : Principal)
    (member : principal.tenantId = tenantId) :
    Reloads objectId principal state ↔ log.replay base = doc := by
  unfold Reloads
  rw [persisted.reload faithful principal member, persisted.session]
  simp [Except.toOption, eq_comm]

/-- Where the column takes the log, an op reaches the session, the log and the row together. -/
theorem Persisted.sync {state : AppState w} {tenantId objectId : Str} {doc base : EradDocument}
    {log : OpLog} (faithful : w.Faithful)
    (persisted : Persisted state tenantId objectId doc base log) (op : DocOp)
    (nulFree : op.nulFree = true) :
    Persisted (serve objectId state (.sync op)) tenantId objectId
      (applyOp doc (state.transformedOp objectId op)) base
      (log.append (state.transformedOp objectId op)) := by
  obtain ⟨rows, enabled, owner, -⟩ := persisted.row
  have session := syncStep_session state objectId op doc log persisted.session persisted.logged
  have clean : (state.transformedOp objectId op).nulFree = true := by
    unfold AppState.transformedOp
    split
    · split
      · rw [nulFree_transformAgainst, nulFree]
      · exact nulFree
    · exact nulFree
  have taken : (log.append (state.transformedOp objectId op)).ops.all DocOp.nulFree = true := by
    simp [OpLog.append, List.all_append, persisted.taken, clean]
  have accepted := faithful.column (log.append (state.transformedOp objectId op)).ops
  cases saved : saveLog rows tenantId objectId (log.append (state.transformedOp objectId op)) with
  | none =>
      rw [taken] at accepted
      simp only [saveLog, accepted, if_true] at saved
      split at saved <;> simp at saved
  | some rows' =>
      have after := saveLog_row faithful rows rows' tenantId objectId _ owner saved
      refine ⟨?_, session.1, session.2, ?_, ⟨rows', ?_, after⟩, taken⟩
      · simp [serve, AppState.applySyncOp, persisted.logged, enabled, persisted.tenant, saved]
      · simp [serve, AppState.applySyncOp, persisted.logged, enabled, persisted.tenant, saved,
          persisted.blob]
      · simp [serve, AppState.applySyncOp, persisted.logged, enabled, persisted.tenant, saved]

/-- A snapshot that is written moves the blob to the session's document and leaves the log. -/
theorem Persisted.snapshot {state : AppState w} {tenantId objectId : Str}
    {doc base : EradDocument} {log : OpLog}
    (persisted : Persisted state tenantId objectId doc base log) (principal : Principal) :
    serve objectId state (.snapshot principal) = state ∨
      principal.tenantId = tenantId ∧
        Persisted (serve objectId state (.snapshot principal)) tenantId objectId doc doc log := by
  by_cases licensed : state.licenseOk = true
  · by_cases member : principal.tenantId = tenantId
    · subst member
      have shape : serve objectId state (.snapshot principal) =
          state.put principal.tenantId objectId (w.docToJson doc) := by
        simp [serve, AppState.snapshot, licensed, AppState.documentFor, persisted.tenant,
          persisted.session]
      rw [shape]
      exact Or.inr ⟨rfl, persisted.tenant, persisted.session, persisted.logged,
        by simp [AppState.put],
        persisted.row, persisted.taken⟩
    · have other : ¬ tenantId = principal.tenantId := fun same => member same.symm
      left
      simp [serve, AppState.snapshot, licensed, AppState.documentFor, persisted.tenant, other]
  · left
    simp [serve, AppState.snapshot, licensed]

theorem OpLog.replay_append (log : OpLog) (op : DocOp) (base : EradDocument) :
    (log.append op).replay base = applyOp (log.replay base) op := by
  simp [OpLog.append, OpLog.replay]

/-- The invariant of a run: the copies exist, and the log leads from the blob to the session. -/
def Consistent (objectId : Str) (principal : Principal) (state : AppState w) : Prop :=
  ∃ doc base log, Persisted state principal.tenantId objectId doc base log ∧ log.replay base = doc

theorem Consistent.reloads (faithful : w.Faithful) {objectId : Str} {principal : Principal}
    {state : AppState w} (consistent : Consistent objectId principal state) :
    Reloads objectId principal state := by
  obtain ⟨doc, base, log, persisted, replayed⟩ := consistent
  rw [persisted.reloads_iff faithful principal rfl]
  exact replayed

theorem consistent_serve (faithful : w.Faithful) (objectId : Str) (principal : Principal)
    (state : AppState w) (call : EngineCall) (consistent : Consistent objectId principal state)
    (inStep : InStep objectId state call) :
    Consistent objectId principal (serve objectId state call) := by
  obtain ⟨doc, base, log, persisted, replayed⟩ := consistent
  cases call with
  | sync op =>
      refine ⟨_, _, _, persisted.sync faithful op inStep, ?_⟩
      rw [OpLog.replay_append, replayed]
  | snapshot by_ =>
      rcases persisted.snapshot by_ with unchanged | ⟨member, written⟩
      · rw [unchanged]
        exact ⟨doc, base, log, persisted, replayed⟩
      · have empty : log.ops = [] := inStep (member ▸ persisted.tenant) log persisted.logged
        refine ⟨_, _, _, written, ?_⟩
        simp [OpLog.replay, empty]

/-- A new document's copies agree: its blob is the document and its log is empty. -/
theorem consistent_storeDoc (state : AppState w) (rows : List (DocSession w))
    (creator principal : Principal) (objectId : Str) (doc : EradDocument)
    (licensed : state.licenseOk = true) (enabled : state.pg = some rows)
    (fresh : ∀ row ∈ rows, row.driveObjectId ≠ objectId)
    (member : principal.tenantId = creator.tenantId) :
    Consistent objectId principal (state.storeDoc creator objectId doc).1 := by
  have apart : ∀ row ∈ rows, ¬ isSession creator.tenantId objectId row = true := by
    intro row there hit
    exact fresh row there ((isSession_self row _ _).mp hit).2
  have absent : rows.any (isSession creator.tenantId objectId) = false :=
    List.any_eq_false.mpr apart
  have unlogged : rows.find? (isSession creator.tenantId objectId) = none :=
    List.find?_eq_none.mpr apart
  have unowned : rows.find? (fun row => decide (row.driveObjectId = objectId)) = none := by
    rw [List.find?_eq_none]
    simpa using fresh
  have persisted : Persisted (state.storeDoc creator objectId doc).1 principal.tenantId objectId
      doc doc OpLog.empty := by
    rw [member]
    simp only [AppState.storeDoc, licensed, ↓reduceIte, AppState.initSession, AppState.put,
      enabled, Option.map_some]
    refine ⟨by simp, by simp, by simp, by simp, ⟨_, rfl, ?_, ?_⟩, rfl⟩
    · simp [ensureSession, absent, tenantForObject, List.find?_append, unowned]
    · simp [ensureSession, absent, loadLog, List.find?_append, unlogged, isSession, OpLog.empty]
  exact ⟨doc, doc, OpLog.empty, persisted, rfl⟩

/-- Take a licensed engine with the op log on and a document stored under a new object id. Along
every run whose ops have no NUL character in their texts, and whose snapshots come before the
first op, a restart at any point gives the session's document back. -/
theorem reload_faithful (faithful : w.Faithful) (state : AppState w)
    (rows : List (DocSession w)) (creator principal : Principal) (objectId : Str)
    (doc : EradDocument) (calls : List EngineCall) (licensed : state.licenseOk = true)
    (enabled : state.pg = some rows) (fresh : ∀ row ∈ rows, row.driveObjectId ≠ objectId)
    (member : principal.tenantId = creator.tenantId)
    (inStep : Guarded (serve objectId) (InStep objectId)
      (state.storeDoc creator objectId doc).1 calls) :
    Always (serve objectId) (Reloads objectId principal)
      (state.storeDoc creator objectId doc).1 calls := by
  have first := consistent_storeDoc state rows creator principal objectId doc licensed
    enabled fresh member
  have consistent := always_of_guarded (serve objectId) (Consistent objectId principal)
    (InStep objectId) (consistent_serve faithful objectId principal) _ calls first inStep
  intro front within
  exact (consistent front within).reloads faithful

/-- Snapshot first, then edit; another tenant's snapshot is refused and may come at any time. -/
theorem reload_after_early_snapshot :
    Always (serve "o1".toList) (Reloads "o1".toList ⟨"t1".toList, "u2".toList⟩) freshSession
      [.snapshot ⟨"t1".toList, "u1".toList⟩,
        .sync (.insertText "b1".toList 0 "ab".toList none),
        .snapshot ⟨"t2".toList, "u3".toList⟩] := by
  apply reload_faithful Wire.tagged_faithful ⟨true, SessionStore.empty, fun _ _ => none,
    some []⟩ [] ⟨"t1".toList, "u1".toList⟩ ⟨"t1".toList, "u2".toList⟩ "o1".toList
    (EradDocument.empty "b1".toList) _ rfl rfl (by simp) rfl
  rw [guarded_cons, guarded_cons, guarded_cons]
  refine ⟨?_, ?_, ?_, guarded_nil _ _ _⟩
  · intro _ log logged
    have empty : freshSession.sessions.logs["o1".toList]? = some OpLog.empty := by decide
    have same := empty.symm.trans logged
    rw [Option.some.injEq] at same
    rw [← same]
    rfl
  · show (DocOp.insertText "b1".toList 0 "ab".toList none).nulFree = true
    decide
  · intro own
    have owner : ((serve "o1".toList (serve "o1".toList freshSession
        (.snapshot ⟨"t1".toList, "u1".toList⟩))
        (.sync (.insertText "b1".toList 0 "ab".toList none))).sessions.tenants["o1".toList]?) =
        some "t1".toList := by decide
    have same := owner.symm.trans own
    revert same
    decide

/-- Insert, snapshot, restart: the insert is applied twice. -/
theorem reload_applies_twice :
    ¬ ∀ (w : Wire) (state : AppState w) (rows : List (DocSession w))
      (creator principal : Principal) (objectId uuid : Str) (calls : List EngineCall),
      w.Faithful → state.licenseOk = true → state.pg = some rows →
      (∀ row ∈ rows, row.driveObjectId ≠ objectId) →
      principal.tenantId = creator.tenantId →
      Guarded (serve objectId) (Acknowledged objectId)
        (state.createDoc creator objectId uuid).1 calls →
      Reloads objectId principal
        (calls.foldl (serve objectId) (state.createDoc creator objectId uuid).1) := by
  intro all
  obtain ⟨doc, session, reloaded⟩ := all Wire.tagged
    ⟨true, SessionStore.empty, fun _ _ => none, some []⟩ [] ⟨"t1".toList, "u1".toList⟩
    ⟨"t1".toList, "u1".toList⟩ "o1".toList "b1".toList
    [.sync (.insertText "b1".toList 0 "ab".toList none), .snapshot ⟨"t1".toList, "u1".toList⟩]
    Wire.tagged_faithful rfl rfl (by simp) rfl
    (by
      rw [guarded_cons, guarded_cons]
      exact ⟨by decide, by decide, guarded_nil _ _ _⟩)
  have same := reloaded.trans session.symm
  revert same
  decide

end EraOne.Docs
