import EraOne.IngestModel
import EraOne.Runs

set_option autoImplicit false

/- The event writer: rows for ClickHouse (`writer.go`, `inventory.go`) and the loop of a reader
(`consumer.go`). -/
namespace EraOne.Ingest

open GoTime

structure EventRow where
  eventID : Str
  correlationID : Str
  schemaVersion : Str
  observedAt : Time
  ingestedAt : Time
  tenantID : Str
  environment : Str
  clusterID : Str
  nodeID : Str
  hostname : Str
  agentID : Str
  agentVersion : Str
  platform : Str
  srcIP : List Str
  severity : Str
  category : Str
  ocsfClassUID : UInt32
  ocsfCategoryUID : UInt32
  ocsfActivityID : UInt32
  mitreTactics : List Str
  mitreTechniques : List Str
  detectionRuleID : Str
  detectionEngine : Str
  detectionConfidence : Str
  piiSanitized : UInt8
  payload : Str

structure InventoryRow where
  eventID : Str
  tenantID : Str
  nodeID : Str
  hostname : Str
  agentID : Str
  agentVersion : Str
  platform : Str
  osName : Str
  osVersion : Str
  kernel : Str
  cpuCores : Nat
  ramMB : Nat
  software : Str
  observedAt : Time
  ingestedAt : Time

def crockford : List Char := "0123456789ABCDEFGHJKMNPQRSTVWXYZ".toList

/-- The text of a ULID: its 128 bits as 26 digits to the base 32. -/
def ulidText (b : Bytes) : Str :=
  let n := b.foldl (fun n byte => n * 256 + byte.toNat) 0
  (List.range 26).map fun i => crockford.getD (n / 32 ^ (25 - i) % 32) '0'

def ulidFromBytes (b : Bytes) : Except Str Str :=
  if b.length ≠ 16 then
    .error ("event_id must be 16 bytes ULID, got ".toList ++ Nat.toDigits 10 b.length)
  else .ok (ulidText b)

def platformStr : Platform → Str
  | .windows => "windows".toList
  | .linux => "linux".toList
  | .macos => "macos".toList
  | _ => "unspecified".toList

def severityStr : Severity → Str
  | .info => "info".toList
  | .low => "low".toList
  | .medium => "medium".toList
  | .high => "high".toList
  | .critical => "critical".toList
  | _ => "unspecified".toList

def categoryStr : EventCategory → Str
  | .process => "process".toList
  | .network => "network".toList
  | .file => "file".toList
  | .registry => "registry".toList
  | .auth => "auth".toList
  | .dns => "dns".toList
  | .module => "module".toList
  | _ => "unspecified".toList

/-- The JSON of `payloadBody`. -/
def payloadJSON (env : Envelope) : Str :=
  match env.payload with
  | some (.process json) => json
  | some (.network json) => json
  | some (.file json) => json
  | some (.auth json) => json
  | some (.raw _ _ json) => json
  | _ => "\x7b\"type\":\"unknown\"\x7d".toList

/-- A source that is missing reads as an empty one. -/
def Envelope.src (env : Envelope) : Source := env.source.getD { tenantID := [], nodeID := [] }

/-- The time of ingestion, or else the present. -/
def Envelope.ingested (env : Envelope) (now : Time) : Time :=
  let ing := env.ingestedAt.getD zeroTime
  if ing.isZero then now else ing

def mapEnvelope (env : Option Envelope) (now : Time) : Except Str EventRow :=
  match env with
  | none => .error "nil envelope".toList
  | some env =>
    match ulidFromBytes env.eventID with
    | .error e => .error e
    | .ok eid =>
        .ok
          { eventID := eid
            correlationID := if env.correlationID.length = 16 then ulidText env.correlationID
              else []
            schemaVersion := env.schemaVersion
            observedAt := env.observedAt.getD zeroTime
            ingestedAt := env.ingested now
            tenantID := env.src.tenantID
            environment := env.src.environment
            clusterID := env.src.clusterID
            nodeID := env.src.nodeID
            hostname := env.src.hostname
            agentID := env.src.agentID
            agentVersion := env.src.agentVersion
            platform := platformStr env.src.platform
            srcIP := env.src.ip
            severity := severityStr env.severity
            category := categoryStr env.category
            ocsfClassUID := (env.ocsf.map OcsfMeta.classUID).getD 0
            ocsfCategoryUID := (env.ocsf.map OcsfMeta.categoryUID).getD 0
            ocsfActivityID := (env.ocsf.map OcsfMeta.activityID).getD 0
            mitreTactics := (env.mitre.map MitreMeta.tacticIDs).getD []
            mitreTechniques := (env.mitre.map MitreMeta.techniqueIDs).getD []
            detectionRuleID := (env.detection.map Detection.ruleID).getD []
            detectionEngine := (env.detection.map Detection.engine).getD []
            detectionConfidence := (env.detection.map Detection.confidence).getD "0".toList
            piiSanitized := if env.piiSanitized then 1 else 0
            payload := payloadJSON env }

def invStrField (fields : StrMap Value) (key : Str) : Str :=
  match fields[key]? with
  | some (.text s) => s
  | _ => []

def invNumField (fields : StrMap Value) (key : Str) : Int :=
  match fields[key]? with
  | some (.number n) => n
  | _ => 0

/-- The fields of a raw body. -/
def Envelope.fields (env : Envelope) : StrMap Value :=
  match env.payload with
  | some (.raw _ fields _) => fields
  | _ => ∅

def mapInventoryEnvelope (env : Envelope) (now : Time) : Except Str InventoryRow :=
  if ¬ isInventory env then .error "not an inventory envelope".toList
  else
    match ulidFromBytes env.eventID with
    | .error e => .error e
    | .ok eid =>
        let ing := env.ingested now
        let obs := env.observedAt.getD zeroTime
        let hostname := invStrField env.fields "hostname".toList
        let platform := invStrField env.fields "platform".toList
        .ok
          { eventID := eid
            tenantID := env.src.tenantID
            nodeID := env.src.nodeID
            hostname := if hostname = [] then env.src.hostname else hostname
            agentID := env.src.agentID
            agentVersion := env.src.agentVersion
            platform := if platform = [] then platformStr env.src.platform else platform
            osName := invStrField env.fields "os_name".toList
            osVersion := invStrField env.fields "os_version".toList
            kernel := invStrField env.fields "kernel".toList
            cpuCores := (invNumField env.fields "cpu_count".toList % 2 ^ 32).toNat
            ramMB := (invNumField env.fields "total_memory_mb".toList % 2 ^ 64).toNat
            software := invStrField env.fields "software".toList
            observedAt := if obs.isZero then ing else obs
            ingestedAt := ing }

inductive Row where
  | event (row : EventRow)
  | inventory (row : InventoryRow)

/-- `Writer.Insert`, given what ClickHouse does. -/
def insertRow (topic : Str) (env : Envelope) (now : Time) (failure : Option Str) : Except Str Row :=
  let row : Except Str Row :=
    if topic = "xdr.inventory".toList ∨
      isInventory env then (mapInventoryEnvelope env now).map .inventory
    else (mapEnvelope (some env) now).map .event
  match row, failure with
  | .error e, _ => .error e
  | .ok _, some e => .error e
  | .ok row, none => .ok row

/-! ### The loop of a reader -/

/-- The reader of a topic: the offset it reads next, the one that is committed, the message between
the read and the insert, and the offsets whose rows were inserted. -/
structure Reader where
  next : Nat := 0
  committed : Nat := 0
  pending : Option (Nat × Envelope) := none
  inserted : List Nat := []

inductive Event where
  /-- `ReadMessage` returns, and commits what it returns. -/
  | read
  /-- The row is inserted, unless the failure comes in between. -/
  | insert (now : Time) (failure : Option Str)
  /-- The service is stopped and started again from the committed offset. -/
  | restart

variable (topic : Str) (stream : List Envelope)

def Reader.step (r : Reader) : Event → Reader
  | .read =>
      match r.pending, stream[r.next]? with
      | none, some env =>
          { r with next := r.next + 1, committed := r.next + 1, pending := some (r.next, env) }
      | _, _ => r
  | .insert now failure =>
      match r.pending with
      | none => r
      | some (offset, env) =>
          match insertRow topic env now failure with
          | .error _ => { r with pending := none }
          | .ok _ => { r with pending := none, inserted := r.inserted ++ [offset] }
  | .restart => { r with next := r.committed, pending := none }

/-- No offset is committed before its event has been inserted. -/
def Reader.InOrder (r : Reader) : Prop := ∀ offset < r.committed, offset ∈ r.inserted

/-- The same, seen only between the turns of the loop. -/
def Reader.PassedInOrder (r : Reader) : Prop := r.pending = none → r.InOrder

/-- There is nothing to read. -/
def NothingRead (r : Reader) : Event → Prop
  | .read => r.pending = none → stream[r.next]? = none
  | _ => True

/-- What was read is inserted. -/
def Inserts (r : Reader) : Event → Prop
  | .read => True
  | .insert _ failure => ∀ offset env, r.pending = some (offset, env) →
      failure = none ∧ env.eventID.length = 16 ∧
        (topic = "xdr.inventory".toList → isInventory env = true)
  | .restart => r.pending = none

theorem ulidFromBytes_ok_iff (b : Bytes) :
    (∃ text, ulidFromBytes b = .ok text) ↔ b.length = 16 := by
  unfold ulidFromBytes
  split
  · rename_i other
    exact iff_of_false nofun other
  · rename_i size
    exact iff_of_true ⟨_, rfl⟩ (not_not.mp size)

/-- Whatever else an envelope holds, only the length of its id matters. -/
theorem mapEnvelope_ok_iff (env : Envelope) (now : Time) :
    (∃ row, mapEnvelope (some env) now = .ok row) ↔ env.eventID.length = 16 := by
  rw [← ulidFromBytes_ok_iff]
  unfold mapEnvelope
  dsimp only
  cases ulidFromBytes env.eventID with
  | error e => exact iff_of_false nofun nofun
  | ok text => exact iff_of_true ⟨_, rfl⟩ ⟨_, rfl⟩

theorem mapInventoryEnvelope_ok_iff (env : Envelope) (now : Time) :
    (∃ row, mapInventoryEnvelope env now = .ok row) ↔ env.eventID.length = 16 ∧
    isInventory env = true := by
  rw [← ulidFromBytes_ok_iff]
  unfold mapInventoryEnvelope
  by_cases inventory : isInventory env = true
  · rw [if_neg (not_not.mpr inventory)]
    dsimp only
    cases ulidFromBytes env.eventID with
    | error e => exact iff_of_false nofun (fun both => nomatch both.1)
    | ok text => exact iff_of_true ⟨_, rfl⟩ ⟨⟨_, rfl⟩, inventory⟩
  · rw [if_pos inventory]
    exact iff_of_false nofun (fun both => inventory both.2)

theorem insertRow_ok_iff (env : Envelope) (now : Time) (failure : Option Str) :
    (∃ row, insertRow topic env now failure = .ok row) ↔
      failure = none ∧ env.eventID.length = 16 ∧
        (topic = "xdr.inventory".toList → isInventory env = true) := by
  have mapped : (∃ row, (if topic = "xdr.inventory".toList ∨ isInventory env = true then
        (mapInventoryEnvelope env now).map Row.inventory
        else (mapEnvelope (some env) now).map Row.event) = Except.ok row) ↔
      env.eventID.length = 16 ∧ (topic = "xdr.inventory".toList → isInventory env = true) := by
    by_cases inventory : topic = "xdr.inventory".toList ∨ isInventory env = true
    · rw [if_pos inventory]
      have same : (∃ row, (mapInventoryEnvelope env now).map Row.inventory = Except.ok row) ↔
          ∃ row, mapInventoryEnvelope env now = .ok row := by
        cases mapInventoryEnvelope env now with
        | error e => exact iff_of_false nofun nofun
        | ok row => exact iff_of_true ⟨_, rfl⟩ ⟨_, rfl⟩
      rw [same, mapInventoryEnvelope_ok_iff]
      constructor
      · intro both
        exact ⟨both.1, fun _ => both.2⟩
      · intro both
        exact ⟨both.1, inventory.elim both.2 id⟩
    · rw [if_neg inventory]
      have same : (∃ row, (mapEnvelope (some env) now).map Row.event = Except.ok row) ↔
          ∃ row, mapEnvelope (some env) now = .ok row := by
        cases mapEnvelope (some env) now with
        | error e => exact iff_of_false nofun nofun
        | ok row => exact iff_of_true ⟨_, rfl⟩ ⟨_, rfl⟩
      rw [same, mapEnvelope_ok_iff]
      exact (and_iff_left fun here => absurd (Or.inl here) inventory).symm
  rw [← mapped]
  unfold insertRow
  dsimp only
  generalize (if topic = "xdr.inventory".toList ∨ isInventory env = true then
    (mapInventoryEnvelope env now).map Row.inventory
      else (mapEnvelope (some env) now).map Row.event) = row
  cases row with
  | error e => exact iff_of_false nofun (fun both => nomatch both.2)
  | ok row =>
      cases failure with
      | none => exact iff_of_true ⟨_, rfl⟩ ⟨rfl, _, rfl⟩
      | some e => exact iff_of_false nofun (fun both => nomatch both.1)

theorem idle_entry {p : Nat → Envelope → Prop} (offset : Nat) (env : Envelope)
    (same : (none : Option (Nat × Envelope)) = some (offset, env)) : p offset env := by
  cases same

/-- What is read is committed at once, and inserted at most once it was read. -/
structure Reader.Tracked (r : Reader) : Prop where
  next : r.next = r.committed
  inserted : ∀ offset ∈ r.inserted, offset < r.committed
  pending : ∀ offset env, r.pending = some (offset, env) → offset + 1 = r.committed ∧
    offset ∉ r.inserted

theorem tracked_reader_step (r : Reader) (event : Event) (tracked : r.Tracked) :
    (r.step topic stream event).Tracked := by
  obtain ⟨next, inserted, pending⟩ := tracked
  unfold Reader.step
  cases event with
  | read =>
      dsimp only
      split
      · rename_i env free found
        refine ⟨rfl, ?_, ?_⟩
        · intro offset member
          have below := inserted offset member
          dsimp only
          omega
        · intro offset other same
          cases same
          refine ⟨rfl, ?_⟩
          intro member
          have below := inserted _ member
          omega
      · exact ⟨next, inserted, pending⟩
  | insert now failure =>
      dsimp only
      split
      · exact ⟨next, inserted, pending⟩
      · rename_i offset env waiting
        split
        · exact ⟨next, inserted, idle_entry⟩
        · refine ⟨next, ?_, idle_entry⟩
          intro other member
          rcases List.mem_append.mp member with before | new
          · exact inserted other before
          · rw [List.mem_singleton.mp new]
            have here := (pending offset env waiting).1
            dsimp only
            omega
  | restart => exact ⟨rfl, inserted, idle_entry⟩

theorem pending_of_inOrder (r : Reader) (tracked : r.Tracked) (inOrder : r.InOrder) :
    r.pending = none := by
  cases waiting : r.pending with
  | none => rfl
  | some entry =>
      obtain ⟨last, missing⟩ := tracked.pending entry.1 entry.2 waiting
      exact absurd (inOrder entry.1 (by omega)) missing

theorem inOrder_step_iff (r : Reader) (event : Event) (tracked : r.Tracked) (inOrder : r.InOrder) :
    (r.step topic stream event).InOrder ↔ NothingRead stream r event := by
  have free := pending_of_inOrder r tracked inOrder
  unfold Reader.step
  cases event with
  | read =>
      unfold NothingRead
      dsimp only
      rw [free]
      cases found : stream[r.next]? with
      | none => exact iff_of_true inOrder (fun _ => rfl)
      | some env =>
          apply iff_of_false
          · intro all
            have member := all r.next (Nat.lt_succ_self _)
            have below := tracked.inserted r.next member
            have next := tracked.next
            omega
          · intro nothing
            cases nothing rfl
  | insert now failure =>
      dsimp only
      rw [free]
      exact iff_of_true inOrder trivial
  | restart => exact iff_of_true inOrder trivial

/-- Every offset that was passed is inserted, or about to be. -/
def Reader.Covered (r : Reader) : Prop :=
  ∀ offset < r.committed, offset ∈ r.inserted ∨ ∃ env, r.pending = some (offset, env)

theorem passedInOrder_step_iff (r : Reader) (event : Event) (tracked : r.Tracked)
    (covered : r.Covered) :
    (r.step topic stream event).PassedInOrder ↔ Inserts topic r event := by
  have passed : r.PassedInOrder := by
    intro free offset below
    rcases covered offset below with done | ⟨env, waiting⟩
    · exact done
    · rw [free] at waiting
      cases waiting
  unfold Reader.step
  cases event with
  | read =>
      apply iff_of_true _ trivial
      dsimp only
      split
      · exact nofun
      · exact passed
  | insert now failure =>
      unfold Inserts
      dsimp only
      cases waiting : r.pending with
      | none => exact iff_of_true passed idle_entry
      | some entry =>
          obtain ⟨last, missing⟩ := tracked.pending entry.1 entry.2 waiting
          have exact_ := insertRow_ok_iff topic entry.2 now failure
          have guard : (∀ offset env, some entry = some (offset, env) → failure = none ∧
              env.eventID.length = 16 ∧
              (topic = "xdr.inventory".toList → isInventory env = true)) ↔
              ∃ row, insertRow topic entry.2 now failure = .ok row := by
            rw [exact_]
            constructor
            · intro all
              exact all entry.1 entry.2 rfl
            · intro holds offset env same
              cases same
              exact holds
          rw [guard]
          dsimp only
          cases insertRow topic entry.2 now failure with
          | error e =>
              apply iff_of_false
              · intro all
                exact missing (all rfl entry.1 (by dsimp only; omega))
              · exact nofun
          | ok row =>
              apply iff_of_true _ ⟨_, rfl⟩
              intro _ offset below
              rcases covered offset below with done | ⟨env, here⟩
              · exact List.mem_append_left _ done
              · rw [waiting] at here
                cases here
                exact List.mem_append_right _ (List.mem_singleton.mpr rfl)
  | restart =>
      unfold Inserts
      constructor
      · intro all
        cases waiting : r.pending with
        | none => rfl
        | some entry =>
            obtain ⟨last, missing⟩ := tracked.pending entry.1 entry.2 waiting
            exact absurd (all rfl entry.1 (by dsimp only; omega)) missing
      · intro free _
        exact passed free

theorem covered_step (r : Reader) (event : Event) (tracked : r.Tracked) (covered : r.Covered)
    (inserts : Inserts topic r event) : (r.step topic stream event).Covered := by
  have passed := (passedInOrder_step_iff topic stream r event tracked covered).mpr inserts
  by_cases free : (r.step topic stream event).pending = none
  · intro offset below
    exact Or.inl (passed free offset below)
  · unfold Reader.step at free ⊢
    cases event with
    | read =>
        dsimp only at free ⊢
        split
        · rename_i env idle found
          intro offset below
          dsimp only at below ⊢
          by_cases last : offset = r.next
          · exact Or.inr ⟨env, by rw [last]⟩
          · have next := tracked.next
            rcases covered offset (by omega) with done | ⟨other, waiting⟩
            · exact Or.inl done
            · rw [idle] at waiting
              cases waiting
        · exact covered
    | insert now failure =>
        dsimp only at free ⊢
        split
        · exact covered
        · rename_i offset env waiting
          split at free
          · rename_i none_
            rw [none_] at waiting
            cases waiting
          · split at free <;> exact absurd rfl free
    | restart => exact absurd rfl free

/-- An accepted envelope is mapped exactly if its id has sixteen bytes. No reader keeps its offset
behind its inserts once it reads anything; between the turns of its loop it does exactly if every
insert succeeds and it is not stopped before one. -/
theorem accepted_events_stored_iff (quoted : Str → Str) (events : List Event) :
    (∀ env now later res, validateAndEnrich quoted env now = .ok res →
      ((∃ row, mapEnvelope (some res.envelope) later = .ok row) ↔
        res.envelope.eventID.length = 16)) ∧
    (Runs.Always (Reader.step topic stream) Reader.InOrder {} events ↔
      Runs.Guarded (Reader.step topic stream) (NothingRead stream) {} events) ∧
    (Runs.Always (Reader.step topic stream) Reader.PassedInOrder {} events ↔
      Runs.Guarded (Reader.step topic stream) (Inserts topic) {} events) := by
  have start : Reader.Tracked {} := ⟨rfl, nofun, idle_entry⟩
  refine ⟨?_, ?_, ?_⟩
  · intro env now later res accepted
    exact mapEnvelope_ok_iff res.envelope later
  · exact Runs.always_iff_guarded_of_invariant _ (fun r => r.Tracked ∧ r.InOrder) _ _
      (fun r event inv => inOrder_step_iff topic stream r event inv.1 inv.2)
      (fun r event inv nothing => ⟨tracked_reader_step topic stream r event inv.1,
        (inOrder_step_iff topic stream r event inv.1 inv.2).mpr nothing⟩) _ events
          ⟨start, nofun⟩ nofun
  · exact Runs.always_iff_guarded_of_invariant _ (fun r => r.Tracked ∧ r.Covered) _ _
      (fun r event inv => passedInOrder_step_iff topic stream r event inv.1 inv.2)
      (fun r event inv inserts => ⟨tracked_reader_step topic stream r event inv.1,
        covered_step topic stream r event inv.1 inv.2 inserts⟩) _ events ⟨start, nofun⟩ nofun

/-- An event whose id is one byte, or sixteen. -/
def eventOf (size : Nat) : Envelope where
  schemaVersion := supportedSchemaVersion
  eventID := List.replicate size 1
  source := some { tenantID := "t".toList, nodeID := "n".toList }
  piiSanitized := true

/-- An id of one byte is accepted and cannot be mapped; and an event whose insert fails is passed
over. -/
theorem event_lost :
    ((∃ res, validateAndEnrich id (some (eventOf 1)) zeroTime = .ok res ∧
      ¬ ∃ row, mapEnvelope (some res.envelope) zeroTime = .ok row)) ∧
    ¬ Runs.Always (Reader.step "xdr.raw".toList [eventOf 16]) Reader.PassedInOrder {}
      [.read, .insert zeroTime (some "timeout".toList)] := by
  refine ⟨⟨_, rfl, ?_⟩, ?_⟩
  · rw [mapEnvelope_ok_iff]
    decide
  · intro always
    have passed := always.last rfl 0 (by decide)
    revert passed
    decide

end EraOne.Ingest
