import EraOne.MigrationJobs
import EraOne.Search

set_option autoImplicit false

/- A migration job copies the messages of a source server to a target (`worker.go`, `net.go`,
`fetch.go`); in delta mode it skips those marked as seen. `quoted` stands for the verb `%q`. -/
namespace EraOne.Migration

open GoTime

/-- `strings.IndexAny(s, " )")`, as the text before it. -/
def beforeDelimiter : Str → Option Str
  | [] => none
  | c :: rest => if c = ' ' ∨ c = ')' then some [] else (beforeDelimiter rest).map (c :: ·)

/-- `uint32` of what `strconv.ParseUint(s, 10, 32)` returns beside its error. -/
def parseUint (s : Str) : Nat :=
  match Scan.parseDigits s with
  | some n => if n < 2 ^ 32 then n else 2 ^ 32 - 1
  | none => 0

def parseUID (line : Str) : Nat :=
  match Scan.splitOnce "UID ".toList line with
  | none => 0
  | some (_, rest) =>
    match beforeDelimiter (Scan.trim rest) with
    | none => 0
    | some text => if text = [] then 0 else parseUint text

/-- The text after the last `{` of a line. -/
def afterBrace (line : Str) : Option Str :=
  if '\x7b' ∈ line then some (line.reverse.takeWhile (· ≠ '\x7b')).reverse else none

/-- What `strconv.Atoi` returns beside its error, held within 64 bits. -/
def atoi (s : Str) : Int :=
  let signed : Int × Str := match s with
    | '+' :: rest => (1, rest)
    | '-' :: rest => (-1, rest)
    | _ => (1, s)
  match Scan.parseDigits signed.2 with
  | some n => max (-2 ^ 63) (min (signed.1 * n) (2 ^ 63 - 1))
  | none => 0

def parseLiteralSize (line : Str) : Int :=
  match afterBrace line with
  | none => 0
  | some rest =>
    match Scan.splitOnce ['\x7d'] rest with
    | none => 0
    | some (inner, _) => atoi (Scan.trim inner)

/-- An answer to a FETCH command: its line, the literal after it, and the UID of the message that
the server answers for. -/
structure Response where
  line : Str
  raw : Str := []
  uid : Nat
  deriving DecidableEq

structure Message where
  uid : Nat
  folder : Str
  raw : Str
  deriving DecidableEq

/-- The message of an answer; one without the body or with an empty literal is passed over. -/
def Response.message (folder : Str) (r : Response) : Option Message :=
  if ¬ Scan.contains "FETCH".toList r.line ∨ ¬ Scan.contains "BODY[]".toList r.line then none
  else if parseLiteralSize r.line ≤ 0 then none
  else some { uid := parseUID r.line, folder := folder, raw := r.raw }

def fetchFolder (folder : Str) (responses : List Response) : List Message :=
  responses.filterMap (Response.message folder)

/-- The endpoint of a source server. -/
structure NetworkConfig where
  host : Str
  port : Nat := 0
  username : Str := []
  deriving DecidableEq

def NetworkConfig.effectivePort (cfg : NetworkConfig) : Nat :=
  if cfg.port = 0 then 993 else cfg.port

/-- What a source server does during a job: its selectable mailboxes and what a folder is answered
with, or the text of the error. -/
structure Server where
  mailboxes : Except Str (List Str)
  folder : Str → Except Str (List Response)

/-- The folders of a job with the answers for each, in the order they are fetched. -/
def Server.fetch (quoted : Str → Str) (server : Server) (folder : Str) (allFolders : Bool) :
    Except Str (List (Str × List Response)) :=
  if allFolders ∨ folder = ['*'] then
    match server.mailboxes with
    | .error e => .error e
    | .ok names => names.mapM fun name =>
        match server.folder name with
        | .ok responses => .ok (name, responses)
        | .error e => .error ("imap: fetch ".toList ++ quoted name ++ ": ".toList ++ e)
  else
    let folder := if folder = [] then "INBOX".toList else folder
    match server.folder folder with
    | .ok responses => .ok [(folder, responses)]
    | .error e => .error e

structure JobRequest where
  mailbox : Str
  sourceIMAP : NetworkConfig
  folder : Str := []
  allFolders : Bool := false
  mode : Str

structure AuditEvent where
  jobID : Str
  action : Str
  sourceUID : Str := []
  detail : Str := []
  mailbox : Str
  deriving DecidableEq

def uidKey (mailbox : Str) (msg : Message) : Str :=
  mailbox ++ ':' :: msg.folder ++ ':' :: Nat.toDigits 10 msg.uid

def seen (uid : Str) (s : StrMap Bool) : Bool := s[uid]?.getD false

/-- The table refuses a key that is no text of a column, and nobody looks at the error. -/
def markSeen (b : Backend) (uid : Str) (s : StrMap Bool) : StrMap Bool :=
  if b = .postgres ∧ ¬ fitsText uid then s else s.insert uid true

/-- The state of the loop over the messages. -/
structure Copying where
  seen : StrMap Bool
  ok : Nat := 0
  fail : Nat := 0
  audit : List AuditEvent

/-- What the target answers for each message; an error has a text. -/
abbrev Target := Message → Option Str

def copyMessage (b : Backend) (jobID : Str) (req : JobRequest) (target : Target) (c : Copying)
    (msg : Message) : Copying :=
  let key := uidKey req.mailbox msg
  if req.mode = "delta".toList ∧ Migration.seen key c.seen then c
  else
    match target msg with
    | some detail =>
        { c with
          fail := c.fail + 1
          audit := c.audit ++ [⟨jobID, "MIGRATION_ITEM_FAIL".toList, key, detail, req.mailbox⟩] }
    | none =>
        { c with
          seen := markSeen b key c.seen
          ok := c.ok + 1
          audit := c.audit ++ [⟨jobID, "MIGRATION_ITEM_OK".toList, key, [], req.mailbox⟩] }

structure Worker where
  jobs : Jobs := KeyedTable.empty
  seen : StrMap Bool := ∅
  audit : List AuditEvent := []

def run (quoted : Str → Str) (b : Backend) (jobID : Str) (req : JobRequest) (server : Server)
    (target : Target) (w : Worker) : Worker :=
  let jobs := setStatus b jobID "running".toList w.jobs
  match server.fetch quoted req.folder req.allFolders with
  | .error e =>
      { w with
        jobs := fail b jobID e jobs
        audit := w.audit ++ [⟨jobID, "MIGRATION_FAILED".toList, [], e, req.mailbox⟩] }
  | .ok folders =>
      let msgs := folders.flatMap fun entry => fetchFolder entry.1 entry.2
      let c := msgs.foldl (copyMessage b jobID req target) { seen := w.seen, audit := w.audit }
      { jobs := complete b jobID msgs.length c.ok c.fail jobs
        seen := c.seen
        audit := c.audit ++ [⟨jobID, "MIGRATION_JOB_DONE".toList, [], [], req.mailbox⟩] }

/-! ### What becomes of each message -/

/-- A message as its source server knows it, in the mailbox of the login. -/
structure Origin where
  host : Str
  port : Nat
  username : Str
  folder : Str
  uid : Nat
  deriving DecidableEq

/-- An answer of a source server within a delta job. -/
structure Delivery where
  source : NetworkConfig
  mailbox : Str
  folder : Str
  response : Response
  target : Target

def Delivery.origin (d : Delivery) : Origin :=
  ⟨d.source.host, d.source.effectivePort, d.source.username, d.folder, d.response.uid⟩

inductive Outcome where
  | dropped
  | skipped
  | failed
  | written
  deriving DecidableEq

structure Event where
  origin : Origin
  key : Str
  outcome : Outcome
  deriving DecidableEq

/-- What the loop does with an answer, given the keys that are seen. -/
def Delivery.event (d : Delivery) (seen : StrMap Bool) : Event :=
  match d.response.message d.folder with
  | none => ⟨d.origin, [], .dropped⟩
  | some msg =>
      ⟨d.origin, uidKey d.mailbox msg,
        if Migration.seen (uidKey d.mailbox msg) seen then .skipped
        else if (d.target msg).isSome then .failed
        else .written⟩

structure Copied where
  seen : StrMap Bool := ∅
  history : List Event := []

def Copied.step (b : Backend) (c : Copied) (d : Delivery) : Copied :=
  let event := d.event c.seen
  ⟨if event.outcome = .written then markSeen b event.key c.seen else c.seen, c.history ++ [event]⟩

/-- A delta job: its id, its request, its source server and its target. -/
structure DeltaJob where
  jobID : Str
  mailbox : Str
  sourceIMAP : NetworkConfig
  folder : Str
  allFolders : Bool
  server : Server
  target : Target

def DeltaJob.request (job : DeltaJob) : JobRequest where
  mailbox := job.mailbox
  sourceIMAP := job.sourceIMAP
  folder := job.folder
  allFolders := job.allFolders
  mode := "delta".toList

/-- The answers a job goes through; none if they cannot be fetched. -/
def DeltaJob.deliveries (quoted : Str → Str) (job : DeltaJob) : List Delivery :=
  match job.server.fetch quoted job.folder job.allFolders with
  | .error _ => []
  | .ok folders => folders.flatMap fun entry => entry.2.map fun response =>
      ⟨job.sourceIMAP, job.mailbox, entry.1, response, job.target⟩

def Worker.step (quoted : Str → Str) (b : Backend) (w : Worker) (job : DeltaJob) : Worker :=
  run quoted b job.jobID job.request job.server job.target w

/-- A message of which it is recorded that it was written. -/
def Written (history : List Event) (origin : Origin) : Prop :=
  ∃ e ∈ history, e.origin = origin ∧ e.outcome = .written

/-- Passing a message over takes that it was written, writing it that it was not. A message that
failed and was not written since is therefore tried again when it is next delivered. -/
def Once (before : List Event) (e : Event) : Prop :=
  match e.outcome with
  | .dropped => Written before e.origin
  | .skipped => Written before e.origin
  | .failed => True
  | .written => ¬ Written before e.origin

/-- A message was written under a key that can be marked. -/
def WrittenAs (b : Backend) (history : List Event) (key : Str) : Prop :=
  (b = .memory ∨ fitsText key) ∧ ∃ e ∈ history, e.key = key ∧ e.outcome = .written

/-- The keys that are seen are those under which messages were written. -/
def Copied.Marked (b : Backend) (c : Copied) : Prop :=
  ∀ key, Migration.seen key c.seen = true ↔ WrittenAs b c.history key

/-- What the audit log says of single messages. -/
def itemActions (audit : List AuditEvent) : List (Str × Str) :=
  audit.filterMap fun e =>
    if e.action = "MIGRATION_ITEM_OK".toList ∨ e.action = "MIGRATION_ITEM_FAIL".toList
    then some (e.action, e.sourceUID) else none

def Event.action (e : Event) : Option (Str × Str) :=
  match e.outcome with
  | .written => some ("MIGRATION_ITEM_OK".toList, e.key)
  | .failed => some ("MIGRATION_ITEM_FAIL".toList, e.key)
  | _ => none

/-- The keys that are seen and the log of the messages are those of a history. -/
structure Follows (seen : StrMap Bool) (audit : List AuditEvent) (c : Copied) : Prop where
  seen : seen = c.seen
  audit : itemActions audit = c.history.filterMap Event.action

theorem itemActions_append (audit : List AuditEvent) (e : AuditEvent) :
    itemActions (audit ++ [e]) = itemActions audit ++ itemActions [e] := by
  unfold itemActions
  rw [List.filterMap_append]

/-- An entry about the job as a whole. -/
theorem follows_append_other (seen : StrMap Bool) (audit : List AuditEvent) (c : Copied)
    (e : AuditEvent) (follows : Follows seen audit c) (other : itemActions [e] = []) :
    Follows seen (audit ++ [e]) c := by
  refine ⟨follows.seen, ?_⟩
  rw [itemActions_append, other, List.append_nil]
  exact follows.audit

theorem follows_skip (b : Backend) (seen : StrMap Bool) (audit : List AuditEvent) (c : Copied)
    (d : Delivery) (follows : Follows seen audit c) (silent : (d.event c.seen).action = none) :
    Follows seen audit (c.step b d) := by
  have unwritten : (d.event c.seen).outcome ≠ .written := by
    intro written
    simp [Event.action, written] at silent
  refine ⟨?_, ?_⟩
  · simp only [Copied.step, if_neg unwritten]
    exact follows.seen
  · simp only [Copied.step, List.filterMap_append, List.filterMap_cons, silent, List.filterMap_nil,
      List.append_nil]
    exact follows.audit

/-- The body of the loop does to a message what the history records of its delivery. -/
theorem follows_copyMessage (b : Backend) (jobID : Str) (req : JobRequest) (loop : Copying)
    (c : Copied) (d : Delivery) (msg : Message) (message : d.response.message d.folder = some msg)
    (delta : req.mode = "delta".toList) (mailbox : req.mailbox = d.mailbox)
    (follows : Follows loop.seen loop.audit c) :
    Follows (copyMessage b jobID req d.target loop msg).seen
      (copyMessage b jobID req d.target loop msg).audit
      (c.step b d) := by
  have event : d.event c.seen = ⟨d.origin, uidKey d.mailbox msg,
      if Migration.seen (uidKey d.mailbox msg) c.seen then .skipped
      else if (d.target msg).isSome then .failed else .written⟩ := by
    unfold Delivery.event
    rw [message]
  unfold copyMessage
  rw [mailbox, follows.seen]
  by_cases known : Migration.seen (uidKey d.mailbox msg) c.seen = true
  · rw [if_pos ⟨delta, known⟩]
    apply follows_skip b _ _ c d follows
    rw [event, if_pos known]
    rfl
  · rw [if_neg fun both => known both.2]
    rw [if_neg known] at event
    cases refused : d.target msg with
    | some detail =>
        rw [refused, Option.isSome_some, if_pos rfl] at event
        refine ⟨?_, ?_⟩
        · simp only [Copied.step, event, reduceCtorEq, if_false]
        · simp only [Copied.step, event, itemActions_append, follows.audit, List.filterMap_append]
          rfl
    | none =>
        rw [refused] at event
        refine ⟨?_, ?_⟩
        · simp only [Copied.step, event, Option.isSome_none, Bool.false_eq_true, if_false, if_pos]
        · simp only [Copied.step, event, itemActions_append, follows.audit, List.filterMap_append]
          rfl

theorem follows_fetchFolder (b : Backend) (job : DeltaJob) (folder : Str)
    (responses : List Response) (loop : Copying) (c : Copied)
    (follows : Follows loop.seen loop.audit c) :
    Follows ((fetchFolder folder responses).foldl
      (copyMessage b job.jobID job.request job.target) loop).seen
      ((fetchFolder folder responses).foldl
        (copyMessage b job.jobID job.request job.target) loop).audit
      ((responses.map fun response =>
        Delivery.mk job.sourceIMAP job.mailbox folder response job.target).foldl
        (Copied.step b) c) := by
  induction responses generalizing loop c with
  | nil => exact follows
  | cons response rest ih =>
      rw [List.map_cons, List.foldl_cons]
      unfold fetchFolder at ih ⊢
      cases message : response.message folder with
      | none =>
          rw [List.filterMap_cons_none message]
          apply ih
          apply follows_skip b _ _ c _ follows
          unfold Delivery.event
          rw [message]
          rfl
      | some msg =>
          rw [List.filterMap_cons_some message, List.foldl_cons]
          apply ih
          exact follows_copyMessage b job.jobID job.request loop c
            (Delivery.mk job.sourceIMAP job.mailbox folder response job.target) msg message rfl rfl
              follows

theorem follows_fetched (b : Backend) (job : DeltaJob) (folders : List (Str × List Response))
    (loop : Copying) (c : Copied) (follows : Follows loop.seen loop.audit c) :
    Follows ((folders.flatMap fun entry => fetchFolder entry.1 entry.2).foldl
        (copyMessage b job.jobID job.request job.target) loop).seen
      ((folders.flatMap fun entry => fetchFolder entry.1 entry.2).foldl
        (copyMessage b job.jobID job.request job.target) loop).audit
      ((folders.flatMap fun entry => entry.2.map fun response =>
        Delivery.mk job.sourceIMAP job.mailbox entry.1 response job.target).foldl
          (Copied.step b) c) := by
  induction folders generalizing loop c with
  | nil => exact follows
  | cons entry rest ih =>
      rw [List.flatMap_cons, List.flatMap_cons, List.foldl_append, List.foldl_append]
      exact ih _ _ (follows_fetchFolder b job entry.1 entry.2 loop c follows)

/-- A job goes through its deliveries. -/
theorem follows_run (quoted : Str → Str) (b : Backend) (w : Worker) (job : DeltaJob) (c : Copied)
    (follows : Follows w.seen w.audit c) :
    Follows (w.step quoted b job).seen (w.step quoted b job).audit
      ((job.deliveries quoted).foldl (Copied.step b) c) := by
  unfold Worker.step run DeltaJob.deliveries
  rw [show job.request.folder = job.folder from rfl,
    show job.request.allFolders = job.allFolders from rfl]
  cases job.server.fetch quoted job.folder job.allFolders with
  | error e => exact follows_append_other _ _ c _ follows rfl
  | ok folders =>
      apply follows_append_other
      · exact follows_fetched b job folders _ c follows
      · rfl

end EraOne.Migration
