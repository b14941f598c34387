import EraOne.GoTime
import EraOne.KeyedTable
import EraOne.Runs
import EraOne.Strings
import EraOne.Visits

set_option autoImplicit false

/- The jobs of the mail migration (`store.go`, `pgstore.go`): a map in memory, or a table whose
primary key is the job's id. -/
namespace EraOne.Migration

open GoTime Visits

/-- A reading of the clock in UTC, to the second. -/
structure Stamp where
  year : Nat
  month : Nat
  day : Nat
  hour : Nat
  minute : Nat
  second : Nat
  four : year < 10000
  two : month < 100 ∧ day < 100 ∧ hour < 100 ∧ minute < 100 ∧ second < 100
  deriving DecidableEq

def digit (n : Nat) : Char := Char.ofNat (48 + n % 10)

def pad : Nat → Nat → Str
  | 0, _ => []
  | width + 1, n => pad width (n / 10) ++ [digit n]

/-- The layout `20060102150405`. -/
def Stamp.format (now : Stamp) : Str :=
  pad 4 now.year ++ pad 2 now.month ++ pad 2 now.day ++ pad 2 now.hour ++ pad 2 now.minute ++
    pad 2 now.second

theorem length_pad (width n : Nat) : (pad width n).length = width := by
  induction width generalizing n with
  | zero => rfl
  | succ width ih =>
      unfold pad
      rw [List.length_append, ih, List.length_singleton]

theorem digit_inj (m n : Nat) (same : digit m = digit n) : m % 10 = n % 10 := by
  have below : ∀ a < 10, ∀ b < 10, Char.ofNat (48 + a) = Char.ofNat (48 + b) → a = b := by decide
  exact below (m % 10) (Nat.mod_lt _ (by decide)) (n % 10) (Nat.mod_lt _ (by decide)) same

theorem pad_inj (width m n : Nat) (fits : m < 10 ^ width) (fits' : n < 10 ^ width)
    (same : pad width m = pad width n) : m = n := by
  induction width generalizing m n with
  | zero =>
      rw [pow_zero] at fits fits'
      omega
  | succ width ih =>
      unfold pad at same
      obtain ⟨front, last⟩ := List.append_inj same (by rw [length_pad, length_pad])
      have tens := ih (m / 10) (n / 10) (by omega) (by omega) front
      have units := digit_inj m n (List.singleton_inj.mp last)
      omega

theorem format_inj (a b : Stamp) (same : a.format = b.format) : a = b := by
  have cut : ∀ (w : Nat) (x y : Str) (m n : Nat), x ++ pad w m = y ++ pad w n → x = y ∧
      pad w m = pad w n := by
    intro w x y m n whole
    exact List.append_inj' whole (by rw [length_pad, length_pad])
  unfold Stamp.format at same
  obtain ⟨same, second⟩ := cut _ _ _ _ _ same
  obtain ⟨same, minute⟩ := cut _ _ _ _ _ same
  obtain ⟨same, hour⟩ := cut _ _ _ _ _ same
  obtain ⟨same, day⟩ := cut _ _ _ _ _ same
  obtain ⟨year, month⟩ := cut _ _ _ _ _ same
  have hundred := a.two
  have hundred' := b.two
  cases a
  cases b
  rw [Stamp.mk.injEq]
  exact ⟨pad_inj 4 _ _ (by assumption) (by assumption) year,
    pad_inj 2 _ _ hundred.1 hundred'.1 month,
    pad_inj 2 _ _ hundred.2.1 hundred'.2.1 day, pad_inj 2 _ _ hundred.2.2.1 hundred'.2.2.1 hour,
    pad_inj 2 _ _ hundred.2.2.2.1 hundred'.2.2.2.1 minute,
    pad_inj 2 _ _ hundred.2.2.2.2 hundred'.2.2.2.2 second⟩

theorem length_format (now : Stamp) : now.format.length = 14 := by
  unfold Stamp.format
  simp only [List.length_append, length_pad]

structure Job where
  id : Str
  source : Str
  mailbox : Str
  status : Str
  itemsTotal : Int := 0
  itemsOK : Int := 0
  itemsFail : Int := 0
  error : Str := []
  createdAt : Time
  deriving DecidableEq

/-- Where the jobs are kept. -/
inductive Backend where
  | memory
  | postgres
  deriving DecidableEq

abbrev Jobs := KeyedTable compare Job.id

def jobID (now : Stamp) (source : Str) : Str := now.format ++ "-mig-".toList ++ source

theorem jobID_inj (now now' : Stamp) (source source' : Str)
    (same : jobID now source = jobID now' source') :
    now = now' ∧ source = source' := by
  unfold jobID at same
  rw [List.append_assoc, List.append_assoc] at same
  obtain ⟨stamp, rest⟩ := List.append_inj same (by rw [length_format, length_format])
  exact ⟨format_inj now now' stamp, List.append_cancel_left rest⟩

/-- What a call that creates a job reads of the clocks: the second for the id, the time for the job
it returns, and the database's own time for the row. -/
structure Reading where
  now : Stamp
  created : Time
  row : Time

/-- A number that a column of type `INT` takes. -/
def fitsInt (n : Int) : Bool := -2147483648 ≤ n && n ≤ 2147483647

/-- A text that a column of type `TEXT` takes. -/
def fitsText (s : Str) : Bool := !s.contains '\x00'

/-- What an INSERT writes of a job fits its columns. -/
def Job.fitsRow (j : Job) : Bool :=
  fitsText j.id && fitsText j.source && fitsText j.mailbox && fitsInt j.itemsTotal

/-- The map overwrites; the table refuses a key that is there and a row that does not fit. -/
def store (b : Backend) (clock : Reading) (j : Job) (s : Jobs) : Jobs :=
  match b with
  | .memory => s.insert j
  | .postgres =>
      if (s.get j.id).isSome ∨ ¬ j.fitsRow then s else s.insert { j with createdAt := clock.row }

def createQueued (b : Backend) (clock : Reading) (source mailbox : Str) (s : Jobs) : Jobs × Job :=
  let j := { id := jobID clock.now source, source := source, mailbox := mailbox,
             status := "queued".toList, createdAt := clock.created }
  (store b clock j s, j)

def createDone (b : Backend) (clock : Reading) (source mailbox : Str) (total : Int) (s : Jobs) :
    Jobs × Job :=
  let j := { id := jobID clock.now source, source := source, mailbox := mailbox,
             status := "done".toList, itemsTotal := total, itemsOK := total,
               createdAt := clock.created }
  (store b clock j s, j)

/-- The job of an id is rewritten, if there is one. -/
def update (id : Str) (f : Job → Job) (s : Jobs) : Jobs :=
  match s.get id with
  | some j => s.insert (f j)
  | none => s

def Job.withStatus (status : Str) (j : Job) : Job := { j with status := status }

def Job.completed (total ok fail : Int) (j : Job) : Job :=
  { j with status := "done".toList, itemsTotal := total, itemsOK := ok, itemsFail := fail }

def Job.failed (errMsg : Str) (j : Job) : Job :=
  { j with status := "failed".toList, error := errMsg }

def setStatus (b : Backend) (id status : Str) (s : Jobs) : Jobs :=
  if b = .postgres ∧ ¬ fitsText status then s else update id (Job.withStatus status) s

def complete (b : Backend) (id : Str) (total ok fail : Int) (s : Jobs) : Jobs :=
  if b = .postgres ∧ ¬ (fitsInt total && fitsInt ok && fitsInt fail) then s
  else update id (Job.completed total ok fail) s

def fail (b : Backend) (id errMsg : Str) (s : Jobs) : Jobs :=
  if b = .postgres ∧ ¬ fitsText errMsg then s else update id (Job.failed errMsg) s

/-- The job that is handed out: any that is queued, or one of the oldest. -/
def nextQueued (b : Backend) (order : Order Job) (s : Jobs) : Option Job :=
  (order.visit s.list).find? fun j => j.status = "queued".toList &&
    match b with
    | .memory => true
    | .postgres =>
        s.list.all fun k => !(k.status = "queued".toList && j.createdAt.after k.createdAt)

def dequeueQueued (b : Backend) (order : Order Job) (s : Jobs) : Jobs × Option Job :=
  match nextQueued b order s with
  | some j =>
      let running := j.withStatus "running".toList
      (s.insert running, some (match b with
        | .memory => running
        | .postgres => { running with error := [] }))
  | none => (s, none)

/-! ### Runs of the store -/

inductive Call where
  | createQueued (clock : Reading) (source mailbox : Str)
  | createDone (clock : Reading) (source mailbox : Str) (total : Int)
  | setStatus (id status : Str)
  | complete (id : Str) (total ok fail : Int)
  | fail (id errMsg : Str)
  | dequeueQueued (order : Order Job)

/-- A job that was created: when, and as what it was returned. -/
structure Creation where
  now : Stamp
  job : Job

/-- The store, the jobs created so far, the ids in the order they were queued, and in the order they
were handed out. -/
structure History where
  jobs : Jobs := KeyedTable.empty
  created : List Creation := []
  queued : List Str := []
  dequeued : List Str := []

def History.step (b : Backend) (h : History) : Call → History
  | .createQueued clock source mailbox =>
      let r := Migration.createQueued b clock source mailbox h.jobs
      { h with
        jobs := r.1, created := h.created ++ [⟨clock.now, r.2⟩], queued := h.queued ++ [r.2.id] }
  | .createDone clock source mailbox total =>
      let r := Migration.createDone b clock source mailbox total h.jobs
      { h with jobs := r.1, created := h.created ++ [⟨clock.now, r.2⟩] }
  | .setStatus id status =>
      { h with
        jobs := Migration.setStatus b id status h.jobs
        queued := if (h.jobs.get id).isSome ∧ status = "queued".toList then h.queued ++ [id]
          else h.queued }
  | .complete id total ok fail => { h with jobs := Migration.complete b id total ok fail h.jobs }
  | .fail id errMsg => { h with jobs := Migration.fail b id errMsg h.jobs }
  | .dequeueQueued order =>
      let r := Migration.dequeueQueued b order h.jobs
      { h with jobs := r.1, dequeued := h.dequeued ++ (r.2.map Job.id).toList }

/-- No job is lost: the ids are distinct, each leads to a job of that source and mailbox, and no job
is handed out more often than it was queued. -/
structure NoneLost (h : History) : Prop where
  distinct : (h.created.map fun c => c.job.id).Nodup
  fetched : ∀ c ∈ h.created, ∃ j, h.jobs.get c.job.id = some j ∧ j.source = c.job.source ∧
    j.mailbox = c.job.mailbox
  once : ∀ id, h.dequeued.count id ≤ h.queued.count id

/-- The job a call is about. -/
def Call.about (b : Backend) (h : History) : Call → Option Str
  | .createQueued clock source _ => some (jobID clock.now source)
  | .createDone clock source _ _ => some (jobID clock.now source)
  | .setStatus id _ => some id
  | .complete id _ _ _ => some id
  | .fail id _ => some id
  | .dequeueQueued order => (nextQueued b order h.jobs).map Job.id

/-- A call changes no job but the one it is about. -/
def Frames (b : Backend) (h : History) (call : Call) : Prop :=
  ∀ id, call.about b h ≠ some id → (h.step b call).jobs.get id = h.jobs.get id

/-- No job was created in the same second from the same source, and what is for the table fits. -/
def Fresh (b : Backend) (h : History) : Call → Prop
  | .createQueued clock source mailbox =>
      (∀ c ∈ h.created, ¬ (c.now = clock.now ∧ c.job.source = source)) ∧
        (b = .postgres → fitsText source ∧ fitsText mailbox)
  | .createDone clock source mailbox total =>
      (∀ c ∈ h.created, ¬ (c.now = clock.now ∧ c.job.source = source)) ∧
        (b = .postgres → fitsText source ∧ fitsText mailbox ∧ fitsInt total)
  | _ => True

theorem nul_not_mem_pad (width n : Nat) : '\x00' ∉ pad width n := by
  have digits : ∀ a < 10, Char.ofNat (48 + a) ≠ '\x00' := by decide
  induction width generalizing n with
  | zero => simp [pad]
  | succ width ih =>
      unfold pad
      rw [List.mem_append, List.mem_singleton, not_or]
      exact ⟨ih _, Ne.symm (digits (n % 10) (Nat.mod_lt _ (by decide)))⟩

/-- An id fits where the source does. -/
theorem fitsText_jobID (now : Stamp) (source : Str) :
    fitsText (jobID now source) = fitsText source := by
  have stamp : '\x00' ∉ now.format := by
    unfold Stamp.format
    simp only [List.mem_append, nul_not_mem_pad, or_self, not_false_eq_true]
  have infix_ : '\x00' ∉ "-mig-".toList := by decide
  unfold fitsText jobID
  rw [Bool.not_inj_iff, Bool.eq_iff_iff, List.contains_iff_mem, List.contains_iff_mem,
    List.mem_append, List.mem_append, or_iff_right (not_or.mpr ⟨stamp, infix_⟩)]

theorem get_store_of_ne (b : Backend) (clock : Reading) (j : Job) (s : Jobs) (id : Str)
    (other : id ≠ j.id) :
    (store b clock j s).get id = s.get id := by
  unfold store
  cases b with
  | memory => rw [KeyedTable.get_insert, if_neg other]
  | postgres =>
      dsimp only
      split
      · rfl
      · rw [KeyedTable.get_insert, if_neg other]

/-- A rewriting that leaves a job's id, source and mailbox. -/
def SameJob (f : Job → Job) : Prop :=
  ∀ j, (f j).id = j.id ∧ (f j).source = j.source ∧ (f j).mailbox = j.mailbox

theorem sameJob_withStatus (status : Str) : SameJob (Job.withStatus status) :=
  fun _ => ⟨rfl, rfl, rfl⟩

theorem sameJob_completed (total ok fail : Int) : SameJob (Job.completed total ok fail) :=
  fun _ => ⟨rfl, rfl, rfl⟩

theorem sameJob_failed (errMsg : Str) : SameJob (Job.failed errMsg) := fun _ => ⟨rfl, rfl, rfl⟩

theorem get_update (id : Str) (f : Job → Job) (same : SameJob f) (s : Jobs) (k : Str) :
    (update id f s).get k = if k = id then (s.get k).map f else s.get k := by
  unfold update
  by_cases here : k = id
  · subst here
    cases found : s.get k with
    | none => simp only [found, Option.map_none, ite_self]
    | some j =>
        simp only [KeyedTable.get_insert, (same j).1, KeyedTable.key_of_get s k j found, if_pos,
          Option.map_some]
  · cases found : s.get id with
    | none => simp only [if_neg here]
    | some j =>
        simp only [KeyedTable.get_insert, (same j).1, KeyedTable.key_of_get s id j found,
          if_neg here]

/-- Every job of one table is in the other, with its source and mailbox. -/
def Keeps (s t : Jobs) : Prop :=
  ∀ id j, s.get id = some j → ∃ j', t.get id = some j' ∧ j'.source = j.source ∧
    j'.mailbox = j.mailbox

theorem keeps_refl (s : Jobs) : Keeps s s := fun _ j found => ⟨j, found, rfl, rfl⟩

theorem keeps_update (id : Str) (f : Job → Job) (same : SameJob f) (s : Jobs) :
    Keeps s (update id f s) := by
  intro k j found
  rw [get_update id f same, found]
  split
  · exact ⟨f j, rfl, (same j).2⟩
  · exact ⟨j, rfl, rfl, rfl⟩

theorem of_get_update (id : Str) (f : Job → Job) (same : SameJob f) (s : Jobs) (k : Str)
    (found : ((update id f s).get k).isSome) : (s.get k).isSome := by
  rw [get_update id f same] at found
  split at found
  · rwa [Option.isSome_map] at found
  · exact found

def isQueued (s : Jobs) (id : Str) : Nat :=
  if (s.get id).any fun j => j.status = "queued".toList then 1 else 0

theorem isQueued_le (s : Jobs) (id : Str) : isQueued s id ≤ 1 := by
  unfold isQueued
  split <;> omega

/-- A job can only come to be queued by a rewriting that says so. -/
theorem isQueued_update_le (id : Str) (f : Job → Job) (same : SameJob f) (s : Jobs)
    (left : ∀ j, (f j).status ≠ "queued".toList) (k : Str) :
    isQueued (update id f s) k ≤ isQueued s k := by
  have other : isQueued (update id f s) k = if k = id then 0 else isQueued s k := by
    unfold isQueued
    rw [get_update id f same]
    split
    · cases s.get k with
      | none => rfl
      | some j => simp only [Option.map_some, Option.any_some, decide_eq_true_eq, if_neg (left j)]
    · rfl
  rw [other]
  split <;> omega

theorem nextQueued_some (b : Backend) (order : Order Job) (s : Jobs) (j : Job)
    (found : nextQueued b order s = some j) : s.get j.id = some j ∧ j.status = "queued".toList := by
  have hit := Order.of_find _ _ _ _ found
  refine ⟨(KeyedTable.mem_list s j).mp hit.1, ?_⟩
  have both := hit.2
  rw [Bool.and_eq_true, decide_eq_true_eq] at both
  exact both.1

/-- A job that is handed out is rewritten like any other. -/
theorem dequeueQueued_fst (b : Backend) (order : Order Job) (s : Jobs) (j : Job)
    (found : nextQueued b order s = some j) :
    (dequeueQueued b order s).1 = update j.id (Job.withStatus "running".toList) s := by
  unfold dequeueQueued update
  rw [found, (nextQueued_some b order s j found).1]

theorem dequeueQueued_id (b : Backend) (order : Order Job) (s : Jobs) (j : Job)
    (found : nextQueued b order s = some j) :
    (dequeueQueued b order s).2.map Job.id = some j.id := by
  unfold dequeueQueued
  rw [found]
  cases b <;> rfl

theorem dequeueQueued_none (b : Backend) (order : Order Job) (s : Jobs)
    (nothing : nextQueued b order s = none) : dequeueQueued b order s = (s, none) := by
  unfold dequeueQueued
  rw [nothing]

theorem isQueued_store_le (b : Backend) (clock : Reading) (j : Job) (s : Jobs) (id : Str)
    (left : j.status ≠ "queued".toList) : isQueued (store b clock j s) id ≤ isQueued s id := by
  by_cases here : id = j.id
  · have zero : ∀ k : Job, k.status = j.status → k.id = j.id → isQueued (s.insert k) id = 0 := by
      intro k status key
      unfold isQueued
      rw [KeyedTable.get_insert, if_pos (here.trans key.symm), Option.any_some, status]
      simp only [decide_eq_true_eq, if_neg left]
    unfold store
    cases b with
    | memory =>
        rw [zero j rfl rfl]
        exact Nat.zero_le _
    | postgres =>
        dsimp only
        split
        · exact le_refl _
        · rw [zero { j with createdAt := clock.row } rfl rfl]
          exact Nat.zero_le _
  · unfold isQueued
    rw [get_store_of_ne b clock j s id here]

theorem owned_store (b : Backend) (clock : Reading) (j : Job) (s : Jobs) (id : Str)
    (found : ((store b clock j s).get id).isSome) : id = j.id ∨ (s.get id).isSome := by
  by_cases here : id = j.id
  · exact Or.inl here
  · rw [get_store_of_ne b clock j s id here] at found
    exact Or.inr found

/-- A new job can be fetched, unless the table refused it. -/
theorem get_store_self (b : Backend) (clock : Reading) (j : Job) (s : Jobs)
    (absent : s.get j.id = none) :
    (∃ j', (store b clock j s).get j.id = some j' ∧ j'.source = j.source ∧ j'.mailbox = j.mailbox) ↔
      (b = .postgres → j.fitsRow) := by
  unfold store
  cases b with
  | memory =>
      refine iff_of_true ⟨j, ?_, rfl, rfl⟩ (fun other => by cases other)
      rw [KeyedTable.get_insert, if_pos rfl]
  | postgres =>
      simp only [absent, Option.isSome_none, Bool.false_eq_true, false_or, forall_const]
      by_cases fits : j.fitsRow = true
      · simp only [fits, not_true_eq_false, if_false, iff_true]
        refine ⟨{ j with createdAt := clock.row }, ?_, rfl, rfl⟩
        rw [KeyedTable.get_insert, if_pos rfl]
      · simp [fits, absent]

/-- What is kept besides: ids are made of second and source, every job was created, and a job that
is queued was queued more often than it was handed out. -/
structure Tracked (h : History) : Prop where
  stamped : ∀ c ∈ h.created, c.job.id = jobID c.now c.job.source
  owned : ∀ id, (h.jobs.get id).isSome → ∃ c ∈ h.created, c.job.id = id
  counted : ∀ id, h.dequeued.count id + isQueued h.jobs id ≤ h.queued.count id

theorem tracked_create (b : Backend) (clock : Reading) (h : History) (j : Job) (queued : List Str)
    (tracked : Tracked h) (named : j.id = jobID clock.now j.source)
    (counts : ∀ id, h.dequeued.count id + isQueued (store b clock j h.jobs) id ≤ queued.count id) :
    Tracked { h with
              jobs := store b clock j h.jobs, created := h.created ++ [⟨clock.now, j⟩],
              queued := queued } := by
  constructor
  · intro c member
    rcases List.mem_append.mp member with old | new
    · exact tracked.stamped c old
    · rw [List.mem_singleton.mp new]
      exact named
  · intro id found
    rcases owned_store b clock j h.jobs id found with here | old
    · exact ⟨⟨clock.now, j⟩, List.mem_append_right _ (List.mem_singleton.mpr rfl), here.symm⟩
    · obtain ⟨c, member, same⟩ := tracked.owned id old
      exact ⟨c, List.mem_append_left _ member, same⟩
  · exact counts

theorem tracked_update (h : History) (id : Str) (f : Job → Job) (same : SameJob f)
    (tracked : Tracked h) (queued dequeued : List Str)
    (counts : ∀ k, dequeued.count k + isQueued (update id f h.jobs) k ≤ queued.count k) :
    Tracked { h with jobs := update id f h.jobs, queued := queued, dequeued := dequeued } :=
  ⟨tracked.stamped, fun k found => tracked.owned k (of_get_update id f same h.jobs k found), counts⟩

theorem tracked_rewrite (h : History) (id : Str) (f : Job → Job) (same : SameJob f)
    (tracked : Tracked h) (left : ∀ j, (f j).status ≠ "queued".toList) : Tracked
    { h with jobs := update id f h.jobs } := by
  apply tracked_update h id f same tracked h.queued h.dequeued
  intro k
  exact (Nat.add_le_add_left (isQueued_update_le id f same h.jobs left k) _).trans
    (tracked.counted k)

theorem tracked_createQueued (b : Backend) (h : History) (clock : Reading) (source mailbox : Str)
    (tracked : Tracked h) : Tracked (h.step b (.createQueued clock source mailbox)) := by
  apply tracked_create b clock h _ _ tracked rfl
  intro id
  have before := tracked.counted id
  change _ ≤ (h.queued ++ [jobID clock.now source]).count id
  rw [List.count_append]
  by_cases here : id = jobID clock.now source
  · have one := isQueued_le (createQueued b clock source mailbox h.jobs).1 id
    have counted : [jobID clock.now source].count id = 1 := by
      rw [here]
      exact List.count_singleton_self
    unfold createQueued at one
    dsimp only at one
    omega
  · unfold isQueued at before ⊢
    rw [get_store_of_ne b clock _ h.jobs id here]
    omega

theorem tracked_setStatus (b : Backend) (h : History) (id status : Str) (tracked : Tracked h) :
    Tracked (h.step b (.setStatus id status)) := by
  have kept : ¬ fitsText status → status ≠ "queued".toList := by
    rintro refused rfl
    exact refused (by decide)
  change Tracked { h with
    jobs := setStatus b id status h.jobs
    queued := if (h.jobs.get id).isSome ∧ status = "queued".toList then h.queued ++ [id]
      else h.queued }
  unfold setStatus
  split
  · rename_i refused
    rw [if_neg fun both => kept refused.2 both.2]
    exact tracked
  apply tracked_update h id (Job.withStatus status) (sameJob_withStatus status) tracked _ h.dequeued
  intro k
  have before := tracked.counted k
  by_cases queued : status = "queued".toList
  · by_cases here : k = id
    · subst here
      by_cases known : (h.jobs.get k).isSome
      · have one := isQueued_le (update k (Job.withStatus status) h.jobs) k
        rw [if_pos ⟨known, queued⟩, List.count_append, List.count_singleton_self]
        omega
      · have absent : isQueued (update k (Job.withStatus status) h.jobs) k = 0 := by
          unfold isQueued
          rw [get_update k _ (sameJob_withStatus status), Option.not_isSome_iff_eq_none.mp known]
          simp
        rw [if_neg fun both => known both.1, absent]
        omega
    · have same : isQueued (update id (Job.withStatus status) h.jobs) k = isQueued h.jobs k := by
        unfold isQueued
        rw [get_update id _ (sameJob_withStatus status), if_neg here]
      rw [same]
      split
      · rw [List.count_append]
        omega
      · exact before
  · have less := isQueued_update_le id (Job.withStatus status) (sameJob_withStatus status) h.jobs
      (fun _ => queued) k
    rw [if_neg fun both => queued both.2]
    omega

theorem tracked_dequeueQueued (b : Backend) (h : History) (order : Order Job)
    (tracked : Tracked h) :
    Tracked (h.step b (.dequeueQueued order)) := by
  change Tracked { h with
    jobs := (dequeueQueued b order h.jobs).1
    dequeued := h.dequeued ++ ((dequeueQueued b order h.jobs).2.map Job.id).toList }
  cases found : nextQueued b order h.jobs with
  | none =>
      rw [dequeueQueued_none b order h.jobs found]
      simp only [Option.map_none, Option.toList_none, List.append_nil]
      exact tracked
  | some j =>
      rw [dequeueQueued_fst b order h.jobs j found, dequeueQueued_id b order h.jobs j found]
      apply tracked_update h j.id _ (sameJob_withStatus _) tracked h.queued
      intro k
      have before := tracked.counted k
      rw [Option.toList_some, List.count_append]
      by_cases here : k = j.id
      · subst here
        have stored := nextQueued_some b order h.jobs j found
        have was : isQueued h.jobs j.id = 1 := by
          unfold isQueued
          rw [stored.1, Option.any_some, stored.2]
          rfl
        have now : isQueued (update j.id (Job.withStatus "running".toList) h.jobs) j.id = 0 := by
          unfold isQueued
          rw [get_update _ _ (sameJob_withStatus _), stored.1]
          simp [Job.withStatus]
        rw [List.count_singleton_self]
        omega
      · have less :=
          isQueued_update_le j.id (Job.withStatus "running".toList) (sameJob_withStatus _) h.jobs
            (fun _ => by simp [Job.withStatus]) k
        rw [List.count_singleton, if_neg (by simpa using fun same => here same.symm)]
        omega

theorem tracked_step (b : Backend) (h : History) (call : Call) (tracked : Tracked h) :
    Tracked (h.step b call) := by
  cases call with
  | createQueued clock source mailbox => exact tracked_createQueued b h clock source mailbox tracked
  | createDone clock source mailbox total =>
      apply tracked_create b clock h _ _ tracked rfl
      intro id
      have less :=
        isQueued_store_le b clock (createDone b clock source mailbox total h.jobs).2 h.jobs id
          (by simp [createDone])
      exact (Nat.add_le_add_left less _).trans (tracked.counted id)
  | setStatus id status => exact tracked_setStatus b h id status tracked
  | complete id total ok fail =>
      change Tracked { h with jobs := complete b id total ok fail h.jobs }
      unfold complete
      split
      · exact tracked
      · exact tracked_rewrite h id _ (sameJob_completed total ok fail) tracked fun _ =>
          by simp [Job.completed]
  | fail id errMsg =>
      change Tracked { h with jobs := fail b id errMsg h.jobs }
      unfold fail
      split
      · exact tracked
      · exact tracked_rewrite h id _ (sameJob_failed errMsg) tracked fun _ => by simp [Job.failed]
  | dequeueQueued order => exact tracked_dequeueQueued b h order tracked

theorem Tracked.once {h : History} (tracked : Tracked h) (id : Str) :
    h.dequeued.count id ≤ h.queued.count id :=
  (Nat.le_add_right _ _).trans (tracked.counted id)

/-- An id is new exactly if no job was created in that second from that source. -/
theorem fresh_id_iff (h : History) (tracked : Tracked h) (now : Stamp) (source : Str) :
    jobID now source ∉ h.created.map (fun c => c.job.id) ↔
      ∀ c ∈ h.created, ¬ (c.now = now ∧ c.job.source = source) := by
  rw [List.mem_map, not_exists]
  refine forall_congr' fun c => ?_
  rw [not_and]
  refine forall_congr' fun member => not_congr ?_
  rw [tracked.stamped c member]
  constructor
  · exact jobID_inj _ _ _ _
  · intro ⟨now_, source_⟩
    rw [now_, source_]

theorem noneLost_create_iff (b : Backend) (clock : Reading) (h : History) (j : Job)
    (queued : List Str) (lost : NoneLost h) (tracked : Tracked h)
    (named : j.id = jobID clock.now j.source) (after : Tracked { h with
      jobs := store b clock j h.jobs, created := h.created ++ [⟨clock.now, j⟩],
        queued := queued }) :
    NoneLost { h with
      jobs := store b clock j h.jobs, created := h.created ++ [⟨clock.now, j⟩], queued := queued } ↔
      (∀ c ∈ h.created, ¬ (c.now = clock.now ∧ c.job.source = j.source)) ∧
        (b = .postgres → j.fitsRow) := by
  rw [← fresh_id_iff h tracked, ← named]
  have distinct : ((h.created ++ [Creation.mk clock.now j]).map fun c => c.job.id).Nodup ↔
      j.id ∉ h.created.map fun c => c.job.id := by
    rw [List.map_append, List.map_singleton, List.nodup_append]
    simp [lost.distinct]
  have absent (fresh : j.id ∉ h.created.map fun c => c.job.id) : h.jobs.get j.id = none := by
    rw [← Option.not_isSome_iff_eq_none]
    intro there
    obtain ⟨c, member, same⟩ := tracked.owned j.id there
    exact fresh (List.mem_map.mpr ⟨c, member, same⟩)
  constructor
  · intro kept
    have fresh := distinct.mp kept.distinct
    refine ⟨fresh, (get_store_self b clock j h.jobs (absent fresh)).mp ?_⟩
    exact kept.fetched ⟨clock.now, j⟩ (List.mem_append_right _ (List.mem_singleton.mpr rfl))
  · intro ⟨fresh, fits⟩
    refine ⟨distinct.mpr fresh, ?_, after.once⟩
    intro c member
    rcases List.mem_append.mp member with old | new
    · have other : c.job.id ≠ j.id := fun same => fresh (List.mem_map.mpr ⟨c, old, same⟩)
      dsimp only
      rw [get_store_of_ne b clock j h.jobs _ other]
      exact lost.fetched c old
    · rw [List.mem_singleton.mp new]
      exact (get_store_self b clock j h.jobs (absent fresh)).mpr fits

theorem noneLost_of_keeps (h : History) (jobs : Jobs) (queued dequeued : List Str)
    (lost : NoneLost h) (keeps : Keeps h.jobs jobs)
    (after : Tracked { h with jobs := jobs, queued := queued, dequeued := dequeued }) :
    NoneLost { h with jobs := jobs, queued := queued, dequeued := dequeued } := by
  refine ⟨lost.distinct, ?_, after.once⟩
  intro c member
  obtain ⟨j, found, source, mailbox⟩ := lost.fetched c member
  obtain ⟨j', found', source', mailbox'⟩ := keeps _ j found
  exact ⟨j', found', source'.trans source, mailbox'.trans mailbox⟩

theorem noneLost_step_iff (b : Backend) (h : History) (call : Call) (lost : NoneLost h)
    (tracked : Tracked h) :
    NoneLost (h.step b call) ↔ Fresh b h call := by
  have after := tracked_step b h call tracked
  cases call with
  | createQueued clock source mailbox =>
      refine (noneLost_create_iff b clock h _ _ lost tracked rfl after).trans ?_
      have zero : fitsInt 0 = true := by decide
      simp only [Job.fitsRow, fitsText_jobID, zero, Bool.and_true, Bool.and_self, Bool.and_eq_true,
        Fresh]
  | createDone clock source mailbox total =>
      refine (noneLost_create_iff b clock h _ _ lost tracked rfl after).trans ?_
      simp only [Job.fitsRow, fitsText_jobID, Bool.and_self, Bool.and_eq_true, Fresh, and_assoc]
  | setStatus id status =>
      refine iff_of_true (noneLost_of_keeps h _ _ _ lost ?_ after) trivial
      unfold setStatus
      split
      · exact keeps_refl h.jobs
      · exact keeps_update id _ (sameJob_withStatus status) h.jobs
  | complete id total ok fail =>
      refine iff_of_true (noneLost_of_keeps h _ _ _ lost ?_ after) trivial
      unfold complete
      split
      · exact keeps_refl h.jobs
      · exact keeps_update id _ (sameJob_completed total ok fail) h.jobs
  | fail id errMsg =>
      refine iff_of_true (noneLost_of_keeps h _ _ _ lost ?_ after) trivial
      unfold fail
      split
      · exact keeps_refl h.jobs
      · exact keeps_update id _ (sameJob_failed errMsg) h.jobs
  | dequeueQueued order =>
      refine iff_of_true (noneLost_of_keeps h _ _ _ lost ?_ after) trivial
      cases found : nextQueued b order h.jobs with
      | none =>
          rw [dequeueQueued_none b order h.jobs found]
          exact keeps_refl h.jobs
      | some j =>
          rw [dequeueQueued_fst b order h.jobs j found]
          exact keeps_update j.id _ (sameJob_withStatus _) h.jobs

theorem frames (b : Backend) (h : History) (call : Call) : Frames b h call := by
  intro id other
  have away (k : Str) (f : Job → Job) (same : SameJob f) (ne : some k ≠ some id) :
      (update k f h.jobs).get id = h.jobs.get id := by
    rw [get_update k f same, if_neg fun here => ne (congrArg some here.symm)]
  cases call with
  | createQueued clock source mailbox =>
      exact get_store_of_ne b clock _ h.jobs id fun here => other (congrArg some here.symm)
  | createDone clock source mailbox total =>
      exact get_store_of_ne b clock _ h.jobs id fun here => other (congrArg some here.symm)
  | setStatus k status =>
      change (setStatus b k status h.jobs).get id = _
      unfold setStatus
      split
      · rfl
      · exact away k _ (sameJob_withStatus status) other
  | complete k total ok fail =>
      change (complete b k total ok fail h.jobs).get id = _
      unfold complete
      split
      · rfl
      · exact away k _ (sameJob_completed total ok fail) other
  | fail k errMsg =>
      change (fail b k errMsg h.jobs).get id = _
      unfold fail
      split
      · rfl
      · exact away k _ (sameJob_failed errMsg) other
  | dequeueQueued order =>
      change (dequeueQueued b order h.jobs).1.get id = _
      cases found : nextQueued b order h.jobs with
      | none => rw [dequeueQueued_none b order h.jobs found]
      | some j =>
          rw [dequeueQueued_fst b order h.jobs j found]
          apply away j.id _ (sameJob_withStatus _)
          simpa only [Call.about, found, Option.map_some] using other

theorem tracked_empty : Tracked {} := by
  refine ⟨?_, ?_, ?_⟩
  · intro c member
    cases member
  · intro id found
    rw [KeyedTable.get_empty] at found
    cases found
  · intro id
    unfold isQueued
    rw [KeyedTable.get_empty]
    exact le_refl _

theorem noneLost_empty : NoneLost {} := by
  refine ⟨List.nodup_nil, ?_, fun _ => le_refl _⟩
  intro c member
  cases member

/-- No run loses a job or changes one that a call is not about, exactly if it creates no two jobs
from one source in one second, and the table takes what it is given of each. -/
theorem no_job_lost_iff (b : Backend) (calls : List Call) :
    Runs.Always (History.step b) NoneLost {} calls ∧
      Runs.Guarded (History.step b) (Frames b) {} calls ↔
      Runs.Guarded (History.step b) (Fresh b) {} calls := by
  have framed : Runs.Guarded (History.step b) (Frames b) {} calls := fun _ _ _ => frames b _ _
  have both := Runs.always_iff_guarded (History.step b) (fun h => NoneLost h ∧ Tracked h) (Fresh b)
    (fun h call holds => by
      rw [← noneLost_step_iff b h call holds.1 holds.2]
      exact and_iff_left (tracked_step b h call holds.2)) {} calls ⟨noneLost_empty, tracked_empty⟩
  have tracked : Runs.Always (History.step b) Tracked {} calls :=
    Runs.always_of_guarded (History.step b) Tracked (fun _ _ => True)
      (fun h call holds _ => tracked_step b h call holds) {} calls tracked_empty
        (fun _ _ _ => trivial)
  rw [← both, and_iff_left framed]
  constructor
  · intro all front within
    exact ⟨all front within, tracked front within⟩
  · intro all front within
    exact (all front within).1

def noon : Stamp := ⟨2026, 7, 1, 12, 0, 0, by decide, by decide⟩

/-- Two mailboxes of one source, queued in one second. -/
def twoMailboxes : List Call :=
  [.createQueued ⟨noon, zeroTime, zeroTime⟩ "communigate".toList "anna@corp.example".toList,
    .createQueued ⟨noon, zeroTime, zeroTime⟩ "communigate".toList "boris@corp.example".toList]

theorem mailbox_lost : ¬ Runs.Always (History.step .memory) NoneLost {} twoMailboxes := by
  intro always
  have distinct := always.last.distinct
  revert distinct
  decide

end EraOne.Migration
