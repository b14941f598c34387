import EraOne.GoTime
import EraOne.Processes
import EraOne.Scan
import EraOne.Strings

set_option autoImplicit false

/- Concurrent deliveries to one mailbox in Postgres (`postgres.go`, `schema.sql`). Each statement of
a call takes effect alone; `lower` stands for `strings.ToLower`. -/
namespace EraOne.MailRepo

open GoTime Processes Runs

structure Mailbox where
  id : Str
  tenantID : Str
  email : Str
  quotaBytes : Int
  usedBytes : Int
  active : Bool
  deriving DecidableEq

structure InlinePolicy where
  maxAttachmentSizeMB : Nat
  quotaMBPerUser : Nat
  retentionDays : Nat
  maxAttachmentsPerMessage : Nat
  deriving DecidableEq

structure Message where
  id : Nat
  mailboxID : Str
  email : Str
  uid : Nat
  raw : Option (List UInt8)
  minioKey : Str
  fromAddr : Str
  createdAt : Time
  deriving DecidableEq

/-- A row of the table of messages. -/
structure MessageRow where
  id : Nat
  uid : Nat
  fromAddr : Str
  rawInline : Option (List UInt8)
  sizeBytes : Nat
  minioKey : Option Str
  deriving DecidableEq

/-- The row of the mailbox, that of its tenant's policy, the messages of the mailbox and the
sequence behind their ids. -/
structure Db where
  mailbox : Mailbox
  policy : Option InlinePolicy := none
  messages : List MessageRow := []
  serial : Nat := 0

inductive DeliverErr where
  | notFound
  | messageTooLarge
  | quotaExceeded
  | blob (text : Str)
  /-- The constraint `UNIQUE (mailbox_id, uid)`. -/
  | duplicateUID
  deriving DecidableEq

/-- A call, the reading of the clock that it takes and what the blob store would answer to it. -/
structure Delivery where
  email : Str
  raw : List UInt8
  fromAddr : Str
  now : Time
  put : Except Str Str

/-- What a call is about to do: read the mailbox, read the policy, choose the UID, insert, or
count. -/
inductive Phase where
  | begun
  | found (mb : Mailbox)
  | allowed (mb : Mailbox)
  | numbered (mb : Mailbox) (uid : Nat)
  | inserted (mb : Mailbox) (uid id : Nat) (key : Option Str)
  | returned (result : Except DeliverErr Message)

structure Delivering where
  call : Delivery
  phase : Phase

def Db.getMailboxByEmail (lower : Str → Str) (db : Db) (email : Str) : Option Mailbox :=
  if db.mailbox.email = lower (Scan.trim email) then some db.mailbox else none

/-- `COALESCE(MAX(uid),0)+1`. -/
def Db.nextUID (db : Db) : Nat := (db.messages.map MessageRow.uid).foldl max 0 + 1

/-- What becomes of a call that has read the mailbox and the policy. -/
def checkSize (mb : Mailbox) (policy : Option InlinePolicy) (raw : List UInt8) :
    Except DeliverErr Unit :=
  if policy.any fun pol => pol.maxAttachmentSizeMB * 1024 * 1024 < raw.length then
    .error .messageTooLarge
  else if (raw.length : Int) > mb.quotaBytes - mb.usedBytes then .error .quotaExceeded
  else .ok ()

/-- The key under which the body is uploaded, if it is; `threshold` is there with a blob store. -/
def upload (threshold : Option Nat) (call : Delivery) : Except DeliverErr (Option Str) :=
  if threshold.any fun limit => limit < call.raw.length then
    match call.put with
    | .error e => .error (.blob e)
    | .ok key => .ok (some key)
  else .ok none

def Delivery.row (call : Delivery) (id uid : Nat) (key : Option Str) : MessageRow where
  id := id
  uid := uid
  fromAddr := call.fromAddr
  rawInline := if key.isNone then some call.raw else none
  sizeBytes := call.raw.length
  minioKey := key.filter fun k => k ≠ []

def Delivery.message (call : Delivery) (mb : Mailbox) (id uid : Nat) (key : Option Str) :
    Message where
  id := id
  mailboxID := mb.id
  email := call.email
  uid := uid
  raw := if key.getD [] = [] then some call.raw else none
  minioKey := key.getD []
  fromAddr := call.fromAddr
  createdAt := call.now

def Db.insert (db : Db) (row : MessageRow) : Except DeliverErr Db :=
  if db.messages.any fun m => m.uid = row.uid then .error .duplicateUID
  else .ok { db with messages := db.messages ++ [row] }

/-- `UPDATE … SET used_bytes=used_bytes+$1`. -/
def Db.use (db : Db) (n : Nat) : Db :=
  { db with mailbox := { db.mailbox with usedBytes := db.mailbox.usedBytes + n } }

def deliverRaw (lower : Str → Str) (threshold : Option Nat) (db : Db) (d : Delivering) :
    Db × Delivering :=
  match d.phase with
  | .begun =>
      match db.getMailboxByEmail lower d.call.email with
      | none => (db, { d with phase := .returned (.error .notFound) })
      | some mb => (db, { d with phase := .found mb })
  | .found mb =>
      match checkSize mb db.policy d.call.raw with
      | .error e => (db, { d with phase := .returned (.error e) })
      | .ok () => (db, { d with phase := .allowed mb })
  | .allowed mb => (db, { d with phase := .numbered mb db.nextUID })
  | .numbered mb uid =>
      match upload threshold d.call with
      | .error e => (db, { d with phase := .returned (.error e) })
      | .ok key =>
          -- The sequence moves on whether or not the row is accepted.
          let db := { db with serial := db.serial + 1 }
          match db.insert (d.call.row db.serial uid key) with
          | .error e => (db, { d with phase := .returned (.error e) })
          | .ok next => (next, { d with phase := .inserted mb uid db.serial key })
  | .inserted mb uid id key =>
      (db.use d.call.raw.length, { d with phase := .returned (.ok (d.call.message mb id uid key)) })
  | .returned _ => (db, d)

/-- What other calls do to the mailbox and the policy meanwhile; the quota is not lowered. -/
inductive Change where
  | raiseQuota (by_ : Nat)
  | setActive (active : Bool)
  | putPolicy (policy : InlinePolicy)

def Db.change (db : Db) : Change → Db
  | .raiseQuota by_ =>
      { db with mailbox := { db.mailbox with quotaBytes := db.mailbox.quotaBytes + by_ } }
  | .setActive active => { db with mailbox := { db.mailbox with active := active } }
  | .putPolicy policy => { db with policy := some policy }

def deliveries (lower : Str → Str) (threshold : Option Nat) :
    Program Db Delivering Delivery Change where
  start call := ⟨call, .begun⟩
  turn := deliverRaw lower threshold
  outside := Db.change

abbrev State := System Db Delivering

/-! ### The quota -/

def Db.total (db : Db) : Nat := (db.messages.map MessageRow.sizeBytes).sum

/-- No call is in progress. -/
def Idle (s : State) : Prop := ∀ d ∈ s.locals, ∃ result, d.phase = .returned result

structure QuotaKept (s : State) : Prop where
  within : s.shared.mailbox.usedBytes ≤ s.shared.mailbox.quotaBytes
  total : Idle s → s.shared.mailbox.usedBytes = s.shared.total
  distinct : (s.shared.messages.map MessageRow.uid).Nodup

/-- The check of the quota that the call has passed still holds when it counts its message. -/
def StillFits (db : Db) (d : Delivering) : Prop :=
  match d.phase with
  | .inserted _ _ _ _ => (d.call.raw.length : Int) ≤ db.mailbox.quotaBytes - db.mailbox.usedBytes
  | _ => True

/-- What a call has inserted and not counted. -/
def Delivering.uncounted (d : Delivering) : Nat :=
  match d.phase with
  | .inserted _ _ _ _ => d.call.raw.length
  | _ => 0

def uncounted (s : State) : Nat := (s.locals.map Delivering.uncounted).sum

/-- Every stored message is counted, or will be. -/
structure Counted (s : State) : Prop where
  within : s.shared.mailbox.usedBytes ≤ s.shared.mailbox.quotaBytes
  total : s.shared.mailbox.usedBytes + uncounted s = s.shared.total
  distinct : (s.shared.messages.map MessageRow.uid).Nodup

/-- A turn of a call: it touches neither the mailbox nor its messages, or inserts one, or counts
one. -/
inductive Turn (db : Db) (d : Delivering) : Db × Delivering → Prop
  | silent (serial : Nat) (phase : Phase) (free : StillFits db d) (before : d.uncounted = 0)
      (after : (Delivering.mk d.call phase).uncounted = 0) :
      Turn db d ({ db with serial := serial }, { d with phase := phase })
  | insert (serial : Nat) (row : MessageRow) (phase : Phase)
      (size : row.sizeBytes = d.call.raw.length)
      (fresh : ∀ m ∈ db.messages, m.uid ≠ row.uid) (free : StillFits db d)
      (before : d.uncounted = 0)
      (after : (Delivering.mk d.call phase).uncounted = d.call.raw.length) :
      Turn db d ({ db with serial := serial, messages := db.messages ++ [row] },
        { d with phase := phase })
  | count (result : Except DeliverErr Message) (before : d.uncounted = d.call.raw.length)
      (fits : StillFits db d ↔
        (d.call.raw.length : Int) ≤ db.mailbox.quotaBytes - db.mailbox.usedBytes) :
      Turn db d (db.use d.call.raw.length, { d with phase := .returned result })

theorem insert_ok (db next : Db) (row : MessageRow) (done : db.insert row = .ok next) :
    (∀ m ∈ db.messages, m.uid ≠ row.uid) ∧ next = { db with messages := db.messages ++ [row] } := by
  unfold Db.insert at done
  split at done
  · cases done
  · rename_i fresh
    refine ⟨?_, (Except.ok.inj done).symm⟩
    intro m member same
    exact fresh (List.any_eq_true.mpr ⟨m, member, decide_eq_true same⟩)

theorem turn_deliverRaw (lower : Str → Str) (threshold : Option Nat) (db : Db) (d : Delivering) :
    Turn db d (deliverRaw lower threshold db d) := by
  have silent (phase : Phase) (free : StillFits db d) (before : d.uncounted = 0)
      (after : (Delivering.mk d.call phase).uncounted = 0) : Turn db d
        (db, { d with phase := phase }) :=
    Turn.silent db.serial phase free before after
  obtain ⟨call, phase⟩ := d
  cases phase with
  | begun =>
      unfold deliverRaw
      dsimp only
      split
      · exact silent _ trivial rfl rfl
      · exact silent _ trivial rfl rfl
  | found mb =>
      unfold deliverRaw
      dsimp only
      split
      · exact silent _ trivial rfl rfl
      · exact silent _ trivial rfl rfl
  | allowed mb => exact silent _ trivial rfl rfl
  | numbered mb uid =>
      unfold deliverRaw
      dsimp only
      split
      · exact silent _ trivial rfl rfl
      · split
        · exact Turn.silent (db.serial + 1) _ trivial rfl rfl
        · rename_i next done
          obtain ⟨fresh, rfl⟩ := insert_ok _ next _ done
          exact Turn.insert (db.serial + 1) _ _ rfl fresh trivial rfl rfl
  | inserted mb uid id key => exact Turn.count _ rfl Iff.rfl
  | returned result => exact silent _ trivial rfl rfl

theorem quotaKept_of_counted (s : State) (counted : Counted s) : QuotaKept s := by
  refine ⟨counted.within, ?_, counted.distinct⟩
  intro idle
  have none_ : uncounted s = 0 := by
    unfold uncounted
    rw [List.sum_eq_zero_iff]
    intro n member
    obtain ⟨d, there, rfl⟩ := List.mem_map.mp member
    obtain ⟨result, returned⟩ := idle d there
    unfold Delivering.uncounted
    rw [returned]
  have total := counted.total
  rw [none_] at total
  omega

section Run

variable (lower : Str → Str) (threshold : Option Nat)

theorem total_insert (db : Db) (serial : Nat) (row : MessageRow) :
    Db.total { db with serial := serial, messages := db.messages ++ [row] } = db.total +
      row.sizeBytes := by
  unfold Db.total
  rw [List.map_append, List.sum_append]
  rfl

theorem distinct_insert (messages : List MessageRow) (row : MessageRow)
    (distinct : (messages.map MessageRow.uid).Nodup) (fresh : ∀ m ∈ messages, m.uid ≠ row.uid) :
    ((messages ++ [row]).map MessageRow.uid).Nodup := by
  rw [List.map_append, List.map_singleton, List.nodup_append]
  refine ⟨distinct, List.nodup_singleton _, ?_⟩
  intro uid member other last same
  obtain ⟨m, there, rfl⟩ := List.mem_map.mp member
  rw [List.mem_singleton.mp last] at same
  exact fresh m there same

theorem counted_step (s : State) (input : Input Delivery Change) (counted : Counted s)
    (fits : OnTurn StillFits s input) : Counted ((deliveries lower threshold).step s input) := by
  have within := counted.within
  have total := counted.total
  cases input with
  | begin call =>
      refine ⟨within, ?_, counted.distinct⟩
      unfold uncounted Program.step
      rw [List.map_append, List.sum_append]
      exact total
  | outside change =>
      cases change with
      | raiseQuota by_ =>
          refine ⟨?_, total, counted.distinct⟩
          change s.shared.mailbox.usedBytes ≤ s.shared.mailbox.quotaBytes + by_
          omega
      | setActive active => exact ⟨within, total, counted.distinct⟩
      | putPolicy policy => exact ⟨within, total, counted.distinct⟩
  | turn i =>
      cases found : s.locals[i]? with
      | none =>
          rw [step_no_turn _ s i found]
          exact counted
      | some d =>
          have allowed := fits d found
          have turn := turn_deliverRaw lower threshold s.shared d
          rw [step_turn _ s i d found]
          unfold deliveries
          dsimp only
          generalize deliverRaw lower threshold s.shared d = after at turn
          have sum (next : Delivering) := sum_set Delivering.uncounted s.locals i d next found
          unfold uncounted at total
          cases turn with
          | silent serial phase free before gone =>
              have sums := sum { d with phase := phase }
              refine ⟨within, ?_, counted.distinct⟩
              change s.shared.mailbox.usedBytes +
                (((s.locals.set i { d with phase := phase }).map Delivering.uncounted).sum : Nat) =
                (s.shared.total : Int)
              omega
          | insert serial row phase size fresh free before gone =>
              have sums := sum { d with phase := phase }
              refine ⟨within, ?_, distinct_insert _ row counted.distinct fresh⟩
              rw [total_insert]
              change s.shared.mailbox.usedBytes +
                (((s.locals.set i { d with phase := phase }).map Delivering.uncounted).sum : Nat) =
                  _
              omega
          | count result before still =>
              have sums := sum { d with phase := .returned result }
              have room := still.mp allowed
              have zero : ({ d with phase := .returned result } : Delivering).uncounted = 0 := rfl
              refine ⟨?_, ?_, counted.distinct⟩
              · change s.shared.mailbox.usedBytes + d.call.raw.length ≤ s.shared.mailbox.quotaBytes
                omega
              · change s.shared.mailbox.usedBytes + d.call.raw.length +
                  (((s.locals.set i { d with phase := .returned result }).map
                    Delivering.uncounted).sum : Nat) =
                  (s.shared.total : Int)
                omega

theorem counted_start (db : Db) (start : QuotaKept ⟨db, []⟩) : Counted ⟨db, []⟩ := by
  have idle : Idle ⟨db, []⟩ := by
    intro d member
    cases member
  refine ⟨start.within, ?_, start.distinct⟩
  rw [← start.total idle]
  unfold uncounted
  simp

theorem quotaKept_step_iff (s : State) (input : Input Delivery Change) (counted : Counted s) :
    QuotaKept ((deliveries lower threshold).step s input) ↔ OnTurn StillFits s input := by
  constructor
  · intro kept
    cases input with
    | begin call => trivial
    | outside change => trivial
    | turn i =>
        intro d found
        have turn := turn_deliverRaw lower threshold s.shared d
        rw [step_turn _ s i d found] at kept
        unfold deliveries at kept
        dsimp only at kept
        generalize deliverRaw lower threshold s.shared d = after at turn kept
        cases turn with
        | silent serial phase free before gone => exact free
        | insert serial row phase size fresh free before gone => exact free
        | count result before still =>
            rw [still]
            have within :
                s.shared.mailbox.usedBytes + d.call.raw.length ≤ s.shared.mailbox.quotaBytes :=
              kept.within
            omega
  · intro fits
    exact quotaKept_of_counted _ (counted_step lower threshold s input counted fits)

/-- In every run from a mailbox that is in order, the quota is kept, what is used is what is stored
when no call is in progress, and no two messages have one UID, if and only if whenever a call counts
its message the check of the quota that it has passed still holds. -/
theorem quota_kept_iff (db : Db) (start : QuotaKept ⟨db, []⟩)
    (inputs : List (Input Delivery Change)) :
    Always (deliveries lower threshold).step QuotaKept ⟨db, []⟩ inputs ↔
      Guarded (deliveries lower threshold).step (OnTurn StillFits) ⟨db, []⟩ inputs := by
  exact always_iff_guarded_of_invariant _ Counted QuotaKept _ (quotaKept_step_iff lower threshold)
    (counted_step lower threshold) _ inputs (counted_start db start) start

/-! ### One delivery at a time -/

def Delivering.inProgress (d : Delivering) : Bool :=
  match d.phase with
  | .begun => false
  | .returned _ => false
  | _ => true

/-- A call reads the mailbox when no other is in progress. -/
def Alone (s : State) : Input Delivery Change → Prop
  | .turn i => ∀ d, s.locals[i]? = some d → d.phase = .begun → ∀ e ∈ s.locals, e.inProgress = false
  | _ => True

/-- What a call knows of the mailbox. -/
def Sees (db : Db) (d : Delivering) : Prop :=
  match d.phase with
  | .begun => True
  | .found mb => mb.usedBytes = db.mailbox.usedBytes ∧ mb.quotaBytes ≤ db.mailbox.quotaBytes
  | .allowed _ => (d.call.raw.length : Int) ≤ db.mailbox.quotaBytes - db.mailbox.usedBytes
  | .numbered _ _ => (d.call.raw.length : Int) ≤ db.mailbox.quotaBytes - db.mailbox.usedBytes
  | .inserted _ _ _ _ => (d.call.raw.length : Int) ≤ db.mailbox.quotaBytes - db.mailbox.usedBytes
  | .returned _ => True

structure InTurn (s : State) : Prop where
  one : ∀ (i j : Nat) (d e : Delivering), s.locals[i]? = some d → s.locals[j]? = some e →
    d.inProgress = true → e.inProgress = true → i = j
  sees : ∀ d ∈ s.locals, Sees s.shared d

theorem sees_of_idle (db : Db) (d : Delivering) (idle : d.inProgress = false) : Sees db d := by
  obtain ⟨call, phase⟩ := d
  cases phase with
  | begun => trivial
  | returned result => trivial
  | found mb => cases idle
  | allowed mb => cases idle
  | numbered mb uid => cases idle
  | inserted mb uid id key => cases idle

theorem stillFits_of_sees (db : Db) (d : Delivering) (sees : Sees db d) : StillFits db d := by
  obtain ⟨call, phase⟩ := d
  cases phase with
  | inserted mb uid id key => exact sees
  | _ => trivial

theorem checkSize_ok (mb : Mailbox) (policy : Option InlinePolicy) (raw : List UInt8)
    (passed : checkSize mb policy raw = .ok ()) :
    (raw.length : Int) ≤ mb.quotaBytes - mb.usedBytes := by
  unfold checkSize at passed
  split at passed
  · cases passed
  · split at passed
    · cases passed
    · omega

theorem sees_deliverRaw (db : Db) (d : Delivering) (sees : Sees db d) :
    Sees (deliverRaw lower threshold db d).1 (deliverRaw lower threshold db d).2 := by
  obtain ⟨call, phase⟩ := d
  unfold deliverRaw
  cases phase with
  | begun =>
      dsimp only
      unfold Db.getMailboxByEmail
      split
      · trivial
      · rename_i mb found
        split at found
        · cases found
          exact ⟨rfl, le_refl _⟩
        · cases found
  | found mb =>
      dsimp only
      split
      · trivial
      · rename_i passed
        have fits := checkSize_ok mb _ _ passed
        have same : mb.usedBytes = db.mailbox.usedBytes := sees.1
        have more : mb.quotaBytes ≤ db.mailbox.quotaBytes := sees.2
        change (call.raw.length : Int) ≤ db.mailbox.quotaBytes - db.mailbox.usedBytes
        omega
  | allowed mb => exact sees
  | numbered mb uid =>
      dsimp only
      split
      · trivial
      · split
        · trivial
        · rename_i next done
          obtain ⟨-, rfl⟩ := insert_ok _ next _ done
          exact sees
  | inserted mb uid id key => trivial
  | returned result => trivial

theorem inTurn_begin (s : State) (call : Delivery) (inTurn : InTurn s) :
    InTurn ((deliveries lower threshold).step s (.begin call)) := by
  have old (i : Nat) (d : Delivering) (found : (s.locals ++ [⟨call, .begun⟩])[i]? = some d)
      (busy : d.inProgress = true) : s.locals[i]? = some d := by
    rw [List.getElem?_append] at found
    split at found
    · exact found
    · have last := List.mem_singleton.mp (List.mem_of_getElem? found)
      rw [last] at busy
      cases busy
  refine ⟨?_, ?_⟩
  · intro i j d e first second busy busy'
    exact inTurn.one i j d e (old i d first busy) (old j e second busy') busy busy'
  · intro d member
    rcases List.mem_append.mp member with before | new
    · exact inTurn.sees d before
    · rw [List.mem_singleton.mp new]
      trivial

/-- When a call takes a turn, no other is in progress. -/
theorem others_idle (s : State) (i : Nat) (d : Delivering) (found : s.locals[i]? = some d)
    (inTurn : InTurn s) (alone : Alone s (.turn i)) (active : ∀ result, d.phase ≠ .returned result)
    (j : Nat) (e : Delivering) (other : s.locals[j]? = some e) (different : i ≠ j) :
    e.inProgress = false := by
  by_cases busy : d.inProgress = true
  · by_contra running
    rw [Bool.not_eq_false] at running
    exact different (inTurn.one i j d e found other busy running)
  · have begun : d.phase = .begun := by
      obtain ⟨call, phase⟩ := d
      cases phase with
      | begun => rfl
      | returned result => exact absurd rfl (active result)
      | _ => exact absurd rfl busy
    exact alone d found begun e (List.mem_of_getElem? other)

theorem inTurn_step (s : State) (input : Input Delivery Change) (inTurn : InTurn s)
    (alone : Alone s input) :
    InTurn ((deliveries lower threshold).step s input) := by
  cases input with
  | begin call => exact inTurn_begin lower threshold s call inTurn
  | outside change =>
      refine ⟨inTurn.one, ?_⟩
      intro d member
      have sees := inTurn.sees d member
      cases change with
      | raiseQuota by_ =>
          change Sees (s.shared.change (.raiseQuota by_)) d
          unfold Sees Db.change at *
          split at sees
          all_goals first | trivial | (dsimp only; omega)
      | setActive active => exact sees
      | putPolicy policy => exact sees
  | turn i =>
      cases found : s.locals[i]? with
      | none =>
          rw [step_no_turn _ s i found]
          exact inTurn
      | some d =>
          have sees :=
            sees_deliverRaw lower threshold s.shared d (inTurn.sees d (List.mem_of_getElem? found))
          rw [step_turn _ s i d found]
          by_cases done : ∃ result, d.phase = .returned result
          · obtain ⟨result, returned⟩ := done
            have still : deliverRaw lower threshold s.shared d = (s.shared, d) := by
              unfold deliverRaw
              rw [returned]
            have same : s.locals.set i d = s.locals := by
              apply List.ext_getElem?
              intro j
              rw [List.getElem?_set]
              split
              · rename_i here
                subst here
                rw [found, if_pos (List.getElem?_eq_some_iff.mp found).1]
              · rfl
            change InTurn ⟨(deliverRaw lower threshold s.shared d).1,
              s.locals.set i (deliverRaw lower threshold s.shared d).2⟩
            rw [still, same]
            exact inTurn
          · have idle := others_idle s i d found inTurn alone fun result same => done ⟨result, same⟩
            have old (j : Nat) (e next : Delivering) (there : (s.locals.set i next)[j]? = some e) :
                (j = i ∧ e = next) ∨ (s.locals[j]? = some e ∧ e.inProgress = false) := by
              rw [List.getElem?_set] at there
              split at there
              · rename_i here
                split at there
                · exact Or.inl ⟨here.symm, (Option.some.inj there).symm⟩
                · cases there
              · rename_i other
                exact Or.inr ⟨there, idle j e there other⟩
            refine ⟨?_, ?_⟩
            · intro j k e f first second busy busy'
              rcases old j e _ first with ⟨rfl, -⟩ | ⟨-, quiet⟩
              · rcases old k f _ second with ⟨rfl, -⟩ | ⟨-, quiet⟩
                · rfl
                · rw [quiet] at busy'
                  cases busy'
              · rw [quiet] at busy
                cases busy
            · intro e member
              obtain ⟨j, there⟩ := List.mem_iff_getElem?.mp member
              rcases old j e _ there with ⟨-, rfl⟩ | ⟨-, quiet⟩
              · exact sees
              · exact sees_of_idle _ e quiet

/-- Deliveries that do not overlap keep the quota. -/
theorem quota_kept_in_turn (db : Db) (start : QuotaKept ⟨db, []⟩)
    (inputs : List (Input Delivery Change))
    (alone : Guarded (deliveries lower threshold).step Alone ⟨db, []⟩ inputs) :
    Always (deliveries lower threshold).step QuotaKept ⟨db, []⟩ inputs := by
  have kept :=
    always_iff_guarded_of_invariant _ Counted QuotaKept _ (quotaKept_step_iff lower threshold)
      (counted_step lower threshold) _ inputs (counted_start db start) start
  apply kept.mpr
  refine guarded_of_invariant _ InTurn Alone (OnTurn StillFits) ?_ _ inputs ?_ alone
  · intro s input inTurn next
    refine ⟨?_, inTurn_step lower threshold s input inTurn next⟩
    cases input with
    | turn i =>
        intro d found
        exact stillFits_of_sees s.shared d (inTurn.sees d (List.mem_of_getElem? found))
    | _ => trivial
  · refine ⟨?_, ?_⟩
    · intro i j d e first
      simp at first
    · intro d member
      cases member

end Run

/-- A mailbox with room for ten bytes. -/
def tenBytes : Db where
  mailbox :=
    { id := "m".toList, tenantID := "t".toList, email := "a@x".toList, quotaBytes := 10,
      usedBytes := 0
      active := true }

theorem tenBytes_kept : QuotaKept ⟨tenBytes, []⟩ :=
  ⟨by decide, fun _ => rfl, List.nodup_nil⟩

def sixBytes : Delivery where
  email := "a@x".toList
  raw := [1, 2, 3, 4, 5, 6]
  fromAddr := "b@y".toList
  now := zeroTime
  put := .error []

/-- Two deliveries that both pass the check before either counts its message. -/
def twoAtOnce : List (Input Delivery Change) :=
  [.begin sixBytes, .begin sixBytes, .turn 0, .turn 0, .turn 1, .turn 1, .turn 0, .turn 0, .turn 0,
    .turn 1, .turn 1, .turn 1]

theorem quota_kept_twoAtOnce_iff :
    Always (deliveries id none).step QuotaKept ⟨tenBytes, []⟩ twoAtOnce ↔
      Guarded (deliveries id none).step (OnTurn StillFits) ⟨tenBytes, []⟩ twoAtOnce :=
  quota_kept_iff id none tenBytes tenBytes_kept twoAtOnce

theorem quota_exceeded : ¬ Always (deliveries id none).step QuotaKept ⟨tenBytes, []⟩ twoAtOnce := by
  intro always
  have within := always.last.within
  revert within
  decide

end EraOne.MailRepo
