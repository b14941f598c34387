import EraOne.IngestModel
import EraOne.Visits

set_option autoImplicit false

/- The acknowledgement of a batch (`grpcserver/server.go`, `server/server.go`) and what the agent
makes of it (`sender.rs`). -/
namespace EraOne.Ingest

open GoTime Visits

inductive Status where
  | unspecified
  | accepted
  | partial_
  | retry
  | throttle
  | rejected
  deriving DecidableEq

structure EventBatch where
  batchID : Bytes
  agentID : Str := []
  tenantID : Str := []
  events : List (Option Envelope)

structure BatchAck where
  batchID : Bytes := []
  status : Status
  rejectedEventIDs : List Bytes := []
  retryAfterMs : Nat := 0
  message : Str

/-- A message for Kafka; `index` tells which event of the batch it was made from. -/
structure Message where
  key : Str
  value : Bytes
  index : Nat
  deriving DecidableEq

/-- What becomes of the publish to a topic: all of its messages are written or none, and all if no
error is reported. -/
structure Outcome where
  error : Option Str
  published : Bool
  sound : error = none → published = true

/-- What the gateway uses: the verb `%q`, `proto.Marshal`, the order of the loop over the topics,
and the outcomes. -/
structure Gateway where
  quoted : Str → Str
  marshal : Envelope → Option Bytes
  order : Order (Str × List Message)
  publish : Str → Outcome

structure Sorted where
  rejected : List Bytes := []
  byTopic : StrMap (List Message) := ∅

section Gateway

variable (g : Gateway)

/-- The topic and the message of an event that is not rejected. -/
def accept (now : Time) (env : Option Envelope) : Option (Str × Str × Bytes) :=
  match validateAndEnrich g.quoted env now with
  | .error _ => none
  | .ok res => (g.marshal res.envelope).map fun data => (res.topic, res.key, data)

/-- The body of the loop over the events. -/
def Sorted.add (now : Time) (s : Sorted) (entry : Option Envelope × Nat) : Sorted :=
  match accept g now entry.1 with
  | none => { s with rejected := s.rejected ++ (entry.1.map Envelope.eventID).toList }
  | some (topic, key, data) =>
      { s with
        byTopic := s.byTopic.insert topic (s.byTopic[topic]?.getD [] ++ [⟨key, data, entry.2⟩]) }

def sortEvents (now : Time) (events : List (Option Envelope)) : Sorted :=
  events.zipIdx.foldl (Sorted.add g now) {}

/-- The loop over the topics: what was written, how many messages it took for accepted, and the
error that ended it. -/
def publishAll : List (Str × List Message) → List (Str × Message) × Nat × Option Str
  | [] => ([], 0, none)
  | (topic, msgs) :: rest =>
      let here := if (g.publish topic).published then msgs.map fun m => (topic, m) else []
      match (g.publish topic).error with
      | some e => (here, 0, some e)
      | none =>
          (here ++ (publishAll rest).1, msgs.length + (publishAll rest).2.1, (publishAll rest).2.2)

def flatten (ids : List Bytes) : List Bytes := ids.filter fun id => id ≠ []

/-- The answer, and what was written to Kafka. -/
def pushEvents (now : Time) : Option EventBatch → BatchAck × List (Str × Message)
  | none => ({ status := .rejected, message := "empty batch".toList }, [])
  | some batch =>
      let sorted := sortEvents g now batch.events
      let done := publishAll g (g.order.visit sorted.byTopic.toList)
      match done.2.2 with
      | some e =>
          ({ batchID := batch.batchID, status := .retry, retryAfterMs := 1000, message := e },
            done.1)
      | none =>
          let status :=
            if sorted.rejected ≠ [] ∧ 0 < done.2.1 then .partial_
            else if done.2.1 = 0 then .rejected
            else .accepted
          ({ batchID := batch.batchID, status := status, rejectedEventIDs := flatten sorted.rejected
             message := "ACCEPTED".toList }, done.1)

end Gateway

/-- The status that `handleIngest` answers over REST. -/
def restStatus : Status → Str
  | .rejected => "REJECTED".toList
  | .retry => "RETRY".toList
  | .throttle => "RETRY".toList
  | .partial_ => "PARTIAL".toList
  | _ => "ACCEPTED".toList

/-- The events that `push_batch` returns to be queued again. -/
def requeued (ack : BatchAck) (backup : List Envelope) : Option (List Envelope) :=
  if ack.status = .retry ∨ ack.status = .throttle then some backup else none

/-! ### What an answer says -/

/-- The event at an index was written to Kafka. -/
def Written (written : List (Str × Message)) (i : Nat) : Prop :=
  ∃ entry ∈ written, entry.2.index = i

/-- An answer says of the events what became of them. -/
structure Truthful (events : List Envelope) (ack : BatchAck) (written : List (Str × Message)) :
    Prop where
  accepted : ack.status = .accepted → ∀ i < events.length, Written written i
  partial_ : ack.status = .partial_ →
    (∃ i < events.length, Written written i) ∧ ∃ i < events.length, ¬ Written written i
  rejected : ack.status = .rejected → ∀ i < events.length, ¬ Written written i
  listed : ack.status ≠ .retry → ∀ (i : Nat) (env : Envelope), events[i]? = some env →
    env.eventID ≠ [] →
    ¬ Written written i → env.eventID ∈ ack.rejectedEventIDs
  retry : ack.status = .retry → ∀ i < events.length, ¬ Written written i
  requeued : ∀ again, requeued ack events = some again → ∀ i < events.length, ¬ Written written i

section Gateway

variable (g : Gateway) (now : Time)

/-- The topics of the events that are not rejected, in the order in which they are published. -/
def topics (events : List (Option Envelope)) : List Str :=
  (g.order.visit (sortEvents g now events).byTopic.toList).map Prod.fst

/-- No publish fails, or the first one does and writes nothing. -/
def AllOrNone (events : List (Option Envelope)) : Prop :=
  (∀ topic ∈ topics g now events, (g.publish topic).error = none) ∨
    ∃ first, (topics g now events).head? = some first ∧ (g.publish first).error ≠ none ∧
      (g.publish first).published = false

/-! ### The loop over the events -/

/-- What the loop has made of the events so far. -/
structure Sorts (events : List (Option Envelope)) (s : Sorted) : Prop where
  messages : ∀ i, (∃ (topic : Str) (msgs : List Message), s.byTopic[topic]? = some msgs ∧
    ∃ m ∈ msgs, m.index = i) ↔
    ∃ env, events[i]? = some env ∧ (accept g now env).isSome = true
  nonempty : ∀ (topic : Str) (msgs : List Message), s.byTopic[topic]? = some msgs → msgs ≠ []
  listed : ∀ env, some env ∈ events → accept g now (some env) = none → env.eventID ∈ s.rejected
  backed : s.rejected ≠ [] → ∃ env, some env ∈ events ∧ accept g now (some env) = none

theorem sorts_reject (events : List (Option Envelope)) (s : Sorted) (env : Option Envelope)
    (sorts : Sorts g now events s) (refused : accept g now env = none) :
    Sorts g now (events ++ [env]) (s.add g now (env, events.length)) := by
  unfold Sorted.add
  dsimp only
  rw [refused]
  refine ⟨?_, sorts.nonempty, ?_, ?_⟩
  · intro i
    rw [sorts.messages i]
    constructor
    · intro ⟨other, found, good⟩
      refine ⟨other, ?_, good⟩
      rw [List.getElem?_append_left (List.getElem?_eq_some_iff.mp found).1]
      exact found
    · intro ⟨other, found, good⟩
      refine ⟨other, ?_, good⟩
      rw [List.getElem?_append] at found
      split at found
      · exact found
      · rw [List.mem_singleton.mp (List.mem_of_getElem? found), refused] at good
        cases good
  · intro other member none_
    rcases List.mem_append.mp member with before | new
    · exact List.mem_append_left _ (sorts.listed other before none_)
    · rw [← List.mem_singleton.mp new]
      exact List.mem_append_right _ (List.mem_singleton.mpr rfl)
  · intro some_
    by_cases old : s.rejected = []
    · cases env with
      | none =>
          rw [old] at some_
          exact absurd rfl some_
      | some env => exact ⟨env, List.mem_append_right _ (List.mem_singleton.mpr rfl), refused⟩
    · obtain ⟨other, member, none_⟩ := sorts.backed old
      exact ⟨other, List.mem_append_left _ member, none_⟩

theorem sorts_accept (events : List (Option Envelope)) (s : Sorted) (env : Option Envelope)
    (sorts : Sorts g now events s) (made : Str × Str × Bytes)
    (accepted : accept g now env = some made) :
    Sorts g now (events ++ [env]) (s.add g now (env, events.length)) := by
  have byTopic : (s.add g now (env, events.length)).byTopic =
      s.byTopic.insert made.1
        (s.byTopic[made.1]?.getD [] ++ [⟨made.2.1, made.2.2, events.length⟩]) := by
    unfold Sorted.add
    dsimp only
    rw [accepted]
  have rejected : (s.add g now (env, events.length)).rejected = s.rejected := by
    unfold Sorted.add
    dsimp only
    rw [accepted]
  have still (other : Envelope) (none_ : accept g now (some other) = none) : some other ≠ env := by
    intro same
    rw [← same, none_] at accepted
    cases accepted
  refine ⟨?_, ?_, ?_, ?_⟩
  · intro i
    have old := sorts.messages i
    have grown : (∃ (topic : Str) (msgs : List Message),
          (s.add g now (env, events.length)).byTopic[topic]? = some msgs ∧
            ∃ m ∈ msgs, m.index = i) ↔
        (∃ (topic : Str) (msgs : List Message), s.byTopic[topic]? = some msgs ∧
          ∃ m ∈ msgs, m.index = i) ∨
          i = events.length := by
      rw [byTopic]
      simp only [Maps.getElem?_insert_eq]
      constructor
      · intro ⟨topic, msgs, found, m, member, index⟩
        split at found
        · rw [← Option.some.inj found] at member
          rcases List.mem_append.mp member with before | new
          · cases there : s.byTopic[made.1]? with
            | none =>
                rw [there] at before
                cases before
            | some others =>
                rw [there] at before
                exact Or.inl ⟨made.1, others, there, m, before, index⟩
          · rw [List.mem_singleton.mp new] at index
            exact Or.inr index.symm
        · exact Or.inl ⟨topic, msgs, found, m, member, index⟩
      · intro either
        rcases either with ⟨topic, msgs, found, m, member, index⟩ | rfl
        · by_cases here : topic = made.1
          · refine ⟨topic, _, if_pos here, m, ?_, index⟩
            rw [← here, found]
            exact List.mem_append_left _ member
          · exact ⟨topic, msgs, by rw [if_neg here]; exact found, m, member, index⟩
        · exact ⟨made.1, _, if_pos rfl, _, List.mem_append_right _ (List.mem_singleton.mpr rfl),
            rfl⟩
    rw [grown, old]
    constructor
    · intro either
      rcases either with ⟨other, found, good⟩ | rfl
      · refine ⟨other, ?_, good⟩
        rw [List.getElem?_append_left (List.getElem?_eq_some_iff.mp found).1]
        exact found
      · refine ⟨env, ?_, ?_⟩
        · rw [List.getElem?_append_right (Nat.le_refl _), Nat.sub_self]
          rfl
        · rw [accepted]
          rfl
    · intro ⟨other, found, good⟩
      rw [List.getElem?_append] at found
      split at found
      · exact Or.inl ⟨other, found, good⟩
      · rename_i past
        have within := (List.getElem?_eq_some_iff.mp found).1
        rw [List.length_singleton] at within
        exact Or.inr (by omega)
  · intro topic msgs found
    rw [byTopic, Maps.getElem?_insert_eq] at found
    split at found
    · rw [← Option.some.inj found]
      simp
    · exact sorts.nonempty topic msgs found
  · intro other member none_
    rw [rejected]
    rcases List.mem_append.mp member with before | new
    · exact sorts.listed other before none_
    · exact absurd (List.mem_singleton.mp new) (still other none_)
  · intro some_
    rw [rejected] at some_
    obtain ⟨other, member, none_⟩ := sorts.backed some_
    exact ⟨other, List.mem_append_left _ member, none_⟩

theorem sorts_sortEvents (events : List (Option Envelope)) :
    Sorts g now events (sortEvents g now events) := by
  induction events using List.reverseRecOn with
  | nil =>
      refine ⟨?_, ?_, ?_, ?_⟩
      · intro i
        simp [sortEvents]
      · intro topic msgs found
        simp [sortEvents] at found
      · intro env member
        cases member
      · intro some_
        exact absurd rfl some_
  | append_singleton events env ih =>
      have last : sortEvents g now (events ++ [env]) =
          (sortEvents g now events).add g now (env, events.length) := by
        unfold sortEvents
        rw [List.zipIdx_append, List.foldl_append]
        simp
      rw [last]
      cases accepted : accept g now env with
      | none => exact sorts_reject g now events _ env ih accepted
      | some made => exact sorts_accept g now events _ env ih made accepted

/-! ### The loop over the topics -/

theorem publishAll_none_iff (entries : List (Str × List Message)) :
    (publishAll g entries).2.2 = none ↔ ∀ entry ∈ entries, (g.publish entry.1).error = none := by
  induction entries with
  | nil => simp [publishAll]
  | cons entry rest ih =>
      rw [List.forall_mem_cons, publishAll]
      cases (g.publish entry.1).error with
      | none => simpa using ih
      | some e => simp

theorem mem_publishAll (entries : List (Str × List Message)) (written : Str × Message)
    (member : written ∈ (publishAll g entries).1) :
    ∃ msgs, (written.1, msgs) ∈ entries ∧ written.2 ∈ msgs := by
  induction entries with
  | nil => cases member
  | cons entry rest ih =>
      have here (inside : written ∈
          if (g.publish entry.1).published then entry.2.map fun m => (entry.1, m) else []) :
          ∃ msgs, (written.1, msgs) ∈ entry :: rest ∧ written.2 ∈ msgs := by
        split at inside
        · obtain ⟨m, there, rfl⟩ := List.mem_map.mp inside
          exact ⟨entry.2, List.mem_cons_self, there⟩
        · cases inside
      unfold publishAll at member
      dsimp only at member
      split at member
      · exact here member
      · rcases List.mem_append.mp member with first | later
        · exact here first
        · obtain ⟨msgs, there, inside⟩ := ih later
          exact ⟨msgs, List.mem_cons_of_mem _ there, inside⟩

theorem publishAll_ok (entries : List (Str × List Message))
    (ok : ∀ entry ∈ entries, (g.publish entry.1).error = none) :
    (publishAll g entries).2.1 = (publishAll g entries).1.length ∧
      ∀ topic msgs, (topic, msgs) ∈ entries →
        ∀ m ∈ msgs, (topic, m) ∈ (publishAll g entries).1 := by
  induction entries with
  | nil =>
      refine ⟨rfl, ?_⟩
      intro topic msgs member
      cases member
  | cons entry rest ih =>
      rw [List.forall_mem_cons] at ok
      obtain ⟨count, all⟩ := ih ok.2
      have published := (g.publish entry.1).sound ok.1
      unfold publishAll
      rw [ok.1, published]
      dsimp only
      refine ⟨?_, ?_⟩
      · rw [if_pos rfl, List.length_append, List.length_map, count]
      · intro topic msgs member m inside
        rw [if_pos rfl]
        rcases List.mem_cons.mp member with same | later
        · rw [← same]
          exact List.mem_append_left _ (List.mem_map.mpr ⟨m, inside, rfl⟩)
        · exact List.mem_append_right _ (all topic msgs later m inside)

/-- A loop that ends with an error has written nothing exactly if the first publish failed and wrote
nothing. -/
theorem publishAll_failed_iff (entries : List (Str × List Message))
    (nonempty : ∀ entry ∈ entries, entry.2 ≠ []) (failed : (publishAll g entries).2.2 ≠ none) :
    (publishAll g entries).1 = [] ↔ ∃ first, (entries.map Prod.fst).head? = some first ∧
      (g.publish first).error ≠ none ∧ (g.publish first).published = false := by
  cases entries with
  | nil => exact absurd rfl failed
  | cons entry rest =>
      have some_ : entry.2.map (fun m => (entry.1, m)) ≠ [] := by
        rw [ne_eq, List.map_eq_nil_iff]
        exact nonempty entry List.mem_cons_self
      have head : (∃ first, ((entry :: rest).map Prod.fst).head? = some first ∧
          (g.publish first).error ≠ none ∧
          (g.publish first).published = false) ↔
          (g.publish entry.1).error ≠ none ∧ (g.publish entry.1).published = false := by
        simp
      rw [head]
      unfold publishAll
      dsimp only
      cases error : (g.publish entry.1).error with
      | some e =>
          cases published : (g.publish entry.1).published with
          | true =>
              simp only [if_true, ne_eq, reduceCtorEq, not_false_iff, and_false,
                iff_false]; exact some_
          | false => simp
      | none =>
          rw [(g.publish entry.1).sound error]
          simp only [if_true, ne_eq, not_true_eq_false, false_and, iff_false]
          intro empty
          exact some_ (List.append_eq_nil_iff.mp empty).1

/-! ### The answer -/

theorem mem_byTopic (events : List (Option Envelope)) (topic : Str) (msgs : List Message) :
    (topic, msgs) ∈ g.order.visit (sortEvents g now events).byTopic.toList ↔
      (sortEvents g now events).byTopic[topic]? = some msgs := by
  rw [g.order.mem_visit, Std.ExtTreeMap.mem_toList_iff_getElem?_eq_some]

/-- What is written was made from an event of the batch that is not rejected. -/
theorem accepted_of_written (events : List (Option Envelope)) (i : Nat)
    (written : Written (publishAll g (g.order.visit (sortEvents g now events).byTopic.toList)).1
      i) :
    ∃ env, events[i]? = some env ∧ (accept g now env).isSome = true := by
  obtain ⟨entry, member, index⟩ := written
  obtain ⟨msgs, there, inside⟩ := mem_publishAll g _ entry member
  rw [mem_byTopic] at there
  exact ((sorts_sortEvents g now events).messages i).mp
    ⟨entry.1, msgs, there, entry.2, inside, index⟩

theorem written_of_accepted (events : List (Option Envelope)) (i : Nat)
    (ok : ∀ topic ∈ topics g now events, (g.publish topic).error = none)
    (accepted : ∃ env, events[i]? = some env ∧ (accept g now env).isSome = true) :
    Written (publishAll g (g.order.visit (sortEvents g now events).byTopic.toList)).1 i := by
  obtain ⟨topic, msgs, found, m, inside, index⟩ :=
    ((sorts_sortEvents g now events).messages i).mpr accepted
  have member := (mem_byTopic g now events topic msgs).mpr found
  exact ⟨(topic, m),
    (publishAll_ok g _ fun entry there => ok entry.1 (List.mem_map_of_mem there)).2 topic msgs
    member m inside, index⟩

theorem allOrNone_truthful (events : List Envelope) (batch : EventBatch)
    (same : batch.events = events.map some)
    (ok : ∀ topic ∈ topics g now batch.events, (g.publish topic).error = none) :
    Truthful events (pushEvents g now (some batch)).1 (pushEvents g now (some batch)).2 := by
  have length : batch.events.length = events.length := by rw [same, List.length_map]
  have sorts := sorts_sortEvents g now batch.events
  have forward := accepted_of_written g now batch.events
  have back := fun i => written_of_accepted g now batch.events i ok
  have ends :=
    (publishAll_none_iff g (g.order.visit (sortEvents g now batch.events).byTopic.toList)).mpr
    fun entry there => ok entry.1 (List.mem_map_of_mem there)
  have count := (publishAll_ok g (g.order.visit (sortEvents g now batch.events).byTopic.toList)
    fun entry there => ok entry.1 (List.mem_map_of_mem there)).1
  unfold pushEvents
  dsimp only
  generalize publishAll g (g.order.visit (sortEvents g now batch.events).byTopic.toList) = done at *
  rw [ends]
  dsimp only
  have inside (i : Nat) (written : Written done.1 i) : i < events.length := by
    obtain ⟨env, found, -⟩ := forward i written
    rw [← length]
    exact (List.getElem?_eq_some_iff.mp found).1
  have at_ (i : Nat) (env : Envelope) (found : events[i]? = some env) :
      batch.events[i]? = some (some env) := by
    rw [same, List.getElem?_map, found]
    rfl
  have refused_iff (i : Nat) (env : Envelope) (found : events[i]? = some env) :
      ¬ Written done.1 i ↔ accept g now (some env) = none := by
    rw [← Option.not_isSome_iff_eq_none, not_iff_not]
    constructor
    · intro written
      obtain ⟨other, there, good⟩ := forward i written
      rw [at_ i env found] at there
      rw [Option.some.inj there]
      exact good
    · intro good
      exact back i ⟨some env, at_ i env found, good⟩
  have taken : 0 < done.2.1 ↔ ∃ i < events.length, Written done.1 i := by
    rw [count, List.length_pos_iff]
    constructor
    · intro some_
      obtain ⟨entry, rest, whole⟩ := List.exists_cons_of_ne_nil some_
      have written : Written done.1 entry.2.index :=
        ⟨entry, by rw [whole]; exact List.mem_cons_self, rfl⟩
      exact ⟨_, inside _ written, written⟩
    · intro ⟨i, _, entry, member, _⟩ empty
      rw [empty] at member
      cases member
  have refused : (sortEvents g now batch.events).rejected ≠ [] ↔
      ∃ i < events.length, ¬ Written done.1 i := by
    constructor
    · intro some_
      obtain ⟨env, member, none_⟩ := sorts.backed some_
      rw [same] at member
      obtain ⟨other, there, rest⟩ := List.mem_map.mp member
      obtain ⟨i, found⟩ := List.mem_iff_getElem?.mp there
      rw [Option.some.inj rest] at found
      exact ⟨i, (List.getElem?_eq_some_iff.mp found).1, (refused_iff i env found).mpr none_⟩
    · intro ⟨i, here, not_⟩ empty
      have found := List.getElem?_eq_getElem here
      have listed := sorts.listed events[i] (List.mem_of_getElem? (at_ i _ found))
        ((refused_iff i _ found).mp not_)
      rw [empty] at listed
      cases listed
  have listed (i : Nat) (env : Envelope) (found : events[i]? = some env) (some_ : env.eventID ≠ [])
      (not_ : ¬ Written done.1 i) : env.eventID ∈ flatten
        (sortEvents g now batch.events).rejected := by
    have there :=
      sorts.listed env (List.mem_of_getElem? (at_ i env found)) ((refused_iff i env found).mp not_)
    exact List.mem_filter.mpr ⟨there, decide_eq_true some_⟩
  by_cases both : (sortEvents g now batch.events).rejected ≠ [] ∧ 0 < done.2.1
  · rw [if_pos both]
    exact ⟨nofun, fun _ => ⟨taken.mp both.2, refused.mp both.1⟩, nofun, fun _ => listed, nofun,
      nofun⟩
  · rw [if_neg both]
    by_cases zero : done.2.1 = 0
    · rw [if_pos zero]
      have none_ (i : Nat) (here : i < events.length) : ¬ Written done.1 i := by
        intro written
        have positive := taken.mpr ⟨i, here, written⟩
        omega
      exact ⟨nofun, nofun, fun _ => none_, fun _ => listed, nofun, nofun⟩
    · rw [if_neg zero]
      have all (i : Nat) (here : i < events.length) : Written done.1 i := by
        by_contra not_
        exact both ⟨refused.mpr ⟨i, here, not_⟩, Nat.pos_of_ne_zero zero⟩
      exact ⟨fun _ => all, nofun, nofun, fun _ => listed, nofun, nofun⟩

/-- Whatever a batch holds, however its topics are visited and whatever becomes of each publish, the
answer is truthful if and only if no publish fails, or the first one does and writes nothing. -/
theorem ack_truthful_iff (events : List Envelope) (batchID : Bytes) (agentID tenantID : Str) :
    Truthful events (pushEvents g now (some ⟨batchID, agentID, tenantID, events.map some⟩)).1
        (pushEvents g now (some ⟨batchID, agentID, tenantID, events.map some⟩)).2 ↔
      AllOrNone g now (events.map some) := by
  by_cases ok : ∀ topic ∈ topics g now (events.map some), (g.publish topic).error = none
  · apply iff_of_true
    · exact allOrNone_truthful g now events ⟨batchID, agentID, tenantID, events.map some⟩ rfl ok
    · exact Or.inl ok
  · have visited : (publishAll g
        (g.order.visit (sortEvents g now (events.map some)).byTopic.toList)).2.2 ≠ none := by
      intro ends
      apply ok
      intro topic member
      obtain ⟨entry, there, rfl⟩ := List.mem_map.mp member
      exact (publishAll_none_iff g _).mp ends entry there
    have failed :=
      publishAll_failed_iff g (g.order.visit (sortEvents g now (events.map some)).byTopic.toList)
        (fun entry there => (sorts_sortEvents g now (events.map some)).nonempty entry.1 entry.2
          ((mem_byTopic g now _ entry.1 entry.2).mp there)) visited
    have forward := accepted_of_written g now (events.map some)
    unfold AllOrNone
    rw [or_iff_right ok]
    unfold topics
    rw [← failed]
    unfold pushEvents
    dsimp only
    generalize publishAll g (g.order.visit (sortEvents g now (events.map some)).byTopic.toList) =
      done at *
    obtain ⟨e, error⟩ := Option.ne_none_iff_exists'.mp visited
    rw [error]
    dsimp only
    constructor
    · intro truthful
      rw [List.eq_nil_iff_forall_not_mem]
      intro entry member
      have written : Written done.1 entry.2.index := ⟨entry, member, rfl⟩
      obtain ⟨env, found, -⟩ := forward _ written
      have here := (List.getElem?_eq_some_iff.mp found).1
      rw [List.length_map] at here
      exact truthful.retry rfl _ here written
    · intro empty
      have none_ (i : Nat) : ¬ Written done.1 i := by
        intro ⟨entry, member, _⟩
        rw [empty] at member
        cases member
      exact ⟨nofun, nofun, nofun, fun other => absurd rfl other, fun _ i _ => none_ i,
        fun _ _ i _ => none_ i⟩

end Gateway

/-- `handleIngest` tells the answers apart as `PushEvents` gives them. -/
theorem restStatus_inj (a b : Status) (same : restStatus a = restStatus b) :
    a = b ∨ (a = .unspecified ∨ a = .accepted) ∧ (b = .unspecified ∨ b = .accepted) ∨
      (a = .retry ∨ a = .throttle) ∧ (b = .retry ∨ b = .throttle) := by
  revert same
  cases a <;> cases b <;> decide

/-- A process event and a network event of one host. -/
def twoTopics : List Envelope :=
  [EventCategory.process, EventCategory.network].map fun category =>
    { schemaVersion := supportedSchemaVersion
      eventID := [1]
      source := some { tenantID := "t".toList, nodeID := "n".toList }
      category := category
      piiSanitized := true }

/-- A gateway that publishes network events first and cannot publish process events. -/
def networkOnly : Gateway where
  quoted := id
  marshal _ := some []
  order := Order.asListed
  publish topic :=
    if topic = "xdr.process".toList then ⟨some "timeout".toList, false, by simp⟩
      else ⟨none, true, by simp⟩

theorem retry_after_publish :
    ¬ Truthful twoTopics
      (pushEvents networkOnly zeroTime (some ⟨[], [], [], twoTopics.map some⟩)).1
      (pushEvents networkOnly zeroTime (some ⟨[], [], [], twoTopics.map some⟩)).2 := by
  intro truthful
  have again := truthful.retry (by decide) 1 (by decide)
  exact again ⟨("xdr.network".toList, ⟨"t|n".toList, [], 1⟩), by decide, rfl⟩

end EraOne.Ingest
