import EraOne.AgentBuffer
import EraOne.IngestAck

set_option autoImplicit false

/- The way of an event from the agent (`orchestrator.rs`, `sender.rs`) through the gateway to
Kafka. -/
namespace EraOne.Agent

open GoTime Ingest

/-- The fields that sending uses. -/
structure Config where
  agentID : Str
  tenantID : Str
  batchSize : Nat

/-- What decides a call of `PushEvents`: the id of the batch, the gateway and its clock at that
time, and whether the request and its answer arrive. -/
structure Exchange where
  batchID : Bytes
  gateway : Gateway
  now : Time
  arrives : Bool
  answered : Bool

section Sender

variable (cfg : Config) (x : Exchange)

/-- The answer, unless the call fails, and what the gateway wrote. -/
def call (events : List Envelope) : Option BatchAck × List (Str × Message) :=
  if x.arrives then
    let done := pushEvents x.gateway x.now
      (some { batchID := x.batchID, agentID := cfg.agentID, tenantID := cfg.tenantID,
              events := events.map some })
    (if x.answered then some done.1 else none, done.2)
  else (none, [])

def pushBatch (events : List Envelope) :
    Option (BatchAck × Option (List Envelope)) × List (Str × Message) :=
  if events.isEmpty then (some ({ status := .accepted, message := "empty".toList }, none), [])
  else
    let done := call cfg x events
    (done.1.map fun ack => (ack, requeued ack events), done.2)

/-- The buffer after a flush, and what the gateway wrote. That the call failed is only logged. -/
def flush (fuel : Nat) (buf : RingBuffer Envelope) :
    Option (RingBuffer Envelope × List (Str × Message)) :=
  let drained := buf.drain cfg.batchSize
  if drained.1.isEmpty then some (drained.2, [])
  else
    let sent := pushBatch cfg x drained.1
    match sent.1 with
    | some (_, none) => some (drained.2, sent.2)
    | some (_, some events) => (drained.2.requeueFront fuel events).map fun buf => (buf, sent.2)
    | none => (drained.2.requeueFront fuel drained.1).map fun buf => (buf, sent.2)

/-- The agent is done with the events of a batch. -/
def settles (events : List Envelope) : Bool :=
  match (pushBatch cfg x events).1 with
  | some (_, none) => true
  | _ => false

end Sender

/-- A turn of the loop: the events that are polled, and what decides the call. -/
structure Tick where
  events : List Envelope
  exchange : Exchange

/-- The buffer and the topics. For the statements it is remembered what was pushed, and which events
the agent was done with after which call. -/
structure World where
  buffer : RingBuffer Envelope
  kafka : List (Str × Message) := []
  pushed : List Envelope := []
  handed : List (Envelope × Exchange) := []

def World.start (capacity : Nat) : World where
  buffer := RingBuffer.new capacity

def World.push (w : World) (env : Envelope) : World :=
  { w with buffer := w.buffer.push env, pushed := w.pushed ++ [env] }

def World.load (w : World) (events : List Envelope) : World := events.foldl World.push w

section World

variable (cfg : Config)

def World.send (fuel : Nat) (w : World) (x : Exchange) : Option World :=
  let batch := (w.buffer.drain cfg.batchSize).1
  (flush cfg x fuel w.buffer).map fun done =>
    { w with
      buffer := done.1
      kafka := w.kafka ++ done.2
      handed := if settles cfg x batch then w.handed ++ batch.map fun env => (env, x)
        else w.handed }

def World.run (fuel : Nat) (w : World) : List Tick → Option World
  | [] => some w
  | tick :: rest =>
      ((w.load tick.events).send cfg fuel tick.exchange).bind fun next => next.run fuel rest

end World

/-! ### What is to hold -/

/-- The message of an event that the agent was done with, if it belongs to the topic. -/
def messageOn (topic : Str) (entry : Envelope × Exchange) : Option (Str × Bytes) :=
  (accept entry.2.gateway entry.2.now (some entry.1)).bind fun made =>
    if made.1 = topic then some made.2 else none

def sent (topic : Str) (handed : List (Envelope × Exchange)) : List (Str × Bytes) :=
  handed.filterMap (messageOn topic)

/-- The keys and values of a topic. -/
def onTopic (topic : Str) (kafka : List (Str × Message)) : List (Str × Bytes) :=
  kafka.filterMap fun entry => if entry.1 = topic then some (entry.2.key, entry.2.value) else none

/-- Some of the first pushed events were handed over, in their order, as many were dropped as the
buffer says, and the others wait in their order. -/
def World.Accounts (w : World) : Prop :=
  ∃ gone, w.pushed = gone ++ w.buffer.items ∧ (w.handed.map Prod.fst).Sublist gone ∧
    gone.length = w.handed.length + w.buffer.dropped

/-- A call writes nothing if its batch is going to be sent again. -/
def Clean (cfg : Config) (w : World) (x : Exchange) : Prop :=
  let batch := (w.buffer.drain cfg.batchSize).1
  settles cfg x batch = false → (pushBatch cfg x batch).2 = []

def CleanRun (cfg : Config) (fuel : Nat) (w : World) : List Tick → Prop
  | [] => True
  | tick :: rest => Clean cfg (w.load tick.events) tick.exchange ∧
      ∀ next, (w.load tick.events).send cfg fuel tick.exchange = some next →
        CleanRun cfg fuel next rest

/-! ### The buffer along a run -/

section Run

variable (cfg : Config)

/-- A flush takes a batch off the buffer for good, or leaves the buffer as it was. -/
theorem flush_spec (x : Exchange) (fuel : Nat) (buf : RingBuffer Envelope) :
    flush cfg x (fuel + 1) buf =
      some (if settles cfg x (buf.drain cfg.batchSize).1 then (buf.drain cfg.batchSize).2 else buf,
        (pushBatch cfg x (buf.drain cfg.batchSize).1).2) := by
  have back := RingBuffer.requeueFront_drain buf cfg.batchSize fuel
  unfold flush settles
  dsimp only
  by_cases empty : (buf.drain cfg.batchSize).1.isEmpty = true
  · unfold pushBatch
    rw [if_pos empty, if_pos empty]
    rfl
  · rw [if_neg empty]
    have again :
        ∀ ack events, (pushBatch cfg x (buf.drain cfg.batchSize).1).1 = some (ack, some events) →
        events = (buf.drain cfg.batchSize).1 := by
      intro ack events same
      unfold pushBatch at same
      rw [if_neg empty, Option.map_eq_some_iff] at same
      obtain ⟨answer, -, pair⟩ := same
      have requeue := congrArg Prod.snd pair
      unfold requeued at requeue
      dsimp only at requeue
      split at requeue
      · exact (Option.some.inj requeue).symm
      · cases requeue
    cases sent : (pushBatch cfg x (buf.drain cfg.batchSize).1).1 with
    | none =>
        dsimp only
        rw [back]
        rfl
    | some reply =>
        cases reply with
        | mk ack events =>
            cases events with
            | none => rfl
            | some events =>
                dsimp only
                rw [again ack events sent, back]
                rfl

theorem push_accounts (w : World) (env : Envelope) (accounts : w.Accounts) :
    (w.push env).Accounts := by
  obtain ⟨gone, pushed, handed, length⟩ := accounts
  rcases RingBuffer.push_spec w.buffer env with ⟨_, items, dropped⟩ | ⟨oldest, rest, full, items,
      dropped⟩
  · refine ⟨gone, ?_, handed, ?_⟩
    · show w.pushed ++ [env] = gone ++ (w.buffer.push env).items
      rw [items, pushed, List.append_assoc]
    · show gone.length = w.handed.length + (w.buffer.push env).dropped
      rw [dropped, length]
  · refine ⟨gone ++ [oldest], ?_, handed.trans (List.sublist_append_left gone [oldest]), ?_⟩
    · show w.pushed ++ [env] = gone ++ [oldest] ++ (w.buffer.push env).items
      rw [items, pushed, full]
      simp
    · show (gone ++ [oldest]).length = w.handed.length + (w.buffer.push env).dropped
      rw [dropped, List.length_append, length, List.length_singleton, Nat.add_assoc]

theorem load_accounts (w : World) (events : List Envelope) (accounts : w.Accounts) :
    (w.load events).Accounts := by
  unfold World.load
  induction events generalizing w with
  | nil => exact accounts
  | cons env events ih => exact ih (w.push env) (push_accounts w env accounts)

theorem load_fields (w : World) (events : List Envelope) :
    (w.load events).pushed = w.pushed ++ events ∧
    (w.load events).buffer.capacity = w.buffer.capacity ∧
      (w.load events).kafka = w.kafka ∧ (w.load events).handed = w.handed := by
  unfold World.load
  induction events generalizing w with
  | nil => simp
  | cons env events ih =>
      obtain ⟨pushed, capacity, kafka, handed⟩ := ih (w.push env)
      rw [List.foldl_cons, pushed, capacity, kafka, handed]
      simp [World.push]

/-- What a call leaves of the world. -/
theorem send_spec (fuel : Nat) (w : World) (x : Exchange) :
    let batch := (w.buffer.drain cfg.batchSize).1
    w.send cfg (fuel + 1) x = some
      { w with
        buffer := if settles cfg x batch then (w.buffer.drain cfg.batchSize).2 else w.buffer
        kafka := w.kafka ++ (pushBatch cfg x batch).2
        handed := if settles cfg x batch then w.handed ++ batch.map fun env => (env, x)
          else w.handed } := by
  intro batch
  unfold World.send
  rw [flush_spec, Option.map_some]

theorem send_accounts (fuel : Nat) (w next : World) (x : Exchange) (accounts : w.Accounts)
    (sends : w.send cfg (fuel + 1) x = some next) : next.Accounts := by
  obtain ⟨gone, pushed, handed, length⟩ := accounts
  rw [send_spec] at sends
  rw [← Option.some.inj sends]
  by_cases done : settles cfg x (w.buffer.drain cfg.batchSize).1 = true
  · refine ⟨gone ++ (w.buffer.drain cfg.batchSize).1, ?_, ?_, ?_⟩
    · dsimp only
      rw [if_pos done, RingBuffer.drain_fst, RingBuffer.drain_items, List.append_assoc,
        List.take_append_drop, pushed]
    · dsimp only
      rw [if_pos done, List.map_append, List.map_map]
      apply handed.append
      have same : (Prod.fst ∘ fun env : Envelope => (env, x)) = id := rfl
      rw [same, List.map_id]
    · dsimp only
      rw [if_pos done, if_pos done, RingBuffer.drain_dropped, List.length_append,
        List.length_append, List.length_map, length]
      omega
  · refine ⟨gone, ?_, ?_, ?_⟩
    · dsimp only
      rw [if_neg done, pushed]
    · dsimp only
      rw [if_neg done]
      exact handed
    · dsimp only
      rw [if_neg done, if_neg done, length]

/-- Every run comes to its end: the loop of `requeue_front` never runs on. -/
theorem run_spec (fuel : Nat) (w : World) (ticks : List Tick) (accounts : w.Accounts) :
    ∃ last, w.run cfg (fuel + 1) ticks = some last ∧ last.Accounts ∧
      last.pushed = w.pushed ++ ticks.flatMap Tick.events ∧
        last.buffer.capacity = w.buffer.capacity := by
  induction ticks generalizing w with
  | nil => exact ⟨w, rfl, accounts, by simp, rfl⟩
  | cons tick rest ih =>
      obtain ⟨pushed, capacity, -, -⟩ := load_fields w tick.events
      have sends := send_spec cfg fuel (w.load tick.events) tick.exchange
      have next :=
        send_accounts cfg fuel _ _ tick.exchange (load_accounts w tick.events accounts) sends
      obtain ⟨last, runs, final, all, room⟩ := ih _ next
      refine ⟨last, ?_, final, ?_, ?_⟩
      · rw [World.run, sends]
        exact runs
      · rw [all, List.flatMap_cons, ← List.append_assoc, ← pushed]
      · rw [room, ← capacity]
        dsimp only
        split <;> rfl

/-- In every run of the agent's loop, whatever becomes of its calls: each turn comes to an end, the
buffer holds no more than its capacity, and the pushed events are those handed over and those
dropped, of which `dropped` counts the latter, followed by those still buffered. -/
theorem run_accounts (fuel capacity : Nat) (ticks : List Tick) :
    ∃ w, (World.start capacity).run cfg (fuel + 1) ticks = some w ∧
      w.pushed = ticks.flatMap Tick.events ∧
      w.buffer.items.length ≤ max capacity 1 ∧
      ∃ gone, w.pushed = gone ++ w.buffer.items ∧ (w.handed.map Prod.fst).Sublist gone ∧
        gone.length = w.handed.length + w.buffer.dropped := by
  have first : (World.start capacity).Accounts := ⟨[], rfl, List.Sublist.refl [], rfl⟩
  obtain ⟨w, runs, accounts, pushed, room⟩ := run_spec cfg fuel (World.start capacity) ticks first
  refine ⟨w, runs, pushed, ?_, accounts⟩
  have within := w.buffer.room
  rw [room] at within
  exact within

end Run

/-! ### What a call writes -/

section Written

variable (g : Gateway) (now : Time) (topic : Str)

theorem onTopic_append (front back : List (Str × Message)) :
    onTopic topic (front ++ back) = onTopic topic front ++ onTopic topic back :=
  List.filterMap_append

theorem sent_append (front back : List (Envelope × Exchange)) :
    sent topic (front ++ back) = sent topic front ++ sent topic back :=
  List.filterMap_append

/-- Nothing is on any topic exactly if nothing is written. -/
theorem onTopic_eq_nil (kafka : List (Str × Message))
    (none_ : ∀ topic, onTopic topic kafka = []) : kafka = [] := by
  cases kafka with
  | nil => rfl
  | cons entry rest =>
      have here := none_ entry.1
      unfold onTopic at here
      rw [List.filterMap_cons, if_pos rfl] at here
      cases here

/-- The messages of a topic, in the order of the events. -/
theorem byTopic_sortEvents (events : List (Option Envelope)) :
    ((sortEvents g now events).byTopic[topic]?.getD []).map (fun m => (m.key, m.value)) =
      events.filterMap fun env => (accept g now env).bind fun made =>
        if made.1 = topic then some made.2 else none := by
  induction events using List.reverseRecOn with
  | nil => simp [sortEvents]
  | append_singleton events env ih =>
      have last : sortEvents g now (events ++ [env]) =
          (sortEvents g now events).add g now (env, events.length) := by
        unfold sortEvents
        rw [List.zipIdx_append, List.foldl_append]
        simp
      rw [last, List.filterMap_append, ← ih]
      unfold Sorted.add
      dsimp only
      cases accepted : accept g now env with
      | none => simp [accepted]
      | some made =>
          obtain ⟨own, key, value⟩ := made
          dsimp only
          rw [Maps.getElem?_insert_eq]
          by_cases same : own = topic
          · simp [accepted, same]
          · have other : ¬ topic = own := fun back => same back.symm
            simp [accepted, same, other]

/-- Where no publish fails, a topic gets what its entry has. -/
theorem onTopic_publishAll (entries : List (Str × List Message))
    (ok : ∀ entry ∈ entries, (g.publish entry.1).error = none) :
    onTopic topic (publishAll g entries).1 =
      entries.flatMap fun entry => if entry.1 = topic then entry.2.map fun m => (m.key, m.value)
        else [] := by
  induction entries with
  | nil => rfl
  | cons entry rest ih =>
      rw [List.forall_mem_cons] at ok
      have published := (g.publish entry.1).sound ok.1
      unfold publishAll
      dsimp only
      rw [ok.1, if_pos published]
      dsimp only
      rw [onTopic_append, ih ok.2, List.flatMap_cons]
      congr 1
      unfold onTopic
      by_cases same : entry.1 = topic
      · rw [if_pos same, List.filterMap_map]
        simp [same]
      · rw [if_neg same, List.filterMap_map]
        simp [same]

/-- Of entries with distinct keys one at most is the topic's. -/
theorem flatMap_topic (entries : List (Str × List Message)) (found : Option (List Message))
    (distinct : (entries.map Prod.fst).Nodup)
    (lookup : ∀ msgs, (topic, msgs) ∈ entries ↔ found = some msgs) :
    (entries.flatMap fun entry => if entry.1 = topic then entry.2.map fun m => (m.key, m.value)
      else []) =
      (found.getD []).map fun m => (m.key, m.value) := by
  induction entries generalizing found with
  | nil =>
      cases found with
      | none => rfl
      | some msgs => exact absurd ((lookup msgs).mpr rfl) (List.not_mem_nil)
  | cons entry rest ih =>
      rw [List.map_cons, List.nodup_cons] at distinct
      rw [List.flatMap_cons]
      by_cases same : entry.1 = topic
      · have mine : found = some entry.2 := by
          apply (lookup entry.2).mp
          rw [← same]
          exact List.mem_cons_self
        have others := ih none distinct.2 fun msgs => by
          constructor
          · intro member
            apply absurd _ distinct.1
            rw [same]
            exact List.mem_map_of_mem (f := Prod.fst) member
          · intro none_
            cases none_
        rw [if_pos same, others, mine]
        simp
      · rw [if_neg same, List.nil_append]
        apply ih found distinct.2
        intro msgs
        rw [← lookup msgs, List.mem_cons]
        constructor
        · exact Or.inr
        · intro either
          rcases either with here | there
          · exact absurd (congrArg Prod.fst here).symm same
          · exact there

/-- An answer without an error: every topic has got the messages of its events, in their order. -/
theorem onTopic_pushEvents (batch : EventBatch)
    (ok : (publishAll g (g.order.visit (sortEvents g now batch.events).byTopic.toList)).2.2 =
      none) :
    onTopic topic (pushEvents g now (some batch)).2 =
      batch.events.filterMap fun env =>
        (accept g now env).bind fun made => if made.1 = topic then some made.2 else none := by
  have wrote : (pushEvents g now (some batch)).2 =
      (publishAll g (g.order.visit (sortEvents g now batch.events).byTopic.toList)).1 := by
    unfold pushEvents
    dsimp only
    rw [ok]
  have distinct :
      ((g.order.visit (sortEvents g now batch.events).byTopic.toList).map Prod.fst).Nodup :=
    ((g.order.perm _).map Prod.fst).nodup_iff.mpr (Maps.nodup_keys_toList _)
  rw [wrote, onTopic_publishAll g topic _ ((publishAll_none_iff g _).mp ok),
    flatMap_topic topic _ _ distinct fun msgs => mem_byTopic g now batch.events topic msgs,
    byTopic_sortEvents]

end Written

/-- What the agent is done with was written to its topics. -/
theorem onTopic_pushBatch (cfg : Config) (x : Exchange) (topic : Str) (events : List Envelope)
    (done : settles cfg x events = true) :
    onTopic topic (pushBatch cfg x events).2 = sent topic (events.map fun env => (env, x)) := by
  unfold settles at done
  unfold pushBatch at done ⊢
  by_cases empty : events.isEmpty = true
  · rw [if_pos empty]
    rw [List.isEmpty_iff] at empty
    rw [empty]
    rfl
  · rw [if_neg empty] at done ⊢
    unfold call at done ⊢
    by_cases arrives : x.arrives = true
    · by_cases answered : x.answered = true
      · rw [if_pos arrives] at done ⊢
        dsimp only at done ⊢
        rw [if_pos answered, Option.map_some] at done
        generalize batches : ({ batchID := x.batchID, agentID := cfg.agentID,
                                tenantID := cfg.tenantID,
                                events := events.map some } : EventBatch) = batch at done ⊢
        have same : batch.events = events.map some := by rw [← batches]
        rw [onTopic_pushEvents x.gateway x.now topic batch, same, sent, List.filterMap_map,
          List.filterMap_map]
        · rfl
        · by_contra failed
          obtain ⟨e, error⟩ := Option.ne_none_iff_exists'.mp failed
          have retry : (pushEvents x.gateway x.now (some batch)).1.status = .retry := by
            unfold pushEvents
            dsimp only
            rw [error]
          unfold requeued at done
          rw [if_pos (Or.inl retry)] at done
          cases done
      · rw [if_pos arrives] at done
        dsimp only at done
        rw [if_neg answered] at done
        cases done
    · rw [if_neg arrives] at done
      cases done

/-! ### Delivery along a run -/

section Delivery

variable (cfg : Config)

/-- Every topic has the messages of the events handed over, in their order, perhaps with others
between. -/
def World.Delivered (w : World) : Prop :=
  ∀ topic, (sent topic w.handed).Sublist (onTopic topic w.kafka)

/-- Every topic has exactly them. -/
def World.Once (w : World) : Prop := ∀ topic, onTopic topic w.kafka = sent topic w.handed

theorem send_delivered (fuel : Nat) (w next : World) (x : Exchange) (delivered : w.Delivered)
    (sends : w.send cfg (fuel + 1) x = some next) :
    next.Delivered ∧ (next.Once ↔ w.Once ∧ Clean cfg w x) := by
  rw [send_spec] at sends
  rw [← Option.some.inj sends]
  unfold World.Delivered World.Once Clean
  dsimp only
  by_cases done : settles cfg x (w.buffer.drain cfg.batchSize).1 = true
  · rw [if_pos done, done]
    constructor
    · intro topic
      rw [sent_append, onTopic_append, onTopic_pushBatch cfg x topic _ done]
      exact (delivered topic).append (List.Sublist.refl _)
    · have quiet : true = false → (pushBatch cfg x (w.buffer.drain cfg.batchSize).1).2 = [] := by
        simp
      rw [and_iff_left quiet]
      apply forall_congr'
      intro topic
      rw [sent_append, onTopic_append, onTopic_pushBatch cfg x topic _ done]
      exact List.append_left_inj _
  · rw [if_neg done]
    constructor
    · intro topic
      rw [onTopic_append]
      exact (delivered topic).trans (List.sublist_append_left _ _)
    · constructor
      · intro once
        have parts (topic : Str) : onTopic topic w.kafka = sent topic w.handed ∧
            onTopic topic (pushBatch cfg x (w.buffer.drain cfg.batchSize).1).2 = [] := by
          have whole := once topic
          rw [onTopic_append] at whole
          have lengths := congrArg List.length whole
          have least := (delivered topic).length_le
          rw [List.length_append] at lengths
          have none_ := List.length_eq_zero_iff.mp (by omega :
            (onTopic topic (pushBatch cfg x (w.buffer.drain cfg.batchSize).1).2).length = 0)
          rw [none_, List.append_nil] at whole
          exact ⟨whole, none_⟩
        exact ⟨fun topic => (parts topic).1, fun _ => onTopic_eq_nil _ fun topic => (parts topic).2⟩
      · rintro ⟨once, clean⟩ topic
        rw [clean (Bool.eq_false_iff.mpr done), List.append_nil]
        exact once topic

theorem load_delivered (w : World) (events : List Envelope) (delivered : w.Delivered) :
    (w.load events).Delivered := by
  obtain ⟨-, -, kafka, handed⟩ := load_fields w events
  unfold World.Delivered
  rw [kafka, handed]
  exact delivered

theorem load_once (w : World) (events : List Envelope) : (w.load events).Once ↔ w.Once := by
  obtain ⟨-, -, kafka, handed⟩ := load_fields w events
  unfold World.Once
  rw [kafka, handed]

theorem run_delivered (fuel : Nat) (w : World) (ticks : List Tick) (delivered : w.Delivered) :
    ∃ last, w.run cfg (fuel + 1) ticks = some last ∧ last.Delivered ∧
      (last.Once ↔ w.Once ∧ CleanRun cfg (fuel + 1) w ticks) := by
  induction ticks generalizing w with
  | nil => exact ⟨w, rfl, delivered, (and_iff_left trivial).symm⟩
  | cons tick rest ih =>
      have sends := send_spec cfg fuel (w.load tick.events) tick.exchange
      obtain ⟨next, once⟩ :=
        send_delivered cfg fuel _ _ tick.exchange (load_delivered w tick.events delivered) sends
      obtain ⟨last, runs, final, iff_⟩ := ih _ next
      refine ⟨last, ?_, final, ?_⟩
      · rw [World.run, sends]
        exact runs
      · rw [iff_, once, load_once, and_assoc]
        rw [CleanRun]
        apply and_congr_right
        intro _
        apply and_congr_right
        intro _
        rw [sends]
        constructor
        · intro clean other same
          rw [← Option.some.inj same]
          exact clean
        · intro all
          exact all _ rfl

/-- Whatever becomes of the calls, no event is lost between the agent and Kafka: every topic has the
messages of the events that the agent was done with, in the order in which they were pushed. -/
theorem delivered_at_least_once (fuel capacity : Nat) (ticks : List Tick) :
    ∃ w, (World.start capacity).run cfg (fuel + 1) ticks = some w ∧
      ∀ topic, (sent topic w.handed).Sublist (onTopic topic w.kafka) := by
  obtain ⟨w, runs, delivered, -⟩ := run_delivered cfg fuel (World.start capacity) ticks
    fun topic => List.Sublist.refl _
  exact ⟨w, runs, delivered⟩

/-- Every topic has their messages once each and no others exactly if no call wrote anything whose
batch was sent again. -/
theorem delivered_once_iff (fuel capacity : Nat) (ticks : List Tick) :
    ∃ w, (World.start capacity).run cfg (fuel + 1) ticks = some w ∧
      ((∀ topic, onTopic topic w.kafka = sent topic w.handed) ↔
        CleanRun cfg (fuel + 1) (World.start capacity) ticks) := by
  obtain ⟨w, runs, -, once⟩ :=
    run_delivered cfg fuel (World.start capacity) ticks fun topic => List.Sublist.refl _
  exact ⟨w, runs, once.trans (and_iff_right fun _ => rfl)⟩

end Delivery

end EraOne.Agent
