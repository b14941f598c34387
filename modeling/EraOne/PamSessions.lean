import EraOne.Maps
import EraOne.Strings
import EraOne.Visits

set_option autoImplicit false

/- Privileged sessions of the PAM gateway: their records (`privilegedsession/store.go`), the
listeners of the two proxies (`proxy/bridge.go`), and the tracker of their time limits
(`sessionpolicy/policy.go`), as the handlers of `api/server.go` call them. -/
namespace EraOne.PamSessions

/-- A limit that is not positive is none. -/
structure Policy where
  maxDuration : Int
  idleTimeout : Int

structure Record where
  user : Str
  host : Str
  startedAt : Int
  endedAt : Option Int := none

/-- What the stores hold by session id; a listener is kept with the host it leads to. -/
structure Gateway where
  sessions : StrMap Record := ∅
  ssh : StrMap Str := ∅
  rdp : StrMap Str := ∅
  started : StrMap Int := ∅
  lastAct : StrMap Int := ∅

/-- The handlers' calls with the ids they draw and the times they read; a proxy's `Listen` may fail.
A sweep is given its time, and reads the clock once more for every session it ends. -/
inductive Event where
  | sshStart (id user host : Str) (listens : Bool) (now : Int)
  | rdpStart (id user host : Str) (listens : Bool) (now : Int)
  | rdpEvent (id : Str) (now : Int)
  | rdpEnd (id : Str) (now : Int)
  | sweep (order : Visits.Order (Str × Int)) (clock : Str → Int) (now : Int)

def maxDurationPassed : Str := "max_duration".toList

def idleTimeoutPassed : Str := "idle_timeout".toList

/-- Why the tracker ends a session. -/
def expiry (p : Policy) (now start last : Int) : Option Str :=
  if 0 < p.maxDuration ∧ p.maxDuration ≤ now - start then some maxDurationPassed
  else if 0 < p.idleTimeout ∧ p.idleTimeout ≤ now - last then some idleTimeoutPassed
  else none

namespace Gateway

def start (g : Gateway) (id user host : Str) (now : Int) : Gateway :=
  { g with sessions := g.sessions.insert id { user := user, host := host, startedAt := now } }

def end_ (g : Gateway) (id : Str) (now : Int) : Gateway :=
  match g.sessions[id]? with
  | none => g
  | some r => { g with sessions := g.sessions.insert id { r with endedAt := some now } }

def expireSession (g : Gateway) (id : Str) (now : Int) : Gateway :=
  end_ { g with rdp := g.rdp.erase id, ssh := g.ssh.erase id } id now

def handleSSHStart (g : Gateway) (id user host : Str) (listens : Bool) (now : Int) : Gateway :=
  let g := g.start id user host now
  if listens then { g with ssh := g.ssh.insert id host } else g

def handleRDPStart (g : Gateway) (id user host : Str) (listens : Bool) (now : Int) : Gateway :=
  let g := g.start id user host now
  let g := if listens then { g with rdp := g.rdp.insert id host } else g
  { g with started := g.started.insert id now, lastAct := g.lastAct.insert id now }

def touch (g : Gateway) (id : Str) (now : Int) : Gateway :=
  { g with lastAct := g.lastAct.insert id now }

def handleRDPEnd (g : Gateway) (id : Str) (now : Int) : Gateway :=
  end_ { g with
         rdp := g.rdp.erase id, started := g.started.erase id,
         lastAct := g.lastAct.erase id } id now

/-- A turn of the sweep's loop. -/
def sweepEntry (p : Policy) (clock : Str → Int) (now : Int) (g : Gateway) (entry : Str × Int) :
    Gateway :=
  match expiry p now entry.2 (g.lastAct[entry.1]?.getD 0) with
  | none => g
  | some _ =>
      let g := g.expireSession entry.1 (clock entry.1)
      { g with started := g.started.erase entry.1, lastAct := g.lastAct.erase entry.1 }

def sweep (g : Gateway) (p : Policy) (order : Visits.Order (Str × Int)) (clock : Str → Int)
    (now : Int) : Gateway :=
  (order.visit g.started.toList).foldl (sweepEntry p clock now) g

def step (p : Policy) (g : Gateway) : Event → Gateway
  | .sshStart id user host listens now => g.handleSSHStart id user host listens now
  | .rdpStart id user host listens now => g.handleRDPStart id user host listens now
  | .rdpEvent id now => g.touch id now
  | .rdpEnd id now => g.handleRDPEnd id now
  | .sweep order clock now => g.sweep p order clock now

def run (p : Policy) (events : List Event) : Gateway := events.foldl (step p) {}

end Gateway

/-! ### One session -/

/-- What the gateway holds of one session. -/
structure Session where
  record : Option Record := none
  ssh : Option Str := none
  rdp : Option Str := none
  started : Option Int := none
  lastAct : Option Int := none

def Gateway.session (g : Gateway) (id : Str) : Session where
  record := g.sessions[id]?
  ssh := g.ssh[id]?
  rdp := g.rdp[id]?
  started := g.started[id]?
  lastAct := g.lastAct[id]?

namespace Session

def ended (s : Session) (now : Int) : Option Record :=
  s.record.map fun r => { r with endedAt := some now }

def swept (p : Policy) (clock now : Int) (s : Session) : Session :=
  match s.started with
  | none => s
  | some start =>
      match expiry p now start (s.lastAct.getD 0) with
      | none => s
      | some _ => { record := s.ended clock }

theorem swept_of_idle (p : Policy) (clock now : Int) (s : Session) (idle : s.started = none) :
    s.swept p clock now = s := by
  unfold swept
  rw [idle]

theorem swept_of_spared (p : Policy) (clock now : Int) (s : Session) (start last : Int)
    (found : s.started = some start) (touched : s.lastAct = some last)
    (spared : expiry p now start last = none) :
    s.swept p clock now = s := by
  unfold swept
  simp [found, touched, spared]

theorem swept_of_over (p : Policy) (clock now : Int) (s : Session) (start last : Int)
    (found : s.started = some start) (touched : s.lastAct = some last)
    (spent : expiry p now start last ≠ none) :
    s.swept p clock now = { record := s.ended clock } := by
  unfold swept
  cases reason : expiry p now start last with
  | none => exact absurd reason spent
  | some text => simp [found, touched, reason]

/-- What an event does to the session of an id. -/
def step (p : Policy) (id : Str) (s : Session) : Event → Session
  | .sshStart other user host listens now =>
      if other = id then
        { s with
          record := some { user := user, host := host, startedAt := now }
          ssh := if listens then some host else s.ssh }
      else s
  | .rdpStart other user host listens now =>
      if other = id then
        { s with
          record := some { user := user, host := host, startedAt := now }
          rdp := if listens then some host else s.rdp
          started := some now
          lastAct := some now }
      else s
  | .rdpEvent other now => if other = id then { s with lastAct := some now } else s
  | .rdpEnd other now =>
      if other = id then { s with
        record := s.ended now
        rdp := none
        started := none
        lastAct := none }
      else s
  | .sweep _ clock now => s.swept p (clock id) now

end Session

theorem getElem?_erase_eq {V : Type} (m : StrMap V) (key k : Str) :
    (m.erase key)[k]? = if key = k then none else m[k]? := by
  rw [Std.ExtTreeMap.getElem?_erase]
  simp

theorem session_end (g : Gateway) (id : Str) (now : Int) (k : Str) :
    (g.end_ id now).session k =
      if id = k then { g.session k with record := (g.session k).ended now } else g.session k := by
  unfold Gateway.end_
  split
  · rename_i none_
    split
    · rename_i same
      subst same
      simp [Gateway.session, Session.ended, none_]
    · rfl
  · rename_i r found
    split
    · rename_i same
      subst same
      simp [Gateway.session, Session.ended, found]
    · rename_i other
      simp [Gateway.session, Maps.getElem?_insert_eq, Ne.symm other]

theorem session_sweepEntry (p : Policy) (clock : Str → Int) (now : Int) (g : Gateway)
    (entry : Str × Int) (k : Str) :
    (Gateway.sweepEntry p clock now g entry).session k =
      if entry.1 = k ∧ expiry p now entry.2 (g.lastAct[k]?.getD 0) ≠ none then
        { record := (g.session k).ended (clock k) }
      else g.session k := by
  unfold Gateway.sweepEntry
  split
  · rename_i none_
    by_cases same : entry.1 = k
    · rw [same] at none_
      simp [none_]
    · simp [same]
  · rename_i reason found
    have ended := session_end
      { g with rdp := g.rdp.erase entry.1, ssh := g.ssh.erase entry.1 } entry.1 (clock entry.1) k
    by_cases same : entry.1 = k
    · rw [same] at found ended
      rw [if_pos ⟨same, by simp [found]⟩, same]
      rw [if_pos rfl] at ended
      injection ended with record ssh rdp started lastAct
      simp only [Gateway.session, Gateway.expireSession, Session.mk.injEq]
      refine ⟨record, ?_, ?_, ?_, ?_⟩
      · simpa [Gateway.session, getElem?_erase_eq] using ssh
      · simpa [Gateway.session, getElem?_erase_eq] using rdp
      · simp
      · simp
    · rw [if_neg (fun both => same both.1)]
      rw [if_neg same] at ended
      injection ended with record ssh rdp started lastAct
      simp only [Gateway.session, Gateway.expireSession, Session.mk.injEq]
      refine ⟨record, ?_, ?_, ?_, ?_⟩
      · simpa [Gateway.session, getElem?_erase_eq, same] using ssh
      · simpa [Gateway.session, getElem?_erase_eq, same] using rdp
      · simpa [Gateway.session, getElem?_erase_eq, same] using started
      · simpa [Gateway.session, getElem?_erase_eq, same] using lastAct

theorem foldl_sweepEntry (p : Policy) (clock : Str → Int) (now : Int) (entries : List (Str × Int))
    (g : Gateway) (k : Str) (distinct : (entries.map Prod.fst).Nodup) :
    (k ∉ entries.map Prod.fst →
      (entries.foldl (Gateway.sweepEntry p clock now) g).session k = g.session k) ∧
      ∀ start, (k, start) ∈ entries → (entries.foldl (Gateway.sweepEntry p clock now) g).session k =
        if expiry p now start (g.lastAct[k]?.getD 0) = none then g.session k
        else { record := (g.session k).ended (clock k) } := by
  induction entries generalizing g with
  | nil => simp
  | cons entry rest ih =>
      rw [List.map_cons, List.nodup_cons] at distinct
      have later := ih (Gateway.sweepEntry p clock now g entry) distinct.2
      have first := session_sweepEntry p clock now g entry k
      rw [List.foldl_cons]
      constructor
      · intro absent
        rw [List.map_cons, List.mem_cons, not_or] at absent
        rw [later.1 absent.2, first, if_neg (fun both => absent.1 both.1.symm)]
      · intro start member
        rcases List.mem_cons.mp member with here | there
        · have key : entry.1 = k := congrArg Prod.fst here.symm
          have time : entry.2 = start := congrArg Prod.snd here.symm
          have absent : k ∉ rest.map Prod.fst := key ▸ distinct.1
          rw [later.1 absent, first, time]
          by_cases spared : expiry p now start (g.lastAct[k]?.getD 0) = none
          · rw [if_neg (fun both => both.2 spared), if_pos spared]
          · rw [if_pos ⟨key, spared⟩, if_neg spared]
        · have other : entry.1 ≠ k := by
            intro same
            exact distinct.1 (same ▸ List.mem_map_of_mem (f := Prod.fst) there)
          have same := first
          rw [if_neg (fun both => other both.1)] at same
          have heard : (Gateway.sweepEntry p clock now g entry).lastAct[k]? = g.lastAct[k]? :=
            congrArg Session.lastAct same
          rw [later.2 start there, heard, same]

/-- The loop of a sweep does to every session what its own times say, in whatever order it goes. -/
theorem session_sweep (p : Policy) (order : Visits.Order (Str × Int)) (clock : Str → Int)
    (now : Int) (g : Gateway) (k : Str) :
    (g.sweep p order clock now).session k = (g.session k).swept p (clock k) now := by
  have distinct : ((order.visit g.started.toList).map Prod.fst).Nodup :=
    ((order.perm g.started.toList).map Prod.fst).nodup_iff.mpr (Maps.nodup_keys_toList g.started)
  have loop := foldl_sweepEntry p clock now (order.visit g.started.toList) g k distinct
  have inside (start : Int) :
      (k, start) ∈ order.visit g.started.toList ↔ g.started[k]? = some start := by
    rw [order.mem_visit, Std.ExtTreeMap.mem_toList_iff_getElem?_eq_some]
  show ((order.visit g.started.toList).foldl (Gateway.sweepEntry p clock now) g).session k = _
  have tracked : (g.session k).started = g.started[k]? := rfl
  have heard : (g.session k).lastAct = g.lastAct[k]? := rfl
  unfold Session.swept
  rw [tracked, heard]
  cases found : g.started[k]? with
  | none =>
      apply loop.1
      intro member
      obtain ⟨entry, listed, same⟩ := List.mem_map.mp member
      have stored := (inside entry.2).mp (same ▸ listed)
      rw [found] at stored
      simp at stored
  | some start =>
      rw [loop.2 start ((inside start).mpr found)]
      cases reason : expiry p now start (g.lastAct[k]?.getD 0) <;> simp [reason]

/-- The gateway is its sessions side by side. -/
theorem session_step (p : Policy) (g : Gateway) (e : Event) (k : Str) :
    (g.step p e).session k = (g.session k).step p k e := by
  cases e with
  | sshStart id user host listens now =>
      cases listens <;> by_cases same : id = k <;>
        simp [Gateway.step, Gateway.handleSSHStart, Gateway.start, Session.step, Gateway.session,
          Maps.getElem?_insert_eq, eq_comm (a := k), same]
  | rdpStart id user host listens now =>
      cases listens <;> by_cases same : id = k <;>
        simp [Gateway.step, Gateway.handleRDPStart, Gateway.start, Session.step, Gateway.session,
          Maps.getElem?_insert_eq, eq_comm (a := k), same]
  | rdpEvent id now =>
      by_cases same : id = k <;>
        simp [Gateway.step, Gateway.touch, Session.step, Gateway.session, Maps.getElem?_insert_eq,
          eq_comm (a := k), same]
  | rdpEnd id now =>
      show (Gateway.end_ _ id now).session k = _
      rw [session_end]
      by_cases same : id = k <;>
        simp [Session.step, Gateway.session, Session.ended, getElem?_erase_eq, same]
  | sweep order clock now => exact session_sweep p order clock now g k

theorem session_run (p : Policy) (events : List Event) (k : Str) :
    (Gateway.run p events).session k = events.foldl (Session.step p k) {} := by
  unfold Gateway.run
  have start : ({} : Gateway).session k = {} := by simp [Gateway.session]
  rw [← start]
  generalize ({} : Gateway) = g
  induction events generalizing g with
  | nil => rfl
  | cons e rest ih => rw [List.foldl_cons, List.foldl_cons, ← session_step, ih]

/-! ### What the history says -/

/-- The session that an event starts. -/
def Event.starts : Event → Option Str
  | .sshStart id .. => some id
  | .rdpStart id .. => some id
  | _ => none

/-- When a session was last heard of. -/
def lastTouch (id : Str) (last : Int) : Event → Int
  | .rdpEvent other now => if other = id then now else last
  | _ => last

/-- The event leaves a session running that was started and last heard of then. -/
def Spares (p : Policy) (id : Str) (start last : Int) : Event → Prop
  | .rdpEnd other _ => other ≠ id
  | .sweep _ _ now => expiry p now start last = none
  | _ => True

/-- No later event ends the session, which is last heard of at `final`. -/
def Outlives (p : Policy) (id : Str) (start final : Int) : Int → List Event → Prop
  | last, [] => last = final
  | last, e :: later =>
      Spares p id start last e ∧ Outlives p id start final (lastTouch id last e) later

/-- An RDP session that is running, whether or not it got a listener. -/
def Running (p : Policy) (events : List Event) (id : Str) (listens : Bool) (start last : Int) :
    Prop :=
  ∃ before user host later, events = before ++ .rdpStart id user host listens start :: later ∧
    Outlives p id start last start later

theorem outlives_append (p : Policy) (id : Str) (start final last : Int) (later : List Event)
    (e : Event) :
    Outlives p id start final last (later ++ [e]) ↔
      ∃ mid, Outlives p id start mid last later ∧ Spares p id start mid e ∧
        lastTouch id mid e = final := by
  induction later generalizing last with
  | nil => simp [Outlives]
  | cons first rest ih =>
      rw [List.cons_append, Outlives, ih]
      constructor
      · rintro ⟨spared, mid, outlives, both⟩
        exact ⟨mid, ⟨spared, outlives⟩, both⟩
      · rintro ⟨mid, outlives, both⟩
        exact ⟨outlives.1, mid, outlives.2, both⟩

/-- What one more event changes. -/
theorem running_append (p : Policy) (events : List Event) (e : Event) (id : Str) (listens : Bool)
    (start last : Int) :
    Running p (events ++ [e]) id listens start last ↔
      ((∃ user host, e = .rdpStart id user host listens start) ∧ last = start) ∨
        ∃ mid, Running p events id listens start mid ∧ Spares p id start mid e ∧
          lastTouch id mid e = last := by
  constructor
  · rintro ⟨before, user, host, later, whole, outlives⟩
    rcases List.eq_nil_or_concat later with none_ | ⟨older, final, more⟩
    · rw [none_] at whole outlives
      have end_ := List.append_inj' whole rfl
      exact Or.inl ⟨⟨user, host, (List.cons.inj end_.2).1⟩, outlives.symm⟩
    · rw [more, List.concat_eq_append] at whole outlives
      rw [← List.cons_append, ← List.append_assoc] at whole
      have end_ := List.append_inj' whole rfl
      have same := (List.cons.inj end_.2).1
      rw [outlives_append] at outlives
      obtain ⟨mid, outlives, spared, touched⟩ := outlives
      rw [← same] at spared touched
      exact Or.inr ⟨mid, ⟨before, user, host, older, end_.1, outlives⟩, spared, touched⟩
  · rintro (⟨⟨user, host, started⟩, now⟩ | ⟨mid, ⟨before, user, host, later, whole, outlives⟩,
      both⟩)
    · exact ⟨events, user, host, [], by rw [started], now.symm⟩
    · refine ⟨before, user, host, later ++ [e], ?_, ?_⟩
      · rw [whole, List.append_assoc, List.cons_append]
      · rw [outlives_append]
        exact ⟨mid, outlives, both⟩

/-- Ids are drawn anew. -/
def Fresh (events : List Event) : Prop := (events.filterMap Event.starts).Nodup

/-- The session's part of the stores is what the history says. -/
structure Follows (p : Policy) (events : List Event) (id : Str) (s : Session) : Prop where
  tracked : ∀ start last, s.started = some start ∧ s.lastAct = some last ↔
    ∃ listens, Running p events id listens start last
  heard : s.started.isSome → s.lastAct.isSome
  rdp : s.rdp.isSome ↔ ∃ start last, Running p events id true start last
  ssh : s.ssh.isSome ↔ ∃ user host now, .sshStart id user host true now ∈ events
  apart : s.ssh.isSome → s.started = none

theorem not_started (events : List Event) (e : Event) (id : Str) (fresh : Fresh (events ++ [e]))
    (starts : e.starts = some id) : ∀ other ∈ events, other.starts ≠ some id := by
  intro other member same
  have parts :=
    List.nodup_append.mp (List.filterMap_append ▸ fresh : (events.filterMap Event.starts ++
    [e].filterMap Event.starts).Nodup)
  have earlier : id ∈ events.filterMap Event.starts := List.mem_filterMap.mpr ⟨other, member, same⟩
  have here : id ∈ [e].filterMap Event.starts := List.mem_filterMap.mpr ⟨e, by simp, starts⟩
  exact parts.2.2 id earlier id here rfl

theorem Running.start_mem {p : Policy} {events : List Event} {id : Str} {listens : Bool}
    {start last : Int} (running : Running p events id listens start last) :
    ∃ e ∈ events, e.starts = some id := by
  obtain ⟨before, user, host, later, whole, _⟩ := running
  exact ⟨.rdpStart id user host listens start, by simp [whole], rfl⟩

/-- An event that neither starts the session, nor ends it, nor is one of its own. -/
theorem running_quiet (p : Policy) (events : List Event) (e : Event) (id : Str)
    (other : ∀ user host listens now, e ≠ .rdpStart id user host listens now)
    (spares : ∀ start last, Spares p id start last e)
    (untouched : ∀ last, lastTouch id last e = last) (listens : Bool) (start last : Int) :
    Running p (events ++ [e]) id listens start last ↔ Running p events id listens start last := by
  rw [running_append]
  constructor
  · rintro (⟨⟨user, host, same⟩, _⟩ | ⟨mid, running, _, touched⟩)
    · exact absurd same (other user host listens start)
    · rw [untouched] at touched
      exact touched ▸ running
  · intro running
    exact Or.inr ⟨last, running, spares start last, untouched last⟩

theorem opened_append (events : List Event) (e : Event) (id : Str)
    (quiet : ∀ user host now, e ≠ .sshStart id user host true now) :
    (∃ user host now, .sshStart id user host true now ∈ events ++ [e]) ↔
      ∃ user host now, .sshStart id user host true now ∈ events := by
  constructor
  · rintro ⟨user, host, now, member⟩
    rcases List.mem_append.mp member with earlier | here
    · exact ⟨user, host, now, earlier⟩
    · exact absurd (List.mem_singleton.mp here).symm (quiet user host now)
  · rintro ⟨user, host, now, member⟩
    exact ⟨user, host, now, List.mem_append_left _ member⟩

theorem running_sweep (p : Policy) (events : List Event) (order : Visits.Order (Str × Int))
    (clock : Str → Int) (now : Int) (id : Str) (listens : Bool) (start last : Int) :
    Running p (events ++ [.sweep order clock now]) id listens start last ↔
      Running p events id listens start last ∧ expiry p now start last = none := by
  rw [running_append]
  simp [Spares, lastTouch]

theorem running_rdpEvent (p : Policy) (events : List Event) (id : Str) (now : Int) (listens : Bool)
    (start last : Int) :
    Running p (events ++ [.rdpEvent id now]) id listens start last ↔
      (∃ mid, Running p events id listens start mid) ∧ last = now := by
  rw [running_append]
  simp [Spares, lastTouch, eq_comm (a := now)]

theorem not_running_rdpEnd (p : Policy) (events : List Event) (id : Str) (now : Int)
    (listens : Bool) (start last : Int) :
    ¬ Running p (events ++ [.rdpEnd id now]) id listens start last := by
  rw [running_append]
  simp [Spares]

namespace Follows

variable {p : Policy} {events : List Event} {id : Str} {s : Session}

theorem started_none (follows : Follows p events id s)
    (new : ∀ other ∈ events, other.starts ≠ some id) :
    s.started = none := by
  cases found : s.started with
  | none => rfl
  | some start =>
      have heard := follows.heard (by simp [found])
      obtain ⟨last, touched⟩ := Option.isSome_iff_exists.mp heard
      obtain ⟨listens, running⟩ := (follows.tracked start last).mp ⟨found, touched⟩
      obtain ⟨e, member, starts⟩ := running.start_mem
      exact absurd starts (new e member)

theorem not_running (follows : Follows p events id s) (idle : s.started = none) (listens : Bool)
    (start last : Int) :
    ¬ Running p events id listens start last := by
  intro running
  have stored := (follows.tracked start last).mpr ⟨listens, running⟩
  rw [idle] at stored
  simp at stored

/-- Nothing changes for the session but its record. -/
theorem keep (follows : Follows p events id s) (e : Event) (record : Option Record)
    (running : ∀ listens start last,
      Running p (events ++ [e]) id listens start last ↔ Running p events id listens start last)
    (quiet : ∀ user host now, e ≠ .sshStart id user host true now) :
    Follows p (events ++ [e]) id { s with record := record } where
  tracked start last := by
    simp only [running]
    exact follows.tracked start last
  heard := follows.heard
  rdp := by
    simp only [running]
    exact follows.rdp
  ssh := by
    rw [opened_append events e id quiet]
    exact follows.ssh
  apart := follows.apart

/-- The session is not running any more. -/
theorem close (follows : Follows p events id s) (e : Event) (record : Option Record)
    (over_ : ∀ listens start last, ¬ Running p (events ++ [e]) id listens start last)
    (quiet : ∀ user host now, e ≠ .sshStart id user host true now) :
    Follows p (events ++ [e]) id { record := record, ssh := s.ssh } where
  tracked start last := by simp [over_]
  heard := by simp
  rdp := by simp [over_]
  ssh := by
    rw [opened_append events e id quiet]
    exact follows.ssh
  apart _ := rfl

theorem sshStart (follows : Follows p events id s) (user host : Str) (listens : Bool) (now : Int)
    (new : ∀ other ∈ events, other.starts ≠ some id) :
    Follows p (events ++ [.sshStart id user host listens now]) id
      (s.step p id (.sshStart id user host listens now)) := by
  have running :=
    running_quiet p events (.sshStart id user host listens now) id (by simp) (by simp [Spares])
      (by simp [lastTouch])
  have idle := follows.started_none new
  have shut : s.ssh = none := by
    rw [← Option.not_isSome_iff_eq_none, follows.ssh]
    rintro ⟨user, host, now, member⟩
    exact new _ member rfl
  simp only [Session.step, if_true]
  cases listens with
  | false => exact follows.keep _ _ running (by simp)
  | true =>
      refine ⟨?_, follows.heard, ?_, ?_, fun _ => idle⟩
      · intro start last
        simp only [running]
        exact follows.tracked start last
      · simp only [running]
        exact follows.rdp
      · exact iff_of_true rfl ⟨user, host, now, by simp⟩

theorem rdpStart (follows : Follows p events id s) (user host : Str) (listens : Bool) (now : Int)
    (new : ∀ other ∈ events, other.starts ≠ some id) :
    Follows p (events ++ [.rdpStart id user host listens now]) id
      (s.step p id (.rdpStart id user host listens now)) := by
  have idle := follows.started_none new
  have shut : ¬ s.ssh.isSome := by
    rw [follows.ssh]
    rintro ⟨user, host, now, member⟩
    exact new _ member rfl
  have closed : s.rdp = none := by
    rw [← Option.not_isSome_iff_eq_none, follows.rdp]
    rintro ⟨start, last, running⟩
    exact follows.not_running idle true start last running
  have running (l : Bool) (start last : Int) :
      Running p (events ++ [.rdpStart id user host listens now]) id l start last ↔
        l = listens ∧ start = now ∧ last = now := by
    rw [running_append]
    constructor
    · rintro (⟨⟨user, host, same⟩, end_⟩ | ⟨mid, older, _⟩)
      · cases same
        exact ⟨rfl, rfl, end_⟩
      · exact absurd older (follows.not_running idle l start mid)
    · rintro ⟨one, two, three⟩
      subst one two three
      exact Or.inl ⟨⟨user, host, rfl⟩, rfl⟩
  simp only [Session.step, if_true]
  refine ⟨?_, fun _ => rfl, ?_, ?_, fun open_ => absurd open_ shut⟩
  · intro start last
    simp only [running, Option.some.injEq, exists_eq_left]
    exact and_congr eq_comm eq_comm
  · simp only [running, closed]
    cases listens <;> simp
  · rw [opened_append events _ id (by simp)]
    exact follows.ssh

theorem rdpEvent (follows : Follows p events id s) (now : Int) :
    Follows p (events ++ [.rdpEvent id now]) id (s.step p id (.rdpEvent id now)) := by
  simp only [Session.step, if_true]
  refine ⟨?_, fun _ => rfl, ?_, ?_, follows.apart⟩
  · intro start last
    simp only [running_rdpEvent, Option.some.injEq, exists_and_right]
    apply and_congr
    · constructor
      · intro found
        obtain ⟨mid, touched⟩ := Option.isSome_iff_exists.mp (follows.heard (by simp [found]))
        obtain ⟨listens, running⟩ := (follows.tracked start mid).mp ⟨found, touched⟩
        exact ⟨listens, mid, running⟩
      · rintro ⟨listens, mid, running⟩
        exact ((follows.tracked start mid).mpr ⟨listens, running⟩).1
    · exact eq_comm
  · simp only [running_rdpEvent]
    rw [follows.rdp]
    simp
  · rw [opened_append events _ id (by simp)]
    exact follows.ssh

theorem rdpEnd (follows : Follows p events id s) (now : Int) :
    Follows p (events ++ [.rdpEnd id now]) id (s.step p id (.rdpEnd id now)) := by
  simp only [Session.step, if_true]
  exact follows.close _ _ (not_running_rdpEnd p events id now) (by simp)

theorem sweep (follows : Follows p events id s) (order : Visits.Order (Str × Int))
    (clock : Str → Int) (now : Int) :
    Follows p (events ++ [.sweep order clock now]) id (s.step p id (.sweep order clock now)) := by
  show Follows p (events ++ [.sweep order clock now]) id (s.swept p (clock id) now)
  cases found : s.started with
  | none =>
      rw [Session.swept_of_idle p (clock id) now s found]
      apply follows.keep _ s.record
      · intro listens start last
        rw [running_sweep]
        exact and_iff_left_of_imp fun running =>
          absurd running (follows.not_running found listens start last)
      · simp
  | some start =>
      obtain ⟨last, touched⟩ := Option.isSome_iff_exists.mp (follows.heard (by simp [found]))
      -- the tracker has the one time that the session was started at, and the last it was heard of
      have only (listens : Bool) (a b : Int) (running : Running p events id listens a b) :
          start = a ∧ last = b := by
        have stored := (follows.tracked a b).mpr ⟨listens, running⟩
        rw [found, touched] at stored
        simpa using stored
      by_cases spared : expiry p now start last = none
      · rw [Session.swept_of_spared p (clock id) now s start last found touched spared]
        apply follows.keep _ s.record
        · intro listens a b
          rw [running_sweep]
          refine and_iff_left_of_imp fun running => ?_
          rw [← (only listens a b running).1, ← (only listens a b running).2]
          exact spared
        · simp
      · have shut : s.ssh = none := by
          cases opened : s.ssh with
          | none => rfl
          | some host =>
              have idle := follows.apart (by simp [opened])
              rw [found] at idle
              simp at idle
        have ends (listens : Bool) (a b : Int) :
            ¬ Running p (events ++ [.sweep order clock now]) id listens a b := by
          rw [running_sweep]
          intro both
          have same := only listens a b both.1
          rw [← same.1, ← same.2] at both
          exact spared both.2
        have closed := follows.close (.sweep order clock now) (s.ended (clock id)) ends (by simp)
        rw [shut] at closed
        rw [Session.swept_of_over p (clock id) now s start last found touched spared]
        exact closed

end Follows

theorem follows_step (p : Policy) (events : List Event) (e : Event) (id : Str) (s : Session)
    (follows : Follows p events id s) (fresh : Fresh (events ++ [e])) :
    Follows p (events ++ [e]) id (s.step p id e) := by
  cases e with
  | sshStart other user host listens now =>
      by_cases same : other = id
      · subst same
        exact follows.sshStart user host listens now (not_started events _ other fresh rfl)
      · simp only [Session.step, if_neg same]
        exact follows.keep _ s.record
          (running_quiet p events _ id (by simp) (by simp [Spares]) (by simp [lastTouch]))
            (by simp [same])
  | rdpStart other user host listens now =>
      by_cases same : other = id
      · subst same
        exact follows.rdpStart user host listens now (not_started events _ other fresh rfl)
      · simp only [Session.step, if_neg same]
        exact follows.keep _ s.record
          (running_quiet p events _ id (by simp [same]) (by simp [Spares]) (by simp [lastTouch]))
            (by simp)
  | rdpEvent other now =>
      by_cases same : other = id
      · subst same
        exact follows.rdpEvent now
      · simp only [Session.step, if_neg same]
        exact follows.keep _ s.record
          (running_quiet p events _ id (by simp) (by simp [Spares]) (by simp [lastTouch, same]))
            (by simp)
  | rdpEnd other now =>
      by_cases same : other = id
      · subst same
        exact follows.rdpEnd now
      · simp only [Session.step, if_neg same]
        exact follows.keep _ s.record
          (running_quiet p events _ id (by simp) (by simp [Spares, same]) (by simp [lastTouch]))
            (by simp)
  | sweep order clock now => exact follows.sweep order clock now

theorem follows_run (p : Policy) (events : List Event) (id : Str) (fresh : Fresh events) :
    Follows p events id (events.foldl (Session.step p id) {}) := by
  induction events using List.reverseRecOn with
  | nil =>
      refine ⟨?_, by simp, ?_, by simp, by simp⟩
      · intro start last
        simp [Running]
      · simp [Running]
  | append_singleton events e ih =>
      rw [List.foldl_concat]
      refine follows_step p events e id _ (ih ?_) fresh
      exact (List.filterMap_append ▸
        fresh : (events.filterMap Event.starts ++ [e].filterMap Event.starts).Nodup).of_append_left

/-- After every run of the gateway, whatever the order of its sweeps' loops: the listener of an RDP
session is open exactly if it was opened and nothing ended the session since, neither a call nor a
sweep that came when its longest time was up or it had been idle too long. The listener of an SSH
session is open for ever. -/
theorem listeners_iff (p : Policy) (events : List Event) (fresh : Fresh events) (id : Str) :
    (id ∈ (Gateway.run p events).rdp ↔ ∃ start last, Running p events id true start last) ∧
      (id ∈ (Gateway.run p events).ssh ↔
        ∃ user host now, .sshStart id user host true now ∈ events) := by
  have follows := follows_run p events id fresh
  rw [← session_run] at follows
  constructor
  · rw [Std.ExtTreeMap.mem_iff_isSome_getElem?]
    exact follows.rdp
  · rw [Std.ExtTreeMap.mem_iff_isSome_getElem?]
    exact follows.ssh

def limits : Policy := { maxDuration := 100, idleTimeout := 10 }

/-- A session of each kind and a sweep. -/
def afternoon : List Event :=
  [ .rdpStart ['k'] ['u'] ['h'] true 0,
    .sshStart ['s'] ['u'] ['h'] true 1,
    .rdpEvent ['k'] 9,
    .sweep Visits.Order.asListed (fun _ => 13) 12 ]

theorem heard_is_open : ['k'] ∈ (Gateway.run limits afternoon).rdp ∧
    ['s'] ∈ (Gateway.run limits afternoon).ssh := by
  have fresh : Fresh afternoon := by
    show (afternoon.filterMap Event.starts).Nodup
    decide
  have desktop := listeners_iff limits afternoon fresh ['k']
  have shell := listeners_iff limits afternoon fresh ['s']
  refine ⟨desktop.1.mpr ⟨0, 9, [], ['u'], ['h'], _, rfl, ?_⟩,
    shell.2.mpr ⟨['u'], ['h'], 1, by simp [afternoon]⟩⟩
  simp [Outlives, Spares, lastTouch, expiry, limits]

end EraOne.PamSessions
