import EraOne.Maps
import EraOne.SlidingWindow
import EraOne.Strings

set_option autoImplicit false

/- The per-host throttle of the migration orchestrator (`throttle.go`). A call of `Allow` takes the
lock, reads the clock and either returns or sleeps and tries again; instants are those of the
monotonic clock. -/
namespace EraOne.Migration

open SlidingWindow

structure HostThrottle where
  limit : Int
  window : Int
  buckets : StrMap (List Int)

def newHostThrottle (limit window : Int) : HostThrottle where
  limit := limit
  window := window
  buckets := ∅

def HostThrottle.bucket (t : HostThrottle) (host : Str) : List Int := t.buckets[host]?.getD []

/-- What the lock section of a call comes to. -/
inductive Turn where
  | returned
  | blocked (sleep : Int)
  deriving DecidableEq

/-- One lock section of `Allow`; `none` is the panic of `kept[0]` on a limit below 1. -/
def HostThrottle.allow (t : HostThrottle) (host : Str) (now : Int) :
    Option (HostThrottle × Turn) :=
  let cut := now - t.window
  let kept := (t.bucket host).filter fun ts => cut < ts
  if (kept.length : Int) < t.limit then
    some ({ t with buckets := t.buckets.insert host (kept ++ [now]) }, .returned)
  else
    match kept with
    | first :: _ => some (t, .blocked (first + t.window - now))
    | [] => none

/-- Where a call of `Allow` stands. -/
inductive CallPhase where
  | ready
  | sleeping (until_ : Int)
  | returned (at_ : Int)
  deriving DecidableEq

structure AllowCall where
  host : Str
  phase : CallPhase := .ready
  deriving DecidableEq

def AllowCall.returnedAt (host : Str) (call : AllowCall) : Option Int :=
  match call.phase with
  | .returned at_ => if call.host = host then some at_ else none
  | _ => none

/-- The throttle, the last reading of the clock, and the calls made so far. -/
structure ThrottleState where
  throttle : HostThrottle
  clock : Int
  calls : List AllowCall := []

inductive ThrottleEvent where
  /-- A goroutine calls `Allow`. -/
  | call (host : Str)
  /-- The lock section of a call that is not asleep, and what it reads from the clock. -/
  | turn (call : Nat) (now : Int)
  deriving DecidableEq

/-- The call may take the lock at that instant. -/
def AllowCall.awake (call : AllowCall) (now : Int) : Bool :=
  match call.phase with
  | .ready => true
  | .sleeping until_ => until_ ≤ now
  | .returned _ => false

/-- An event; `none` when it cannot happen. The clock does not go back. -/
def throttleStep (s : ThrottleState) : ThrottleEvent → Option ThrottleState
  | .call host => some { s with calls := s.calls ++ [{ host := host }] }
  | .turn i now =>
      match s.calls[i]? with
      | some call =>
          if call.awake now ∧ s.clock ≤ now then
            (s.throttle.allow call.host now).map fun done =>
              let phase := match done.2 with
                | .returned => .returned now
                | .blocked sleep => if sleep > 0 then .sleeping (now + sleep) else .ready
              { throttle := done.1, clock := now,
                calls := s.calls.set i { call with phase := phase } }
          else none
      | none => none

def throttleStart (limit window clock : Int) : ThrottleState where
  throttle := newHostThrottle limit window
  clock := clock

/-- The instants at which the calls for a host returned. -/
def ThrottleState.returns (s : ThrottleState) (host : Str) : List Int :=
  s.calls.filterMap (AllowCall.returnedAt host)

/-- The bucket of a host has the returns that can still count, and no window has too many. -/
structure Throttled (limit window : Int) (s : ThrottleState) : Prop where
  limit_eq : s.throttle.limit = limit
  window_eq : s.throttle.window = window
  remembers : ∀ host, Remembers window s.clock (s.throttle.bucket host) (s.returns host)
  spaced : ∀ host, Spaced limit.toNat window (s.returns host)

theorem throttled_start (limit window clock : Int) :
    Throttled limit window (throttleStart limit window clock) where
  limit_eq := rfl
  window_eq := rfl
  remembers host := by
    have empty : (newHostThrottle limit window).bucket host = [] := by
      rw [HostThrottle.bucket, newHostThrottle, Std.ExtTreeMap.getElem?_empty, Option.getD_none]
    change Remembers window clock ((newHostThrottle limit window).bucket host) []
    rw [empty]
    exact remembers_nil window clock
  spaced _ := spaced_nil limit.toNat window

/-- What a lock section can do. -/
theorem allow_cases (t : HostThrottle) (host : Str) (now : Int) (next : HostThrottle) (turn : Turn)
    (done : t.allow host now = some (next, turn)) :
    (turn = .returned ∧
      (((t.bucket host).filter fun ts => now - t.window < ts).length : Int) < t.limit ∧
      next = { t with
        buckets := t.buckets.insert host
          (((t.bucket host).filter fun ts => now - t.window < ts) ++ [now]) }) ∨
    (∃ sleep, turn = .blocked sleep) ∧ next = t := by
  unfold HostThrottle.allow at done
  dsimp only at done
  split_ifs at done with room
  · obtain ⟨same, rfl⟩ := Prod.mk.inj (Option.some.inj done)
    exact .inl ⟨rfl, room, same.symm⟩
  · split at done
    · obtain ⟨same, rfl⟩ := Prod.mk.inj (Option.some.inj done)
      exact .inr ⟨⟨_, rfl⟩, same.symm⟩
    · cases done

/-- With a limit of at least 1 the lock section does not panic. -/
theorem allow_isSome (t : HostThrottle) (host : Str) (now : Int) (positive : 1 ≤ t.limit) :
    (t.allow host now).isSome = true := by
  unfold HostThrottle.allow
  dsimp only
  split_ifs with room
  · rfl
  · cases kept : (t.bucket host).filter fun ts => now - t.window < ts with
    | nil =>
        rw [kept, List.length_nil] at room
        omega
    | cons first rest => rfl

theorem bucket_insert (t : HostThrottle) (host other : Str) (log : List Int) :
    { t with buckets := t.buckets.insert host log }.bucket other =
      if other = host then log else t.bucket other := by
  unfold HostThrottle.bucket
  rw [Maps.getElem?_insert_eq]
  split_ifs <;> rfl

/-- An entry that counted for nothing is replaced. -/
theorem filterMap_set_perm {α β : Type} (f : α → Option β) (xs : List α) (i : Nat) (x y : α)
    (found : xs[i]? = some x) (nothing : f x = none) :
    ((xs.set i y).filterMap f).Perm ((f y).toList ++ xs.filterMap f) := by
  induction xs generalizing i with
  | nil => cases found
  | cons a xs ih =>
      cases i with
      | zero =>
          obtain rfl := Option.some.inj found
          rw [List.set_cons_zero, List.filterMap_cons_none nothing, List.filterMap_cons]
          cases f y <;> exact List.Perm.refl _
      | succ i =>
          have later := ih i found
          rw [List.set_cons_succ, List.filterMap_cons, List.filterMap_cons]
          cases f a with
          | none => exact later
          | some b => exact (later.cons b).trans List.perm_middle.symm

theorem returns_append (s : ThrottleState) (host other : Str) :
    ThrottleState.returns { s with calls := s.calls ++ [{ host := host }] } other =
      s.returns other := by
  unfold ThrottleState.returns
  rw [List.filterMap_append]
  exact List.append_nil _

theorem AllowCall.returnedAt_of_awake (call : AllowCall) (now : Int) (awake : call.awake now = true)
    (host : Str) : call.returnedAt host = none := by
  unfold AllowCall.awake at awake
  unfold AllowCall.returnedAt
  cases phase : call.phase with
  | ready => rfl
  | sleeping => rfl
  | returned =>
      rw [phase] at awake
      cases awake

/-- A lock section keeps the invariant, whatever call enters it. -/
theorem throttled_turn (limit window : Int) (s next : ThrottleState) (i : Nat) (now : Int)
    (inv : Throttled limit window s) (done : throttleStep s (.turn i now) = some next) :
    Throttled limit window next := by
  unfold throttleStep at done
  dsimp only at done
  cases found : s.calls[i]? with
  | none =>
      rw [found] at done
      cases done
  | some call =>
      rw [found] at done
      dsimp only at done
      split_ifs at done with taken
      obtain ⟨awake, passed⟩ := taken
      obtain ⟨⟨throttle, turn⟩, section_, rfl⟩ := Option.map_eq_some_iff.mp done
      have waiting := call.returnedAt_of_awake now awake
      have remembers (host : Str) := (inv.remembers host).later passed
      rcases allow_cases s.throttle call.host now throttle turn section_ with
        ⟨rfl, room, rfl⟩ | ⟨⟨sleep, rfl⟩, rfl⟩
      · have times (host : Str) := filterMap_set_perm (AllowCall.returnedAt host) s.calls i call
          { call with phase := .returned now } found (waiting host)
        have here (host : Str) : AllowCall.returnedAt host { call with phase := .returned now } =
            if call.host = host then some now else none := rfl
        rw [inv.limit_eq, inv.window_eq] at room
        refine ⟨inv.limit_eq, inv.window_eq, ?_, ?_⟩
        · intro host
          have mine := times host
          rw [here] at mine
          dsimp only
          rw [bucket_insert]
          by_cases same : call.host = host
          · subst same
            rw [if_pos rfl] at mine
            rw [if_pos rfl, inv.window_eq]
            exact (remembers call.host).grant.perm mine.symm
          · rw [if_neg same] at mine
            rw [if_neg fun other => same other.symm]
            exact (remembers host).perm mine.symm
        · intro host
          have mine := times host
          rw [here] at mine
          by_cases same : call.host = host
          · subst same
            rw [if_pos rfl] at mine
            rw [(remembers call.host).length_eq] at room
            exact ((inv.spaced call.host).cons (by omega)).perm mine.symm
          · rw [if_neg same] at mine
            exact (inv.spaced host).perm mine.symm
      · dsimp only
        generalize nextPhase : (if sleep > 0 then CallPhase.sleeping (now + sleep) else .ready) =
          phase
        have still (host : Str) :
            AllowCall.returnedAt host { call with phase := phase } = none := by
          rw [← nextPhase]
          split_ifs <;> rfl
        have times (host : Str) := filterMap_set_perm (AllowCall.returnedAt host) s.calls i call
          { call with phase := phase } found (waiting host)
        refine ⟨inv.limit_eq, inv.window_eq, ?_, ?_⟩
        · intro host
          have mine := times host
          rw [still] at mine
          exact (remembers host).perm mine.symm
        · intro host
          have mine := times host
          rw [still] at mine
          exact (inv.spaced host).perm mine.symm

theorem throttled_step (limit window : Int) (s next : ThrottleState) (event : ThrottleEvent)
    (inv : Throttled limit window s) (done : throttleStep s event = some next) :
    Throttled limit window next := by
  cases event with
  | call host =>
      obtain rfl := Option.some.inj done
      refine ⟨inv.limit_eq, inv.window_eq, ?_, ?_⟩
      · intro other
        rw [returns_append]
        exact inv.remembers other
      · intro other
        rw [returns_append]
        exact inv.spaced other
  | turn i now => exact throttled_turn limit window s next i now inv done

theorem throttled_run (limit window : Int) (events : List ThrottleEvent) (s last : ThrottleState)
    (inv : Throttled limit window s) (run : events.foldlM throttleStep s = some last) :
    Throttled limit window last := by
  induction events generalizing s with
  | nil =>
      obtain rfl := Option.some.inj run
      exact inv
  | cons event events ih =>
      rw [List.foldlM_cons] at run
      obtain ⟨next, done, rest⟩ := Option.bind_eq_some_iff.mp run
      exact ih next (throttled_step limit window s next event inv done) rest

/-- A call that is awake finishes its lock section, whatever the clock reads. -/
theorem turn_isSome (limit window : Int) (s : ThrottleState) (i : Nat) (call : AllowCall)
    (now : Int) (inv : Throttled limit window s) (positive : 1 ≤ limit)
    (found : s.calls[i]? = some call) (awake : call.awake now = true) (passed : s.clock ≤ now) :
    (throttleStep s (.turn i now)).isSome = true := by
  unfold throttleStep
  dsimp only
  rw [found]
  dsimp only
  rw [if_pos ⟨awake, passed⟩, Option.isSome_map]
  exact allow_isSome s.throttle call.host now (by rw [inv.limit_eq]; exact positive)

/-- However the lock sections of the calls are interleaved, at most `limit` calls for one host
return in any interval as long as the window, closed at one end and open at the other. -/
theorem host_throttled (limit window clock : Int) (positive : 1 ≤ limit)
    (events : List ThrottleEvent) (last : ThrottleState)
    (run : events.foldlM throttleStep (throttleStart limit window clock) = some last) (host : Str)
    (start : Int) :
    ((last.returns host).countP fun t => start ≤ t ∧ t < start + window) ≤ limit ∧
      ((last.returns host).countP fun t => start < t ∧ t ≤ start + window) ≤ limit := by
  have inv := throttled_run limit window events _ last (throttled_start limit window clock) run
  have closedOpen := inv.spaced host _ (within_closedOpen window start)
  have openClosed := inv.spaced host _ (within_openClosed window start)
  omega

/-- Two calls in a window of 10; the third sleeps until the first has left it. -/
def threeCalls : List ThrottleEvent :=
  [.call ['a'], .call ['a'], .turn 1 0, .call ['a'], .turn 0 3, .turn 2 4, .turn 2 10]

theorem host_throttled_threeCalls :
    let last := ((threeCalls.foldlM throttleStep (throttleStart 2 10 0)).get (by decide))
    last.returns ['a'] = [3, 0, 10] ∧
      (((last.returns ['a']).countP fun t => 0 ≤ t ∧ t < 0 + 10 : Nat) : Int) ≤ 2 :=
  ⟨by decide, (host_throttled 2 10 0 (by decide) threeCalls _ (Option.some_get _).symm ['a'] 0).1⟩

end EraOne.Migration
