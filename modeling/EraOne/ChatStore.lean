import EraOne.GoTime
import EraOne.Maps
import EraOne.Runs
import EraOne.Scan
import EraOne.Strings

set_option autoImplicit false

/- The chat rooms and messages of all tenants in one store in memory (`store.go`). -/
namespace EraOne.Chat

open GoTime Maps

structure Room where
  id : Str
  tenantID : Str
  name : Str
  created : Time
  deriving DecidableEq

structure Message where
  id : Str
  roomID : Str
  tenantID : Str
  sender : Str
  body : Str
  sentAt : Time
  deriving DecidableEq

structure Store where
  rooms : StrMap Room := ∅
  messages : List Message := []
  seq : Nat := 0

def itoa (n : Nat) : Str := Nat.toDigits 10 n

def twoDigits (n : Nat) : Str := [Char.ofNat (48 + n / 10 % 10), Char.ofNat (48 + n % 10)]

/-- The layout `150405` of a time in UTC. -/
def clock (now : Time) : Str :=
  let second := (now.sec.toInt % 86400).toNat
  twoDigits (second / 3600) ++ twoDigits (second / 60 % 60) ++ twoDigits (second % 60)

def roomID (name : Str) (now : Time) (seq : Nat) : Str :=
  if name = [] then "!room-".toList ++ clock now ++ "-".toList ++ itoa seq ++ ":era".toList
  else "!".toList ++ name ++ ":era".toList

def Store.createRoom (s : Store) (tenantID name : Str) (now : Time) : Store × Room :=
  let seq := s.seq + 1
  let r : Room := { id := roomID name now seq, tenantID := tenantID, name := name, created := now }
  ({ s with seq := seq, rooms := s.rooms.insert r.id r }, r)

def Store.addMessage (s : Store) (tenantID roomID sender body : Str) (now : Time) :
    Store × Option Message :=
  match s.rooms[roomID]? with
  | none => (s, none)
  | some r =>
      if r.tenantID ≠ tenantID then (s, none)
      else
        let seq := s.seq + 1
        let m : Message :=
          { id := "$".toList ++ itoa seq ++ ":era".toList
            roomID := roomID
            tenantID := tenantID
            sender := sender
            body := body
            sentAt := now }
        ({ s with seq := seq, messages := s.messages ++ [m] }, some m)

def Store.listMessages (s : Store) (tenantID roomID : Str) : List Message :=
  s.messages.filter fun m => m.tenantID = tenantID ∧ m.roomID = roomID

theorem itoa_inj (m n : Nat) (same : itoa m = itoa n) : m = n := by
  have read := congrArg Scan.parseDigits same
  unfold itoa at read
  rw [Scan.parseDigits_toDigits, Scan.parseDigits_toDigits] at read
  exact Option.some.inj read

/-! ### Calls and their answers -/

/-- A call with the reading of the clock that it takes. -/
inductive Call where
  | createRoom (tenantID name : Str) (now : Time)
  | addMessage (tenantID roomID sender body : Str) (now : Time)
  | listMessages (tenantID roomID : Str)

def Call.tenant : Call → Str
  | .createRoom tenantID _ _ | .addMessage tenantID _ _ _ _ | .listMessages tenantID _ => tenantID

inductive Answer where
  | room (r : Room)
  | message (m : Option Message)
  | messages (ms : List Message)
  deriving DecidableEq

def Store.call (s : Store) : Call → Store × Answer
  | .createRoom tenantID name now =>
      ((s.createRoom tenantID name now).1, .room (s.createRoom tenantID name now).2)
  | .addMessage tenantID roomID sender body now =>
      ((s.addMessage tenantID roomID sender body now).1,
        .message (s.addMessage tenantID roomID sender body now).2)
  | .listMessages tenantID roomID => (s, .messages (s.listMessages tenantID roomID))

/-- The store, and what every call was answered with so far. -/
structure Served where
  store : Store := {}
  answers : List (Str × Answer) := []

def Served.step (s : Served) (c : Call) : Served :=
  ⟨(s.store.call c).1, s.answers ++ [(c.tenant, (s.store.call c).2)]⟩

def serve (calls : List Call) : Served := calls.foldl Served.step {}

/-! ### What a tenant may see -/

def Message.blind (m : Message) : Message := { m with id := [], sentAt := zeroTime }

/-- An answer without message ids and times. -/
def Answer.blind : Answer → Answer
  | .room r => .room { r with created := zeroTime }
  | .message m => .message (m.map Message.blind)
  | .messages ms => .messages (ms.map Message.blind)

/-- The answers to the others are those of a run without the tenant. -/
def Agree (tenant : Str) (s without : Served) : Prop :=
  (s.answers.filter fun e => e.1 ≠ tenant).map (fun e => (e.1, e.2.blind)) =
    without.answers.map fun e => (e.1, e.2.blind)

def Isolated (calls : List Call) : Prop :=
  ∀ tenant, Agree tenant (serve calls) (serve (calls.filter fun c => c.tenant ≠ tenant))

/-- Who created a room can write to it. -/
def Usable (s : Served) : Prop :=
  ∀ tenantID r, (tenantID, Answer.room r) ∈ s.answers →
    ∀ sender body now, (s.store.addMessage tenantID r.id sender body now).2.isSome

/-- The calls that take a number. -/
def Answer.counts : Answer → Bool
  | .room _ => true
  | .message m => m.isSome
  | .messages _ => false

/-- A new room takes the place of none of another tenant's rooms; and no other tenant took a number
before one that is to be named by its number. -/
def Separate (s : Served) : Call → Prop
  | .createRoom tenantID name now =>
      (∀ r, s.store.rooms[roomID name now (s.store.seq + 1)]? = some r → r.tenantID = tenantID) ∧
      (name = [] → ∀ e ∈ s.answers, e.2.counts = true → e.1 = tenantID)
  | _ => True

/-! ### One call -/

theorem addMessage_of_owner (s : Store) (tenantID roomID sender body : Str) (now : Time) (r : Room)
    (found : s.rooms[roomID]? = some r) (own : r.tenantID = tenantID) :
    s.addMessage tenantID roomID sender body now =
      ({ s with
          seq := s.seq + 1
          messages := s.messages ++
            [⟨"$".toList ++ itoa (s.seq + 1) ++ ":era".toList, roomID, tenantID, sender, body, now⟩]
              },
        some ⟨"$".toList ++ itoa (s.seq + 1) ++ ":era".toList, roomID, tenantID, sender, body,
          now⟩) := by
  unfold Store.addMessage
  rw [found]
  dsimp only
  rw [if_neg (not_not.mpr own)]

theorem addMessage_of_other (s : Store) (tenantID roomID sender body : Str) (now : Time)
    (other : ∀ r, s.rooms[roomID]? = some r → r.tenantID ≠ tenantID) :
    s.addMessage tenantID roomID sender body now = (s, none) := by
  unfold Store.addMessage
  cases found : s.rooms[roomID]? with
  | none => rfl
  | some r => exact if_pos (other r found)

theorem addMessage_isSome_iff (s : Store) (tenantID roomID sender body : Str) (now : Time) :
    (s.addMessage tenantID roomID sender body now).2.isSome = true ↔
      ∃ r, s.rooms[roomID]? = some r ∧ r.tenantID = tenantID := by
  by_cases own : ∃ r, s.rooms[roomID]? = some r ∧ r.tenantID = tenantID
  · obtain ⟨r, found, own⟩ := own
    rw [addMessage_of_owner s tenantID roomID sender body now r found own]
    exact iff_of_true rfl ⟨r, found, own⟩
  · have other : ∀ r, s.rooms[roomID]? = some r → r.tenantID ≠ tenantID :=
      fun r found same => own ⟨r, found, same⟩
    rw [addMessage_of_other s tenantID roomID sender body now other]
    exact iff_of_false Bool.false_ne_true own

theorem usable_iff (s : Served) :
    Usable s ↔ ∀ tenantID r, (tenantID, Answer.room r) ∈ s.answers →
      ∃ stored, s.store.rooms[r.id]? = some stored ∧ stored.tenantID = tenantID := by
  unfold Usable
  simp only [addMessage_isSome_iff]
  constructor
  · intro all tenantID r member
    exact all tenantID r member [] [] zeroTime
  · intro all tenantID r member _ _ _
    exact all tenantID r member

/-- Every stored room was the answer to its tenant. -/
def Recorded (s : Served) : Prop :=
  ∀ id r, s.store.rooms[id]? = some r → r.id = id ∧ (r.tenantID, Answer.room r) ∈ s.answers

theorem recorded_step (s : Served) (c : Call) (recorded : Recorded s) : Recorded (s.step c) := by
  have kept (id : Str) (r : Room) (found : s.store.rooms[id]? = some r) :
      r.id = id ∧ (r.tenantID, Answer.room r) ∈ (s.step c).answers :=
    ⟨(recorded id r found).1, List.mem_append_left _ (recorded id r found).2⟩
  intro id r found
  cases c with
  | createRoom tenantID name now =>
      change (s.store.rooms.insert _ _)[id]? = some r at found
      rw [getElem?_insert_eq] at found
      split at found
      · rename_i here
        cases found
        exact ⟨here.symm, List.mem_append_right _ (List.mem_singleton.mpr rfl)⟩
      · exact kept id r found
  | addMessage tenantID roomID sender body now =>
      apply kept id r
      change (s.store.addMessage _ _ _ _ _).1.rooms[id]? = some r at found
      unfold Store.addMessage at found
      split at found
      · exact found
      · split at found <;> exact found
  | listMessages tenantID roomID => exact kept id r found

/-! ### Two runs -/

/-- How many numbers a tenant took. -/
def taken (tenant : Str) (answers : List (Str × Answer)) : Nat :=
  answers.countP fun e => e.1 = tenant ∧ e.2.counts

/-- A run, and one without the calls of a tenant. -/
structure Matches (tenant : Str) (s without : Served) : Prop where
  agree : Agree tenant s without
  rooms : without.store.rooms = s.store.rooms.filter fun _ r => r.tenantID ≠ tenant
  messages : without.store.messages.map Message.blind =
    (s.store.messages.filter fun m => m.tenantID ≠ tenant).map Message.blind
  seq : s.store.seq = without.store.seq + taken tenant s.answers

theorem taken_append (tenant : Str) (answers : List (Str × Answer)) (e : Str × Answer) :
    taken tenant (answers ++ [e]) = taken tenant answers + if e.1 = tenant ∧
      e.2.counts = true then 1 else 0 := by
  unfold taken
  rw [List.countP_append, List.countP_singleton]
  simp only [decide_eq_true_eq]

theorem agree_append_own (tenant : Str) (s without : Served) (store : Store) (a : Answer)
    (agree : Agree tenant s without) :
    Agree tenant ⟨store, s.answers ++ [(tenant, a)]⟩ without := by
  unfold Agree at agree ⊢
  rw [← agree]
  simp

theorem agree_append_iff (tenant other : Str) (s without : Served) (store store' : Store)
    (a a' : Answer) (agree : Agree tenant s without) (different : other ≠ tenant) :
    Agree tenant ⟨store, s.answers ++ [(other, a)]⟩ ⟨store', without.answers ++ [(other, a')]⟩ ↔
      a.blind = a'.blind := by
  unfold Agree at agree ⊢
  dsimp only
  rw [List.filter_append, List.map_append, List.map_append, agree, List.append_cancel_left_eq]
  simp [different]

theorem owned_of_matches (tenant : Str) (s without : Served) (match_ : Matches tenant s without)
    (id : Str) (r : Room) : without.store.rooms[id]? = some r ↔
      s.store.rooms[id]? = some r ∧ r.tenantID ≠ tenant := by
  rw [match_.rooms, Std.ExtTreeMap.getElem?_filter', Option.filter_eq_some_iff]
  simp

theorem blind_listMessages (tenant other id : Str) (s without : Served)
    (match_ : Matches tenant s without) (different : other ≠ tenant) :
    (s.store.listMessages other id).map Message.blind =
      (without.store.listMessages other id).map Message.blind := by
  have through (ms : List Message) :
      (ms.filter fun m => m.tenantID = other ∧ m.roomID = id).map Message.blind =
        (ms.map Message.blind).filter fun m => m.tenantID = other ∧ m.roomID = id := by
    rw [List.filter_map]
    rfl
  unfold Store.listMessages
  rw [through without.store.messages, match_.messages, ← through, List.filter_filter]
  congr 1
  apply List.filter_congr
  intro m _
  by_cases own : m.tenantID = other
  · simp [own, different]
  · simp [own]

theorem matches_step_own (s without : Served) (c : Call) (match_ : Matches c.tenant s without)
    (separate : Separate s c) : Matches c.tenant (s.step c) without := by
  have agree :=
    agree_append_own c.tenant s without (s.store.call c).1 (s.store.call c).2 match_.agree
  cases c with
  | createRoom tenantID name now =>
      refine ⟨agree, ?_, match_.messages, ?_⟩
      · change without.store.rooms = (s.store.rooms.insert _ _).filter _
        rw [match_.rooms, filter_insert_of_drop]
        · simp [Call.tenant]
        · intro old found
          have own : old.tenantID = tenantID := separate.1 old found
          simp [Call.tenant, own]
      · unfold Served.step
        rw [taken_append, if_pos ⟨rfl, rfl⟩]
        have before := match_.seq
        change s.store.seq + 1 = _
        omega
  | addMessage tenantID roomID sender body now =>
      by_cases own : ∃ r, s.store.rooms[roomID]? = some r ∧ r.tenantID = tenantID
      · obtain ⟨r, found, own⟩ := own
        have added := addMessage_of_owner s.store tenantID roomID sender body now r found own
        unfold Store.call at agree
        unfold Served.step Store.call
        dsimp only at agree ⊢
        rw [added] at agree ⊢
        refine ⟨agree, match_.rooms, ?_, ?_⟩
        · rw [match_.messages, List.filter_append]
          simp [Call.tenant]
        · rw [taken_append, if_pos ⟨rfl, rfl⟩]
          have before := match_.seq
          dsimp only
          omega
      · have refused := addMessage_of_other s.store tenantID roomID sender body now
          fun r found same => own ⟨r, found, same⟩
        unfold Store.call at agree
        unfold Served.step Store.call
        dsimp only at agree ⊢
        rw [refused] at agree ⊢
        refine ⟨agree, match_.rooms, match_.messages, ?_⟩
        rw [taken_append, if_neg fun both => Bool.false_ne_true both.2]
        exact match_.seq
  | listMessages tenantID roomID =>
      refine ⟨agree, match_.rooms, match_.messages, ?_⟩
      unfold Served.step
      rw [taken_append, if_neg fun both => Bool.false_ne_true both.2]
      exact match_.seq

/-- Where no other tenant took a number, a new room has the same id in both runs. -/
theorem roomID_of_separate (tenant : Str) (s without : Served) (tenantID name : Str) (now : Time)
    (match_ : Matches tenant s without) (different : tenantID ≠ tenant)
    (separate : Separate s (.createRoom tenantID name now)) :
    roomID name now (without.store.seq + 1) = roomID name now (s.store.seq + 1) := by
  by_cases unnamed : name = []
  · have none_ : taken tenant s.answers = 0 := by
      unfold taken
      rw [List.countP_eq_zero]
      intro e member both
      rw [decide_eq_true_eq] at both
      exact different ((separate.2 unnamed e member both.2).symm.trans both.1)
    rw [match_.seq, none_, Nat.add_zero]
  · unfold roomID
    rw [if_neg unnamed, if_neg unnamed]

theorem matches_step_other (tenant : Str) (s without : Served) (c : Call)
    (match_ : Matches tenant s without) (different : c.tenant ≠ tenant) (separate : Separate s c) :
    Matches tenant (s.step c) (without.step c) := by
  have agree (a a' : Answer) (store store' : Store) :=
    (agree_append_iff tenant c.tenant s without store store'
      a a' match_.agree different).mpr
  have before := match_.seq
  cases c with
  | createRoom tenantID name now =>
      have same := roomID_of_separate tenant s without tenantID name now match_ different separate
      have answers : (without.store.createRoom tenantID name now).2 =
          (s.store.createRoom tenantID name now).2 := by
        unfold Store.createRoom
        dsimp only
        rw [same]
      refine ⟨agree _ _ _ _ ?_, ?_, match_.messages, ?_⟩
      · unfold Store.call
        dsimp only
        rw [answers]
      · change without.store.rooms.insert _ (without.store.createRoom tenantID name now).2 =
          (s.store.rooms.insert _ (s.store.createRoom tenantID name now).2).filter _
        rw [filter_insert_of_keep, match_.rooms, answers]
        · unfold Store.createRoom
          dsimp only
          rw [same]
        · exact decide_eq_true different
      · unfold Served.step
        rw [taken_append, if_neg fun both => different both.1]
        change s.store.seq + 1 = without.store.seq + 1 + _
        omega
  | addMessage tenantID roomID sender body now =>
      by_cases own : ∃ r, s.store.rooms[roomID]? = some r ∧ r.tenantID = tenantID
      · obtain ⟨r, found, own⟩ := own
        have there :=
          (owned_of_matches tenant s without match_ roomID r).mpr ⟨found, own ▸ different⟩
        unfold Served.step Store.call
        dsimp only
        rw [addMessage_of_owner s.store tenantID roomID sender body now r found own,
          addMessage_of_owner without.store tenantID roomID sender body now r there own]
        refine ⟨agree _ _ _ _ rfl, match_.rooms, ?_, ?_⟩
        · dsimp only
          rw [List.map_append, match_.messages, List.filter_append, List.map_append]
          simp only [List.filter_cons, List.filter_nil]
          rw [if_pos (by simpa [Call.tenant] using different)]
          rfl
        · rw [taken_append, if_neg fun both => different both.1]
          dsimp only
          omega
      · have other : ∀ r, s.store.rooms[roomID]? = some r → r.tenantID ≠ tenantID :=
          fun r found same => own ⟨r, found, same⟩
        have gone : ∀ r, without.store.rooms[roomID]? = some r → r.tenantID ≠ tenantID :=
          fun r found => other r ((owned_of_matches tenant s without match_ roomID r).mp found).1
        unfold Served.step Store.call
        dsimp only
        rw [addMessage_of_other s.store tenantID roomID sender body now other,
          addMessage_of_other without.store tenantID roomID sender body now gone]
        refine ⟨agree _ _ _ _ rfl, match_.rooms, match_.messages, ?_⟩
        rw [taken_append, if_neg fun both => different both.1]
        exact before
  | listMessages tenantID roomID =>
      refine ⟨agree _ _ _ _ ?_, match_.rooms, match_.messages, ?_⟩
      · unfold Store.call Answer.blind
        dsimp only
        rw [blind_listMessages tenant tenantID roomID s without match_ different]
      · unfold Served.step
        rw [taken_append, if_neg fun both => different both.1]
        exact before

/-! ### Calls of several tenants -/

/-- A run, and for each tenant the run without its calls. -/
structure Watched where
  served : Served := {}
  without : Str → Served := fun _ => {}

def Watched.step (w : Watched) (c : Call) : Watched :=
  ⟨w.served.step c, fun tenant => if c.tenant = tenant then w.without tenant
    else (w.without tenant).step c⟩

def Watched.Good (w : Watched) : Prop :=
  (∀ tenant, Agree tenant w.served (w.without tenant)) ∧ Usable w.served

structure Watched.Consistent (w : Watched) : Prop where
  good : w.Good
  recorded : Recorded w.served
  matches_ : ∀ tenant, Matches tenant w.served (w.without tenant)

theorem foldl_watched (calls : List Call) (w : Watched) :
    calls.foldl Watched.step w = ⟨calls.foldl Served.step w.served,
      fun tenant => (calls.filter fun c => c.tenant ≠ tenant).foldl Served.step
        (w.without tenant)⟩ := by
  induction calls generalizing w with
  | nil => rfl
  | cons c calls ih =>
      rw [List.foldl_cons, ih, List.foldl_cons]
      unfold Watched.step
      congr 1
      funext tenant
      by_cases own : c.tenant = tenant
      · simp [own]
      · simp [own]

theorem usable_step (s : Served) (c : Call) (usable : Usable s) (separate : Separate s c) :
    Usable (s.step c) := by
  rw [usable_iff] at usable ⊢
  intro owner r member
  cases c with
  | createRoom tenantID name now =>
      change ∃ stored, (s.store.rooms.insert _ _)[r.id]? = some stored ∧ _
      rw [getElem?_insert_eq]
      rcases List.mem_append.mp member with old | new
      · obtain ⟨stored, found, own⟩ := usable owner r old
        split
        · rename_i here
          rw [here] at found
          exact ⟨_, rfl, (separate.1 stored found).symm.trans own⟩
        · exact ⟨stored, found, own⟩
      · obtain ⟨rfl, same⟩ := Prod.mk.inj (List.mem_singleton.mp new)
        have here : r.id = roomID name now (s.store.seq + 1) :=
          congrArg Room.id (Answer.room.inj same)
        exact ⟨_, if_pos here, rfl⟩
  | addMessage tenantID roomID sender body now =>
      have old : (owner, Answer.room r) ∈ s.answers := by
        rcases List.mem_append.mp member with old | new
        · exact old
        · exact absurd (Prod.mk.inj (List.mem_singleton.mp new)).2 (by simp [Store.call])
      have rooms :
          (s.step (.addMessage tenantID roomID sender body now)).store.rooms = s.store.rooms := by
        unfold Served.step Store.call Store.addMessage
        dsimp only
        split
        · rfl
        · split <;> rfl
      rw [rooms]
      exact usable owner r old
  | listMessages tenantID roomID =>
      rcases List.mem_append.mp member with old | new
      · exact usable owner r old
      · exact absurd (Prod.mk.inj (List.mem_singleton.mp new)).2 (by simp [Store.call])

theorem consistent_step (w : Watched) (c : Call) (consistent : w.Consistent)
    (separate : Separate w.served c) : (w.step c).Consistent := by
  have matches_ (tenant : Str) : Matches tenant (w.step c).served ((w.step c).without tenant) := by
    unfold Watched.step
    dsimp only
    split
    · rename_i own
      subst own
      exact matches_step_own w.served _ c (consistent.matches_ c.tenant) separate
    · rename_i different
      exact matches_step_other tenant w.served _ c (consistent.matches_ tenant) different separate
  refine ⟨⟨fun tenant => (matches_ tenant).agree, ?_⟩, ?_, matches_⟩
  · exact usable_step w.served c consistent.good.2 separate
  · exact recorded_step w.served c consistent.recorded

/-- A room that takes the place of another tenant's is one that its tenant loses. -/
theorem owner_of_usable (s : Served) (tenantID name : Str) (now : Time) (r : Room)
    (recorded : Recorded s) (usable : Usable (s.step (.createRoom tenantID name now)))
    (found : s.store.rooms[roomID name now (s.store.seq + 1)]? = some r) :
    r.tenantID = tenantID := by
  obtain ⟨id, member⟩ := recorded _ r found
  obtain ⟨stored, there, own⟩ :=
    (usable_iff _).mp usable r.tenantID r (List.mem_append_left _ member)
  change (s.store.rooms.insert (roomID name now (s.store.seq + 1)) _)[r.id]? = some stored at there
  rw [getElem?_insert_eq, if_pos id] at there
  rw [← own, ← Option.some.inj there]

theorem unnamed_inj (now : Time) (m n : Nat) (same : roomID [] now m = roomID [] now n) :
    m = n := by
  unfold roomID at same
  rw [if_pos rfl, if_pos rfl, List.append_cancel_right_eq, List.append_cancel_left_eq] at same
  exact itoa_inj m n same

/-- Who took a number before an unnamed room is seen in its id. -/
theorem taken_of_agree (tenant : Str) (s without : Served) (tenantID : Str) (now : Time)
    (match_ : Matches tenant s without) (different : tenantID ≠ tenant)
    (agree : Agree tenant (s.step (.createRoom tenantID [] now))
      (without.step (.createRoom tenantID [] now))) : taken tenant s.answers = 0 := by
  have same := (agree_append_iff tenant tenantID s without _ _ _ _ match_.agree different).mp agree
  have id : roomID [] now (s.store.seq + 1) = roomID [] now (without.store.seq + 1) :=
    congrArg Room.id (Answer.room.inj same)
  have number := unnamed_inj now _ _ id
  have seq := match_.seq
  omega

theorem good_step_iff (w : Watched) (c : Call) (consistent : w.Consistent) :
    (w.step c).Good ↔ Separate w.served c := by
  constructor
  · intro ⟨agree, usable⟩
    cases c with
    | createRoom tenantID name now =>
        refine ⟨fun r found =>
          owner_of_usable w.served tenantID name now r consistent.recorded usable found, ?_⟩
        intro unnamed e member counts
        subst unnamed
        by_contra different
        have here := agree e.1
        unfold Watched.step at here
        dsimp only at here
        have other : (Call.createRoom tenantID [] now).tenant ≠ e.1 := fun own => different own.symm
        rw [if_neg other] at here
        have none_ := taken_of_agree e.1 w.served _ tenantID now (consistent.matches_ e.1)
          (fun same => different same.symm) here
        unfold taken at none_
        rw [List.countP_eq_zero] at none_
        exact none_ e member (decide_eq_true ⟨rfl, counts⟩)
    | addMessage tenantID roomID sender body now => trivial
    | listMessages tenantID roomID => trivial
  · intro separate
    exact (consistent_step w c consistent separate).good

theorem consistent_empty : Watched.Consistent {} := by
  have agree (tenant : Str) : Agree tenant {} {} := rfl
  refine ⟨⟨agree, ?_⟩, ?_, ?_⟩
  · intro tenantID r member
    cases member
  · intro id r found
    simp at found
  · intro tenant
    refine ⟨agree tenant, ?_, rfl, rfl⟩
    apply Std.ExtTreeMap.ext_getElem?
    intro id
    rw [Std.ExtTreeMap.getElem?_filter', Std.ExtTreeMap.getElem?_empty, Option.filter_none]

/-- In every run, whatever is answered to the others does not depend on a tenant's calls and
everyone keeps the rooms that they created, if and only if every room is created apart from the
other tenants. -/
theorem tenants_isolated_iff (calls : List Call) :
    (∀ front, front <+: calls → Isolated front ∧ Usable (serve front)) ↔
      Runs.Guarded Served.step Separate {} calls := by
  have exact_ := Runs.always_iff_guarded_of_invariant Watched.step Watched.Consistent Watched.Good
    (fun w c => Separate w.served c) good_step_iff consistent_step {} calls consistent_empty
    consistent_empty.good
  unfold Runs.Always Runs.Guarded at exact_
  simp only [foldl_watched] at exact_
  exact exact_

/-- Two tenants who call a room by the same name. -/
def sameName : List Call :=
  [.createRoom "a".toList "general".toList zeroTime,
    .createRoom "b".toList "general".toList zeroTime]

theorem room_taken_over :
    ¬ ∀ front, front <+: sameName → Isolated front ∧ Usable (serve front) := by
  intro all
  have usable := (all sameName (List.prefix_refl _)).2
  have lost := usable "a".toList ⟨"!general:era".toList, "a".toList, "general".toList, zeroTime⟩
    (by decide) [] [] zeroTime
  revert lost
  decide

end EraOne.Chat
