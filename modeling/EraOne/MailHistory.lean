import EraOne.MailHold
import EraOne.Runs

set_option autoImplicit false

/- Runs of the moderation engine with what happened to each hold, and the moves they are made of.
The holds of one message form a line: the first one, and each one that an approved hold escalated
to. -/
namespace EraOne.Mail

open Runs

section Runs

/-- What the upstream gets of a hold. -/
def HoldRecord.parcel (r : HoldRecord) : Delivery := ⟨r.sender, r.recipients, r.raw⟩

/-- What happened to a hold, and what the upstream took: on the approval of a hold, when a message
came in, or else astray. -/
inductive MailEntry where
  | created (id : Str) (parcel : Delivery) (moderators : List Str) (requireAll : Bool)
  | held (id : Str)
  | escalated (old new : Str)
  | approved (id who : Str)
  | rejected (id : Str)
  | expired (id : Str)
  | delivered (id : Str) (parcel : Delivery)
  | passed (parcel : Delivery)
  | stray (parcel : Delivery)
  deriving DecidableEq

def MailEntry.names : MailEntry → List Str
  | .created id _ _ _ | .held id | .approved id _ | .rejected id | .expired id | .delivered id _ =>
      [id]
  | .escalated old new => [old, new]
  | .passed _ | .stray _ => []

/-- What the upstream took. -/
def MailEntry.taken : MailEntry → Option Delivery
  | .delivered _ parcel | .passed parcel | .stray parcel => some parcel
  | _ => none

structure MailRun where
  engine : Engine
  history : List MailEntry := []

inductive MailEvent where
  | process (raw envFrom : Str) (envTo : List Str)
  | action (holdID moderator action comment : Str)
  | ttl
  | setRules (rules : List Rule)

/-- A hold that is there after a call and was not before. -/
def noteCreated (before after : Engine) (id : Str) (link : MailEntry) : List MailEntry :=
  match before.holds[id]?, after.holds[id]? with
  | none, some r => [.created id r.parcel r.moderators r.requireAll, link]
  | _, _ => []

variable (site : Site) (call : Call)

def noteApprove (holdID moderator : Str) (before after : Engine) : List MailEntry :=
  if (before.holds.approve site.rt call.now holdID moderator).1.isOk then
    .approved holdID moderator :: noteCreated before after call.id (.escalated holdID call.id)
  else []

def noteReject (holdID moderator comment : Str) (before : Engine) : List MailEntry :=
  if (before.holds.reject site.rt call.now holdID moderator comment).1.isOk then [.rejected holdID]
    else []

/-- What an event notes, and the engine after it. -/
def mailHandle (e : Engine) : MailEvent → List MailEntry × Engine
  | .process raw envFrom envTo =>
      let after := (processRaw site call raw envFrom envTo e).2
      (noteCreated e after call.id (.held call.id), after)
  | .action holdID moderator action comment =>
      let after := (applyAction site call holdID moderator action comment e).2
      (if site.rt.lower action = "approve".toList then
        noteApprove site call holdID moderator e after
        else if site.rt.lower action = "reject".toList then
          noteReject site call holdID moderator comment e
        else [], after)
  | .ttl =>
      let expired := runTTL call e
      (expired.1.map fun r => .expired r.id, expired.2)
  | .setRules rules => ([], { e with rules := rules })

/-- What the upstream takes in an event, of the engine before it. -/
def noteTaken (e : Engine) (parcel : Delivery) : MailEvent → MailEntry
  | .process .. => .passed parcel
  | .action holdID moderator action _ =>
      if site.rt.lower action = "approve".toList ∧
          (e.holds.approve site.rt call.now holdID moderator).1.isOk then .delivered holdID parcel
      else .stray parcel
  | .ttl | .setRules _ => .stray parcel

/-- An event with its notes: those on the holds, then one for everything that the upstream has taken
more than before. -/
def mailStep (s : MailRun) (event : Call × MailEvent) : MailRun :=
  let handled := mailHandle site event.1 s.engine event.2
  let sent := handled.2.delivered.drop s.engine.delivered.length
  ⟨handled.2, s.history ++ (handled.1 ++
    sent.map fun parcel => noteTaken site event.1 s.engine parcel event.2)⟩

/-- A new id is not the id of a hold. -/
def FreshHold (s : MailRun) (event : Call × MailEvent) : Prop := s.engine.holds[event.1.id]? = none

end Runs

section Moves

/-- The holds with their history. -/
structure MailBook where
  holds : Holds
  history : List MailEntry

def MailRun.book (s : MailRun) : MailBook := ⟨s.engine.holds, s.history⟩

/-- The record after a rejection or an expiry. -/
def Closes (id : Str) (r next : HoldRecord) (entry : MailEntry) : Prop :=
  next.id = r.id ∧ next.parcel = r.parcel ∧ next.moderators = r.moderators ∧
    next.requireAll = r.requireAll ∧ next.approvedBy = r.approvedBy ∧
    (next.status = .rejected ∧ entry = .rejected id ∨ next.status = .expired ∧ entry = .expired id)

/-- One move of the holds. An approval that ends a hold may also deliver its message or put the next
hold of the line. -/
inductive MailMove (rt : Runtime) : MailBook → MailBook → Prop
  | hold (b : MailBook) (r : HoldRecord) (fresh : b.holds[r.id]? = none)
      (pending : r.status = .pending) (none_ : r.approvedBy = []) :
      MailMove rt b ⟨b.holds.insert r.id r,
        b.history ++ [.created r.id r.parcel r.moderators r.requireAll, .held r.id]⟩
  | pass (b : MailBook) (parcel : Delivery) : MailMove rt b ⟨b.holds, b.history ++ [.passed parcel]⟩
  | approve (b : MailBook) (id who : Str) (now : Time) (r : HoldRecord)
      (found : b.holds[id]? = some r)
      (pending : r.status = .pending) (may : mayAct rt r who = true) :
      MailMove rt b ⟨b.holds.insert id (approvedRecord rt now who r),
        b.history ++ [.approved id who]⟩
  | deliver (b : MailBook) (id who : Str) (now : Time) (r : HoldRecord)
      (found : b.holds[id]? = some r)
      (pending : r.status = .pending) (may : mayAct rt r who = true)
      (done : (approvedRecord rt now who r).status = .approved) :
      MailMove rt b ⟨b.holds.insert id (approvedRecord rt now who r),
        b.history ++ [.approved id who, .delivered id r.parcel]⟩
  | escalate (b : MailBook) (id who : Str) (now : Time) (r new : HoldRecord)
      (found : b.holds[id]? = some r)
      (pending : r.status = .pending) (may : mayAct rt r who = true)
      (done : (approvedRecord rt now who r).status = .approved) (fresh : b.holds[new.id]? = none)
      (begins : new.status = .pending) (none_ : new.approvedBy = [])
      (same : new.parcel = r.parcel) :
      MailMove rt b ⟨(b.holds.insert id (approvedRecord rt now who r)).insert new.id new,
        b.history ++ [.approved id who, .created new.id new.parcel new.moderators new.requireAll,
          .escalated id new.id]⟩
  | close (b : MailBook) (id : Str) (r next : HoldRecord) (entry : MailEntry)
      (found : b.holds[id]? = some r) (pending : r.status = .pending)
      (closes : Closes id r next entry) :
      MailMove rt b ⟨b.holds.insert id next, b.history ++ [entry]⟩

abbrev MailMoves (rt : Runtime) : MailBook → MailBook → Prop := Relation.ReflTransGen (MailMove rt)

theorem mailMoves_refl (rt : Runtime) (b : MailBook) :
    MailMoves rt b ⟨b.holds, b.history ++ []⟩ := by
  rw [List.append_nil]

end Moves

section Store

variable (rt : Runtime) (holds : Holds) (history : List MailEntry)

theorem getElem?_insert_hold (id other : Str) (r : HoldRecord) :
    (holds.insert id r)[other]? = if id = other then some r else holds[other]? := by
  rw [Std.ExtTreeMap.getElem?_insert]
  simp only [Std.LawfulEqCmp.compare_eq_iff_eq]

/-- An approval is refused, or accepted of a pending hold. -/
theorem approve_cases (now : Time) (id who : Str) :
    ((holds.approve rt now id who).1.isOk = false ∧ (holds.approve rt now id who).2 = holds) ∨
      ∃ r, holds[id]? = some r ∧ r.status = .pending ∧ mayAct rt r who = true ∧
        holds.approve rt now id who =
          (.ok (approvedRecord rt now who r), holds.insert id (approvedRecord rt now who r)) := by
  rw [Holds.approve]
  split
  · exact Or.inl ⟨rfl, rfl⟩
  · rename_i r found
    split
    · exact Or.inl ⟨rfl, rfl⟩
    · rename_i pending
      split
      · exact Or.inl ⟨rfl, rfl⟩
      · rename_i may
        exact Or.inr ⟨r, found, not_not.mp pending, by simpa using may, rfl⟩

theorem moves_reject (now : Time) (id who comment : Str) :
    MailMoves rt ⟨holds, history⟩ ⟨(holds.reject rt now id who comment).2,
      history ++ if (holds.reject rt now id who comment).1.isOk then [.rejected id] else []⟩ := by
  generalize returned : holds.reject rt now id who comment = result
  rw [Holds.reject] at returned
  split at returned
  · subst returned
    exact mailMoves_refl rt _
  · rw [Holds.act] at returned
    split at returned
    · subst returned
      exact mailMoves_refl rt _
    · rename_i r found
      split at returned
      · subst returned
        exact mailMoves_refl rt _
      · rename_i pending
        split at returned
        · subst returned
          exact mailMoves_refl rt _
        · subst returned
          apply Relation.ReflTransGen.single
          apply MailMove.close ⟨holds, history⟩ id r _ _ found (not_not.mp pending)
          exact ⟨rfl, rfl, rfl, rfl, rfl, Or.inl ⟨rfl, rfl⟩⟩

/-- The pass over the holds expires them one by one. -/
theorem moves_expireLoop (now : Time) (entries : List (Str × HoldRecord))
    (done : List HoldRecord × Holds) (distinct : (entries.map Prod.fst).Nodup)
    (there : ∀ entry ∈ entries, done.2[entry.1]? = some entry.2 ∧ entry.2.id = entry.1) :
    let last := entries.foldl (fun done entry =>
      if entry.2.status ≠ .pending ∨ ¬ now > entry.2.expiresAt then done
      else
        let r := Holds.expireRecord now false entry.2
        (done.1 ++ [r], done.2.insert entry.1 r)) done
    MailMoves rt ⟨done.2, history ++ done.1.map fun r => .expired r.id⟩
      ⟨last.2, history ++ last.1.map fun r => .expired r.id⟩ := by
  dsimp only
  induction entries generalizing done with
  | nil => exact Relation.ReflTransGen.refl
  | cons entry entries ih =>
      obtain ⟨id, r⟩ := entry
      obtain ⟨fresh, distinct⟩ := List.nodup_cons.mp distinct
      obtain ⟨found, keyed⟩ := there (id, r) List.mem_cons_self
      rw [List.foldl_cons]
      by_cases kept : r.status ≠ .pending ∨ ¬ now > r.expiresAt
      · rw [if_pos kept]
        exact ih done distinct fun entry member => there entry (List.mem_cons_of_mem _ member)
      · rw [if_neg kept]
        have pending : r.status = .pending := by
          by_contra different
          exact kept (Or.inl different)
        refine Relation.ReflTransGen.head ?_ (ih _ distinct ?_)
        · dsimp only
          rw [List.map_append, ← List.append_assoc]
          apply MailMove.close ⟨done.2, _⟩ id r _ _ found pending
          refine ⟨rfl, rfl, rfl, rfl, rfl, Or.inr ⟨rfl, ?_⟩⟩
          change MailEntry.expired r.id = .expired id
          rw [keyed]
        · intro other member
          dsimp only
          rw [getElem?_insert_hold, if_neg]
          · exact there other (List.mem_cons_of_mem _ member)
          · intro same
            exact fresh (List.mem_map.mpr ⟨other, member, same.symm⟩)

theorem moves_expirePending (now : Time)
    (keyed : ∀ (id : Str) (r : HoldRecord), holds[id]? = some r → r.id = id) :
    MailMoves rt ⟨holds, history⟩ ⟨(holds.expirePending now false).2,
      history ++ (holds.expirePending now false).1.map fun r => .expired r.id⟩ := by
  have moves := moves_expireLoop rt history now holds.toList ([], holds) ?_ ?_
  · dsimp only at moves
    rw [List.map_nil, List.append_nil] at moves
    exact moves
  · rw [Std.ExtTreeMap.map_fst_toList_eq_keys]
    exact Std.ExtTreeMap.nodup_keys
  · intro entry member
    have found := Std.ExtTreeMap.mem_toList_iff_getElem?_eq_some.mp member
    exact ⟨found, keyed entry.1 entry.2 found⟩

end Store

section Events

variable (site : Site) (call : Call) (e : Engine) (history : List MailEntry)

theorem noteCreated_of_same (after : Engine) (id : Str) (link : MailEntry)
    (fresh : e.holds[id]? = none) (same : after.holds[id]? = none) :
    noteCreated e after id link = [] := by
  rw [noteCreated, fresh, same]

theorem deliver_cases (d : Delivery) :
    (e.deliver site call d).2 = e ∨
      (e.deliver site call d).2 = { e with delivered := e.delivered ++ [d] } := by
  rw [Engine.deliver]
  split
  · exact Or.inl rfl
  · split
    · exact Or.inr rfl
    · exact Or.inl rfl

/-- A record that is put is pending, under the new id. -/
theorem put_fresh (after : Engine) (parcel : Delivery)
    (put : ∃ r : HoldRecord, after = { e with holds := (e.holds.put call.id call.now r).2 } ∧
      r.approvedBy = [] ∧ r.parcel = parcel) :
    ∃ r : HoldRecord, r.id = call.id ∧ r.status = .pending ∧ r.approvedBy = [] ∧ r.parcel = parcel ∧
      after = { e with holds := e.holds.insert r.id r } := by
  obtain ⟨r, rfl, none_, same⟩ := put
  exact ⟨(e.holds.put call.id call.now r).1, rfl, rfl, none_, same, rfl⟩

/-- What the store keeps of a message. -/
def keptParcel (raw envFrom : Str) (envTo : List Str) : Delivery :=
  let msg := incoming site call raw envFrom envTo
  ⟨engineAddr site.rt msg.sender, msg.recipients, raw⟩

theorem processRaw_cases (raw envFrom : Str) (envTo : List Str) :
    (processRaw site call raw envFrom envTo e).2 = e ∨
      (∃ d, (processRaw site call raw envFrom envTo e).2 =
        { e with delivered := e.delivered ++ [d] }) ∨
      ∃ r : HoldRecord, r.id = call.id ∧ r.status = .pending ∧ r.approvedBy = [] ∧
        r.parcel = keptParcel site call raw envFrom envTo ∧
        (processRaw site call raw envFrom envTo e).2 =
          { e with holds := e.holds.insert r.id r } := by
  rw [processRaw]
  dsimp only
  split
  · split
    · exact Or.inl rfl
    · exact Or.inr (Or.inr (put_fresh call e _ _ ⟨_, rfl, rfl, rfl⟩))
  · rcases deliver_cases site call e _ with same | sent
    · exact Or.inl same
    · exact Or.inr (Or.inl ⟨_, sent⟩)

theorem escalate_cases (holdID : Str) (r : HoldRecord) (found : e.holds[holdID]? = some r) :
    (e.escalate site call holdID).2 = e ∨
      ∃ new : HoldRecord, new.id = call.id ∧ new.status = .pending ∧ new.approvedBy = [] ∧
        new.parcel = r.parcel ∧
        (e.escalate site call holdID).2 = { e with holds := e.holds.insert new.id new } := by
  rw [Engine.escalate, found]
  dsimp only
  split
  · exact Or.inl rfl
  · split
    · exact Or.inl rfl
    · split
      · exact Or.inl rfl
      · split
        · exact Or.inl rfl
        · exact Or.inr (put_fresh call e _ _ ⟨_, rfl, rfl, rfl⟩)

theorem approvedRecord_parcel (rt : Runtime) (now : Time) (who : Str) (r : HoldRecord) :
    (approvedRecord rt now who r).parcel = r.parcel := by
  rw [approvedRecord]
  split
  · dsimp only
    split <;> split <;> rfl
  · rfl

/-- What an approval does to the engine: nothing, or it is recorded; and where it ends the hold, its
message may go to the upstream or to the next hold of the line. -/
theorem applyApprove_cases (holdID who : Str) :
    ((e.holds.approve site.rt call.now holdID who).1.isOk = false ∧
        (applyApprove site call holdID who e).2 = e) ∨
      ∃ r, e.holds[holdID]? = some r ∧ r.status = .pending ∧ mayAct site.rt r who = true ∧
        (e.holds.approve site.rt call.now holdID who).1.isOk = true ∧
        ((applyApprove site call holdID who e).2 =
            { e with holds := e.holds.insert holdID (approvedRecord site.rt call.now who r) } ∨
          (approvedRecord site.rt call.now who r).status = .approved ∧
            ((applyApprove site call holdID who e).2 =
                { e with
                  holds := e.holds.insert holdID (approvedRecord site.rt call.now who r)
                  delivered := e.delivered ++ [r.parcel] } ∨
              ∃ new : HoldRecord, new.id = call.id ∧ new.status = .pending ∧ new.approvedBy = [] ∧
                new.parcel = r.parcel ∧ (applyApprove site call holdID who e).2 =
                  { e with
                    holds := (e.holds.insert holdID (approvedRecord site.rt call.now who r)).insert
                      new.id new })) := by
  rcases approve_cases site.rt e.holds call.now holdID
      who with ⟨refused, kept⟩ | ⟨r, found, pending, may, given⟩
  · left
    refine ⟨refused, ?_⟩
    rw [applyApprove]
    split
    · rw [kept]
    · rename_i r accepted
      rw [accepted] at refused
      cases refused
  · right
    have parcel := approvedRecord_parcel site.rt call.now who r
    refine ⟨r, found, pending, may, by rw [given]; rfl, ?_⟩
    rw [applyApprove, given]
    dsimp only
    -- the engine once the approval is recorded
    generalize recorded : ({ e with
                             holds :=
                               e.holds.insert holdID (approvedRecord site.rt call.now who r) } :
      Engine) = mid
    by_cases done : (approvedRecord site.rt call.now who r).status = .approved
    · rw [if_neg (not_not.mpr done), Engine.release]
      split
      · have there : mid.holds[holdID]? = some (approvedRecord site.rt call.now who r) := by
          rw [← recorded]
          dsimp only
          rw [getElem?_insert_hold, if_pos rfl]
        rcases escalate_cases site call mid holdID _
            there with same | ⟨new, named, begins, none_, kept, put⟩
        · exact Or.inl same
        · refine Or.inr ⟨done, Or.inr ⟨new, named, begins, none_, kept.trans parcel, ?_⟩⟩
          dsimp only
          rw [put, ← recorded]
      · rcases deliver_cases site call mid
            (approvedRecord site.rt call.now who r).parcel with same | sent
        · exact Or.inl same
        · refine Or.inr ⟨done, Or.inl ?_⟩
          rw [parcel] at sent
          refine Eq.trans ?_ (sent.trans ?_)
          · rw [← parcel]
            rfl
          · rw [← recorded]
    · rw [if_pos done]
      exact Or.inl rfl

theorem applyReject_shape (holdID who comment : Str) :
    (applyReject site call holdID who comment e).2 =
      { e with holds := (e.holds.reject site.rt call.now holdID who comment).2 } := by
  rw [applyReject]
  split
  · rfl
  · split
    · rfl
    · split <;> rfl

/-! ### The moves of an event -/

/-- An event whose engine has sent nothing. -/
theorem book_of_unsent (s : MailRun) (event : Call × MailEvent)
    (unsent : (mailHandle site event.1 s.engine event.2).2.delivered = s.engine.delivered) :
    (mailStep site s event).book = ⟨(mailHandle site event.1 s.engine event.2).2.holds,
      s.history ++ (mailHandle site event.1 s.engine event.2).1⟩ := by
  rw [mailStep, MailRun.book]
  dsimp only
  rw [unsent, List.drop_length, List.map_nil, List.append_nil]

/-- An event whose engine has sent one parcel. -/
theorem book_of_sent (s : MailRun) (event : Call × MailEvent) (parcel : Delivery)
    (sent : (mailHandle site event.1 s.engine event.2).2.delivered = s.engine.delivered ++
      [parcel]) :
    (mailStep site s event).book = ⟨(mailHandle site event.1 s.engine event.2).2.holds,
      s.history ++ ((mailHandle site event.1 s.engine event.2).1 ++
        [noteTaken site event.1 s.engine parcel event.2])⟩ := by
  rw [mailStep, MailRun.book]
  dsimp only
  rw [sent, List.drop_left, List.map_singleton]

theorem moves_process (raw envFrom : Str) (envTo : List Str) (fresh : e.holds[call.id]? = none) :
    MailMoves site.rt ⟨e.holds, history⟩
      (mailStep site ⟨e, history⟩ (call, .process raw envFrom envTo)).book := by
  rcases processRaw_cases site call e raw envFrom envTo with same | ⟨d, sent⟩ |
    ⟨r, named, pending, none_, -, put⟩
  · rw [book_of_unsent site ⟨e, history⟩ (call, .process raw envFrom envTo)
      (congrArg Engine.delivered same)]
    dsimp only [mailHandle]
    rw [noteCreated_of_same e _ _ _ fresh (by rw [same, fresh]), same]
    exact mailMoves_refl site.rt _
  · rw [book_of_sent site ⟨e, history⟩ (call, .process raw envFrom envTo) d
      (congrArg Engine.delivered sent)]
    dsimp only [mailHandle]
    rw [noteCreated_of_same e _ _ _ fresh (by rw [sent]; exact fresh), sent]
    exact Relation.ReflTransGen.single (.pass ⟨e.holds, history⟩ d)
  · rw [book_of_unsent site ⟨e, history⟩ (call, .process raw envFrom envTo)
      (by dsimp only [mailHandle]; rw [put])]
    dsimp only [mailHandle]
    rw [put, noteCreated, fresh]
    rw [← named] at fresh ⊢
    dsimp only
    rw [getElem?_insert_hold, if_pos rfl]
    exact Relation.ReflTransGen.single (.hold ⟨e.holds, history⟩ r fresh pending none_)

theorem moves_approve (holdID who action comment : Str)
    (approve : site.rt.lower action = "approve".toList) (fresh : e.holds[call.id]? = none) :
    MailMoves site.rt ⟨e.holds, history⟩
      (mailStep site ⟨e, history⟩ (call, .action holdID who action comment)).book := by
  have handled : mailHandle site call e (.action holdID who action comment) =
      (noteApprove site call holdID who e (applyApprove site call holdID who e).2,
        (applyApprove site call holdID who e).2) := by
    dsimp only [mailHandle]
    rw [applyAction]
    rw [if_pos approve, if_pos approve]
  rcases applyApprove_cases site call e holdID
      who with ⟨refused, same⟩ | ⟨r, found, pending, may, accepted, after⟩
  · rw [book_of_unsent site _ _ (by dsimp only; rw [handled, same]), handled]
    dsimp only
    rw [noteApprove, refused, if_neg (by decide), same]
    exact mailMoves_refl site.rt _
  · have apart : holdID ≠ call.id := by
      rintro rfl
      rw [fresh] at found
      cases found
    have still :
        (e.holds.insert holdID (approvedRecord site.rt call.now who r))[call.id]? = none := by
      rw [getElem?_insert_hold, if_neg apart, fresh]
    rcases after with plain | ⟨done, sent | ⟨new, named, begins, none_, kept, put⟩⟩
    · rw [book_of_unsent site _ _ (by dsimp only; rw [handled, plain]), handled]
      dsimp only
      rw [noteApprove, if_pos accepted,
        noteCreated_of_same e _ _ _ fresh (by rw [plain]; exact still), plain]
      exact Relation.ReflTransGen.single
        (.approve ⟨e.holds, history⟩ holdID who call.now r found pending may)
    · rw [book_of_sent site _ _ r.parcel (by dsimp only; rw [handled, sent]), handled]
      dsimp only
      rw [noteApprove, if_pos accepted,
        noteCreated_of_same e _ _ _ fresh (by rw [sent]; exact still), sent,
        noteTaken, if_pos ⟨approve, accepted⟩]
      exact Relation.ReflTransGen.single
        (.deliver ⟨e.holds, history⟩ holdID who call.now r found pending may done)
    · rw [book_of_unsent site _ _ (by dsimp only; rw [handled, put]), handled]
      dsimp only
      rw [noteApprove, if_pos accepted, put, noteCreated, fresh]
      rw [← named] at fresh ⊢
      dsimp only
      rw [getElem?_insert_hold, if_pos rfl]
      exact Relation.ReflTransGen.single
        (.escalate ⟨e.holds, history⟩ holdID who call.now r new found
        pending may done fresh begins none_ kept)

theorem moves_mailStep (s : MailRun) (event : Call × MailEvent) (fresh : FreshHold s event)
    (keyed : ∀ (id : Str) (r : HoldRecord), s.engine.holds[id]? = some r → r.id = id) :
    MailMoves site.rt s.book (mailStep site s event).book := by
  obtain ⟨call, event⟩ := event
  obtain ⟨e, history⟩ := s
  change MailMoves site.rt ⟨e.holds, history⟩ _
  cases event with
  | process raw envFrom envTo => exact moves_process site call e history raw envFrom envTo fresh
  | action holdID moderator action comment =>
      by_cases approve : site.rt.lower action = "approve".toList
      · exact moves_approve site call e history holdID moderator action comment approve fresh
      · by_cases reject : site.rt.lower action = "reject".toList
        · have handled : mailHandle site call e (.action holdID moderator action comment) =
              (noteReject site call holdID moderator comment e,
                { e with
                  holds := (e.holds.reject site.rt call.now holdID moderator comment).2 }) := by
            dsimp only [mailHandle]
            rw [applyAction]
            rw [if_neg approve, if_neg approve, if_pos reject, if_pos reject, applyReject_shape]
          rw [book_of_unsent site _ _ (by dsimp only; rw [handled]), handled]
          exact moves_reject site.rt e.holds history call.now holdID moderator comment
        · have handled : mailHandle site call e
              (.action holdID moderator action comment) = ([], e) := by
            dsimp only [mailHandle]
            rw [applyAction]
            rw [if_neg approve, if_neg approve, if_neg reject, if_neg reject]
          rw [book_of_unsent site _ _ (by dsimp only; rw [handled]), handled]
          exact mailMoves_refl site.rt _
  | ttl =>
      rw [book_of_unsent site _ _ rfl]
      exact moves_expirePending site.rt e.holds history call.now keyed
  | setRules rules =>
      rw [book_of_unsent site _ _ rfl]
      exact mailMoves_refl site.rt _

/-! ### What the upstream has taken -/

theorem taken_of_quiet (notes : List MailEntry) (quiet : ∀ entry ∈ notes, entry.taken = none) :
    notes.filterMap MailEntry.taken = [] :=
  List.filterMap_eq_nil_iff.mpr quiet

theorem taken_noteCreated (after : Engine) (id : Str) (link : MailEntry)
    (quiet : link.taken = none) :
    ∀ entry ∈ noteCreated e after id link, entry.taken = none := by
  intro entry member
  rw [noteCreated] at member
  split at member
  · rcases List.mem_cons.mp member with first | second
    · rw [first]
      rfl
    · rw [List.mem_singleton.mp second]
      exact quiet
  · cases member

/-- The notes on the holds say nothing of what was taken. -/
theorem taken_handle (event : MailEvent) :
    ∀ entry ∈ (mailHandle site call e event).1, entry.taken = none := by
  cases event with
  | process raw envFrom envTo => exact taken_noteCreated e _ _ _ rfl
  | action holdID moderator action comment =>
      dsimp only [mailHandle]
      split
      · rw [noteApprove]
        split
        · intro entry member
          rcases List.mem_cons.mp member with first | rest
          · rw [first]
            rfl
          · exact taken_noteCreated e _ _ _ rfl entry rest
        · simp
      · split
        · rw [noteReject]
          split <;> simp [MailEntry.taken]
        · simp
  | ttl => simp [mailHandle, MailEntry.taken]
  | setRules rules => simp [mailHandle]

/-- No event takes back what was sent. -/
theorem delivered_grows (event : MailEvent) :
    e.delivered <+: (mailHandle site call e event).2.delivered := by
  cases event with
  | process raw envFrom envTo =>
      dsimp only [mailHandle]
      rcases processRaw_cases site call e raw envFrom
          envTo with same | ⟨d, sent⟩ | ⟨r, -, -, -, -, put⟩
      · rw [same]
      · rw [sent]
        exact List.prefix_append _ _
      · rw [put]
  | action holdID moderator action comment =>
      dsimp only [mailHandle]
      rw [applyAction]
      split
      · rcases applyApprove_cases site call e holdID moderator with
          ⟨-, same⟩ | ⟨r, -, -, -, -, plain | ⟨-, sent | ⟨new, -, -, -, -, put⟩⟩⟩
        · rw [same]
        · rw [plain]
        · rw [sent]
          exact List.prefix_append _ _
        · rw [put]
      · split
        · rw [applyReject_shape]
        · exact List.prefix_refl _
  | ttl => exact List.prefix_refl _
  | setRules rules => exact List.prefix_refl _

/-- The history has what the upstream took, in order. -/
theorem taken_mailStep (s : MailRun) (event : Call × MailEvent)
    (told : s.history.filterMap MailEntry.taken = s.engine.delivered) :
    (mailStep site s event).history.filterMap MailEntry.taken =
      (mailStep site s event).engine.delivered := by
  obtain ⟨more, grown⟩ := delivered_grows site event.1 s.engine event.2
  have each (parcel : Delivery) :
      (noteTaken site event.1 s.engine parcel event.2).taken = some parcel := by
    unfold noteTaken
    split
    · rfl
    · split <;> rfl
    · rfl
    · rfl
  have labelled (parcels : List Delivery) : (parcels.map fun parcel =>
      noteTaken site event.1 s.engine parcel event.2).filterMap MailEntry.taken = parcels := by
    rw [List.filterMap_map]
    have some_ :
        (MailEntry.taken ∘ fun parcel => noteTaken site event.1 s.engine parcel event.2) = some :=
      funext each
    rw [some_, List.filterMap_some]
  rw [mailStep]
  dsimp only
  rw [List.filterMap_append, List.filterMap_append,
    taken_of_quiet _ (taken_handle site event.1 s.engine event.2), labelled, told, ← grown,
    List.drop_left, List.nil_append]

end Events

end EraOne.Mail
