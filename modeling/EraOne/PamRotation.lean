import EraOne.PamRelease

set_option autoImplicit false

/- A rotation and the checkouts made before it. The scheduler revokes the open ones; a rotation by
request does not, and a session can be started with a consumed one. -/
namespace EraOne.Pam

open Runs

section Outdated

/-- The checkout was made before a rotation of its secret. -/
def Outdated (history : List Entry) (id : Str) : Prop :=
  ∃ front back secretID expiresAt,
    history = front ++ .rotated secretID :: back ∧ .created id secretID expiresAt ∈ front

/-- A password is released only with a checkout made after the last rotation. -/
def CutOff (before : List Entry) : Entry → Prop
  | .released id _ => ¬ Outdated before id
  | _ => True

theorem not_outdated_nil (id : Str) : ¬ Outdated [] id := by
  rintro ⟨front, back, secretID, expiresAt, empty, -⟩
  simp at empty

theorem outdated_append_singleton (history : List Entry) (entry : Entry) (id : Str) :
    Outdated (history ++ [entry]) id ↔ Outdated history id ∨
      ∃ secretID expiresAt, entry = .rotated secretID ∧
        .created id secretID expiresAt ∈ history := by
  constructor
  · rintro ⟨front, back, secretID, expiresAt, shape, made⟩
    rcases List.eq_nil_or_concat back with rfl | ⟨middle, last, rfl⟩
    · obtain ⟨rfl, rfl⟩ := List.append_singleton_inj.mp shape
      exact Or.inr ⟨secretID, expiresAt, rfl, made⟩
    · left
      have split : history ++ [entry] = (front ++ .rotated secretID :: middle) ++ [last] := by
        rw [shape]
        simp
      obtain ⟨rfl, -⟩ := List.append_singleton_inj.mp split
      exact ⟨front, middle, secretID, expiresAt, rfl, made⟩
  · rintro (⟨front, back, secretID, expiresAt, rfl, made⟩ | ⟨secretID, expiresAt, rfl, made⟩)
    · exact ⟨front, back ++ [entry], secretID, expiresAt, by simp, made⟩
    · exact ⟨history, [], secretID, expiresAt, rfl, made⟩

/-- Without a rotation among them, new entries make no checkout outdated. -/
theorem outdated_append_iff (history entries : List Entry) (id : Str)
    (unrotated : ∀ secretID, .rotated secretID ∉ entries) :
    Outdated (history ++ entries) id ↔ Outdated history id := by
  induction entries generalizing history with
  | nil => rw [List.append_nil]
  | cons entry entries ih =>
      rw [← List.singleton_append, ← List.append_assoc, ih, outdated_append_singleton, or_iff_left]
      · rintro ⟨secretID, expiresAt, rfl, -⟩
        exact unrotated secretID List.mem_cons_self
      · intro secretID member
        exact unrotated secretID (List.mem_cons_of_mem entry member)

/-- A checkout that is outdated was made. -/
theorem created_of_outdated (history : List Entry) (id : Str) (outdated : Outdated history id) :
    ∃ secretID expiresAt, .created id secretID expiresAt ∈ history := by
  obtain ⟨front, back, secretID, expiresAt, rfl, made⟩ := outdated
  exact ⟨secretID, expiresAt, List.mem_append_left _ made⟩

end Outdated

section Moves

/-- No open checkout is outdated, and none was released that was. -/
structure Current (b : Book) : Prop where
  tracks : Tracks b
  open_ : ∀ (id : Str) (r : Request), b.items[id]? = some r →
    r.status = .pending ∨ r.status = .approved → ¬ Outdated b.history id
  legal : Legal CutOff b.history

theorem turn_unrotated (id : Str) (expiresAt : Time) (status status' : Status)
    (entries : List Entry) (turns : Turn id expiresAt status status' entries) :
    ∀ secretID, .rotated secretID ∉ entries := by
  cases turns <;> simp

/-- A status that is open after a turn was open before it. -/
theorem open_of_turn (id : Str) (expiresAt : Time) (status status' : Status) (entries : List Entry)
    (turns : Turn id expiresAt status status' entries)
    (after : status' = .pending ∨ status' = .approved) :
    status = .pending ∨ status = .approved := by
  cases turns with
  | approve => exact Or.inl rfl
  | deny => exact Or.inl rfl
  | revoke => simp at after
  | expire => exact Or.inr rfl
  | consume => exact Or.inr rfl
  | release time spent inTime used => exact Or.inr rfl

theorem cutOff_turn (history : List Entry) (id : Str) (expiresAt : Time) (status status' : Status)
    (entries : List Entry) (turns : Turn id expiresAt status status' entries)
    (legal : Legal CutOff history)
    (fresh : status = .pending ∨ status = .approved → ¬ Outdated history id) :
    Legal CutOff (history ++ entries) := by
  cases turns with
  | release time spent inTime used =>
      rw [legal_append_singleton]
      exact ⟨legal, fresh (Or.inr rfl)⟩
  | approve => exact legal_append_of_free _ _ _ legal (by simp [CutOff])
  | deny => exact legal_append_of_free _ _ _ legal (by simp [CutOff])
  | revoke => exact legal_append_of_free _ _ _ legal (by simp [CutOff])
  | expire => exact legal_append_of_free _ _ _ legal (by simp)
  | consume => exact legal_append_of_free _ _ _ legal (by simp)

/-- A rotation makes outdated only checkouts of its secret. -/
theorem not_outdated_rotated (b : Book) (current : Current b) (secretID : Str) (id : Str)
    (r : Request) (found : b.items[id]? = some r)
    (waiting : r.status = .pending ∨ r.status = .approved) (kept : ¬ revocable secretID r = true) :
    ¬ Outdated (b.history ++ [.rotated secretID]) id := by
  rw [outdated_append_singleton]
  rintro (old | ⟨other, expiresAt, same, made⟩)
  · exact current.open_ id r found waiting old
  · have follows := current.tracks.follows id
    rw [found] at follows
    apply kept
    rw [revocable, decide_eq_true_eq, ← (follows.2.2.1 other expiresAt made).1]
    exact ⟨(Entry.rotated.inj same).symm, waiting.symm⟩

theorem current_move (b b' : Book) (current : Current b) (move : Move True b b') : Current b' := by
  have tracks := tracks_move True b b' current.tracks move
  refine ⟨tracks, ?_, ?_⟩
  · cases move with
    | create r fresh begins =>
        intro id kept found waiting
        have unrotated : ∀ secretID, .rotated secretID ∉ (.created r.id r.secretID r.expiresAt ::
            if r.status = .approved then [.approved r.id] else [] : List Entry) := by
          intro secretID
          split <;> simp
        rw [outdated_append_iff _ _ _ unrotated]
        rw [getElem?_insert_checkout] at found
        by_cases same : r.id = id
        · subst same
          intro outdated
          obtain ⟨secretID, expiresAt, made⟩ := created_of_outdated b.history r.id outdated
          have follows := current.tracks.follows r.id
          rw [fresh] at follows
          exact follows _ made rfl
        · rw [if_neg same] at found
          exact current.open_ id kept found waiting
    | turn id r next entries found same turns =>
        intro other kept there waiting
        rw [outdated_append_iff _ _ _ (turn_unrotated _ _ _ _ _ turns)]
        rw [getElem?_insert_checkout] at there
        by_cases equal : id = other
        · subst equal
          rw [if_pos rfl, Option.some_inj] at there
          subst there
          exact current.open_ id r found (open_of_turn _ _ _ _ _ turns waiting)
        · rw [if_neg equal] at there
          exact current.open_ other kept there waiting
    | rotate secretID closed =>
        intro id r found waiting
        exact not_outdated_rotated b current secretID id r found waiting (closed trivial id r found)
    | rotateRevoke secretID =>
        intro id r found waiting
        have unrotated :
            ∀ other, .rotated other ∉ (revokeCheckouts secretID b.items).1.map Entry.revoked := by
          simp
        rw [← List.singleton_append, ← List.append_assoc, outdated_append_iff _ _ _ unrotated]
        rw [getElem?_revokeCheckouts] at found
        split at found
        · rename_i revoked
          obtain ⟨old, -, rfl⟩ := Option.map_eq_some_iff.mp found
          simp at waiting
        · rename_i kept
          apply not_outdated_rotated b current secretID id r found waiting
          intro revoked
          apply kept
          rw [mem_revokeCheckouts]
          · exact ⟨r, found, revoked⟩
          · intro other value there
            have follows := current.tracks.follows other
            rw [there] at follows
            exact follows.1
  · cases move with
    | create r fresh begins =>
        apply legal_append_of_free _ _ _ current.legal
        intro entry member before
        split at member <;> simp at member
        · rcases member with rfl | rfl <;> trivial
        · subst member
          trivial
    | turn id r next entries found same turns =>
        exact cutOff_turn b.history id r.expiresAt r.status next.status entries turns current.legal
          (current.open_ id r found)
    | rotate secretID closed =>
        exact legal_append_of_free _ _ _ current.legal (by simp [CutOff])
    | rotateRevoke secretID =>
        apply legal_append_of_free _ _ _ current.legal
        intro entry member before
        rcases List.mem_cons.mp member with rfl | member
        · trivial
        · obtain ⟨other, -, rfl⟩ := List.mem_map.mp member
          trivial

end Moves

section Runs

theorem current_moves (b b' : Book) (current : Current b) (moves : Moves True b b') :
    Current b' := by
  induction moves with
  | refl => exact current
  | tail _ move ih => exact current_move _ _ ih move

theorem current_start (server : Server) : Current (PamRun.start server).book := by
  refine ⟨tracks_start server, ?_, legal_nil _⟩
  intro id r found waiting
  exact not_outdated_nil id

/-- No session is started with a consumed checkout, and a password is rotated by request only while
no checkout of its secret waits for approval or is approved. -/
abbrev ClosedRotation : PamRun → Readings × PamEvent → Prop := Orderly True

/-- Along such runs, no checkout made before a rotation releases the password after it. -/
theorem rotation_cuts_off (cfg : Config) (server : Server) (events : List (Readings × PamEvent))
    (fresh : Guarded (pamStep cfg) FreshID (PamRun.start server) events)
    (closed : Guarded (pamStep cfg) ClosedRotation (PamRun.start server) events) :
    Always (pamStep cfg) (fun s => Legal CutOff s.history) (PamRun.start server) events := by
  have current : Always (pamStep cfg) (fun s => Current s.book) (PamRun.start server) events := by
    apply always_of_guarded (pamStep cfg) (fun s => Current s.book)
      (fun s event => FreshID s event ∧ ClosedRotation s event)
    · intro s event holds allowed
      exact current_moves _ _ holds (moves_pamStep cfg True s event allowed.1 allowed.2)
    · exact current_start server
    · intro front event within
      exact ⟨fresh front event within, closed front event within⟩
  intro front within
  exact (current front within).legal

def rotateDb : Readings × PamEvent := (readingsAt [] 1, .rotate "db".toList [110, 101, 119])

def scheduledRotation : Readings × PamEvent :=
  (readingsAt [] 1, .rotateDue fun _ => some ([110, 101, 119], someNonce))

/-- The scheduler revokes the checkout, and the reveal is refused. -/
theorem scheduled_rotation_cuts_off :
    ([checkoutDb, scheduledRotation, revealDb].foldl (pamStep labConfig)
      (PamRun.start dbServer)).history =
        [.created "c1".toList "db".toList 60000000000, .approved "c1".toList, .rotated "db".toList,
          .revoked "c1".toList] ∧
      Always (pamStep labConfig) (fun s => Legal CutOff s.history) (PamRun.start dbServer)
        [checkoutDb, scheduledRotation, revealDb] := by
  refine ⟨rfl, rotation_cuts_off labConfig dbServer [checkoutDb, scheduledRotation, revealDb] ?_ ?_⟩
  · simp only [guarded_cons]
    exact ⟨rfl, trivial, trivial, guarded_nil _ _ _⟩
  · simp only [guarded_cons]
    exact ⟨trivial, trivial, trivial, guarded_nil _ _ _⟩

/-- A rotation by request leaves the approved checkout, which reveals the new password. -/
theorem old_checkout_reveals_new :
    ¬ ∀ (cfg : Config) (server : Server) (events : List (Readings × PamEvent)),
      Guarded (pamStep cfg) FreshID (PamRun.start server) events →
        Always (pamStep cfg) (fun s => Legal CutOff s.history) (PamRun.start server) events := by
  intro cuts
  have fresh : Guarded (pamStep labConfig) FreshID (PamRun.start dbServer)
      [checkoutDb, rotateDb, revealDb] := by
    simp only [guarded_cons]
    exact ⟨rfl, trivial, trivial, guarded_nil _ _ _⟩
  have legal := (cuts labConfig dbServer _ fresh).last
  have history :
      ([checkoutDb, rotateDb, revealDb].foldl (pamStep labConfig) (PamRun.start dbServer)).history =
      [.created "c1".toList "db".toList 60000000000, .approved "c1".toList, .rotated "db".toList] ++
        [.released "c1".toList 1] := rfl
  rw [history, legal_append_singleton] at legal
  apply legal.2
  exact ⟨[.created "c1".toList "db".toList 60000000000, .approved "c1".toList], [], "db".toList,
    60000000000, rfl, List.mem_cons_self⟩

end Runs

end EraOne.Pam
