import EraOne.PamHistory
import EraOne.PamKeys

set_option autoImplicit false

/- A checkout releases its password once and in time, as long as no session is started with a
checkout that is consumed already: `handleRDPStart` takes such a checkout, late or not. -/
namespace EraOne.Pam

open Runs

section Releases

/-- A release comes after an approval and not after a denial, a revocation, another release of the
same checkout or its expiry. -/
def OnceInTime (before : List Entry) : Entry → Prop
  | .released id time =>
      .approved id ∈ before ∧ .denied id ∉ before ∧ .revoked id ∉ before ∧
        (∀ earlier, .released id earlier ∉ before) ∧
        (∃ secretID expiresAt, .created id secretID expiresAt ∈ before) ∧
        ∀ secretID expiresAt, .created id secretID expiresAt ∈ before → time ≤ expiresAt
  | _ => True

/-- What the history says of a checkout that is not there, or is. -/
def Follows (history : List Entry) (id : Str) : Option Request → Prop
  | none => ∀ entry ∈ history, entry.about ≠ some id
  | some r =>
      r.id = id ∧ .created id r.secretID r.expiresAt ∈ history ∧
        (∀ secretID expiresAt, .created id secretID expiresAt ∈ history →
          secretID = r.secretID ∧ expiresAt = r.expiresAt) ∧
        (r.status = .pending ∨ r.status = .approved →
          .denied id ∉ history ∧ .revoked id ∉ history ∧ ∀ time, .released id time ∉ history) ∧
        (r.status = .approved → .approved id ∈ history)

structure Tracks (b : Book) : Prop where
  follows : ∀ id, Follows b.history id b.items[id]?
  legal : Legal OnceInTime b.history

/-- Entries about other checkouts say nothing of this one. -/
theorem follows_append (history entries : List Entry) (id : Str) (r : Option Request)
    (follows : Follows history id r) (others : ∀ entry ∈ entries, entry.about ≠ some id) :
    Follows (history ++ entries) id r := by
  have old : ∀ entry : Entry, entry.about = some id →
      (entry ∈ history ++ entries ↔ entry ∈ history) := by
    intro entry about
    rw [List.mem_append, or_iff_left]
    intro member
    exact others entry member about
  cases r with
  | none =>
      intro entry member about
      exact follows entry ((old entry about).mp member) about
  | some r =>
      obtain ⟨keyed, made, only, clean, approved⟩ := follows
      refine ⟨keyed, (old _ rfl).mpr made, ?_, ?_, ?_⟩
      · intro secretID expiresAt member
        exact only secretID expiresAt ((old _ rfl).mp member)
      · intro waiting
        obtain ⟨denied, revoked, released⟩ := clean waiting
        exact ⟨fun member => denied ((old _ rfl).mp member), fun member =>
          revoked ((old _ rfl).mp member),
          fun time member => released time ((old _ rfl).mp member)⟩
      · intro status
        exact (old _ rfl).mpr (approved status)

/-- A spent checkout needs no more than its creation. -/
theorem follows_spent (history entries : List Entry) (id : Str) (r next : Request)
    (follows : Follows history id (some r))
    (same : next.id = r.id ∧ next.secretID = r.secretID ∧ next.expiresAt = r.expiresAt)
    (spent : next.status ≠ .pending ∧ next.status ≠ .approved)
    (uncreated : ∀ secretID expiresAt, .created id secretID expiresAt ∉ entries) :
    Follows (history ++ entries) id (some next) := by
  obtain ⟨keyed, made, only, -, -⟩ := follows
  refine ⟨same.1.trans keyed, ?_, ?_, ?_, ?_⟩
  · rw [same.2.1, same.2.2]
    exact List.mem_append_left entries made
  · intro secretID expiresAt member
    rw [same.2.1, same.2.2]
    rcases List.mem_append.mp member with old | new
    · exact only secretID expiresAt old
    · exact absurd new (uncreated secretID expiresAt)
  · rintro (pending | approved)
    · exact absurd pending spent.1
    · exact absurd approved spent.2
  · intro approved
    exact absurd approved spent.2

theorem follows_turn (history : List Entry) (id : Str) (r next : Request) (entries : List Entry)
    (follows : Follows history id (some r))
    (same : next.id = r.id ∧ next.secretID = r.secretID ∧ next.expiresAt = r.expiresAt)
    (turns : Turn id r.expiresAt r.status next.status entries) :
    Follows (history ++ entries) id (some next) := by
  generalize before : r.status = status at turns
  generalize after : next.status = status' at turns
  have simple :
      ∀ entries : List Entry, (∀ secretID expiresAt, .created id secretID expiresAt ∉ entries) →
      next.status ≠ .pending ∧ next.status ≠ .approved →
        Follows (history ++ entries) id (some next) :=
    fun entries uncreated spent =>
      follows_spent history entries id r next follows same spent uncreated
  cases turns with
  | approve =>
      obtain ⟨keyed, made, only, clean, -⟩ := follows
      obtain ⟨denied, revoked, released⟩ := clean (Or.inl before)
      refine ⟨same.1.trans keyed, ?_, ?_, ?_, ?_⟩
      · rw [same.2.1, same.2.2]
        exact List.mem_append_left _ made
      · intro secretID expiresAt member
        rw [same.2.1, same.2.2]
        apply only secretID expiresAt
        simpa using member
      · intro _
        refine ⟨?_, ?_, ?_⟩
        · simpa using denied
        · simpa using revoked
        · intro time
          simpa using released time
      · intro _
        simp
  | deny => exact simple _ (by simp) (by simp [after])
  | revoke => exact simple _ (by simp) (by simp [after])
  | expire => exact simple _ (by simp) (by simp [after])
  | consume => exact simple _ (by simp) (by simp [after])
  | release time spent inTime used =>
      refine simple _ (by simp) ?_
      rcases used with rfl | rfl <;> simp [after]

theorem turn_about (id : Str) (expiresAt : Time) (status status' : Status) (entries : List Entry)
    (turns : Turn id expiresAt status status' entries) :
    ∀ entry ∈ entries, entry.about = some id := by
  cases turns <;> simp [Entry.about]

theorem legal_turn (history : List Entry) (id : Str) (r : Request) (status : Status)
    (entries : List Entry) (follows : Follows history id (some r))
    (legal : Legal OnceInTime history) (turns : Turn id r.expiresAt r.status status entries) :
    Legal OnceInTime (history ++ entries) := by
  generalize before : r.status = status₀ at turns
  cases turns with
  | release time spent inTime used =>
      obtain ⟨-, made, only, clean, approved⟩ := follows
      obtain ⟨denied, revoked, released⟩ := clean (Or.inr before)
      rw [legal_append_singleton]
      refine ⟨legal, approved before, denied, revoked, released, ⟨_, _, made⟩, ?_⟩
      intro secretID expiresAt member
      rw [(only secretID expiresAt member).2]
      exact inTime
  | approve => exact legal_append_of_free _ _ _ legal (by simp [OnceInTime])
  | deny => exact legal_append_of_free _ _ _ legal (by simp [OnceInTime])
  | revoke => exact legal_append_of_free _ _ _ legal (by simp [OnceInTime])
  | expire => exact legal_append_of_free _ _ _ legal (by simp)
  | consume => exact legal_append_of_free _ _ _ legal (by simp)

end Releases

section Revocations

theorem getElem?_setStatus (items : Checkouts) (id other : Str) (r : Request) (status : Status) :
    (items.setStatus id r status)[other]? =
      if id = other then some { r with status := status } else items[other]? := by
  rw [Checkouts.setStatus, Std.ExtTreeMap.getElem?_insert]
  simp only [Std.LawfulEqCmp.compare_eq_iff_eq]

theorem getElem?_revoke (items : Checkouts) (id other : Str) :
    (items.revoke id).2[other]? =
      if id = other then (items[other]?).map fun r => { r with status := .revoked }
        else items[other]? := by
  rw [Checkouts.revoke]
  cases found : items[id]? with
  | none =>
      dsimp only
      split
      · rename_i same
        rw [← same, found]
        rfl
      · rfl
  | some r =>
      dsimp only
      rw [getElem?_setStatus]
      split
      · rename_i same
        rw [← same, found]
        rfl
      · rfl

theorem getElem?_revokeAll (ids : List Str) (items : Checkouts) (other : Str) :
    (ids.foldl (fun items id => (items.revoke id).2) items)[other]? =
      if other ∈ ids then (items[other]?).map fun r => { r with status := .revoked }
        else items[other]? := by
  induction ids generalizing items with
  | nil => simp
  | cons id ids ih =>
      rw [List.foldl_cons, ih, getElem?_revoke]
      by_cases same : id = other
      · subst same
        rw [if_pos rfl, if_pos List.mem_cons_self]
        split
        · rw [Option.map_map]
          rfl
        · rfl
      · rw [if_neg same]
        simp only [List.mem_cons, Ne.symm same, false_or]

theorem mem_revokeCheckouts (secretID : Str) (items : Checkouts)
    (keyed : ∀ (id : Str) (r : Request), items[id]? = some r → r.id = id) (id : Str) :
    id ∈ (revokeCheckouts secretID items).1 ↔ ∃ r, items[id]? = some r ∧
      revocable secretID r = true := by
  rw [revokeCheckouts, List.mem_map]
  constructor
  · rintro ⟨r, member, rfl⟩
    obtain ⟨listed, open_⟩ := List.mem_filter.mp member
    obtain ⟨⟨key, value⟩, entry, rfl⟩ := List.mem_map.mp listed
    have found := Std.ExtTreeMap.mem_toList_iff_getElem?_eq_some.mp entry
    refine ⟨value, ?_, open_⟩
    rw [keyed key value found]
    exact found
  · rintro ⟨r, found, open_⟩
    refine ⟨r, List.mem_filter.mpr ⟨?_, open_⟩, keyed id r found⟩
    exact List.mem_map.mpr ⟨(id, r), Std.ExtTreeMap.mem_toList_iff_getElem?_eq_some.mpr found, rfl⟩

theorem getElem?_revokeCheckouts (secretID : Str) (items : Checkouts) (id : Str) :
    (revokeCheckouts secretID items).2[id]? =
      if id ∈ (revokeCheckouts secretID items).1 then
        (items[id]?).map fun r => { r with status := .revoked } else items[id]? :=
  getElem?_revokeAll _ items id

end Revocations

section Runs

theorem getElem?_insert_checkout (items : Checkouts) (id other : Str) (r : Request) :
    (items.insert id r)[other]? = if id = other then some r else items[other]? := by
  rw [Std.ExtTreeMap.getElem?_insert]
  simp only [Std.LawfulEqCmp.compare_eq_iff_eq]

theorem follows_create (history : List Entry) (r : Request) (follows : Follows history r.id none) :
    Follows (history ++ (.created r.id r.secretID r.expiresAt ::
      if r.status = .approved then [.approved r.id] else [])) r.id (some r) := by
  have absent : ∀ entry : Entry, entry.about = some r.id → entry ∉ history :=
    fun entry about member => follows entry member about
  refine ⟨rfl, by simp, ?_, ?_, ?_⟩
  · intro secretID expiresAt member
    rcases List.mem_append.mp member with old | new
    · exact absurd old (absent _ rfl)
    · split at new <;> simpa using new
  · intro _
    refine ⟨?_, ?_, ?_⟩
    · intro member
      rcases List.mem_append.mp member with old | new
      · exact absent _ rfl old
      · split at new <;> simp at new
    · intro member
      rcases List.mem_append.mp member with old | new
      · exact absent _ rfl old
      · split at new <;> simp at new
    · intro time member
      rcases List.mem_append.mp member with old | new
      · exact absent _ rfl old
      · split at new <;> simp at new
  · intro approved
    simp [approved]

theorem tracks_move (cut : Prop) (b b' : Book) (tracks : Tracks b) (move : Move cut b b') :
    Tracks b' := by
  have keyed : ∀ (id : Str) (r : Request), b.items[id]? = some r → r.id = id := by
    intro id r found
    have follows := tracks.follows id
    rw [found] at follows
    exact follows.1
  cases move with
  | create r fresh begins =>
      have follows := tracks.follows r.id
      rw [fresh] at follows
      refine ⟨?_, ?_⟩
      · intro id
        rw [getElem?_insert_checkout]
        by_cases same : r.id = id
        · subst same
          rw [if_pos rfl]
          exact follows_create b.history r follows
        · rw [if_neg same]
          apply follows_append _ _ _ _ (tracks.follows id)
          intro entry member about
          split at member
          · simp only [List.mem_cons, List.not_mem_nil, or_false] at member
            rcases member with rfl | rfl
            · exact same (Option.some_inj.mp about)
            · exact same (Option.some_inj.mp about)
          · rw [List.mem_singleton] at member
            subst member
            exact same (Option.some_inj.mp about)
      · apply legal_append_of_free _ _ _ tracks.legal
        intro entry member before
        split at member <;> simp at member
        · rcases member with rfl | rfl <;> trivial
        · subst member
          trivial
  | turn id r next entries found same turns =>
      have follows := tracks.follows id
      rw [found] at follows
      refine ⟨?_, legal_turn b.history id r next.status entries follows tracks.legal turns⟩
      intro other
      rw [getElem?_insert_checkout]
      by_cases equal : id = other
      · subst equal
        rw [if_pos rfl]
        exact follows_turn b.history id r next entries follows same turns
      · rw [if_neg equal]
        apply follows_append _ _ _ _ (tracks.follows other)
        intro entry member about
        rw [turn_about id r.expiresAt r.status next.status entries turns entry member] at about
        exact equal (Option.some_inj.mp about)
  | rotate secretID closed =>
      refine ⟨?_, legal_append_of_free _ _ _ tracks.legal (by simp [OnceInTime])⟩
      intro id
      exact follows_append _ _ _ _ (tracks.follows id) (by simp [Entry.about])
  | rotateRevoke secretID =>
      refine ⟨?_, ?_⟩
      · intro id
        have follows := tracks.follows id
        rw [getElem?_revokeCheckouts]
        split
        · rename_i revoked
          obtain ⟨r, found, -⟩ := (mem_revokeCheckouts secretID b.items keyed id).mp revoked
          rw [found] at follows ⊢
          exact follows_spent b.history _ id r _ follows ⟨rfl, rfl, rfl⟩ ⟨by simp, by simp⟩
            (by simp)
        · rename_i kept
          apply follows_append _ _ _ _ follows
          intro entry member about
          rcases List.mem_cons.mp member with rfl | member
          · cases about
          · obtain ⟨other, listed, rfl⟩ := List.mem_map.mp member
            exact kept (Option.some_inj.mp about ▸ listed)
      · apply legal_append_of_free _ _ _ tracks.legal
        intro entry member before
        rcases List.mem_cons.mp member with rfl | member
        · trivial
        · obtain ⟨other, -, rfl⟩ := List.mem_map.mp member
          trivial

theorem tracks_moves (cut : Prop) (b b' : Book) (tracks : Tracks b) (moves : Moves cut b b') :
    Tracks b' := by
  induction moves with
  | refl => exact tracks
  | tail _ move ih => exact tracks_move cut _ _ ih move

/-- A server in which no checkout has been made. -/
def PamRun.start (server : Server) : PamRun := ⟨{ server with checkouts := ∅ }, []⟩

theorem tracks_start (server : Server) : Tracks (PamRun.start server).book := by
  refine ⟨?_, legal_nil _⟩
  intro id
  change Follows [] id (∅ : Checkouts)[id]?
  rw [Std.ExtTreeMap.getElem?_empty]
  intro entry member
  cases member

theorem always_tracks (cfg : Config) (cut : Prop) (server : Server)
    (events : List (Readings × PamEvent))
    (fresh : Guarded (pamStep cfg) FreshID (PamRun.start server) events)
    (orderly : Guarded (pamStep cfg) (Orderly cut) (PamRun.start server) events) :
    Always (pamStep cfg) (fun s => Tracks s.book) (PamRun.start server) events := by
  apply always_of_guarded (pamStep cfg) (fun s => Tracks s.book)
    (fun s event => FreshID s event ∧ Orderly cut s event)
  · intro s event tracks allowed
    exact tracks_moves cut _ _ tracks (moves_pamStep cfg cut s event allowed.1 allowed.2)
  · exact tracks_start server
  · intro front event within
    exact ⟨fresh front event within, orderly front event within⟩

/-- No session is started with a consumed checkout. -/
def NoConsumedStart (s : PamRun) (event : Readings × PamEvent) : Prop :=
  match event.2 with
  | .rdpStart _ checkoutID _ => ∀ r, s.server.checkouts[checkoutID]? = some r → r.status ≠ .consumed
  | _ => True

/-- Along a run in which no session is started with a consumed checkout, every checkout releases its
password at most once, after its approval and before it expires, is denied or revoked. -/
theorem releases_once_in_time (cfg : Config) (server : Server) (events : List (Readings × PamEvent))
    (fresh : Guarded (pamStep cfg) FreshID (PamRun.start server) events)
    (unused : Guarded (pamStep cfg) NoConsumedStart (PamRun.start server) events) :
    Always (pamStep cfg) (fun s => Legal OnceInTime s.history) (PamRun.start server) events := by
  have orderly : Guarded (pamStep cfg) (Orderly False) (PamRun.start server) events := by
    intro front event within
    have named := unused front event within
    rw [Orderly]
    rw [NoConsumedStart] at named
    split
    · rename_i shape
      rw [shape] at named
      exact named
    · exact False.elim
    · trivial
  intro front within
  exact (always_tracks cfg False server events fresh orderly front within).legal

end Runs

section Example

/-- An unsealed vault with one secret. -/
def dbVault : Vault where
  kms := .softwareSealed firstKey
  sealed := false
  secrets := (∅ : StrMap StoredSecret).insert "db".toList
    ⟨⟨"db".toList, "t1".toList, "db".toList, "db01".toList, "root".toList, 0⟩,
      someNonce.val ++ keyedGcm.sealText firstKey someNonce.val [112, 119]⟩

def dbServer : Server := { vault := dbVault, interval := 0 }

def labConfig : Config := { gcm := keyedGcm }

def readingsAt (id : Str) (now : Time) : Readings := ⟨id, now, now, "token".toList, someNonce⟩

def admin : Headers := { actor := "alice".toList, role := "admin".toList }

/-- An approved checkout of one minute. -/
def checkoutDb : Readings × PamEvent :=
  (readingsAt "c1".toList 0, .checkout admin "db".toList "t1".toList 1)

def revealDb : Readings × PamEvent := (readingsAt [] 1, .reveal "c1".toList)

/-- The session of the checkout. -/
def startRDP (now : Time) : Readings × PamEvent :=
  (readingsAt "s1".toList now, .rdpStart admin "c1".toList "host".toList)

/-- A session and a reveal that is then refused. -/
theorem db_released_once :
    ([checkoutDb, startRDP 1, revealDb].foldl (pamStep labConfig) (PamRun.start dbServer)).history =
        [.created "c1".toList "db".toList 60000000000, .approved "c1".toList,
          .released "c1".toList 1] ∧
      Always (pamStep labConfig) (fun s => Legal OnceInTime s.history) (PamRun.start dbServer)
        [checkoutDb, startRDP 1, revealDb] := by
  refine ⟨rfl, releases_once_in_time labConfig dbServer [checkoutDb, startRDP 1, revealDb] ?_ ?_⟩
  · simp only [guarded_cons]
    exact ⟨rfl, trivial, trivial, guarded_nil _ _ _⟩
  · simp only [guarded_cons]
    refine ⟨trivial, ?_, trivial, guarded_nil _ _ _⟩
    intro r found
    have approved :
        (pamStep labConfig (PamRun.start dbServer) checkoutDb).server.checkouts["c1".toList]?.map
        Request.status = some .approved := rfl
    rw [found, Option.map_some, Option.some_inj] at approved
    rw [approved]
    decide

/-- A checkout of one minute that is revealed, and used for a session a minute after it expired. -/
theorem db_released_twice :
    ¬ ∀ (cfg : Config) (server : Server) (events : List (Readings × PamEvent)),
      Guarded (pamStep cfg) FreshID (PamRun.start server) events →
        Always (pamStep cfg) (fun s => Legal OnceInTime s.history)
          (PamRun.start server) events := by
  intro once
  have fresh : Guarded (pamStep labConfig) FreshID (PamRun.start dbServer)
      [checkoutDb, revealDb, startRDP 120000000000] := by
    simp only [guarded_cons]
    exact ⟨rfl, trivial, trivial, guarded_nil _ _ _⟩
  have legal := (once labConfig dbServer _ fresh).last
  have history : ([checkoutDb, revealDb, startRDP 120000000000].foldl (pamStep labConfig)
      (PamRun.start dbServer)).history = [.created "c1".toList "db".toList 60000000000,
        .approved "c1".toList, .released "c1".toList 1] ++ [.released "c1".toList 120000000000] :=
          rfl
  rw [history, legal_append_singleton] at legal
  obtain ⟨-, -, -, -, first, -⟩ := legal
  exact first 1 (by simp)

end Example

end EraOne.Pam
