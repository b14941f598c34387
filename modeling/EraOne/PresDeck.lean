import EraOne.PresFrames
import EraOne.Runs

set_option autoImplicit false

/- The two ways to write a deck, in `server.rs` of the presentations engine. A frame op is applied
under the lock; a put checks under the lock, uploads without it and then replaces the deck. Both
count the deck's version on: the frame op from the stored one, the put from the one in its body. -/
namespace EraOne.Pres

open Docs (updateFirst)
open Runs

inductive StatusCode where
  | badRequest | unauthorized | forbidden | notFound | conflict | badGateway
  deriving DecidableEq, Repr

structure Principal where
  tenantId : Str
  userId : Str
  deriving DecidableEq, Repr

structure FrameOpReq where
  slideId : Str
  frame : FrameKey
  op : FrameOp
  baseVersion : Option UInt64 := none
  deriving DecidableEq, Repr

/-- The licence, and then what `require_principal` makes of the headers. -/
def admission (licenseOk : Bool) (principal : Except StatusCode Principal) :
    Except StatusCode Principal :=
  if licenseOk then principal else .error .forbidden

/-- A deck without a tenant is nobody's. -/
def foreignDeck (deck : ErapDeck) (p : Principal) : Bool :=
  deck.tenantId.isEmpty || deck.tenantId ≠ p.tenantId

def applyDeckFrameOp (stored : Option ErapDeck) (req : FrameOpReq) (newId : Str) (p : Principal) :
    Except StatusCode ErapDeck :=
  match stored with
  | none => .error .notFound
  | some deck =>
      if foreignDeck deck p then .error .forbidden
      else if req.baseVersion.any (· ≠ deck.version) then .error .conflict
      else if deck.slides.any (·.id = req.slideId) then
        .ok { deck with
          slides := updateFirst (fun s => s.id = req.slideId)
            (fun s => s.applyOp newId req.frame req.op) deck.slides
          version := saturatingSucc deck.version }
      else .error .badRequest

/-- What `put_deck` uploads and later stores. -/
def preparePut (id : Str) (stored : Option ErapDeck) (body : ErapDeck) (p : Principal) :
    Except StatusCode ErapDeck :=
  if stored.any (foreignDeck · p) then .error .forbidden
  else if body.slides.isEmpty then .error .badRequest
  else .ok { body with
    driveObjectId := id, tenantId := p.tenantId, version := saturatingSucc body.version }

/-- A `put_deck` between its two locks, with the version of its body. -/
structure Upload where
  base : UInt64
  deck : ErapDeck
  deriving DecidableEq, Repr

/-- An accepted write, with the version it was based on and the one it stores. -/
inductive Write where
  | opened (version : UInt64)
  | frameOp (base : Option UInt64) (version : UInt64)
  | put (base version : UInt64)
  deriving DecidableEq, Repr

def Write.version : Write → UInt64
  | .opened version | .frameOp _ version | .put _ version => version

/-- One entry of `decks`, the puts under way, and the writes that were accepted. -/
structure DeckState where
  deck : Option ErapDeck
  uploads : List Upload
  log : List Write
  deriving DecidableEq, Repr

def opened (deck : Option ErapDeck) : DeckState :=
  ⟨deck, [], deck.toList.map fun d => .opened d.version⟩

inductive DeckEvent where
  | frameOp (principal : Except StatusCode Principal) (req : FrameOpReq) (newId : Str)
  | put (principal : Except StatusCode Principal) (body : ErapDeck)
  /-- The upload ends; if it fails, the put is answered with `BAD_GATEWAY`. -/
  | uploaded (upload : Nat) (ok : Bool)

section Events

variable (licenseOk : Bool) (id : Str)

/-- What a frame op stores, if it is accepted. -/
def framed (s : DeckState) (principal : Except StatusCode Principal) (req : FrameOpReq)
    (newId : Str) : Except StatusCode ErapDeck :=
  admission licenseOk principal >>= applyDeckFrameOp s.deck req newId

def deckStep (s : DeckState) : DeckEvent → DeckState
  | .frameOp principal req newId =>
      match framed licenseOk s principal req newId with
      | .error _ => s
      | .ok deck =>
          { s with deck := some deck, log := s.log ++ [.frameOp req.baseVersion deck.version] }
  | .put principal body =>
      match admission licenseOk principal >>= preparePut id s.deck body with
      | .error _ => s
      | .ok deck => { s with uploads := s.uploads ++ [⟨body.version, deck⟩] }
  | .uploaded i ok =>
      match s.uploads[i]? with
      | none => s
      | some upload =>
          let uploads := s.uploads.eraseIdx i
          if ok then ⟨some upload.deck, uploads, s.log ++ [.put upload.base upload.deck.version]⟩
          else { s with uploads := uploads }

/-- An accepted write counts the stored version on: it is not the last one, and a put was based on
no older one. -/
def CountsOn (s : DeckState) : DeckEvent → Prop
  | .frameOp principal req newId =>
      (framed licenseOk s principal req newId).isOk → ∀ deck ∈ s.deck, deck.version + 1 ≠ 0
  | .put _ _ => True
  | .uploaded i ok => ∀ upload ∈ s.uploads[i]?, ok = true →
      ∀ deck ∈ s.deck, deck.version ≤ upload.base ∧ deck.version + 1 ≠ 0

end Events

/-- Optimistic concurrency over the accepted writes. -/
structure Optimistic (log : List Write) : Prop where
  /-- Every write has a greater version than those before it. -/
  increasing : (log.map Write.version).Pairwise (· < ·)
  /-- The state that a frame op was based on is the one right before it. -/
  fresh : ∀ (i j : Nat) (base version : UInt64), log[i]? = some (.frameOp (some base) version) →
    j < i → log[j]?.map Write.version = some base → j + 1 = i
  /-- A put was not based on a version older than a frame op before it. -/
  kept : ∀ (i j : Nat) (base : Option UInt64) (version putBase putVersion : UInt64), i < j →
    log[i]? = some (.frameOp base version) → log[j]? = some (.put putBase putVersion) →
    version ≤ putBase

/-- The log ends with the version that is stored, and a put stores the version after its body's. -/
structure Linked (s : DeckState) : Prop where
  last : s.log.getLast?.map Write.version = s.deck.map (·.version)
  uploads : ∀ upload ∈ s.uploads, upload.deck.version = saturatingSucc upload.base

/-- The versions before the last one are smaller. -/
theorem Optimistic.earlier {log : List Write} {last : Write} (all : Optimistic (log ++ [last]))
    (i : Nat) (write : Write) (found : (log ++ [last])[i]? = some write) :
    i < log.length ∧ write.version < last.version ∨ i = log.length ∧ write = last := by
  have increasing := all.increasing
  rw [List.map_append, List.pairwise_append] at increasing
  rw [List.getElem?_append] at found
  split at found
  · rename_i inside
    refine Or.inl ⟨inside, ?_⟩
    exact increasing.2.2 _ (List.mem_map_of_mem (List.mem_of_getElem? found)) _
      (List.mem_singleton_self _)
  · rename_i past
    have bound := (List.getElem?_eq_some_iff.mp found).1
    rw [List.length_singleton] at bound
    have here : i = log.length := by omega
    rw [here, Nat.sub_self, List.getElem?_cons_zero, Option.some.injEq] at found
    exact Or.inr ⟨here, found.symm⟩

/-- A write after others keeps the log exactly if it has a greater version than the last. -/
theorem optimistic_append_iff (log : List Write) (last write : Write)
    (all : Optimistic (log ++ [last]))
    (based : ∀ base version, write = .frameOp (some base) version → base = last.version)
    (counted : ∀ base version, write = .put base version → version = saturatingSucc base) :
    Optimistic (log ++ [last] ++ [write]) ↔ last.version < write.version := by
  constructor
  · intro next
    have increasing := next.increasing
    rw [List.map_append, List.pairwise_append] at increasing
    exact increasing.2.2 _ (List.mem_map_of_mem (List.mem_append_right _ List.mem_cons_self)) _
      List.mem_cons_self
  · intro greater
    have split_ (i : Nat) (w : Write) (found : (log ++ [last] ++ [write])[i]? = some w) :
        i < log.length + 1 ∧ (log ++ [last])[i]? = some w ∨ i = log.length + 1 ∧ w = write := by
      rw [List.getElem?_append] at found
      split at found
      · rename_i inside
        rw [List.length_append, List.length_singleton] at inside
        exact Or.inl ⟨inside, found⟩
      · rename_i past
        have bound := (List.getElem?_eq_some_iff.mp found).1
        rw [List.length_append, List.length_singleton] at past bound
        rw [List.length_singleton] at bound
        have here : i = log.length + 1 := by omega
        rw [here, List.length_append, List.length_singleton, Nat.sub_self,
          List.getElem?_cons_zero, Option.some.injEq] at found
        exact Or.inr ⟨here, found.symm⟩
    refine ⟨?_, ?_, ?_⟩
    · rw [List.map_append, List.pairwise_append]
      refine ⟨all.increasing, List.pairwise_singleton _ _, ?_⟩
      intro v listed v' new
      rw [List.map_singleton, List.mem_singleton] at new
      obtain ⟨w, member, rfl⟩ := List.mem_map.mp listed
      obtain ⟨i, found⟩ := List.mem_iff_getElem?.mp member
      rw [new]
      rcases all.earlier i w found with ⟨-, below⟩ | ⟨-, rfl⟩
      · exact UInt64.lt_trans below greater
      · exact greater
    · intro i j base version found before same
      obtain ⟨w, there, is_⟩ := Option.map_eq_some_iff.mp same
      rcases split_ i _ found with ⟨inside, old⟩ | ⟨new, this⟩
      · rcases split_ j w there with ⟨-, older⟩ | ⟨later, -⟩
        · refine all.fresh i j base version old before ?_
          rw [older, Option.map_some, is_]
        · omega
      · have now := based base version this.symm
        rcases split_ j w there with ⟨-, older⟩ | ⟨later, -⟩
        · rcases all.earlier j w older with ⟨-, below⟩ | ⟨here, -⟩
          · rw [is_, now] at below
            exact absurd below (UInt64.lt_irrefl _)
          · omega
        · omega
    · intro i j base version putBase putVersion before frame put
      rcases split_ j _ put with ⟨inside, old⟩ | ⟨new, this⟩
      · rcases split_ i _ frame with ⟨-, older⟩ | ⟨later, -⟩
        · exact all.kept i j base version putBase putVersion before older old
        · omega
      · have count := counted putBase putVersion this.symm
        rcases split_ i _ frame with ⟨-, older⟩ | ⟨later, -⟩
        · have below : last.version ≤ putBase := by
            rw [← this] at greater
            change last.version < putVersion at greater
            rw [count, lt_saturatingSucc] at greater
            exact greater.1
          rcases all.earlier i _ older with ⟨-, less⟩ | ⟨-, same⟩
          · exact UInt64.le_trans (UInt64.le_of_lt less) below
          · rw [← same] at below
            exact below
        · omega

theorem optimistic_singleton (write : Write) : Optimistic [write] := by
  refine ⟨List.pairwise_singleton _ _, ?_, ?_⟩
  · intro i j _ _ found before _
    have bound := (List.getElem?_eq_some_iff.mp found).1
    rw [List.length_singleton] at bound
    omega
  · intro i j _ _ _ _ before _ found
    have bound := (List.getElem?_eq_some_iff.mp found).1
    rw [List.length_singleton] at bound
    omega

/-- A frame op is based on the stored deck and stores the version after its. -/
theorem applyDeckFrameOp_spec (stored : Option ErapDeck) (req : FrameOpReq) (newId : Str)
    (p : Principal) (next : ErapDeck) (done : applyDeckFrameOp stored req newId p = .ok next) :
    ∃ deck, stored = some deck ∧ next.version = saturatingSucc deck.version ∧
      ∀ base, req.baseVersion = some base → base = deck.version := by
  unfold applyDeckFrameOp at done
  cases stored with
  | none => cases done
  | some deck =>
      dsimp only at done
      split at done
      · cases done
      · split at done
        · cases done
        · rename_i current
          split at done
          · cases done
            refine ⟨deck, rfl, rfl, ?_⟩
            intro base is_
            rw [is_] at current
            simpa using current
          · cases done

theorem framed_spec (licenseOk : Bool) (s : DeckState) (principal : Except StatusCode Principal)
    (req : FrameOpReq) (newId : Str) (next : ErapDeck)
    (done : framed licenseOk s principal req newId = .ok next) :
    ∃ deck, s.deck = some deck ∧ next.version = saturatingSucc deck.version ∧
      ∀ base, req.baseVersion = some base → base = deck.version := by
  unfold framed at done
  cases admitted : admission licenseOk principal with
  | error e =>
      rw [admitted] at done
      cases done
  | ok p =>
      rw [admitted] at done
      exact applyDeckFrameOp_spec s.deck req newId p next done

theorem preparePut_version (id : Str) (stored : Option ErapDeck) (body next : ErapDeck)
    (p : Principal) (done : preparePut id stored body p = .ok next) :
    next.version = saturatingSucc body.version := by
  unfold preparePut at done
  split at done
  · cases done
  · split at done
    · cases done
    · cases done
      rfl

section Steps

variable (licenseOk : Bool) (id : Str) (s : DeckState)

theorem linked_step (event : DeckEvent) (linked : Linked s) :
    Linked (deckStep licenseOk id s event) := by
  cases event with
  | frameOp principal req newId =>
      unfold deckStep
      dsimp only
      split
      · exact linked
      · refine ⟨?_, linked.uploads⟩
        dsimp only
        rw [List.getLast?_append, List.getLast?_singleton]
        rfl
  | put principal body =>
      unfold deckStep
      dsimp only
      split
      · exact linked
      · rename_i deck done
        refine ⟨linked.last, ?_⟩
        intro upload member
        rcases List.mem_append.mp member with old | new
        · exact linked.uploads upload old
        · rw [List.mem_singleton] at new
          subst new
          cases admitted : admission licenseOk principal with
          | error e =>
              rw [admitted] at done
              cases done
          | ok p =>
              rw [admitted] at done
              exact preparePut_version id s.deck body deck p done
  | uploaded i ok =>
      unfold deckStep
      dsimp only
      split
      · exact linked
      · rename_i upload found
        have rest : ∀ other ∈ s.uploads.eraseIdx i,
            other.deck.version = saturatingSucc other.base :=
          fun other member => linked.uploads other (List.mem_of_mem_eraseIdx member)
        split
        · refine ⟨?_, rest⟩
          dsimp only
          rw [List.getLast?_append, List.getLast?_singleton]
          rfl
        · exact ⟨linked.last, rest⟩

/-- A stored deck is the last of the log. -/
theorem log_of_linked (linked : Linked s) (deck : ErapDeck) (stored : s.deck = some deck) :
    ∃ log last, s.log = log ++ [last] ∧ last.version = deck.version := by
  have last := linked.last
  rw [stored, Option.map_some] at last
  obtain ⟨write, ends, version⟩ := Option.map_eq_some_iff.mp last
  obtain ⟨log, whole⟩ := List.getLast?_eq_some_iff.mp ends
  exact ⟨log, write, whole, version⟩

theorem optimistic_step_iff (event : DeckEvent) (linked : Linked s)
    (optimistic : Optimistic s.log) :
    Optimistic (deckStep licenseOk id s event).log ↔ CountsOn licenseOk s event := by
  cases event with
  | frameOp principal req newId =>
      unfold deckStep CountsOn
      dsimp only
      cases done : framed licenseOk s principal req newId with
      | error e => exact iff_of_true optimistic (by simp [Except.isOk, Except.toBool])
      | ok next =>
          obtain ⟨deck, stored, counted, based⟩ :=
            framed_spec licenseOk s principal req newId next done
          obtain ⟨log, last, whole, version⟩ := log_of_linked s linked deck stored
          rw [whole] at optimistic
          dsimp only
          rw [whole, optimistic_append_iff log last _ optimistic]
          · change last.version < next.version ↔ _
            rw [counted, version, lt_saturatingSucc, stored]
            simp [Except.isOk, Except.toBool]
          · intro base after same
            rw [Write.frameOp.injEq] at same
            rw [version]
            exact based base same.1
          · intro base after same
            cases same
  | put principal body =>
      unfold deckStep CountsOn
      dsimp only
      split
      · exact iff_of_true optimistic trivial
      · exact iff_of_true optimistic trivial
  | uploaded i ok =>
      unfold deckStep CountsOn
      dsimp only
      cases found : s.uploads[i]? with
      | none => exact iff_of_true optimistic (by simp)
      | some upload =>
          have counted := linked.uploads upload (List.mem_of_getElem? found)
          cases ok with
          | false => exact iff_of_true optimistic (by simp)
          | true =>
              dsimp only
              rw [if_pos rfl]
              dsimp only
              cases stored : s.deck with
              | none =>
                  have empty := linked.last
                  rw [stored, Option.map_none, Option.map_eq_none_iff,
                    List.getLast?_eq_none_iff] at empty
                  rw [empty]
                  exact iff_of_true (optimistic_singleton _) (by simp)
              | some deck =>
                  obtain ⟨log, last, whole, version⟩ := log_of_linked s linked deck stored
                  rw [whole] at optimistic
                  rw [whole, optimistic_append_iff log last _ optimistic]
                  · change last.version < upload.deck.version ↔ _
                    rw [counted, version, lt_saturatingSucc]
                    simp
                  · intro base after same
                    cases same
                  · intro base after same
                    cases same
                    exact counted

end Steps

/-- Over every run of writes by any clients, the versions count every accepted write, no frame op is
based on an older state and no put discards one exactly when every accepted write counts the stored
version on. -/
theorem optimistic_writes_iff (licenseOk : Bool) (id : Str) (deck : Option ErapDeck)
    (events : List DeckEvent) :
    Always (deckStep licenseOk id) (fun s => Optimistic s.log) (opened deck) events ↔
      Guarded (deckStep licenseOk id) (CountsOn licenseOk) (opened deck) events := by
  have linked : Linked (opened deck) := by
    refine ⟨?_, ?_⟩
    · cases deck with
      | none => rfl
      | some deck => rfl
    · intro upload member
      cases member
  have optimistic : Optimistic (opened deck).log := by
    cases deck with
    | none => exact ⟨List.Pairwise.nil, by simp [opened], by simp [opened]⟩
    | some deck => exact optimistic_singleton _
  have always := always_of_guarded (deckStep licenseOk id) Linked (fun _ _ => True)
    (fun s event linked _ => linked_step licenseOk id s event linked) (opened deck) events linked
    (fun _ _ _ => trivial)
  rw [← always_iff_guarded (deckStep licenseOk id) (fun s => Linked s ∧ Optimistic s.log)
    (CountsOn licenseOk) ?_ (opened deck) events ⟨linked, optimistic⟩]
  · constructor
    · intro all front within
      exact ⟨always front within, all front within⟩
    · intro all front within
      exact (all front within).2
  · intro s event ⟨linked, optimistic⟩
    rw [← optimistic_step_iff licenseOk id s event linked optimistic]
    exact and_iff_right (linked_step licenseOk id s event linked)

/-- A deck of one empty slide, with a version. -/
def deckAt (version : UInt64) : ErapDeck :=
  { tenantId := "t1".toList, name := "deck.erap".toList
    slides := [⟨"s1".toList, ⟨[]⟩, ⟨[]⟩, ⟨[]⟩, [], none, [], none, [], []⟩], version := version }

def member : Except StatusCode Principal := .ok ⟨"t1".toList, "ann".toList⟩

/-- Text into the title of a deck that the client has seen at version zero. -/
def titleOp : FrameOpReq :=
  { slideId := "s1".toList, frame := .title
    op := .insertBlock [] (Block.paragraph "b1".toList "Agenda".toList), baseVersion := some 0 }

/-- A put that was based on the frame op before it. -/
theorem optimistic_writes_based :
    Always (deckStep true "d1".toList) (fun s => Optimistic s.log) (opened (some (deckAt 0)))
      [.frameOp member titleOp "b0".toList, .put member (deckAt 1), .uploaded 0 true] := by
  rw [optimistic_writes_iff]
  simp only [guarded_cons]
  refine ⟨?_, trivial, ?_, guarded_nil _ _ _⟩
  · unfold CountsOn
    decide
  · unfold CountsOn
    decide

/-- A put of the deck as it was before an accepted frame op is accepted too: the version stays the
same and the op is gone. -/
theorem optimistic_writes_lost :
    ¬ ∀ (licenseOk : Bool) (id : Str) (deck : Option ErapDeck) (events : List DeckEvent),
      Always (deckStep licenseOk id) (fun s => Optimistic s.log) (opened deck) events := by
  intro all
  have last := (all true "d1".toList (some (deckAt 0)) [.frameOp member titleOp "b0".toList,
    .put member (deckAt 0), .uploaded 0 true]).last
  have increasing := last.increasing
  revert increasing
  decide

end EraOne.Pres
