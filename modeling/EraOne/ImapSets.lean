import EraOne.MailImap
import EraOne.Utf8Lossy

set_option autoImplicit false

/- `FETCH` and `UID FETCH` of the IMAP server (`core/src/imap.rs`), on the bytes of the messages. -/
namespace EraOne.MailCore

open Scan Utf8

/-! ### Message sets -/

/-- A number, or `*` for the largest in use. -/
inductive SeqNumber
  | number (n : Nat)
  | largest
  deriving DecidableEq

inductive SeqItem
  | one (a : SeqNumber)
  | range (a b : SeqNumber)
  deriving DecidableEq

structure SeqSet where
  first : SeqItem
  rest : List SeqItem
  deriving DecidableEq

def SeqNumber.value (last : Nat) : SeqNumber → Nat
  | .number n => n
  | .largest => last

/-- A range is written from either end. -/
def SeqItem.has (last k : Nat) : SeqItem → Bool
  | .one a => k == a.value last
  | .range a b => min (a.value last) (b.value last) ≤ k && k ≤ max (a.value last) (b.value last)

def SeqSet.has (last k : Nat) (set : SeqSet) : Bool := (set.first :: set.rest).any (·.has last k)

def SeqNumber.text : SeqNumber → Str
  | .number n => decimal n
  | .largest => ['*']

def SeqItem.text : SeqItem → Str
  | .one a => a.text
  | .range a b => a.text ++ (':' :: b.text)

def SeqSet.text (set : SeqSet) : Str :=
  set.first.text ++ set.rest.flatMap fun item => ',' :: item.text

/-! ### The answer -/

/-- A stored message with its bytes. -/
structure RawMessage where
  uid : UInt64
  raw : Bytes
  deriving DecidableEq

def StoredMessage.bytes (msg : StoredMessage) : RawMessage := ⟨msg.uid, utf8 msg.raw⟩

/-- What is written for a message: its number, how it is identified, the announced length and the
literal. -/
structure FetchReply where
  number : Nat
  id : Str
  announced : Nat
  literal : Bytes
  deriving DecidableEq

def FetchReply.bytes (reply : FetchReply) : Bytes :=
  utf8 ("* ".toList ++ decimal reply.number ++ " FETCH (".toList ++ reply.id ++
    " BODY[] \x7b".toList ++
      decimal reply.announced ++ "\x7d\r\n".toList) ++
    reply.literal ++ utf8 "\r\n)\r\n".toList

/-- The first message, whatever was asked for. -/
def fetchReplies (isUID : Bool) (seq : Str) : List RawMessage → List FetchReply
  | [] => []
  | msg :: _ =>
      [{ number := if isUID then msg.uid.toNat else 1
         id := if isUID || contains "UID".toList seq then "UID ".toList ++ decimal msg.uid.toNat
           else ['1']
         announced := msg.raw.length
         literal := lossy msg.raw }]

def fetchAnswer (cmd : Str) (parts : List Str) (msgs : List RawMessage) :
    Option (List FetchReply) :=
  (fetchSet cmd parts).map fun asked => fetchReplies asked.2 asked.1 msgs

theorem fetch_first (isUID : Bool) (seq : Str) (msg : StoredMessage) (msgs : List StoredMessage) :
    ImapReply.fetch isUID seq (msg :: msgs) =
      "* ".toList ++ decimal (if isUID then msg.uid.toNat else 1) ++ " FETCH (".toList ++
        (if isUID || contains "UID".toList seq then "UID ".toList ++ decimal msg.uid.toNat
          else ['1']) ++
        " BODY[] \x7b".toList ++ decimal (byteLen msg.raw) ++ "\x7d\r\n".toList ++ msg.raw ++
          "\r\n)\r\n".toList :=
  rfl

/-- For messages that are texts these are the bytes that the server writes. -/
theorem utf8_fetch (isUID : Bool) (seq : Str) (msgs : List StoredMessage) :
    utf8 (ImapReply.fetch isUID seq msgs) =
      (fetchReplies isUID seq (msgs.map StoredMessage.bytes)).flatMap FetchReply.bytes := by
  cases msgs with
  | nil => rfl
  | cons msg msgs =>
      rw [List.map_cons, fetchReplies, List.flatMap_singleton, FetchReply.bytes, fetch_first]
      dsimp only [StoredMessage.bytes]
      rw [lossy_utf8, length_utf8, utf8_append, utf8_append]

/-- The branch of FETCH and UID FETCH. -/
theorem processImapCommand_asks (text : Text) (s : ImapSession) (store : MailStore) (cmd tag : Str)
    (parts : List Str) (asks : cmd = "FETCH".toList ∨ cmd = "UID".toList)
    (inside : s.authenticated = true) :
    (processImapCommand text s store cmd tag parts).2 =
      match fetchSet cmd parts with
      | none => ImapReply.bad tag
      | some (seq, isUID) =>
          ImapReply.fetch isUID seq (store.listMailbox text s.selected) ++ ImapReply.ok tag := by
  have other (name : Str) (foreign : name ≠ "FETCH".toList ∧ name ≠ "UID".toList) : cmd ≠ name := by
    rintro rfl
    exact asks.elim foreign.1 foreign.2
  unfold processImapCommand
  rw [if_neg (other _ (by decide)), if_neg fun login => other _ (by decide) login.1,
    if_neg fun list => other _ (by decide) list.1,
    if_neg fun select => select.1.elim (other _ (by decide)) (other _ (by decide)),
    if_neg fun search => other _ (by decide) search.1,
    if_pos ⟨asks, inside⟩]
  cases fetchSet cmd parts with
  | none => rfl
  | some asked => rfl

theorem processImapCommand_fetch (text : Text) (s : ImapSession) (store : MailStore) (cmd tag : Str)
    (parts : List Str) (asks : cmd = "FETCH".toList ∨ cmd = "UID".toList)
    (inside : s.authenticated = true) :
    utf8 (processImapCommand text s store cmd tag parts).2 =
      match fetchAnswer cmd parts ((store.listMailbox text s.selected).map StoredMessage.bytes) with
      | none => utf8 (ImapReply.bad tag)
      | some replies => replies.flatMap FetchReply.bytes ++ utf8 (ImapReply.ok tag) := by
  rw [processImapCommand_asks text s store cmd tag parts asks inside, fetchAnswer]
  cases fetchSet cmd parts with
  | none => rfl
  | some asked =>
      dsimp only [Option.map_some]
      rw [utf8_append, utf8_fetch]

/-! ### What was asked for -/

/-- The messages of a set with their sequence numbers, named by these or by their UIDs. -/
def requested (byUID : Bool) (set : SeqSet) (msgs : List RawMessage) : List (Nat × RawMessage) :=
  ((List.range' 1 msgs.length).zip msgs).filter fun numbered =>
    if byUID then set.has ((msgs.map fun msg => msg.uid.toNat).foldl max 0) numbered.2.uid.toNat
    else set.has msgs.length numbered.1

/-- A reply is that for a message, with its UID if that has to be there. -/
structure Answers (withUID : Bool) (reply : FetchReply) (asked : Nat × RawMessage) : Prop where
  number : reply.number = asked.1
  uid : withUID = true → reply.id = "UID ".toList ++ decimal asked.2.uid.toNat
  literal : reply.announced = reply.literal.length

/-- Each requested message is answered once. -/
def Answered (withUID : Bool) (asked : List (Nat × RawMessage))
    (answer : Option (List FetchReply)) : Prop :=
  ∃ replies order, answer = some replies ∧ order.Perm asked ∧
    List.Forall₂ (Answers withUID) replies order

theorem text_plain (set : SeqSet) : 'U' ∉ set.text := by
  have digits (n : Nat) : 'U' ∉ decimal n :=
    fun member => absurd (Nat.isDigit_of_mem_toDigits (by decide) (by decide) member) (by decide)
  have number (a : SeqNumber) : 'U' ∉ a.text := by
    cases a with
    | number n => exact digits n
    | largest => decide
  have item (i : SeqItem) : 'U' ∉ i.text := by
    cases i with
    | one a => exact number a
    | range a b =>
        rw [SeqItem.text, List.mem_append, List.mem_cons, not_or, not_or]
        exact ⟨number a, by decide, number b⟩
  rw [SeqSet.text, List.mem_append, List.mem_flatMap, not_or]
  refine ⟨item set.first, ?_⟩
  rintro ⟨i, -, member⟩
  rcases List.mem_cons.mp member with same | inside
  · exact absurd same (by decide)
  · exact item i inside

/-- Only the first message is ever answered. -/
theorem answered_cons (isUID withUID : Bool) (set : SeqSet) (first : RawMessage)
    (msgs : List RawMessage) (asked : List (Nat × RawMessage)) :
    Answered withUID asked (some (fetchReplies isUID set.text (first :: msgs))) ↔
      ∃ msg, asked = [(if isUID then first.uid.toNat else 1, msg)] ∧
        (withUID = true → isUID = true ∧ msg.uid = first.uid) ∧
        Utf8.Kept first.raw := by
  have plain : contains "UID".toList set.text = false := by
    rw [Bool.eq_false_iff]
    intro found
    have inside := (Scan.contains_iff_infix _ _).mp found
    exact text_plain set (inside.subset (by decide))
  constructor
  · rintro ⟨replies, order, same, perm, each⟩
    rw [← Option.some.inj same, fetchReplies] at each
    obtain ⟨⟨k, msg⟩, others, here, rest, rfl⟩ := List.forall₂_cons_left_iff.mp each
    rw [List.forall₂_nil_left_iff.mp rest] at perm
    obtain ⟨number, uid, literal⟩ := here
    dsimp only at number uid literal
    refine ⟨msg, ?_, ?_, (length_lossy_iff first.raw).mp literal.symm⟩
    · rw [number]
      exact (List.singleton_perm.mp perm).symm
    · intro shown
      have written := uid shown
      rw [plain, Bool.or_false] at written
      cases isUID with
      | true =>
          rw [if_pos rfl] at written
          exact ⟨rfl, UInt64.toNat_inj.mp (decimal_inj _ _ (List.append_cancel_left written)).symm⟩
      | false =>
          rw [if_neg Bool.false_ne_true] at written
          cases written
  · rintro ⟨msg, rfl, uid, kept⟩
    refine ⟨_, _, rfl, List.Perm.refl _,
      List.Forall₂.cons ⟨rfl, ?_, ((length_lossy_iff first.raw).mpr kept).symm⟩ List.Forall₂.nil⟩
    intro shown
    obtain ⟨byUID, same⟩ := uid shown
    rw [byUID, same]
    rfl

/-- An empty mailbox answers nothing. -/
theorem answered_nil (isUID withUID : Bool) (set : SeqSet) :
    Answered withUID (requested isUID set []) (some (fetchReplies isUID set.text [])) :=
  ⟨[], [], rfl, List.Perm.refl [], List.Forall₂.nil⟩

/-- The number 1 is that of the first message. -/
theorem requested_first (set : SeqSet) (first msg : RawMessage) (msgs : List RawMessage)
    (only : requested false set (first :: msgs) = [(1, msg)]) : msg = first := by
  have member : (1, msg) ∈ requested false set (first :: msgs) := by
    rw [only]
    exact List.mem_singleton_self _
  have numbered := (List.mem_filter.mp member).1
  rw [List.length_cons, List.range'_succ, List.zip_cons_cons] at numbered
  cases List.mem_cons.mp numbered with
  | inl here => exact congrArg Prod.snd here
  | inr later =>
      have above := (List.mem_range'_1.mp (List.of_mem_zip later).1).1
      omega

/-- `FETCH` never gives a UID; it gives the right number, and `UID FETCH` the right number and UID,
if the mailbox is empty or only one message is asked for, which is the first (by `UID FETCH`: its
number and UID are both the first message's UID) and whose bytes are as many when what is no UTF-8
in them is replaced. -/
theorem fetch_answered_iff (tag : Str) (set : SeqSet) (items : List Str) (msgs : List RawMessage) :
    (Answered true (requested false set msgs)
        (fetchAnswer "FETCH".toList (tag :: "FETCH".toList :: set.text :: items) msgs) ↔
          msgs = []) ∧
      (Answered false (requested false set msgs)
          (fetchAnswer "FETCH".toList (tag :: "FETCH".toList :: set.text :: items) msgs) ↔
        msgs = [] ∨ ∃ first, msgs.head? = some first ∧ requested false set msgs = [(1, first)] ∧
          Utf8.Kept first.raw) ∧
      (Answered true (requested true set msgs)
          (fetchAnswer "UID".toList (tag :: "UID".toList :: "FETCH".toList :: set.text :: items)
            msgs) ↔
        msgs = [] ∨ ∃ first msg, msgs.head? = some first ∧
          requested true set msgs = [(first.uid.toNat, msg)] ∧
          msg.uid = first.uid ∧ Utf8.Kept first.raw) := by
  have fetch : fetchAnswer "FETCH".toList (tag :: "FETCH".toList :: set.text :: items) msgs =
      some (fetchReplies false set.text msgs) := rfl
  have uid :
      fetchAnswer "UID".toList (tag :: "UID".toList :: "FETCH".toList :: set.text :: items) msgs =
      some (fetchReplies true set.text msgs) := rfl
  rw [fetch, uid]
  cases msgs with
  | nil =>
      exact ⟨iff_of_true (answered_nil false true set) rfl,
        iff_of_true (answered_nil false false set) (Or.inl rfl),
        iff_of_true (answered_nil true true set) (Or.inl rfl)⟩
  | cons first msgs =>
      rw [answered_cons, answered_cons, answered_cons]
      refine ⟨?_, ?_, ?_⟩
      · constructor
        · rintro ⟨msg, -, never, -⟩
          exact absurd (never rfl).1 Bool.false_ne_true
        · intro none_
          cases none_
      · constructor
        · rintro ⟨msg, only, -, kept⟩
          rw [requested_first set first msg msgs only] at only
          exact Or.inr ⟨first, rfl, only, kept⟩
        · rintro (none_ | ⟨head, same, only, kept⟩)
          · cases none_
          · rw [← Option.some.inj same] at only kept
            exact ⟨first, only, fun never => absurd never Bool.false_ne_true, kept⟩
      · constructor
        · rintro ⟨msg, only, same, kept⟩
          exact Or.inr ⟨first, msg, rfl, only, (same rfl).2, kept⟩
        · rintro (none_ | ⟨head, msg, same, only, number, kept⟩)
          · cases none_
          · rw [← Option.some.inj same] at only number kept
            exact ⟨msg, only, fun _ => ⟨rfl, number⟩, kept⟩

/-- Who asks for the second message gets the first. -/
theorem second_asked_first_sent :
    ¬ ∀ (set : SeqSet) (msgs : List RawMessage), Answered false (requested false set msgs)
      (fetchAnswer "FETCH".toList ["a".toList, "FETCH".toList, set.text] msgs) := by
  intro all
  have answered := all ⟨.one (.number 2), []⟩ [⟨1, []⟩, ⟨2, []⟩]
  obtain ⟨msg, asked, -⟩ :=
    (answered_cons false false ⟨.one (.number 2), []⟩ ⟨1, []⟩ [⟨2, []⟩] _).mp answered
  have second : requested false ⟨.one (.number 2), []⟩ [⟨1, []⟩, ⟨2, []⟩] = [(2, ⟨2, []⟩)] := by
    decide
  rw [second, List.cons.injEq, Prod.mk.injEq] at asked
  exact absurd asked.1.1 (by decide)

end EraOne.MailCore
