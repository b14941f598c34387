import EraOne.MailSmtp

set_option autoImplicit false

/- The IMAP server of the mail core (`core/src/imap.rs`) on its in-memory store. -/
namespace EraOne.MailCore

open Scan

variable (text : Text)

/-! ### A session -/

/-- The variables of a session loop. A closed session reads no more lines. -/
structure ImapSession where
  tls : Bool
  closed : Bool
  authenticated : Bool
  userMailbox : Str
  selected : Str
  deriving DecidableEq

def ImapSession.start : ImapSession where
  tls := false
  closed := false
  authenticated := false
  userMailbox := []
  selected := []

def splitWhitespace (s : Str) : List Str := (s.splitOnP isWhitespace).filter (· ≠ [])

def decimal (n : Nat) : Str := Nat.toDigits 10 n

namespace ImapReply

def ready : Str := "* OK era-mail-core IMAP4rev1 ready\r\n".toList

def ok (tag : Str) : Str := tag ++ " OK\r\n".toList

def bad (tag : Str) : Str := tag ++ " BAD unknown command\r\n".toList

def capability : Str := "* CAPABILITY IMAP4rev1 AUTH=PLAIN STARTTLS\r\n".toList

def loginFailed (tag : Str) : Str := tag ++ " NO LOGIN failed\r\n".toList

def folders : Str := "* LIST () \"/\" INBOX\r\n* LIST () \"/\" Sent\r\n".toList

def selected (count : Nat) : Str :=
  "* ".toList ++ decimal count ++ " EXISTS\r\n".toList ++ "* 0 RECENT\r\n".toList ++
    "* OK [UIDVALIDITY 1] UIDs valid\r\n".toList ++ "* FLAGS (\\Seen \\Answered)\r\n".toList

def search (msgs : List StoredMessage) : Str :=
  "* SEARCH ".toList ++ List.intercalate [' '] (msgs.map fun m => decimal m.uid.toNat) ++ crlf

/-- The first message, whatever was asked for. -/
def fetch (isUID : Bool) (seq : Str) : List StoredMessage → Str
  | [] => []
  | msg :: _ =>
      "* ".toList ++ decimal (if isUID then msg.uid.toNat else 1) ++ " FETCH (".toList ++
        (if isUID || contains "UID".toList seq then "UID ".toList ++ decimal msg.uid.toNat
          else ['1']) ++
        " BODY[] \x7b".toList ++ decimal (byteLen msg.raw) ++ "\x7d\r\n".toList ++ msg.raw ++
          "\r\n)\r\n".toList

def bye : Str := "* BYE era-mail-core\r\n".toList

def startTLS (tag : Str) : Str := tag ++ " OK Begin TLS negotiation now\r\n".toList

def noTLS (tag : Str) : Str := tag ++ " NO TLS not available\r\n".toList

end ImapReply

/-- The word at a place of a line. -/
def word (parts : List Str) (i : Nat) : Str := parts[i]?.getD []

/-- The name a `LOGIN` line gives. -/
def loginName (parts : List Str) : Str := text.lower (trimMatches '"' (word parts 2))

/-- The mailbox that a `SELECT` or `EXAMINE` line opens for the user. -/
def folderOf (userMailbox : Str) (parts : List Str) : Str :=
  if text.upper (trimMatches '"' (word parts 2)) = "INBOX".toList then userMailbox
  else text.lower (trimMatches '"' (word parts 2))

/-- What `FETCH` and `UID` take as the message set, and whether by uid. -/
def fetchSet (cmd : Str) (parts : List Str) : Option (Str × Bool) :=
  if cmd = "UID".toList ∧ 4 ≤ parts.length then some (word parts 3, true)
  else if 3 ≤ parts.length then some (word parts 2, false)
  else none

def processImapCommand (s : ImapSession) (store : MailStore) (cmd tag : Str) (parts : List Str) :
    ImapSession × Str :=
  if cmd = "CAPABILITY".toList then (s, ImapReply.capability ++ ImapReply.ok tag)
  else if cmd = "LOGIN".toList ∧ 4 ≤ parts.length then
    if store.verifyLogin text (loginName text parts) (trimMatches '"' (word parts 3)) then
      ({ s with
          authenticated := true, userMailbox := loginName text parts,
            selected := loginName text parts },
        ImapReply.ok tag)
    else (s, ImapReply.loginFailed tag)
  else if cmd = "LIST".toList ∧ s.authenticated then (s, ImapReply.folders ++ ImapReply.ok tag)
  else if (cmd = "SELECT".toList ∨ cmd = "EXAMINE".toList) ∧ s.authenticated ∧ 3 ≤ parts.length then
    let selected := folderOf text s.userMailbox parts
    ({ s with selected := selected },
      ImapReply.selected (store.listMailbox text selected).length ++ ImapReply.ok tag)
  else if cmd = "SEARCH".toList ∧ s.authenticated then
    (s, ImapReply.search (store.listMailbox text s.selected) ++ ImapReply.ok tag)
  else if (cmd = "FETCH".toList ∨ cmd = "UID".toList) ∧ s.authenticated then
    match fetchSet cmd parts with
    | none => (s, ImapReply.bad tag)
    | some (seq, isUID) =>
        (s, ImapReply.fetch isUID seq (store.listMailbox text s.selected) ++ ImapReply.ok tag)
  else if cmd = "LOGOUT".toList then ({ s with closed := true }, ImapReply.bye ++ ImapReply.ok tag)
  else if cmd = "NOOP".toList then (s, ImapReply.ok tag)
  else (s, ImapReply.bad tag)

/-- The word of a line that says what to do. -/
def imapCommand (line : Str) : Str := text.upper (word (splitWhitespace line) 1)

/-- One line of the client, with what is written for it. Both loops are alike, but for `STARTTLS`,
after which the variables are set up anew. -/
def ImapSession.line (acceptor : Bool) (s : ImapSession) (store : MailStore) (line : Str) :
    ImapSession × Str :=
  let parts := splitWhitespace line
  let cmd := imapCommand text line
  let tag := word parts 0
  if s.closed ∨ parts = [] then (s, [])
  else if cmd = "STARTTLS".toList ∧ !s.tls then
    if acceptor then
      ({ ImapSession.start with tls := true }, ImapReply.startTLS tag ++ ImapReply.ready)
    else (s, ImapReply.noTLS tag)
  else processImapCommand text s store cmd tag parts

/-- What a session writes, line by line of the client. -/
def ImapSession.responses (acceptor : Bool) (store : MailStore) : ImapSession → List Str → List Str
  | _, [] => []
  | s, line :: rest =>
      (s.line text acceptor store line).2 ::
        ImapSession.responses acceptor store (s.line text acceptor store line).1 rest

/-! ### What a session may see -/

/-- Mailboxes are kept under keys that `deliver` lets through. -/
def MailStore.Stored (store : MailStore) : Prop := ∀ key ∈ store.mailboxes, '@' ∈ key

/-- Another content for the mailboxes of everyone but `u`. -/
structure Replaced (u : Str) (a b : MailStore) : Prop where
  passwords : b.passwords = a.passwords
  own : b.mailboxes[u]? = a.mailboxes[u]?

/-- A line that logs a user in. -/
def ImapSession.loggedIn (s : ImapSession) (store : MailStore) (line : Str) : Option Str :=
  let parts := splitWhitespace line
  if !s.closed ∧ imapCommand text line = "LOGIN".toList ∧ 4 ≤ parts.length ∧
      store.verifyLogin text (loginName text parts) (trimMatches '"' (word parts 3)) then
    some (loginName text parts)
  else none

/-- A line that opens a mailbox under a name of its own. -/
def ImapSession.opens (s : ImapSession) (line : Str) : Option Str :=
  let parts := splitWhitespace line
  if !s.closed ∧
    (imapCommand text line = "SELECT".toList ∨ imapCommand text line = "EXAMINE".toList) ∧
      s.authenticated ∧ 3 ≤ parts.length ∧
      text.upper (trimMatches '"' (word parts 2)) ≠ "INBOX".toList then
    some (text.lower (trimMatches '"' (word parts 2)))
  else none

/-- A name under which `u` sees nothing of anyone else. -/
def Own (u name : Str) : Prop := mailboxKey text name = u ∨ '@' ∉ mailboxKey text name

/-- Only `u` logs in. -/
def OnlyUser (u : Str) (store : MailStore) (s : ImapSession) (line : Str) : Prop :=
  ∀ name ∈ s.loggedIn text store line, mailboxKey text name = u

/-- The line opens no mailbox of another user. -/
def OpensOwn (u : Str) (s : ImapSession) (line : Str) : Prop :=
  ∀ name ∈ s.opens text line, Own text u name

/-- What `deliver` writes keeps the keys as they should be. -/
theorem stored_deliver (store : MailStore) (mailbox raw : Str) (stored : store.Stored) :
    (store.deliver text mailbox raw).2.Stored := by
  unfold MailStore.deliver
  dsimp only
  split
  · exact stored
  · rename_i known
    intro key member
    rcases Std.ExtTreeMap.mem_insert.mp member with same | old
    · rw [← Std.LawfulEqCmp.eq_of_compare same]
      exact Decidable.not_not.mp known
    · exact stored key old

section Lines

variable (acceptor : Bool)

/-- Two stores with the same passwords that agree on what a line reads are the same to the line. -/
theorem line_congr (s : ImapSession) (a b : MailStore) (line : Str)
    (passwords : b.passwords = a.passwords)
    (own : s.authenticated = true → b.listMailbox text s.selected = a.listMailbox text s.selected)
    (folder : s.authenticated = true → s.closed = false → 3 ≤ (splitWhitespace line).length →
      imapCommand text line = "SELECT".toList ∨ imapCommand text line = "EXAMINE".toList →
      b.listMailbox text (folderOf text s.userMailbox (splitWhitespace line)) =
        a.listMailbox text (folderOf text s.userMailbox (splitWhitespace line))) :
    s.line text acceptor b line = s.line text acceptor a line := by
  have verify (mailbox password : Str) :
      b.verifyLogin text mailbox password = a.verifyLogin text mailbox password := by
    unfold MailStore.verifyLogin
    rw [passwords]
  unfold ImapSession.line processImapCommand
  dsimp only
  rw [verify]
  refine ite_congr rfl (fun _ => rfl) fun alive => ite_congr rfl (fun _ => rfl) fun _ => ?_
  refine ite_congr rfl (fun _ => rfl) fun _ => ite_congr rfl (fun _ => rfl) fun _ => ?_
  refine ite_congr rfl (fun _ => rfl) fun _ => ?_
  refine ite_congr rfl (fun asked => ?_) fun _ => ?_
  · rw [folder asked.2.1 (by simpa using fun closed => alive (Or.inl closed)) asked.2.2 asked.1]
  refine ite_congr rfl (fun asked => ?_) fun _ => ?_
  · rw [own asked.2]
  refine ite_congr rfl (fun asked => ?_) fun _ => rfl
  rw [own asked.2]

/-- The state of a session does not depend on the contents of mailboxes. -/
theorem state_congr (s : ImapSession) (a b : MailStore) (line : Str)
    (passwords : b.passwords = a.passwords) :
    (s.line text acceptor b line).1 = (s.line text acceptor a line).1 := by
  have verify (mailbox password : Str) :
      b.verifyLogin text mailbox password = a.verifyLogin text mailbox password := by
    unfold MailStore.verifyLogin
    rw [passwords]
  unfold ImapSession.line processImapCommand
  dsimp only
  rw [verify]
  simp only [apply_ite Prod.fst]
  cases fetchSet (imapCommand text line) (splitWhitespace line) with
  | none => rfl
  | some _ => rfl

/-- A line that opens a mailbox by its name answers with the number of its messages. -/
theorem line_opens (s : ImapSession) (store : MailStore) (line name : Str)
    (opens : s.opens text line = some name) :
    s.line text acceptor store line =
      ({ s with selected := name },
        ImapReply.selected (store.listMailbox text name).length ++ ImapReply.ok
          (word (splitWhitespace line) 0)) := by
  unfold ImapSession.opens at opens
  dsimp only at opens
  split at opens
  · rename_i asked
    obtain ⟨alive, cmd, known, long, other⟩ := asked
    have folder : folderOf text s.userMailbox (splitWhitespace line) = name := by
      unfold folderOf
      rw [if_neg other]
      exact Option.some.inj opens
    have words : splitWhitespace line ≠ [] := by
      intro empty
      rw [empty] at long
      exact absurd long (by decide)
    have live : ¬ (s.closed = true ∨ splitWhitespace line = []) := by
      rw [Bool.not_eq_true'] at alive
      simp [alive, words]
    have notTLS : ¬ (imapCommand text line = "STARTTLS".toList ∧ (!s.tls) = true) := by
      rcases cmd with cmd | cmd <;> rw [cmd] <;> exact fun both => absurd both.1 (by decide)
    have notCapability : ¬ imapCommand text line = "CAPABILITY".toList := by
      rcases cmd with cmd | cmd <;> rw [cmd] <;> decide
    have notLogin :
        ¬ (imapCommand text line = "LOGIN".toList ∧ 4 ≤ (splitWhitespace line).length) := by
      rcases cmd with cmd | cmd <;> rw [cmd] <;> exact fun both => absurd both.1 (by decide)
    have notList : ¬ (imapCommand text line = "LIST".toList ∧ s.authenticated = true) := by
      rcases cmd with cmd | cmd <;> rw [cmd] <;> exact fun both => absurd both.1 (by decide)
    unfold ImapSession.line processImapCommand
    dsimp only
    rw [if_neg live, if_neg notTLS, if_neg notCapability, if_neg notLogin, if_neg notList,
      if_pos ⟨cmd, known, long⟩, folder]
  · cases opens

theorem decimal_inj (m n : Nat) (same : decimal m = decimal n) : m = n := by
  have read := congrArg parseDigits same
  unfold decimal at read
  rw [parseDigits_toDigits, parseDigits_toDigits] at read
  exact Option.some.inj read

theorem selected_inj (m n : Nat) (tag : Str)
    (same : ImapReply.selected m ++ ImapReply.ok tag = ImapReply.selected n ++ ImapReply.ok tag) :
    m = n := by
  unfold ImapReply.selected at same
  simp only [List.append_assoc, List.append_cancel_left_eq] at same
  exact decimal_inj m n (List.append_cancel_right same)

/-- What belongs to `u`, or to nobody, is the same in both stores. -/
theorem listMailbox_own (u name : Str) (a b : MailStore) (storedA : a.Stored) (storedB : b.Stored)
    (replaced : Replaced u a b) (own : Own text u name) :
    b.listMailbox text name = a.listMailbox text name := by
  unfold MailStore.listMailbox
  rcases own with mine | nobody
  · rw [mine, replaced.own]
  · have missing (store : MailStore) (stored : store.Stored) :
        store.mailboxes[mailboxKey text name]? = none :=
      Std.ExtTreeMap.getElem?_eq_none (fun member => nobody (stored _ member))
    rw [missing a storedA, missing b storedB]

/-- A logged in session is `u`'s, and sees nothing of anyone else. -/
def Inside (u : Str) (s : ImapSession) : Prop :=
  s.authenticated = true → mailboxKey text s.userMailbox = u ∧ Own text u s.selected

theorem inside_start (u : Str) : Inside text u ImapSession.start := by
  intro known
  cases known

theorem folder_own (u : Str) (s : ImapSession) (line : Str) (inside : Inside text u s)
    (opensOwn : OpensOwn text u s line) (known : s.authenticated = true) (alive : s.closed = false)
    (long : 3 ≤ (splitWhitespace line).length)
    (cmd : imapCommand text line = "SELECT".toList ∨ imapCommand text line = "EXAMINE".toList) :
    Own text u (folderOf text s.userMailbox (splitWhitespace line)) := by
  unfold folderOf
  split
  · exact Or.inl (inside known).1
  · rename_i other
    apply opensOwn
    unfold ImapSession.opens
    dsimp only
    rw [if_pos ⟨by rw [alive]; rfl, cmd, known, long, other⟩]
    rfl

theorem inside_ite (u : Str) {p : Prop} [Decidable p] {x y : ImapSession × Str}
    (yes : p → Inside text u x.1) (no : ¬ p → Inside text u y.1) :
    Inside text u (if p then x else y).1 := by
  split
  · rename_i holds
    exact yes holds
  · rename_i fails
    exact no fails

theorem inside_line (u : Str) (s : ImapSession) (store : MailStore) (line : Str)
    (inside : Inside text u s) (only : OnlyUser text u store s line)
    (opensOwn : OpensOwn text u s line) :
    Inside text u (s.line text acceptor store line).1 := by
  unfold ImapSession.line processImapCommand
  dsimp only
  refine inside_ite text u (fun _ => inside) fun alive => ?_
  rw [not_or, Bool.not_eq_true] at alive
  refine inside_ite text u
    (fun _ => inside_ite text u (fun _ known => absurd known Bool.false_ne_true)
    fun _ => inside) fun _ => ?_
  refine inside_ite text u (fun _ => inside) fun _ => ?_
  refine inside_ite text u (fun cmd => ?_) fun _ => ?_
  · refine inside_ite text u (fun verified _ => ?_) fun _ => inside
    have mine : mailboxKey text (loginName text (splitWhitespace line)) = u := by
      apply only
      unfold ImapSession.loggedIn
      dsimp only
      rw [if_pos ⟨by rw [alive.1]; rfl, cmd.1, cmd.2, verified⟩]
      rfl
    exact ⟨mine, Or.inl mine⟩
  refine inside_ite text u (fun _ => inside) fun _ => ?_
  refine inside_ite text u (fun asked _ => ?_) fun _ => ?_
  · exact ⟨(inside asked.2.1).1,
      folder_own text u s line inside opensOwn asked.2.1 alive.1 asked.2.2 asked.1⟩
  refine inside_ite text u (fun _ => inside) fun _ => ?_
  refine inside_ite text u (fun _ => ?_) fun _ => ?_
  · cases fetchSet (imapCommand text line) (splitWhitespace line) with
    | none => exact inside
    | some _ => exact inside
  exact inside_ite text u (fun _ => inside) fun _ => inside_ite text u (fun _ => inside) fun _ =>
    inside

/-- The message that another content of a mailbox has in addition. -/
def planted (key : Str) : StoredMessage := ⟨0, 0, key, []⟩

/-- The store with one more message in a mailbox. -/
def MailStore.plant (store : MailStore) (key : Str) : MailStore :=
  { store with
    mailboxes := store.mailboxes.insert key (store.mailboxes[key]?.getD [] ++ [planted key]) }

theorem replaced_plant (store : MailStore) (u key : Str) (other : key ≠ u) :
    Replaced u store (store.plant key) where
  passwords := rfl
  own := by
    change (store.mailboxes.insert key _)[u]? = _
    rw [Std.ExtTreeMap.getElem?_insert,
      if_neg (fun equal => other (Std.LawfulEqCmp.eq_of_compare equal))]

theorem stored_plant (store : MailStore) (key : Str) (stored : store.Stored) (named : '@' ∈ key) :
    (store.plant key).Stored := by
  intro other member
  rcases Std.ExtTreeMap.mem_insert.mp member with same | old
  · rwa [← Std.LawfulEqCmp.eq_of_compare same]
  · exact stored other old

/-- A line is answered alike on all stores that differ in other users' mailboxes, exactly if it
opens none of them. -/
theorem reply_same_iff (u : Str) (s : ImapSession) (a : MailStore) (line : Str) (stored : a.Stored)
    (inside : Inside text u s) :
    (∀ b : MailStore, b.Stored → Replaced u a b →
        (s.line text acceptor b line).2 = (s.line text acceptor a line).2) ↔
      OpensOwn text u s line := by
  constructor
  · intro same name opens
    by_contra foreign
    unfold Own at foreign
    rw [not_or, Decidable.not_not] at foreign
    have answered := same _ (stored_plant a _ stored foreign.2) (replaced_plant a u _ foreign.1)
    rw [line_opens text acceptor s _ line name opens,
      line_opens text acceptor s _ line name opens] at answered
    have counts := selected_inj _ _ _ answered
    unfold MailStore.listMailbox MailStore.plant at counts
    rw [Std.ExtTreeMap.getElem?_insert_self, Option.getD_some, List.length_append] at counts
    exact absurd counts (by simp)
  · intro opensOwn b storedB replaced
    rw [line_congr text acceptor s a b line replaced.passwords]
    · intro known
      exact listMailbox_own text u s.selected a b stored storedB replaced (inside known).2
    · intro known alive long cmd
      exact listMailbox_own text u _ a b stored storedB replaced
        (folder_own text u s line inside opensOwn known alive long cmd)

theorem responses_same_iff (u : Str) (a : MailStore) (stored : a.Stored) (lines : List Str)
    (s : ImapSession) (inside : Inside text u s)
    (only : Runs.Guarded (fun s line => (s.line text acceptor a line).1)
      (OnlyUser text u a) s lines) :
    (∀ b : MailStore, b.Stored → Replaced u a b →
        s.responses text acceptor b lines = s.responses text acceptor a lines) ↔
      Runs.Guarded (fun s line => (s.line text acceptor a line).1) (OpensOwn text u) s lines := by
  induction lines generalizing s with
  | nil => exact iff_of_true (fun _ _ _ => rfl) (Runs.guarded_nil _ _ s)
  | cons line rest ih =>
      obtain ⟨first, later⟩ := (Runs.guarded_cons _ _ s line rest).mp only
      rw [Runs.guarded_cons, ← reply_same_iff text acceptor u s a line stored inside]
      have next (b : MailStore) (replaced : Replaced u a b) :
          s.responses text acceptor b (line :: rest) =
            (s.line text acceptor b line).2 ::
              (s.line text acceptor a line).1.responses text acceptor b rest := by
        rw [ImapSession.responses, state_congr text acceptor s a b line replaced.passwords]
      constructor
      · intro same
        have heads (b : MailStore) (storedB : b.Stored) (replaced : Replaced u a b) :
            (s.line text acceptor b line).2 = (s.line text acceptor a line).2 := by
          have whole := same b storedB replaced
          rw [next b replaced, ImapSession.responses] at whole
          exact (List.cons.inj whole).1
        refine ⟨heads, ?_⟩
        have opensOwn := (reply_same_iff text acceptor u s a line stored inside).mp heads
        refine (ih _ (inside_line text acceptor u s a line inside first opensOwn) later).mp ?_
        intro b storedB replaced
        have whole := same b storedB replaced
        rw [next b replaced, ImapSession.responses] at whole
        exact (List.cons.inj whole).2
      · intro ⟨heads, tails⟩ b storedB replaced
        have opensOwn := (reply_same_iff text acceptor u s a line stored inside).mp heads
        have rest_ :=
          (ih _ (inside_line text acceptor u s a line inside first opensOwn) later).mpr tails
        rw [next b replaced, ImapSession.responses, heads b storedB replaced,
          rest_ b storedB replaced]

end Lines

/-- A session in which only `u` logs in is answered alike whatever is in the mailboxes of others,
exactly if no `SELECT` or `EXAMINE` of it names one of them. -/
theorem imap_isolated_iff (acceptor : Bool) (u : Str) (store : MailStore) (stored : store.Stored)
    (lines : List Str)
    (only : Runs.Guarded (fun s line => (s.line text acceptor store line).1) (OnlyUser text u store)
      ImapSession.start lines) :
    (∀ other : MailStore, other.Stored → Replaced u store other →
        ImapSession.start.responses text acceptor other lines =
          ImapSession.start.responses text acceptor store lines) ↔
      Runs.Guarded (fun s line => (s.line text acceptor store line).1)
        (OpensOwn text u) ImapSession.start
        lines :=
  responses_same_iff text acceptor u store stored lines ImapSession.start (inside_start text u) only

theorem stored_empty : emptyStore.Stored := by
  intro key member
  exact absurd member Std.ExtTreeMap.not_mem_empty

/-- One user logs in and opens a mailbox. -/
def opensFolder (folder : String) : List Str :=
  ["a LOGIN u@x p".toList, "b SELECT ".toList ++ folder.toList, "c FETCH 1 BODY[]".toList]

/-- The user has mail, and so has another. -/
def filledStore : MailStore :=
  ((emptyStore.deliver asciiText "u@x".toList "hello".toList).2.deliver asciiText "v@x".toList
    "secret".toList).2

theorem imap_isolated_inbox :
    (∀ other : MailStore, other.Stored → Replaced "u@x".toList filledStore other →
        ImapSession.start.responses asciiText false other (opensFolder "INBOX") =
          ImapSession.start.responses asciiText false filledStore (opensFolder "INBOX")) ↔
      Runs.Guarded (fun s line => (s.line asciiText false filledStore line).1)
        (OpensOwn asciiText "u@x".toList)
        ImapSession.start (opensFolder "INBOX") := by
  have stored : filledStore.Stored :=
    stored_deliver asciiText _ _ _ (stored_deliver asciiText _ _ _ stored_empty)
  apply imap_isolated_iff asciiText false "u@x".toList filledStore stored
  unfold opensFolder
  repeat rw [Runs.guarded_cons]
  exact ⟨by unfold OnlyUser; decide, by unfold OnlyUser; decide,
    by unfold OnlyUser; decide, Runs.guarded_nil _ _ _⟩

/-- Only one user logs in, and still sees whether another has mail. -/
theorem other_mailbox_seen :
    Runs.Guarded (fun s line => (s.line asciiText false emptyStore line).1)
        (OnlyUser asciiText "u@x".toList emptyStore) ImapSession.start (opensFolder "v@x") ∧
      ¬ ∀ other : MailStore, other.Stored → Replaced "u@x".toList emptyStore other →
        ImapSession.start.responses asciiText false other (opensFolder "v@x") =
          ImapSession.start.responses asciiText false emptyStore (opensFolder "v@x") := by
  constructor
  · unfold opensFolder
    repeat rw [Runs.guarded_cons]
    exact ⟨by unfold OnlyUser; decide, by unfold OnlyUser; decide,
      by unfold OnlyUser; decide, Runs.guarded_nil _ _ _⟩
  · intro same
    have here := same (emptyStore.plant "v@x".toList) (stored_plant _ _ stored_empty (by decide))
      (replaced_plant _ _ _ (by decide))
    revert here
    decide

end EraOne.MailCore
