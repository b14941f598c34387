import EraOne.Search
import EraOne.Runs

set_option autoImplicit false

/- The SMTP receiver of the mail core (`core/src/smtp.rs`) and the store it delivers to
(`store.rs`). Rust's case mappings, the lossy reading of bytes as text and the environment's size
limit are given. -/
namespace EraOne.MailCore

open Scan

/-- `to_uppercase`, `to_lowercase` and `String::from_utf8_lossy`. -/
structure Text where
  upper : Str → Str
  lower : Str → Str
  lossy : List UInt8 → Str

variable (text : Text)

/-! ### The store -/

structure StoredMessage where
  id : UInt64
  uid : UInt64
  mailbox : Str
  raw : Str
  deriving DecidableEq

/-- The `MailBackend` trait, as the two servers use it. -/
structure MailBackend (σ : Type) where
  deliver : σ → Str → Str → Except Str UInt64 × σ
  verifyLogin : σ → Str → Str → Bool
  maxMessageBytes : σ → Str → Option Nat

structure MailStore where
  nextID : UInt64
  mailboxes : StrMap (List StoredMessage)
  passwords : StrMap Str
  uidNext : StrMap UInt64

/-- The key a mailbox is kept under. -/
def mailboxKey (mailbox : Str) : Str := text.lower (trim mailbox)

def MailStore.deliver (s : MailStore) (mailbox raw : Str) : Except Str UInt64 × MailStore :=
  let mailbox := mailboxKey text mailbox
  if '@' ∉ mailbox then (.error "invalid mailbox".toList, s)
  else
    let uid := s.uidNext[mailbox]?.getD 0
    (.ok s.nextID,
      { s with
        nextID := s.nextID + 1
        uidNext := s.uidNext.insert mailbox (uid + 1)
        mailboxes := s.mailboxes.insert mailbox
          (s.mailboxes[mailbox]?.getD [] ++ [⟨s.nextID, uid + 1, mailbox, raw⟩]) })

def MailStore.listMailbox (s : MailStore) (mailbox : Str) : List StoredMessage :=
  s.mailboxes[mailboxKey text mailbox]?.getD []

def MailStore.verifyLogin (s : MailStore) (mailbox password : Str) : Bool :=
  match s.passwords[mailboxKey text mailbox]? with
  | some expected => expected = password
  | none => true

/-- The store as a backend. It has no limit of its own. -/
def MailStore.backend : MailBackend MailStore where
  deliver := MailStore.deliver text
  verifyLogin := MailStore.verifyLogin text
  maxMessageBytes _ _ := none

/-! ### Credentials and addresses -/

/-- The value of a character of the base64 table, 255 for one outside it. -/
def base64Value (b : UInt8) : UInt8 :=
  if 65 ≤ b && b ≤ 90 then b - 65
  else if 97 ≤ b && b ≤ 122 then b - 97 + 26
  else if 48 ≤ b && b ≤ 57 then b - 48 + 52
  else if b = 43 then 62
  else if b = 47 then 63
  else 255

/-- The bytes that the values read so far stand for, `held` being those of an unfinished group. -/
def base64Loop : List UInt8 → List UInt8 → List UInt8
  | [a, b], [] => [a <<< 2 ||| b >>> 4]
  | [a, b, c], [] => [a <<< 2 ||| b >>> 4, b <<< 4 ||| c >>> 2]
  | _, [] => []
  | [a, b, c], d :: rest =>
      (a <<< 2 ||| b >>> 4) :: (b <<< 4 ||| c >>> 2) :: (c <<< 6 ||| d) :: base64Loop [] rest
  | held, d :: rest => base64Loop (held ++ [d]) rest

/-- Blanks and characters outside the table are passed over, and the first `=` ends the text. -/
def base64Decode (s : Str) : List UInt8 :=
  let bytes := (s.filter fun c => !isWhitespace c).flatMap String.utf8EncodeChar
  base64Loop [] (((bytes.takeWhile (· ≠ 61)).map base64Value).filter (· ≠ 255))

def decodeBase64 (s : Str) : Str := text.lossy (base64Decode (trim s))

def parseAuthPlain (line : Str) : Except Str (Str × Str) :=
  let b64 := match splitOnce [' '] line with
    | some (_, rest) => match splitOnce [' '] rest with
      | some (_, b64) => b64
      | none => []
    | none => []
  match splitAll [Char.ofNat 0] (decodeBase64 text b64) with
  | _ :: user :: pass :: _ => .ok (text.lower user, pass)
  | _ => .error "bad AUTH PLAIN".toList

/-- What comes of slicing an address out of a line. -/
inductive Address where
  | addr (address : Str)
  | missing
  | panicked
  deriving DecidableEq

/-- `parse_addr`. The slice `line[start..end]` panics when its end lies before its start. -/
def parseAddr (line : Str) : Address :=
  match line.findIdx? (· = '<'), line.findIdx? (· = '>') with
  | some open_, some end_ =>
      if open_ + 1 ≤ end_ then .addr (text.lower (trim ((line.take end_).drop (open_ + 1))))
      else .panicked
  | _, _ => .missing

/-! ### A session -/

/-- What a line in command mode asks for, in the order in which it is compared. -/
inductive Command where
  | hello
  | startTLS
  | authPlain
  | authLogin
  | mailFrom
  | rcptTo
  | data
  | quit
  | rset
  | other
  deriving DecidableEq

def command (upper : Str) : Command :=
  if "EHLO".toList.isPrefixOf upper || "HELO".toList.isPrefixOf upper then .hello
  else if upper = "STARTTLS".toList then .startTLS
  else if "AUTH PLAIN".toList.isPrefixOf upper then .authPlain
  else if "AUTH LOGIN".toList.isPrefixOf upper then .authLogin
  else if "MAIL FROM:".toList.isPrefixOf upper then .mailFrom
  else if "RCPT TO:".toList.isPrefixOf upper then .rcptTo
  else if upper = "DATA".toList then .data
  else if upper = "QUIT".toList then .quit
  else if upper = "RSET".toList then .rset
  else .other

inductive Ending where
  | quit
  | failed (err : Str)
  | panicked
  deriving DecidableEq

/-- What the next line of the client is read as. -/
inductive Mode where
  | commands
  | data
  | loginUser
  | loginPass (userLine : Str)
  | closed (how : Ending)
  deriving DecidableEq

/-- The variables of a session loop. `delivered` records the deliveries the store accepted, and
`notified` what the audit hook was told. -/
structure Session (σ : Type) where
  tls : Bool
  mode : Mode
  authenticated : Bool
  authUser : Str
  mailFrom : Str
  rcptTo : Str
  dataBuf : Str
  store : σ
  delivered : List (Str × Str)
  notified : List (Str × Str)

/-- What a server is started with: whether it offers TLS, and its limit on messages. -/
structure Server where
  acceptor : Bool
  maxMessageBytes : Nat

def crlf : Str := ['\r', '\n']

namespace Reply

def ok : Str := "250 OK\r\n".toList

def noRecipient : Str := "550 no recipient\r\n".toList

def tooLarge : Str := "552 message too large\r\n".toList

def deliverFailed : Str := "550 deliver failed\r\n".toList

def capabilities (startTLS : Bool) : Str :=
  "250-era-mail-core\r\n250-AUTH PLAIN LOGIN\r\n".toList ++
    (if startTLS then "250-STARTTLS\r\n".toList else []) ++ ok

def ready : Str := "220 era-mail-core ESMTP ready\r\n".toList

def startTLS : Str := "220 Ready to start TLS\r\n".toList

def noTLS : Str := "502 TLS not available\r\n".toList

def authenticated : Str := "235 Authentication successful\r\n".toList

def notAuthenticated : Str := "535 authentication failed\r\n".toList

def username : Str := "334 VXNlcm5hbWU6\r\n".toList

def password : Str := "334 UGFzc3dvcmQ6\r\n".toList

def authRequired : Str := "530 authentication required\r\n".toList

def needRcpt : Str := "503 need RCPT\r\n".toList

def startInput : Str := "354 start mail input\r\n".toList

def bye : Str := "221 bye\r\n".toList

def notImplemented : Str := "502 command not implemented\r\n".toList

end Reply

def mapDeliverErr (err : Str) : Str :=
  if contains "too large".toList (text.lower err) || contains "quota".toList (text.lower err) then
    Reply.tooLarge
  else Reply.deliverFailed

section Steps

variable {σ : Type} (backend : MailBackend σ) (server : Server)

/-- The variables as a session loop sets them up. -/
def Session.start (store : σ) : Session σ where
  tls := false
  mode := .commands
  authenticated := false
  authUser := []
  mailFrom := []
  rcptTo := []
  dataBuf := []
  store := store
  delivered := []
  notified := []

/-- The end of a message: the next one starts from an empty envelope. -/
def Session.clear (s : Session σ) : Session σ :=
  { s with mode := .commands, dataBuf := [], rcptTo := [], mailFrom := [] }

/-- The line that ends a message. -/
def Session.endOfData (s : Session σ) : Session σ × Str :=
  if s.rcptTo = [] then (s.clear, Reply.noRecipient)
  else if (backend.maxMessageBytes s.store s.rcptTo).getD server.maxMessageBytes < byteLen
    s.dataBuf then
    (s.clear, Reply.tooLarge)
  else
    match backend.deliver s.store s.rcptTo s.dataBuf with
    | (.ok _, store) =>
        (({ s with
          store := store
          delivered := s.delivered ++ [(s.rcptTo, s.dataBuf)]
          notified := s.notified ++ [(s.rcptTo, s.mailFrom)] } : Session σ).clear, Reply.ok)
    | (.error err, store) => (({ s with store := store } : Session σ).clear, mapDeliverErr text err)

/-- The end of an `AUTH` command. -/
def Session.login (s : Session σ) (user pass : Str) : Session σ × Str :=
  if backend.verifyLogin s.store user pass then
    ({ s with mode := .commands, authenticated := true, authUser := user }, Reply.authenticated)
  else ({ s with mode := .commands }, Reply.notAuthenticated)

/-- A line in command mode: the head of both loops, which differ in `STARTTLS` only, and
`process_command`. After `STARTTLS` the loop over TLS sets its variables up anew. -/
def Session.command (s : Session σ) (line : Str) : Session σ × Str :=
  match MailCore.command (text.upper line) with
  | .hello => (s, Reply.capabilities (server.acceptor && !s.tls))
  | .startTLS =>
      if s.tls then (s, [])
      else if server.acceptor then
        ({ (Session.start s.store : Session σ) with
            tls := true, delivered := s.delivered, notified := s.notified },
          Reply.startTLS ++ Reply.ready)
      else (s, Reply.noTLS)
  | .authPlain =>
      match parseAuthPlain text line with
      | .ok creds => s.login backend creds.1 creds.2
      | .error err => ({ s with mode := .closed (.failed err) }, [])
  | .authLogin => ({ s with mode := .loginUser }, Reply.username)
  | .mailFrom =>
      if !s.authenticated then (s, Reply.authRequired)
      else
        match parseAddr text line with
        | .addr address =>
            ({ s with mailFrom := if address = [] ∧ s.authUser ≠ [] then s.authUser else address },
              Reply.ok)
        | .missing => ({ s with mode := .closed (.failed "missing addr".toList) }, [])
        | .panicked => ({ s with mode := .closed .panicked }, [])
  | .rcptTo =>
      if !s.authenticated then (s, Reply.authRequired)
      else
        match parseAddr text line with
        | .addr address => ({ s with rcptTo := address }, Reply.ok)
        | .missing => ({ s with mode := .closed (.failed "missing addr".toList) }, [])
        | .panicked => ({ s with mode := .closed .panicked }, [])
  | .data =>
      if !s.authenticated then (s, Reply.authRequired)
      else if s.rcptTo = [] then (s, Reply.needRcpt)
      else ({ s with mode := .data }, Reply.startInput)
  | .quit => ({ s with mode := .closed .quit }, Reply.bye)
  | .rset => ({ s with mailFrom := [], rcptTo := [] }, Reply.ok)
  | .other => (s, Reply.notImplemented)

/-- One line of the client, with what is written for it. -/
def Session.line (s : Session σ) (line : Str) : Session σ × Str :=
  match s.mode with
  | .commands => s.command text backend server line
  | .data =>
      if line = ['.'] then s.endOfData text backend server
      else ({ s with dataBuf := s.dataBuf ++ line ++ crlf }, [])
  | .loginUser => ({ s with mode := .loginPass line }, Reply.password)
  | .loginPass userLine => s.login backend (decodeBase64 text userLine) (decodeBase64 text line)
  | .closed _ => (s, [])

/-! ### What a session promises -/

/-- The line that is sent for a line of a message. -/
def stuff : Str → Str
  | '.' :: line => '.' :: '.' :: line
  | line => line

/-- The line of a message that a sent line stands for. -/
def unstuff : Str → Str
  | '.' :: line => line
  | line => line

/-- A session with the recipients that were answered 250 since the last `MAIL FROM`, `RSET` or end
of a message, and the lines sent of the message under way. -/
structure Watch (σ : Type) where
  session : Session σ
  accepted : List Str := []
  lines : List Str := []

/-- The message before it was stuffed, and as it was sent. -/
def Watch.message (w : Watch σ) : Str := w.lines.flatMap fun line => unstuff line ++ crlf

def Watch.sent (w : Watch σ) : Str := w.lines.flatMap fun line => line ++ crlf

/-- The recipients after a line in command mode was answered. -/
def Watch.recipients (w : Watch σ) (line reply : Str) : List Str :=
  match MailCore.command (text.upper line), parseAddr text line with
  | .mailFrom, _ => if reply = Reply.ok then [] else w.accepted
  | .rcptTo, .addr address => if reply = Reply.ok then w.accepted ++ [address] else w.accepted
  | .rset, _ => []
  | .startTLS, _ => if server.acceptor && !w.session.tls then [] else w.accepted
  | _, _ => w.accepted

def Watch.line (w : Watch σ) (line : Str) : Watch σ :=
  let next := w.session.line text backend server line
  match w.session.mode with
  | .commands => { session := next.1, accepted := w.recipients text server line next.2 }
  | .data =>
      if line = ['.'] then { session := next.1 }
      else { w with session := next.1, lines := w.lines ++ [line] }
  | _ => { w with session := next.1 }

/-- A message whose end is answered 250 was delivered once to each recipient accepted for it, and to
nobody else, and no line is sliced out of range. -/
structure Kept (w : Watch σ) (line : Str) : Prop where
  delivered : w.session.mode = .data → line = ['.'] →
    (w.session.line text backend server line).2 = Reply.ok →
    ∃ made, (w.session.line text backend server line).1.delivered = w.session.delivered ++ made ∧
      (∀ recipient ∈ w.accepted, made.count (recipient, w.message) = 1) ∧
      ∀ delivery ∈ made, delivery.1 ∈ w.accepted ∧ delivery.2 = w.message
  inRange : w.session.mode = .commands →
    (w.session.line text backend server line).1.mode ≠ .closed .panicked

/-- The line closes an angle bracket before it opens one. -/
def ClosesFirst (line : Str) : Prop :=
  ∃ front back, line = front ++ '>' :: back ∧ '<' ∉ front ∧ '<' ∈ back

/-- The message that is ended with 250 had one recipient and no line that begins with a dot, and the
addresses that are read open their bracket before they close it. -/
structure Proper (w : Watch σ) (line : Str) : Prop where
  envelope : w.session.mode = .data → line = ['.'] →
    (w.session.line text backend server line).2 = Reply.ok →
    (∃ recipient ∈ w.accepted, ∀ other ∈ w.accepted, other = recipient) ∧
      ∀ line ∈ w.lines, line.head? ≠ some '.'
  address : w.session.mode = .commands → w.session.authenticated = true →
    (MailCore.command (text.upper line) = .mailFrom ∨
      MailCore.command (text.upper line) = .rcptTo) →
    ¬ ClosesFirst line

end Steps

theorem unstuff_stuff (line : Str) : unstuff (stuff line) = line := by
  unfold stuff
  split
  · rfl
  · rename_i plain
    unfold unstuff
    split
    · rename_i rest
      exact absurd rfl (plain rest)
    · rfl

theorem length_unstuff (line : Str) : (unstuff line).length ≤ line.length := by
  unfold unstuff
  split
  · simp
  · exact Nat.le_refl _

theorem length_unstuff_eq_iff (line : Str) :
    (unstuff line).length = line.length ↔ line.head? ≠ some '.' := by
  unfold unstuff
  split
  · simp
  · rename_i plain
    apply iff_of_true rfl
    intro first
    cases line with
    | nil => cases first
    | cons c rest =>
        rw [List.head?_cons, Option.some.injEq] at first
        subst first
        exact plain rest rfl

/-- Stuffing shows in the length of a message. -/
theorem flatMap_unstuff_eq_iff (lines : List Str) :
    (lines.flatMap fun line => unstuff line ++ crlf) = (lines.flatMap fun line => line ++ crlf) ↔
      ∀ line ∈ lines, line.head? ≠ some '.' := by
  constructor
  · intro same line member
    have lengths := congrArg List.length same
    rw [List.length_flatMap, List.length_flatMap] at lengths
    rw [← length_unstuff_eq_iff]
    by_contra shorter
    have strict : (lines.map fun line => (unstuff line ++ crlf).length).sum <
        (lines.map fun line => (line ++ crlf).length).sum := by
      apply List.sum_lt_sum
      · intro other _
        rw [List.length_append, List.length_append]
        exact Nat.add_le_add_right (length_unstuff other) _
      · refine ⟨line, member, ?_⟩
        rw [List.length_append, List.length_append]
        have := length_unstuff line
        omega
    omega
  · intro plain
    apply List.flatMap_congr
    intro line member
    have whole := (length_unstuff_eq_iff line).mpr (plain line member)
    have same : unstuff line = line := by
      unfold unstuff at whole ⊢
      split at whole
      · simp at whole
      · rfl
    rw [same]

/-- The slice panics exactly on a bracket closed too early. -/
theorem parseAddr_panicked_iff (line : Str) :
    parseAddr text line = .panicked ↔ ClosesFirst line := by
  unfold parseAddr ClosesFirst
  cases opened : line.findIdx? (· = '<') with
  | none =>
      rw [List.findIdx?_eq_none_iff] at opened
      constructor
      · intro panicked
        cases panicked
      · intro ⟨front, back, shape, _, inside⟩
        have := opened '<' (by rw [shape]; simp [inside])
        simp at this
  | some open_ =>
      cases closed : line.findIdx? (· = '>') with
      | none =>
          rw [List.findIdx?_eq_none_iff] at closed
          constructor
          · intro panicked
            cases panicked
          · intro ⟨front, back, shape, _, _⟩
            have := closed '>' (by rw [shape]; simp)
            simp at this
      | some end_ =>
          obtain ⟨openBound, openChar, openFirst⟩ := List.findIdx?_eq_some_iff_getElem.mp opened
          obtain ⟨endBound, endChar, endFirst⟩ := List.findIdx?_eq_some_iff_getElem.mp closed
          rw [decide_eq_true_eq] at openChar endChar
          dsimp only
          constructor
          · intro panicked
            have order : ¬ open_ + 1 ≤ end_ := by
              intro inOrder
              rw [if_pos inOrder] at panicked
              cases panicked
            have apart : open_ ≠ end_ := by
              intro same
              subst same
              rw [openChar] at endChar
              exact absurd endChar (by decide)
            refine ⟨line.take end_, line.drop (end_ + 1), ?_, ?_, ?_⟩
            · rw [← endChar, ← List.drop_eq_getElem_cons, List.take_append_drop]
            · intro within
              obtain ⟨j, bound, found⟩ := List.mem_iff_getElem.mp within
              rw [List.getElem_take] at found
              rw [List.length_take] at bound
              exact openFirst j (by omega) (by rw [found]; decide)
            · apply List.mem_iff_getElem.mpr
              refine ⟨open_ - (end_ + 1), by rw [List.length_drop]; omega, ?_⟩
              rw [List.getElem_drop]
              simp only [show end_ + 1 + (open_ - (end_ + 1)) = open_ by omega, openChar]
          · intro ⟨front, back, shape, outside, _⟩
            subst shape
            have early : end_ ≤ front.length := by
              by_contra later
              exact endFirst front.length (by omega) (by simp)
            have late : front.length < open_ := by
              by_contra before
              rcases Nat.lt_or_eq_of_le (Nat.le_of_not_lt before) with inside | at_
              · rw [List.getElem_append_left inside] at openChar
                exact outside (openChar ▸ List.getElem_mem inside)
              · subst at_
                simp at openChar
            rw [if_neg (by omega)]

section Runs

variable {σ : Type} (backend : MailBackend σ) (server : Server)

/-- What the variables of the loop say of the envelope: the buffer holds the lines as they were
sent, and of the recipients only the last is known. -/
structure Follows (w : Watch σ) : Prop where
  buffer : w.session.dataBuf = w.sent
  idle : w.session.mode ≠ .data → w.lines = []
  envelope : w.accepted ≠ [] → w.accepted.getLast? = some w.session.rcptTo

theorem follows_start (store : σ) : Follows ⟨Session.start store, [], []⟩ where
  buffer := rfl
  idle _ := rfl
  envelope nonempty := absurd rfl nonempty

theorem dataBuf_command (s : Session σ) (line : Str) (empty : s.dataBuf = []) :
    (s.command text backend server line).1.dataBuf = [] := by
  unfold Session.command
  cases MailCore.command (text.upper line) with
  | hello => exact empty
  | startTLS =>
      dsimp only
      split
      · exact empty
      · split
        · rfl
        · exact empty
  | authPlain =>
      dsimp only
      split
      · unfold Session.login
        split <;> exact empty
      · exact empty
  | authLogin => exact empty
  | mailFrom =>
      dsimp only
      split
      · exact empty
      · split <;> exact empty
  | rcptTo =>
      dsimp only
      split
      · exact empty
      · split <;> exact empty
  | data =>
      dsimp only
      split
      · exact empty
      · split <;> exact empty
  | quit => exact empty
  | rset => exact empty
  | other => exact empty

/-- The recipient in the variable is the one accepted last. -/
theorem envelope_command (w : Watch σ) (line : Str)
    (last : w.accepted ≠ [] → w.accepted.getLast? = some w.session.rcptTo) :
    w.recipients text server line (w.session.command text backend server line).2 ≠ [] →
      (w.recipients text server line (w.session.command text backend server line).2).getLast? =
        some (w.session.command text backend server line).1.rcptTo := by
  unfold Watch.recipients Session.command
  cases MailCore.command (text.upper line) with
  | hello => exact last
  | startTLS =>
      dsimp only
      cases w.session.tls with
      | true =>
          rw [Bool.not_true, Bool.and_false]
          exact last
      | false =>
          rw [Bool.not_false, Bool.and_true]
          cases server.acceptor with
          | true => exact fun nonempty => absurd rfl nonempty
          | false => exact last
  | authPlain =>
      dsimp only
      split
      · unfold Session.login
        split <;> exact last
      · exact last
  | authLogin => exact last
  | mailFrom =>
      dsimp only
      cases w.session.authenticated with
      | false => exact last
      | true =>
          cases parseAddr text line with
          | addr address => exact fun nonempty => absurd rfl nonempty
          | missing => exact last
          | panicked => exact last
  | rcptTo =>
      dsimp only
      cases w.session.authenticated with
      | false => cases parseAddr text line <;> exact last
      | true =>
          cases parseAddr text line with
          | addr address =>
              intro _
              exact List.getLast?_concat
          | missing => exact last
          | panicked => exact last
  | data =>
      dsimp only
      split
      · exact last
      · split <;> exact last
  | quit => exact last
  | rset => exact fun nonempty => absurd rfl nonempty
  | other => exact last

theorem dataBuf_endOfData (s : Session σ) : (s.endOfData text backend server).1.dataBuf = [] := by
  unfold Session.endOfData
  split
  · rfl
  · split
    · rfl
    · split <;> rfl

theorem login_keeps (s : Session σ) (user pass : Str) :
    (s.login backend user pass).1.dataBuf = s.dataBuf ∧
    (s.login backend user pass).1.rcptTo = s.rcptTo := by
  unfold Session.login
  split <;> exact ⟨rfl, rfl⟩

theorem follows_line (w : Watch σ) (line : Str) (follows : Follows w) :
    Follows (w.line text backend server line) := by
  unfold Watch.line Session.line
  cases mode : w.session.mode with
  | commands =>
      have none_ : w.lines = [] := follows.idle (by rw [mode]; nofun)
      have empty : w.session.dataBuf = [] := by
        rw [follows.buffer, Watch.sent, none_, List.flatMap_nil]
      exact ⟨dataBuf_command text backend server w.session line empty, fun _ => rfl,
        envelope_command text backend server w line follows.envelope⟩
  | data =>
      dsimp only
      by_cases last : line = ['.']
      · rw [if_pos last, if_pos last]
        exact ⟨dataBuf_endOfData text backend server w.session, fun _ => rfl, fun nonempty =>
          absurd rfl nonempty⟩
      · rw [if_neg last, if_neg last]
        refine ⟨?_, fun other => absurd rfl other, follows.envelope⟩
        have held := follows.buffer
        unfold Watch.sent at held ⊢
        dsimp only
        rw [held, List.flatMap_append, List.flatMap_singleton, List.append_assoc]
  | loginUser =>
      exact ⟨follows.buffer, fun _ => follows.idle (by rw [mode]; nofun), follows.envelope⟩
  | loginPass userLine =>
      have kept :=
        login_keeps backend w.session (decodeBase64 text userLine) (decodeBase64 text line)
      refine ⟨?_, fun _ => follows.idle (by rw [mode]; nofun), ?_⟩
      · exact kept.1.trans follows.buffer
      · intro nonempty
        exact (follows.envelope nonempty).trans (congrArg some kept.2.symm)
  | closed how =>
      exact ⟨follows.buffer, fun _ => follows.idle (by rw [mode]; nofun), follows.envelope⟩

/-- A message that is answered 250 was delivered to the recipient in the variable. -/
theorem delivered_endOfData (s : Session σ) (ok : (s.endOfData text backend server).2 = Reply.ok) :
    (s.endOfData text backend server).1.delivered = s.delivered ++ [(s.rcptTo, s.dataBuf)] := by
  unfold Session.endOfData at ok ⊢
  split at ok
  · exact absurd ok (by decide : Reply.noRecipient ≠ Reply.ok)
  · rename_i known
    rw [if_neg known]
    split at ok
    · exact absurd ok (by decide : Reply.tooLarge ≠ Reply.ok)
    · rename_i fits
      rw [if_neg fits]
      split at ok
      · rfl
      · unfold mapDeliverErr at ok
        split at ok
        · exact absurd ok (by decide : Reply.tooLarge ≠ Reply.ok)
        · exact absurd ok (by decide : Reply.deliverFailed ≠ Reply.ok)

/-- Delivered once to each recipient and to nobody else: there is one recipient, and no stuffing. -/
theorem delivered_iff (w : Watch σ) (follows : Follows w) :
    (∃ made, w.session.delivered ++ [(w.session.rcptTo, w.session.dataBuf)] = w.session.delivered ++
      made ∧
        (∀ recipient ∈ w.accepted, made.count (recipient, w.message) = 1) ∧
        ∀ delivery ∈ made, delivery.1 ∈ w.accepted ∧ delivery.2 = w.message) ↔
      (∃ recipient ∈ w.accepted, ∀ other ∈ w.accepted, other = recipient) ∧
        ∀ line ∈ w.lines, line.head? ≠ some '.' := by
  rw [← flatMap_unstuff_eq_iff]
  change _ ↔ _ ∧ w.message = w.sent
  constructor
  · intro ⟨made, same, once, only⟩
    have made_ := (List.append_cancel_left same).symm
    subst made_
    have here := only _ (List.mem_singleton.mpr rfl)
    refine ⟨⟨w.session.rcptTo, here.1, ?_⟩, here.2.symm.trans follows.buffer⟩
    intro other member
    have counted := once other member
    have within := List.count_pos_iff.mp (by rw [counted]; exact Nat.one_pos)
    exact congrArg Prod.fst (List.mem_singleton.mp within)
  · intro ⟨⟨recipient, member, alone⟩, whole⟩
    have last := follows.envelope (List.ne_nil_of_mem member)
    have same : w.session.rcptTo = recipient := alone _ (List.mem_of_getLast? last)
    refine ⟨_, rfl, ?_, ?_⟩
    · intro other inside
      rw [alone other inside, whole, ← follows.buffer, ← same]
      exact List.count_singleton_self
    · intro delivery inside
      rw [List.mem_singleton.mp inside]
      exact ⟨by rw [same]; exact member, by rw [whole]; exact follows.buffer⟩

/-- A line in command mode panics exactly when an address is sliced out of a bracket closed
first. -/
theorem panicked_command_iff (s : Session σ) (line : Str) (mode : s.mode = .commands) :
    (s.command text backend server line).1.mode = .closed .panicked ↔
      s.authenticated = true ∧
        (MailCore.command (text.upper line) = .mailFrom ∨
          MailCore.command (text.upper line) = .rcptTo) ∧
        ClosesFirst line := by
  rw [← parseAddr_panicked_iff text]
  unfold Session.command
  cases MailCore.command (text.upper line) with
  | hello => simp [mode]
  | startTLS =>
      dsimp only
      split
      · simp [mode]
      · split
        · simp [Session.start]
        · simp [mode]
  | authPlain =>
      dsimp only
      split
      · unfold Session.login
        split <;> simp
      · simp
  | authLogin => simp
  | mailFrom =>
      dsimp only
      cases s.authenticated with
      | false => simp [mode]
      | true => cases parseAddr text line <;> simp [mode]
  | rcptTo =>
      dsimp only
      cases s.authenticated with
      | false => simp [mode]
      | true => cases parseAddr text line <;> simp [mode]
  | data =>
      dsimp only
      split
      · simp [mode]
      · split <;> simp [mode]
  | quit => simp
  | rset => simp [mode]
  | other => simp [mode]

theorem kept_iff (w : Watch σ) (line : Str) (follows : Follows w) :
    Kept text backend server w line ↔ Proper text backend server w line := by
  have delivery : w.session.mode = .data → line = ['.'] →
      (w.session.line text backend server line).2 = Reply.ok →
      (w.session.line text backend server line).1.delivered =
        w.session.delivered ++ [(w.session.rcptTo, w.session.dataBuf)] := by
    intro mode last ok
    have same :
        w.session.line text backend server line = w.session.endOfData text backend server := by
      unfold Session.line
      rw [mode]
      exact if_pos last
    rw [same] at ok ⊢
    exact delivered_endOfData text backend server w.session ok
  have command_ (mode : w.session.mode = .commands) :
      w.session.line text backend server line = w.session.command text backend server line := by
    unfold Session.line
    rw [mode]
  constructor
  · intro kept
    refine ⟨?_, ?_⟩
    · intro mode last ok
      have made := kept.delivered mode last ok
      rw [delivery mode last ok] at made
      exact (delivered_iff w follows).mp made
    · intro mode known asked closes
      have fine := kept.inRange mode
      rw [command_ mode] at fine
      exact fine
        ((panicked_command_iff text backend server w.session line mode).mpr ⟨known, asked, closes⟩)
  · intro proper
    refine ⟨?_, ?_⟩
    · intro mode last ok
      rw [delivery mode last ok]
      exact (delivered_iff w follows).mpr (proper.envelope mode last ok)
    · intro mode panicked
      rw [command_ mode] at panicked
      have closes := (panicked_command_iff text backend server w.session line mode).mp panicked
      exact proper.address mode closes.1 closes.2.1 closes.2.2

end Runs

/-- For every backend, server and session of any lines: every message whose end is answered 250 went
once to each recipient accepted for it and to nobody else, and no line made the session slice out of
range, exactly if every line is proper. -/
theorem smtp_delivers_iff {σ : Type} (backend : MailBackend σ) (server : Server) (store : σ)
    (lines : List Str) :
    Runs.Guarded (Watch.line text backend server) (Kept text backend server)
      ⟨Session.start store, [], []⟩ lines ↔
      Runs.Guarded (Watch.line text backend server) (Proper text backend server)
        ⟨Session.start store, [], []⟩
        lines := by
  have always :
      Runs.Always (Watch.line text backend server) Follows ⟨Session.start store, [], []⟩ lines :=
    Runs.always_of_guarded _ Follows (fun _ _ => True)
      (fun w line follows _ => follows_line text backend server w line follows) _ lines
        (follows_start store)
      (fun _ _ _ => trivial)
  constructor
  · intro kept front line within
    exact (kept_iff text backend server _ line
      (always front ((List.prefix_append front [line]).trans within))).mp
      (kept front line within)
  · intro proper front line within
    exact (kept_iff text backend server _ line
      (always front ((List.prefix_append front [line]).trans within))).mpr
      (proper front line within)

/-- Case mappings of ASCII, and bytes read one by one. -/
def asciiText : Text where
  upper := List.map Char.toUpper
  lower := List.map Char.toLower
  lossy := List.map fun b => Char.ofNat b.toNat

def emptyStore : MailStore where
  nextID := 1
  mailboxes := ∅
  passwords := ∅
  uidNext := ∅

/-- A message to two recipients, up to its last line. -/
def twoRecipients : List Str :=
  ["AUTH PLAIN AGFAeABw".toList, "MAIL FROM:<a@x>".toList, "RCPT TO:<b@x>".toList,
    "RCPT TO:<c@x>".toList, "DATA".toList, "hello".toList]

/-- The first of two recipients gets nothing. -/
theorem first_recipient_missed :
    ¬ Runs.Guarded (Watch.line asciiText (MailStore.backend asciiText) ⟨false, 1000⟩)
      (Kept asciiText (MailStore.backend asciiText) ⟨false, 1000⟩)
        ⟨Session.start emptyStore, [], []⟩
      (twoRecipients ++ [['.']]) := by
  intro kept
  obtain ⟨made, same, once, -⟩ := (kept twoRecipients ['.'] (List.prefix_refl _)).delivered
    (by decide) rfl (by decide)
  have before :
      (twoRecipients.foldl (Watch.line asciiText (MailStore.backend asciiText) ⟨false, 1000⟩)
      ⟨Session.start emptyStore, [], []⟩).session.delivered = [] := by
    decide
  have after :
      ((twoRecipients.foldl (Watch.line asciiText (MailStore.backend asciiText) ⟨false, 1000⟩)
      ⟨Session.start emptyStore, [], []⟩).session.line asciiText (MailStore.backend asciiText)
        ⟨false, 1000⟩
        ['.']).1.delivered = [("c@x".toList, "hello\r\n".toList)] := by
    decide
  rw [before, after, List.nil_append] at same
  have counted := once "b@x".toList (by decide)
  rw [← same] at counted
  have within := List.count_pos_iff.mp (by rw [counted]; exact Nat.one_pos)
  exact absurd (congrArg Prod.fst (List.mem_singleton.mp within)) (by decide)

end EraOne.MailCore
