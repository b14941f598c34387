import EraOne.MailDelivery
import EraOne.Maps
import EraOne.Visits

set_option autoImplicit false

/- The two mail repositories (`internal/repo`, `memory.go` and `postgres.go` over `schema.sql`), one
call at a time. Ids come from one supply for both. Left out: times, the counting of bytes beyond an
int64, and statements that fail for other reasons than their values. -/
namespace EraOne.MailRepos

open MailRepo (Mailbox)
open Visits (Order)

/-- `strings.ToLower`, the functions of `password.go` and the supply of ids. -/
structure Libs where
  lower : Str → Str
  hashPassword : Str → Nat → Option Str
  verifyPassword : Str → Str → Bool
  uuid : Nat → Str
  distinct : Function.Injective uuid

structure MailboxRec where
  mailbox : Mailbox
  passwordHash : Str
  deriving DecidableEq

structure MailboxPatch where
  password : Option Str
  quotaBytes : Option Int
  active : Option Bool

/-- A message. What is nil and what is empty are the same for `raw`. -/
structure Message where
  id : Nat
  mailboxID : Str
  email : Str
  uid : Nat
  subject : Str := []
  fromAddr : Str
  body : Str := []
  raw : List UInt8
  minioKey : Str := []
  flags : Str := []
  deriving DecidableEq

/-- A calendar event, whose text is its body, or a contact, whose text is its vCard. -/
structure Item where
  id : Str
  owner : Str
  uid : Str
  text : Str
  etag : Str
  deriving DecidableEq

structure InlinePolicy where
  maxAttachmentSizeMB : UInt32
  quotaMBPerUser : UInt32
  retentionDays : UInt32
  maxAttachmentsPerMessage : UInt32
  maxRecipients : Int
  attachmentExtDeny : List Str
  deriving DecidableEq

/-- What a call is given besides its arguments: its number, from which ids are made, the salt and
the time of the process, what an upload would be answered, and the orders in which maps and tables
are read. -/
structure Readings where
  serial : Nat
  salt : Nat
  etag : Str
  put : Option Str
  mailboxOrder : Order (Str × MailboxRec)
  tableOrder : Order (Str × MailboxRec)
  itemOrder : Order (Str × Item)
  ownerOrder : Order (Str × StrMap Item)

inductive Call where
  | createMailbox (tenantID email password : Str) (quotaBytes : Int)
  | updateMailbox (email : Str) (patch : MailboxPatch)
  | listMailboxes (tenantID : Str)
  | getMailboxByEmail (email : Str)
  | verifyMailboxPassword (email password : Str)
  | deliverRaw (email : Str) (raw : List UInt8) (fromAddr : Str)
  | listMessages (email : Str)
  | addEWSMessage (email subject body : Str)
  | getMessageByID (email msgID : Str)
  | putCalendarEvent (owner uid body : Str)
  | getCalendarEvent (owner uid : Str)
  | listCalendarEvents (owner : Str)
  | findCalendarEventByUID (uid : Str)
  | putContact (owner uid vcard : Str)
  | listContacts (owner : Str)
  | getPolicy (tenantID : Str)
  | putPolicy (tenantID : Str) (policy : InlinePolicy)
  | getEASSyncKey (deviceID mailboxID folderID : Str)
  | putEASSyncKey (deviceID mailboxID folderID syncKey : Str)
  | messageCount

/-- What a call returns: `failed` for an error, `missing` for a false second result. -/
inductive Answer where
  | failed
  | missing
  | done
  | mailbox (mailbox : Mailbox)
  | mailboxes (mailboxes : List Mailbox)
  | verdict (good : Bool)
  | message (message : Message)
  | messages (messages : List Message)
  | item (item : Item)
  | items (items : List Item)
  | policy (policy : InlinePolicy)
  | key (key : Str)
  | count (n : Nat)
  deriving DecidableEq

def normal (libs : Libs) (email : Str) : Str := libs.lower (Scan.trim email)

def MailboxPatch.apply (patch : MailboxPatch) (mb : Mailbox) : Mailbox :=
  { mb with
    quotaBytes := patch.quotaBytes.getD mb.quotaBytes
    active := patch.active.getD mb.active }

def crlf : List UInt8 := [13, 10]

/-- The raw form of an EWS message. -/
def ewsRaw (subject body : Str) : List UInt8 :=
  ("Subject: ".toList ++ subject).flatMap String.utf8EncodeChar ++ crlf ++ crlf ++
    body.flatMap String.utf8EncodeChar

def formatMsgID (id : Nat) : Str := "msg-".toList ++ Nat.toDigits 10 id

/-! ### In memory -/

structure Memory where
  mailboxes : StrMap MailboxRec := ∅
  byEmail : StrMap Str := ∅
  messages : StrMap (List Message) := ∅
  calendars : StrMap (StrMap Item) := ∅
  contacts : StrMap (StrMap Item) := ∅
  policies : StrMap InlinePolicy := ∅
  easKeys : StrMap Str := ∅
  msgSeq : Nat := 0
  uidCounter : StrMap Nat := ∅

namespace Memory

variable (libs : Libs) (r : Readings) (m : Memory)

/-- The mailbox under an email as it is given. -/
def find (email : Str) : Option MailboxRec :=
  m.byEmail[normal libs email]?.bind fun id => m.mailboxes[id]?

def createMailbox (tenantID email password : Str) (quotaBytes : Int) : Memory × Answer :=
  let email := normal libs email
  if email = [] ∨ '@' ∉ email then (m, .failed)
  else
    match libs.hashPassword password r.salt with
    | none => (m, .failed)
    | some hash =>
        if email ∈ m.byEmail then (m, .failed)
        else
          let mb : Mailbox := ⟨libs.uuid r.serial, tenantID, email, quotaBytes, 0, true⟩
          ({ m with
              mailboxes := m.mailboxes.insert mb.id ⟨mb, hash⟩
              byEmail := m.byEmail.insert email mb.id },
            .mailbox mb)

def updateMailbox (email : Str) (patch : MailboxPatch) : Memory × Answer :=
  match m.find libs email with
  | none => (m, .failed)
  | some mb =>
      match patch.password with
      | none =>
          ({ m with
             mailboxes :=
               m.mailboxes.insert mb.mailbox.id { mb with mailbox := patch.apply mb.mailbox } },
            .mailbox (patch.apply mb.mailbox))
      | some password =>
          match libs.hashPassword password r.salt with
          | none => (m, .failed)
          | some hash =>
              ({ m with
                 mailboxes := m.mailboxes.insert mb.mailbox.id ⟨patch.apply mb.mailbox, hash⟩ },
                .mailbox (patch.apply mb.mailbox))

def listMailboxes (tenantID : Str) : Answer :=
  .mailboxes
    (((r.mailboxOrder.visit m.mailboxes.toList).filter (·.2.mailbox.tenantID = tenantID)).map
    (·.2.mailbox))

def getMailboxByEmail (email : Str) : Answer :=
  match m.find libs email with
  | none => .failed
  | some mb => .mailbox mb.mailbox

def verifyMailboxPassword (email password : Str) : Answer :=
  match m.find libs email with
  | none => .verdict false
  | some mb => .verdict (libs.verifyPassword mb.passwordHash password)

/-- A policy whose limit is zero has none. -/
def tooLarge (mb : Mailbox) (raw : List UInt8) : Bool :=
  m.policies[mb.tenantID]?.any fun pol =>
    0 < pol.maxAttachmentSizeMB && pol.maxAttachmentSizeMB.toNat * 1024 * 1024 < raw.length

def deliverRaw (email : Str) (raw : List UInt8) (fromAddr : Str) : Memory × Option Message :=
  match m.find libs email with
  | none => (m, none)
  | some mb =>
      if m.tooLarge mb.mailbox raw then (m, none)
      else if (raw.length : Int) > mb.mailbox.quotaBytes - mb.mailbox.usedBytes then (m, none)
      else
        let id := mb.mailbox.id
        let msg : Message :=
          { id := m.msgSeq + 1, mailboxID := id, email := normal libs email
            uid := m.uidCounter[id]?.getD 0 + 1, fromAddr := fromAddr, raw := raw }
        ({ m with
            msgSeq := m.msgSeq + 1
            uidCounter := m.uidCounter.insert id (m.uidCounter[id]?.getD 0 + 1)
            messages := m.messages.insert id (m.messages[id]?.getD [] ++ [msg])
            mailboxes := m.mailboxes.insert id
              { mb with
                mailbox := { mb.mailbox with usedBytes := mb.mailbox.usedBytes + raw.length } } },
          some msg)

def listMessages (email : Str) : Option (List Message) :=
  (m.find libs email).map fun mb => m.messages[mb.mailbox.id]?.getD []

/-- The stored message is the returned one, so that it gets the subject and the body too. -/
def addEWSMessage (email subject body : Str) : Memory × Option Message :=
  match m.deliverRaw libs email (ewsRaw subject body) email with
  | (m, none) => (m, none)
  | (m, some msg) =>
      ({ m with
          messages := m.messages.map fun _ messages =>
            messages.map fun other =>
              if other.id = msg.id then { other with subject := subject, body := body }
                else other },
        some { msg with subject := subject, body := body })

def getMessageByID (email msgID : Str) : Answer :=
  match m.listMessages libs email with
  | none => .missing
  | some messages =>
      match messages.find? fun msg => formatMsgID msg.id = msgID ||
        Nat.toDigits 10 msg.id = msgID with
      | none => .missing
      | some msg => .message msg

/-- `PutCalendarEvent` and `PutContact` on their map. -/
def putItem (items : StrMap (StrMap Item)) (owner uid text : Str) : StrMap (StrMap Item) × Item :=
  let owner := normal libs owner
  let item : Item := ⟨libs.uuid r.serial, owner, uid, text, r.etag⟩
  (items.insert owner ((items[owner]?.getD ∅).insert uid item), item)

/-- `ListCalendarEvents` and `ListContacts`. -/
def listItems (items : StrMap (StrMap Item)) (owner : Str) : Answer :=
  .items ((r.itemOrder.visit (items[normal libs owner]?.getD ∅).toList).map Prod.snd)

def putCalendarEvent (owner uid body : Str) : Memory × Answer :=
  ({ m with calendars := (putItem libs r m.calendars owner uid body).1 },
    .item (putItem libs r m.calendars owner uid body).2)

def getCalendarEvent (owner uid : Str) : Answer :=
  match (m.calendars[normal libs owner]?.getD ∅)[uid]? with
  | none => .missing
  | some ev => .item ev

def listCalendarEvents (owner : Str) : Answer := listItems libs r m.calendars owner

def findCalendarEventByUID (uid : Str) : Answer :=
  match (r.ownerOrder.visit m.calendars.toList).findSome? fun events =>
      events.2[uid]?.map fun ev => { ev with owner := events.1 } with
  | none => .missing
  | some ev => .item ev

def putContact (owner uid vcard : Str) : Memory × Answer :=
  ({ m with contacts := (putItem libs r m.contacts owner uid vcard).1 },
    .item (putItem libs r m.contacts owner uid vcard).2)

def listContacts (owner : Str) : Answer := listItems libs r m.contacts owner

def getPolicy (tenantID : Str) : Answer :=
  match m.policies[tenantID]? with
  | none => .missing
  | some pol => .policy pol

def putPolicy (tenantID : Str) (policy : InlinePolicy) : Memory × Answer :=
  ({ m with policies := m.policies.insert tenantID policy }, .done)

end Memory

/-- The key that the in-memory repository joins of three. -/
def joinKey (deviceID mailboxID folderID : Str) : Str :=
  deviceID ++ '|' :: mailboxID ++ '|' :: folderID

namespace Memory

def getEASSyncKey (m : Memory) (deviceID mailboxID folderID : Str) : Answer :=
  match m.easKeys[joinKey deviceID mailboxID folderID]? with
  | none => .missing
  | some key => .key key

def putEASSyncKey (m : Memory) (deviceID mailboxID folderID syncKey : Str) : Memory × Answer :=
  ({ m with easKeys := m.easKeys.insert (joinKey deviceID mailboxID folderID) syncKey }, .done)

def call (libs : Libs) (r : Readings) (m : Memory) : Call → Memory × Answer
  | .createMailbox tenantID email password quotaBytes =>
      m.createMailbox libs r tenantID email password quotaBytes
  | .updateMailbox email patch => m.updateMailbox libs r email patch
  | .listMailboxes tenantID => (m, m.listMailboxes r tenantID)
  | .getMailboxByEmail email => (m, m.getMailboxByEmail libs email)
  | .verifyMailboxPassword email password => (m, m.verifyMailboxPassword libs email password)
  | .deliverRaw email raw fromAddr =>
      ((m.deliverRaw libs email raw fromAddr).1,
        (m.deliverRaw libs email raw fromAddr).2.elim .failed .message)
  | .listMessages email => (m, (m.listMessages libs email).elim .failed .messages)
  | .addEWSMessage email subject body =>
      ((m.addEWSMessage libs email subject body).1,
        (m.addEWSMessage libs email subject body).2.elim .failed .message)
  | .getMessageByID email msgID => (m, m.getMessageByID libs email msgID)
  | .putCalendarEvent owner uid body => m.putCalendarEvent libs r owner uid body
  | .getCalendarEvent owner uid => (m, m.getCalendarEvent libs owner uid)
  | .listCalendarEvents owner => (m, m.listCalendarEvents libs r owner)
  | .findCalendarEventByUID uid => (m, m.findCalendarEventByUID r uid)
  | .putContact owner uid vcard => m.putContact libs r owner uid vcard
  | .listContacts owner => (m, m.listContacts libs r owner)
  | .getPolicy tenantID => (m, m.getPolicy tenantID)
  | .putPolicy tenantID policy => m.putPolicy tenantID policy
  | .getEASSyncKey deviceID mailboxID folderID => (m, m.getEASSyncKey deviceID mailboxID folderID)
  | .putEASSyncKey deviceID mailboxID folderID syncKey =>
      m.putEASSyncKey deviceID mailboxID folderID syncKey
  | .messageCount => (m, .count m.msgSeq)

end Memory

/-! ### In Postgres -/

structure MessageRow where
  id : Nat
  mailboxID : Str
  uid : Nat
  subject : Option Str := none
  fromAddr : Option Str
  flags : Str := []
  sizeBytes : Nat
  minioKey : Option Str
  rawInline : Option (List UInt8)
  deriving DecidableEq

/-- A row as `ListMessages` returns it, with the email as it was asked for. -/
def MessageRow.message (threshold : Option Nat) (row : MessageRow) (blobs : StrMap (List UInt8))
    (email : Str) : Message where
  id := row.id
  mailboxID := row.mailboxID
  email := email
  uid := row.uid
  subject := row.subject.getD []
  fromAddr := row.fromAddr.getD []
  raw :=
    match row.minioKey with
    | none => row.rawInline.getD []
    | some key =>
        if threshold.isSome then blobs[key]?.getD (row.rawInline.getD []) else row.rawInline.getD []
  minioKey := row.minioKey.getD []
  flags := row.flags

structure PolicyRow where
  maxAttachmentMB : UInt32
  quotaMBPerUser : UInt32
  retentionDays : UInt32
  maxAttachments : UInt32
  deriving DecidableEq

/-- A `TEXT` column holds no U+0000, and a parameter that has one is refused; looking one up finds
nothing. -/
def fitsText (s : Str) : Bool := !s.contains '\x00'

/-- An `INT` column holds less than a uint32. -/
def fitsInt (n : UInt32) : Bool := n.toNat < 2 ^ 31

def InlinePolicy.row (pol : InlinePolicy) : PolicyRow :=
  ⟨pol.maxAttachmentSizeMB, pol.quotaMBPerUser, pol.retentionDays, pol.maxAttachmentsPerMessage⟩

def InlinePolicy.fits (pol : InlinePolicy) : Bool :=
  fitsInt pol.maxAttachmentSizeMB && fitsInt pol.quotaMBPerUser && fitsInt pol.retentionDays &&
    fitsInt pol.maxAttachmentsPerMessage

structure EASKey where
  deviceID : Str
  mailboxID : Str
  folderID : Str
  deriving DecidableEq

/-- The tables, those with one key as maps: mailboxes by id, policies by tenant, and events and
contacts by mailbox and uid. `serial` is the sequence behind the ids of messages, `blobs` the blob
store. -/
structure Postgres where
  tenants : List Str := []
  mailboxes : StrMap MailboxRec := ∅
  messages : List MessageRow := []
  serial : Nat := 0
  calendarEvents : StrMap (StrMap Item) := ∅
  contacts : StrMap (StrMap Item) := ∅
  tenantPolicies : StrMap PolicyRow := ∅
  easKeys : List (EASKey × Str) := []
  blobs : StrMap (List UInt8) := ∅

namespace Postgres

variable (libs : Libs) (threshold : Option Nat) (r : Readings) (p : Postgres)

/-- `SELECT … FROM mailboxes WHERE email=$1`. -/
def select (email : Str) : Option MailboxRec :=
  (p.mailboxes.toList.find? (·.2.mailbox.email = normal libs email)).map Prod.snd

def demoTenant : Str := "t-demo".toList

/-- The tenants with this one, if they had none of the id. -/
def insertTenant (tenantID : Str) : Postgres :=
  { p with tenants := if tenantID ∈ p.tenants then p.tenants else p.tenants ++ [tenantID] }

def ensureTenant (tenantID : Str) : Option Postgres :=
  let tenantID := if tenantID = [] then demoTenant else tenantID
  if fitsText tenantID then some (p.insertTenant tenantID) else none

def createMailbox (tenantID email password : Str) (quotaBytes : Int) : Postgres × Answer :=
  let email := normal libs email
  match libs.hashPassword password r.salt with
  | none => (p, .failed)
  | some hash =>
      let tenantID := if tenantID = [] then demoTenant else tenantID
      match p.ensureTenant tenantID with
      | none => (p, .failed)
      | some p =>
          let mb : Mailbox := ⟨libs.uuid r.serial, tenantID, email, quotaBytes, 0, true⟩
          if mb.id ∈ p.mailboxes ∨ p.mailboxes.toList.any (·.2.mailbox.email = email) ∨
            ¬ fitsText email then
            (p, .failed)
          else ({ p with mailboxes := p.mailboxes.insert mb.id ⟨mb, hash⟩ }, .mailbox mb)

/-- The last `SELECT` of `UpdateMailbox`. -/
def answerMailbox (email : Str) : Answer :=
  match p.select libs email with
  | none => .failed
  | some mb => .mailbox mb.mailbox

def updateMailbox (email : Str) (patch : MailboxPatch) : Postgres × Answer :=
  match p.select libs email with
  | none => (p, .failed)
  | some mb =>
      match patch.password with
      | none =>
          let p := { p with
            mailboxes :=
              p.mailboxes.insert mb.mailbox.id { mb with mailbox := patch.apply mb.mailbox } }
          (p, p.answerMailbox libs email)
      | some password =>
          match libs.hashPassword password r.salt with
          | none => (p, .failed)
          | some hash =>
              let p := { p with
                mailboxes := p.mailboxes.insert mb.mailbox.id ⟨patch.apply mb.mailbox, hash⟩ }
              (p, p.answerMailbox libs email)

def listMailboxes (tenantID : Str) : Answer :=
  if fitsText tenantID then
    .mailboxes
      (((r.tableOrder.visit p.mailboxes.toList).filter (·.2.mailbox.tenantID = tenantID)).map
      (·.2.mailbox))
  else .failed

def getMailboxByEmail (email : Str) : Answer := p.answerMailbox libs email

def verifyMailboxPassword (email password : Str) : Answer :=
  match p.select libs email with
  | none => .verdict false
  | some mb => .verdict (mb.mailbox.active && libs.verifyPassword mb.passwordHash password)

/-- A policy whose limit is zero lets nothing through. -/
def tooLarge (mb : Mailbox) (raw : List UInt8) : Bool :=
  p.tenantPolicies[mb.tenantID]?.any fun pol => pol.maxAttachmentMB.toNat * 1024 * 1024 < raw.length

def rowsOf (mailboxID : Str) : List MessageRow := p.messages.filter (·.mailboxID = mailboxID)

/-- `COALESCE(MAX(uid),0)`. -/
def maxUID (mailboxID : Str) : Nat := ((p.rowsOf mailboxID).map MessageRow.uid).foldl max 0

/-- Whether the body goes to the blob store, if there is one. -/
def uploads (raw : List UInt8) : Bool := threshold.any fun limit => limit < raw.length

/-- The `INSERT` of a message and the `UPDATE` of the bytes used; a body that was uploaded stays. -/
def insertMessage (mb : MailboxRec) (email : Str) (raw : List UInt8) (fromAddr : Str) (key : Str) :
    Postgres × Option Message :=
  let id := mb.mailbox.id
  let row : MessageRow :=
    { id := p.serial + 1, mailboxID := id, uid := p.maxUID id + 1, fromAddr := some fromAddr
      sizeBytes := raw.length
      minioKey := if key = [] then none else some key
      rawInline := if uploads threshold raw then none else some raw }
  let blobs := if uploads threshold raw then p.blobs.insert key raw else p.blobs
  if fitsText fromAddr then
    ({ p with
        serial := p.serial + 1
        messages := p.messages ++ [row]
        mailboxes := p.mailboxes.insert id
          { mb with mailbox := { mb.mailbox with usedBytes := mb.mailbox.usedBytes + raw.length } }
        blobs := blobs },
      some
        { id := p.serial + 1, mailboxID := id, email := email, uid := p.maxUID id + 1
          raw := if key = [] then raw else [], minioKey := key, fromAddr := fromAddr })
  else ({ p with blobs := blobs }, none)

def deliverRaw (email : Str) (raw : List UInt8) (fromAddr : Str) : Postgres × Option Message :=
  match p.select libs email with
  | none => (p, none)
  | some mb =>
      if p.tooLarge mb.mailbox raw then (p, none)
      else if (raw.length : Int) > mb.mailbox.quotaBytes - mb.mailbox.usedBytes then (p, none)
      else if uploads threshold raw then
        match r.put with
        | none => (p, none)
        | some key => p.insertMessage threshold mb email raw fromAddr key
      else p.insertMessage threshold mb email raw fromAddr []

def listMessages (email : Str) : Option (List Message) :=
  (p.select libs email).map fun mb =>
    (p.rowsOf mb.mailbox.id).map fun row => MessageRow.message threshold row p.blobs email

def addEWSMessage (email subject body : Str) : Postgres × Option Message :=
  match p.deliverRaw libs threshold r email (ewsRaw subject body) email with
  | (p, none) => (p, none)
  | (p, some msg) =>
      (if fitsText subject then
          { p with
            messages := p.messages.map fun row =>
              if row.id = msg.id then { row with subject := some subject } else row }
        else p,
        some { msg with subject := subject, body := body })

def getMessageByID (email msgID : Str) : Answer :=
  match p.listMessages libs threshold email with
  | none => .missing
  | some messages =>
      match messages.find? fun msg => formatMsgID msg.id = msgID with
      | none => .missing
      | some msg => .message msg

/-- The upsert of an event or a contact keeps the id of the row; the answer has the new one. -/
def putItem (items : StrMap (StrMap Item)) (owner uid text : Str) :
    Option (StrMap (StrMap Item) × Item) :=
  (p.select libs owner).bind fun mb =>
    let rows := items[mb.mailbox.id]?.getD ∅
    let id := (rows[uid]?.map Item.id).getD (libs.uuid r.serial)
    if fitsText uid && fitsText text then
      some (items.insert mb.mailbox.id (rows.insert uid ⟨id, [], uid, text, r.etag⟩),
        ⟨libs.uuid r.serial, owner, uid, text, r.etag⟩)
    else none

def listItems (items : StrMap (StrMap Item)) (owner : Str) : Answer :=
  match p.select libs owner with
  | none => .failed
  | some mb =>
      .items ((r.itemOrder.visit (items[mb.mailbox.id]?.getD ∅).toList).map fun row =>
        { row.2 with owner := owner })

def putCalendarEvent (owner uid body : Str) : Postgres × Answer :=
  match p.putItem libs r p.calendarEvents owner uid body with
  | none => (p, .failed)
  | some put => ({ p with calendarEvents := put.1 }, .item put.2)

def getCalendarEvent (owner uid : Str) : Answer :=
  match p.select libs owner with
  | none => .missing
  | some mb =>
      match (p.calendarEvents[mb.mailbox.id]?.getD ∅)[uid]? with
      | none => .missing
      | some row => .item { row with owner := owner }

def listCalendarEvents (owner : Str) : Answer := p.listItems libs r p.calendarEvents owner

/-- The join with the mailboxes, one row of it in any order. -/
def findCalendarEventByUID (uid : Str) : Answer :=
  match (r.ownerOrder.visit p.calendarEvents.toList).findSome? fun rows =>
      rows.2[uid]?.bind fun row =>
        p.mailboxes[rows.1]?.map fun mb => { row with owner := mb.mailbox.email } with
  | none => .missing
  | some ev => .item ev

def putContact (owner uid vcard : Str) : Postgres × Answer :=
  match p.putItem libs r p.contacts owner uid vcard with
  | none => (p, .failed)
  | some put => ({ p with contacts := put.1 }, .item put.2)

def listContacts (owner : Str) : Answer := p.listItems libs r p.contacts owner

def getPolicy (tenantID : Str) : Answer :=
  match p.tenantPolicies[tenantID]? with
  | none => .missing
  | some row =>
      .policy ⟨row.maxAttachmentMB, row.quotaMBPerUser, row.retentionDays, row.maxAttachments, 0,
        []⟩

/-- A policy that breaks a constraint is dropped without an error. -/
def putPolicy (tenantID : Str) (policy : InlinePolicy) : Postgres × Answer :=
  let p := (p.ensureTenant tenantID).getD p
  if policy.fits ∧ fitsText tenantID ∧ tenantID ∈ p.tenants then
    ({ p with tenantPolicies := p.tenantPolicies.insert tenantID policy.row }, .done)
  else (p, .done)

/-- The key stored for a device, mailbox and folder. -/
def syncKey (k : EASKey) : Option Str := (p.easKeys.find? (·.1 = k)).map Prod.snd

def getEASSyncKey (deviceID mailboxID folderID : Str) : Answer :=
  match p.syncKey ⟨deviceID, mailboxID, folderID⟩ with
  | none => .missing
  | some key => .key key

def putEASSyncKey (deviceID mailboxID folderID syncKey : Str) : Postgres × Answer :=
  if mailboxID ∈ p.mailboxes ∧ (fitsText deviceID && fitsText folderID && fitsText syncKey) then
    ({ p with
        easKeys := (⟨deviceID, mailboxID, folderID⟩, syncKey) ::
          p.easKeys.filter (·.1 ≠ ⟨deviceID, mailboxID, folderID⟩) },
      .done)
  else (p, .failed)

def call : Call → Postgres × Answer
  | .createMailbox tenantID email password quotaBytes =>
      p.createMailbox libs r tenantID email password quotaBytes
  | .updateMailbox email patch => p.updateMailbox libs r email patch
  | .listMailboxes tenantID => (p, p.listMailboxes r tenantID)
  | .getMailboxByEmail email => (p, p.getMailboxByEmail libs email)
  | .verifyMailboxPassword email password => (p, p.verifyMailboxPassword libs email password)
  | .deliverRaw email raw fromAddr =>
      ((p.deliverRaw libs threshold r email raw fromAddr).1,
        (p.deliverRaw libs threshold r email raw fromAddr).2.elim .failed .message)
  | .listMessages email => (p, (p.listMessages libs threshold email).elim .failed .messages)
  | .addEWSMessage email subject body =>
      ((p.addEWSMessage libs threshold r email subject body).1,
        (p.addEWSMessage libs threshold r email subject body).2.elim .failed .message)
  | .getMessageByID email msgID => (p, p.getMessageByID libs threshold email msgID)
  | .putCalendarEvent owner uid body => p.putCalendarEvent libs r owner uid body
  | .getCalendarEvent owner uid => (p, p.getCalendarEvent libs owner uid)
  | .listCalendarEvents owner => (p, p.listCalendarEvents libs r owner)
  | .findCalendarEventByUID uid => (p, p.findCalendarEventByUID r uid)
  | .putContact owner uid vcard => p.putContact libs r owner uid vcard
  | .listContacts owner => (p, p.listContacts libs r owner)
  | .getPolicy tenantID => (p, p.getPolicy tenantID)
  | .putPolicy tenantID policy => p.putPolicy tenantID policy
  | .getEASSyncKey deviceID mailboxID folderID => (p, p.getEASSyncKey deviceID mailboxID folderID)
  | .putEASSyncKey deviceID mailboxID folderID syncKey =>
      p.putEASSyncKey deviceID mailboxID folderID syncKey
  | .messageCount => (p, .count p.messages.length)

end Postgres

end EraOne.MailRepos
