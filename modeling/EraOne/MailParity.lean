import EraOne.MailAgree

set_option autoImplicit false

/- Whole runs of calls on the two mail repositories. -/
namespace EraOne.MailRepos

open MailRepo (Mailbox)
open Runs

section Calls

variable {libs : Libs} {n : Nat} {m : Memory} {p : Postgres}

/-! ### Reading messages -/

theorem message_plain (threshold : Option Nat) (row : MessageRow) (blobs : StrMap (List UInt8))
    (email other : Str) (inline : row.minioKey = none) :
    row.message threshold blobs email = { row.plain other with email := email } := by
  unfold MessageRow.plain MessageRow.message
  rw [inline]

/-- What Postgres lists are the messages in memory, without their bodies and under the email asked
for. -/
theorem Agree.listed (agree : Agree libs n m p) (threshold : Option Nat) (email : Str) :
    p.listMessages libs threshold email =
      (m.listMessages libs email).map fun msgs =>
        msgs.map fun msg => { msg.bodiless with email := email } := by
  unfold Postgres.listMessages Memory.listMessages
  rw [agree.boxes.select_eq]
  cases found : m.find libs email with
  | none => rfl
  | some mb =>
      have same := agree.mail.same mb.mailbox.id _ (agree.emails_of_find email mb found)
      rw [Option.map_some, Option.map_some, Option.map_some, Option.some.injEq]
      calc (p.rowsOf mb.mailbox.id).map (fun row => row.message threshold p.blobs email)
          = (p.rowsOf mb.mailbox.id).map
              ((fun msg : Message => { msg with email := email }) ∘ fun row =>
                row.plain (normal libs email)) := by
            apply List.map_congr_left
            intro row member
            exact message_plain threshold row p.blobs email _
              (agree.mail.inline row (List.mem_of_mem_filter member))
        _ = ((m.messages[mb.mailbox.id]?.getD []).map Message.bodiless).map fun msg =>
          { msg with email := email } := by
            rw [same, List.map_map]
        _ = _ := by
            rw [List.map_map]
            rfl

theorem Agree.email_of_message (agree : Agree libs n m p) (email : Str) (msgs : List Message)
    (msg : Message) (listed : m.listMessages libs email = some msgs) (member : msg ∈ msgs) :
    msg.email = normal libs email := by
  unfold Memory.listMessages at listed
  obtain ⟨mb, found, rfl⟩ := Option.map_eq_some_iff.mp listed
  have same := agree.mail.same mb.mailbox.id _ (agree.emails_of_find email mb found)
  have here : msg.bodiless ∈ (p.rowsOf mb.mailbox.id).map fun row =>
      row.plain (normal libs email) := by
    rw [← same]
    exact List.mem_map_of_mem member
  obtain ⟨row, _, read⟩ := List.mem_map.mp here
  exact (congrArg Message.email read).symm

/-- A message reads alike: it has no body, and its mailbox is named as it is stored. -/
def ReadsAlike (libs : Libs) (email : Str) (msg : Message) : Prop :=
  email = normal libs email ∧ msg.body = []

theorem Agree.readsAlike (agree : Agree libs n m p) (email : Str) (msgs : List Message)
    (msg : Message) (listed : m.listMessages libs email = some msgs) (member : msg ∈ msgs)
    (alike : ReadsAlike libs email msg) :
    { msg.bodiless with email := email } = msg := by
  have own := agree.email_of_message email msgs msg listed member
  rw [← alike.1] at own
  unfold Message.bodiless
  rw [← own, ← alike.2]

theorem Agree.listMessages (agree : Agree libs n m p) (threshold : Option Nat) (email : Str)
    (shared : ∀ msgs ∈ m.listMessages libs email, ∀ msg ∈ msgs, ReadsAlike libs email msg) :
    m.listMessages libs email = p.listMessages libs threshold email := by
  rw [agree.listed]
  cases listed : m.listMessages libs email with
  | none => rfl
  | some msgs =>
      rw [Option.map_some, Option.some.injEq]
      symm
      calc msgs.map (fun msg => ({ msg.bodiless with email := email } : Message))
          = msgs.map id :=
            List.map_congr_left fun msg member =>
              agree.readsAlike email msgs msg listed member (shared msgs listed msg member)
        _ = msgs := List.map_id msgs

/-- A message is found alike: by its full name only, and where it reads alike. -/
def FindsAlike (libs : Libs) (email msgID : Str) (msg : Message) : Prop :=
  Nat.toDigits 10 msg.id ≠ msgID ∧ (formatMsgID msg.id = msgID → ReadsAlike libs email msg)

theorem Agree.getMessageByID (agree : Agree libs n m p) (threshold : Option Nat) (email msgID : Str)
    (shared : ∀ msgs ∈ m.listMessages libs email, ∀ msg ∈ msgs, FindsAlike libs email msgID msg) :
    m.getMessageByID libs email msgID = p.getMessageByID libs threshold email msgID := by
  unfold Memory.getMessageByID Postgres.getMessageByID
  rw [agree.listed]
  cases listed : m.listMessages libs email with
  | none => rfl
  | some msgs =>
      rw [Option.map_some]
      dsimp only
      have byName :
          (msgs.find? fun msg => formatMsgID msg.id = msgID || Nat.toDigits 10 msg.id = msgID) =
            msgs.find? fun msg => formatMsgID msg.id = msgID := by
        apply List.find?_congr
        intro msg member
        rw [decide_eq_false (shared msgs listed msg member).1, Bool.or_false]
      have composed : (fun msg : Message => decide (formatMsgID msg.id = msgID)) ∘
          (fun msg : Message => { msg.bodiless with email := email }) =
          fun msg => decide (formatMsgID msg.id = msgID) := rfl
      rw [byName, List.find?_map, composed]
      cases found : msgs.find? fun msg => formatMsgID msg.id = msgID with
      | none => rfl
      | some msg =>
          have member := List.mem_of_find?_eq_some found
          have named : formatMsgID msg.id = msgID := by simpa using List.find?_some found
          have same :=
            agree.readsAlike email msgs msg listed member ((shared msgs listed msg member).2 named)
          rw [Option.map_some]
          exact congrArg Answer.message same.symm

/-- The texts of a message that is delivered fit. -/
theorem DeliversAlike.fits (threshold : Option Nat) (email fromAddr : Str) (raw : List UInt8)
    (texts : List Str) (shared : DeliversAlike libs threshold m email raw texts) (msg : Message)
    (delivered : (m.deliverRaw libs email raw fromAddr).2 = some msg) :
    ∀ text ∈ texts, fitsText text := by
  unfold Memory.deliverRaw at delivered
  cases found : m.find libs email with
  | none =>
      rw [found] at delivered
      cases delivered
  | some mb =>
      rw [found] at delivered
      dsimp only at delivered
      split at delivered
      · cases delivered
      · rename_i small
        split at delivered
        · cases delivered
        · rename_i room
          exact ((shared mb found (Int.not_lt.mp room)).2 (Bool.eq_false_iff.mpr small)).2.2

theorem Agree.addEWSMessage (agree : Agree libs n m p) (threshold : Option Nat) (r : Readings)
    (email subject body : Str)
    (shared : DeliversAlike libs threshold m email (ewsRaw subject body) [email, subject]) :
    (m.addEWSMessage libs email subject body).2 =
      (p.addEWSMessage libs threshold r email subject body).2 ∧
        Agree libs n (m.addEWSMessage libs email subject body).1
          (p.addEWSMessage libs threshold r email subject body).1 := by
  obtain ⟨answer, after⟩ :=
    agree.deliverRaw threshold r email email (ewsRaw subject body) [email, subject]
      List.mem_cons_self shared
  have fits (msg : Message)
      (delivered : (m.deliverRaw libs email (ewsRaw subject body) email).2 = some msg) :
      fitsText subject = true :=
    shared.fits threshold email email (ewsRaw subject body) [email, subject] msg delivered subject
      (List.mem_cons_of_mem _ List.mem_cons_self)
  unfold Memory.addEWSMessage Postgres.addEWSMessage
  revert answer after fits
  generalize m.deliverRaw libs email (ewsRaw subject body) email = a
  generalize p.deliverRaw libs threshold r email (ewsRaw subject body) email = b
  obtain ⟨m', msg⟩ := a
  obtain ⟨p', msg'⟩ := b
  intro answer after fits
  dsimp only at answer after fits
  subst answer
  cases msg with
  | none => exact ⟨rfl, after⟩
  | some msg =>
      refine ⟨rfl, ?_⟩
      dsimp only
      rw [if_pos (fits msg rfl)]
      have mail := after.mail.subject msg.id subject body
        { p' with messages := p'.messages.map (subjectOnly msg.id subject) } rfl rfl
      exact
        { boxes := ⟨after.boxes.same, after.boxes.named, after.boxes.keyed, after.boxes.drawn⟩
          mail := mail
          calendars := after.calendars
          contacts := after.contacts
          policies := after.policies
          keys := after.keys }

/-! ### Events and contacts -/

/-- An event or a contact is put alike where the owner has a mailbox and is named as it is stored,
and the uid and the text fit. -/
def PutsAlike (libs : Libs) (m : Memory) (owner uid text : Str) : Prop :=
  (m.find libs owner).isSome ∧ owner = normal libs owner ∧ (fitsText uid && fitsText text) = true

theorem Agree.putItem (agree : Agree libs n m p) (r : Readings) (owner uid text : Str)
    (shared : PutsAlike libs m owner uid text) (mem pg : StrMap (StrMap Item))
    (items : Items (emails m.mailboxes) mem pg) :
    ∃ put, p.putItem libs r pg owner uid text = some put ∧
      (Memory.putItem libs r mem owner uid text).2.data = put.2.data ∧
      Items (emails m.mailboxes) (Memory.putItem libs r mem owner uid text).1 put.1 := by
  obtain ⟨mb, found⟩ := Option.isSome_iff_exists.mp shared.1
  unfold Postgres.putItem Memory.putItem
  rw [agree.boxes.select_eq, found, Option.bind_some]
  dsimp only
  rw [if_pos shared.2.2]
  refine ⟨_, rfl, ?_, ?_⟩
  · dsimp only [Item.data]
    rw [← shared.2.1]
  · have named := agree.emails_of_find owner mb found
    apply items.put mb.mailbox.id _ uid named
    · intro other here
      exact agree.boxes.email_inj here named
    · rfl

theorem Agree.putCalendarEvent (agree : Agree libs n m p) (r : Readings) (owner uid body : Str)
    (shared : PutsAlike libs m owner uid body) :
    Alike (m.putCalendarEvent libs r owner uid body).2
      (p.putCalendarEvent libs r owner uid body).2 ∧
      Agree libs n (m.putCalendarEvent libs r owner uid body).1
        (p.putCalendarEvent libs r owner uid body).1 := by
  obtain ⟨put, done, data, items⟩ := agree.putItem r owner uid body shared _ _ agree.calendars
  unfold Memory.putCalendarEvent Postgres.putCalendarEvent
  rw [done]
  exact ⟨data,
    { boxes := ⟨agree.boxes.same, agree.boxes.named, agree.boxes.keyed, agree.boxes.drawn⟩
      mail := ⟨agree.mail.same, agree.mail.nobody, agree.mail.inline, agree.mail.counters,
        agree.mail.serial,
        agree.mail.total⟩
      calendars := items
      contacts := agree.contacts
      policies := agree.policies
      keys := agree.keys }⟩

theorem Agree.putContact (agree : Agree libs n m p) (r : Readings) (owner uid vcard : Str)
    (shared : PutsAlike libs m owner uid vcard) :
    Alike (m.putContact libs r owner uid vcard).2 (p.putContact libs r owner uid vcard).2 ∧
      Agree libs n (m.putContact libs r owner uid vcard).1
        (p.putContact libs r owner uid vcard).1 := by
  obtain ⟨put, done, data, items⟩ := agree.putItem r owner uid vcard shared _ _ agree.contacts
  unfold Memory.putContact Postgres.putContact
  rw [done]
  exact ⟨data,
    { boxes := ⟨agree.boxes.same, agree.boxes.named, agree.boxes.keyed, agree.boxes.drawn⟩
      mail := ⟨agree.mail.same, agree.mail.nobody, agree.mail.inline, agree.mail.counters,
        agree.mail.serial,
        agree.mail.total⟩
      calendars := agree.calendars
      contacts := items
      policies := agree.policies
      keys := agree.keys }⟩

/-- Events or contacts are listed alike where the owner has a mailbox and is named as it is stored,
or has nothing to be listed. -/
def ListsAlike (libs : Libs) (m : Memory) (items : StrMap (StrMap Item)) (owner : Str) : Prop :=
  (m.find libs owner).isSome ∧ (owner ≠ normal libs owner → items[normal libs owner]?.getD ∅ = ∅)

theorem Agree.listItems (agree : Agree libs n m p) (r : Readings) (owner : Str)
    (mem pg : StrMap (StrMap Item)) (items : Items (emails m.mailboxes) mem pg)
    (shared : ListsAlike libs m mem owner) :
    Alike (Memory.listItems libs r mem owner) (p.listItems libs r pg owner) := by
  obtain ⟨mb, found⟩ := Option.isSome_iff_exists.mp shared.1
  unfold Memory.listItems Postgres.listItems
  rw [agree.boxes.select_eq, found]
  change List.Perm (List.map Item.data _) (List.map Item.data _)
  have listed := items.listed mb.mailbox.id _ (agree.emails_of_find owner mb found)
  rw [List.map_map, List.map_map]
  refine ((r.itemOrder.perm _).map _).trans (List.Perm.trans ?_ ((r.itemOrder.perm _).map _).symm)
  by_cases named : owner = normal libs owner
  · rw [← named] at listed ⊢
    exact List.Perm.of_eq listed
  · have empty := shared.2 named
    rw [empty] at listed ⊢
    have none_ : (pg[mb.mailbox.id]?.getD ∅).toList = [] := by
      have := congrArg List.length listed
      rw [List.length_map, List.length_map] at this
      exact List.eq_nil_of_length_eq_zero (this.symm.trans (by simp))
    rw [none_]
    simp

/-- An event that is found is found alike where the owner is named as it is stored. -/
def GetsAlike (libs : Libs) (m : Memory) (owner uid : Str) : Prop :=
  owner ≠ normal libs owner → (m.calendars[normal libs owner]?.getD ∅)[uid]? = none

theorem Agree.getCalendarEvent (agree : Agree libs n m p) (owner uid : Str)
    (shared : GetsAlike libs m owner uid) :
    Alike (m.getCalendarEvent libs owner uid) (p.getCalendarEvent libs owner uid) := by
  unfold Memory.getCalendarEvent Postgres.getCalendarEvent
  rw [agree.boxes.select_eq]
  cases found : m.find libs owner with
  | none =>
      have nobody : ∀ id, emails m.mailboxes id ≠ some (normal libs owner) := by
        intro id named
        obtain ⟨mb, stored, email⟩ := Option.map_eq_some_iff.mp named
        have here := (agree.boxes.find_iff owner mb).mpr
          ⟨by rw [agree.boxes.keyed id mb stored]; exact stored, email⟩
        rw [found] at here
        cases here
      rw [agree.calendars.nobody _ nobody, Std.ExtTreeMap.getElem?_empty]
      exact rfl
  | some mb =>
      have same := agree.calendars.same mb.mailbox.id _ (agree.emails_of_find owner mb found) uid
      dsimp only
      cases mem : (m.calendars[normal libs owner]?.getD ∅)[uid]? with
      | none =>
          rw [mem, Option.map_none] at same
          rw [Option.map_eq_none_iff.mp same.symm]
          exact rfl
      | some ev =>
          have named : owner = normal libs owner := by
            by_contra other
            rw [shared other] at mem
            cases mem
          rw [mem, Option.map_some] at same
          obtain ⟨row, stored, data⟩ := Option.map_eq_some_iff.mp same.symm
          rw [stored]
          change ev.data = Item.data { row with owner := owner }
          rw [← data, ← named]
          rfl

/-- Only one owner has an event of the uid. -/
def OneOwner (m : Memory) (uid : Str) : Prop :=
  ∀ a b : Str, uid ∈ m.calendars[a]?.getD ∅ → uid ∈ m.calendars[b]?.getD ∅ → a = b

theorem Agree.findCalendarEventByUID (agree : Agree libs n m p) (r : Readings) (uid : Str)
    (shared : OneOwner m uid) :
    Alike (m.findCalendarEventByUID r uid) (p.findCalendarEventByUID r uid) := by
  unfold Memory.findCalendarEventByUID Postgres.findCalendarEventByUID
  -- What either finds, the other side has as well, under the same email.
  have memory (entry : Str × StrMap Item) (ev : Item) (member : entry ∈ m.calendars.toList)
      (here : entry.2[uid]? = some ev) : ∃ id row, emails m.mailboxes id = some entry.1 ∧
        (p.calendarEvents[id]?.getD ∅)[uid]? = some row ∧
          ev.data = (entry.1, row.uid, row.text) := by
    have stored := Std.ExtTreeMap.mem_toList_iff_getElem?_eq_some.mp member
    have owned : ∃ id, emails m.mailboxes id = some entry.1 := by
      by_contra nobody
      have empty := agree.calendars.nobody entry.1 (fun id named => nobody ⟨id, named⟩)
      rw [stored, Option.getD_some] at empty
      rw [empty, Std.ExtTreeMap.getElem?_empty] at here
      cases here
    obtain ⟨id, named⟩ := owned
    have same := agree.calendars.same id entry.1 named uid
    rw [stored, Option.getD_some, here, Option.map_some] at same
    obtain ⟨row, found, data⟩ := Option.map_eq_some_iff.mp same.symm
    exact ⟨id, row, named, found, data.symm⟩
  have table (entry : Str × StrMap Item) (row : Item) (mb : MailboxRec)
      (member : entry ∈ p.calendarEvents.toList)
      (here : entry.2[uid]? = some row) (known : p.mailboxes[entry.1]? = some mb) :
      ∃ ev, (m.calendars[mb.mailbox.email]?.getD ∅)[uid]? = some ev ∧
        ev.data = (mb.mailbox.email, row.uid, row.text) := by
    have stored := Std.ExtTreeMap.mem_toList_iff_getElem?_eq_some.mp member
    rw [agree.boxes.same] at known
    have named : emails m.mailboxes entry.1 = some mb.mailbox.email := by
      unfold emails
      rw [known, Option.map_some]
    have same := agree.calendars.same entry.1 mb.mailbox.email named uid
    rw [stored, Option.getD_some, here, Option.map_some] at same
    exact Option.map_eq_some_iff.mp same
  cases mem : (r.ownerOrder.visit m.calendars.toList).findSome? fun events =>
      events.2[uid]?.map fun ev => { ev with owner := events.1 } with
  | none =>
      rw [List.findSome?_eq_none_iff] at mem
      cases pg : (r.ownerOrder.visit p.calendarEvents.toList).findSome? fun rows =>
          rows.2[uid]?.bind fun row =>
            p.mailboxes[rows.1]?.map fun mb => { row with owner := mb.mailbox.email } with
      | none => exact rfl
      | some found =>
          obtain ⟨entry, member, here⟩ := List.exists_of_findSome?_eq_some pg
          obtain ⟨row, stored, joined⟩ := Option.bind_eq_some_iff.mp here
          obtain ⟨mb, known, -⟩ := Option.map_eq_some_iff.mp joined
          obtain ⟨ev, held, -⟩ :=
            table entry row mb ((r.ownerOrder.mem_visit _ _).mp member) stored known
          cases owned : m.calendars[mb.mailbox.email]? with
          | none =>
              rw [owned, Option.getD_none, Std.ExtTreeMap.getElem?_empty] at held
              cases held
          | some events =>
              rw [owned, Option.getD_some] at held
              have none_ := mem (mb.mailbox.email, events)
                ((r.ownerOrder.mem_visit _ _).mpr
                  (Std.ExtTreeMap.mem_toList_iff_getElem?_eq_some.mpr owned))
              rw [held] at none_
              cases none_
  | some found =>
      obtain ⟨entry, member, here⟩ := List.exists_of_findSome?_eq_some mem
      obtain ⟨ev, held, rfl⟩ := Option.map_eq_some_iff.mp here
      have listed := (r.ownerOrder.mem_visit _ _).mp member
      cases pg : (r.ownerOrder.visit p.calendarEvents.toList).findSome? fun rows =>
          rows.2[uid]?.bind fun row =>
            p.mailboxes[rows.1]?.map fun mb => { row with owner := mb.mailbox.email } with
      | none =>
          rw [List.findSome?_eq_none_iff] at pg
          obtain ⟨id, row, named, stored, -⟩ := memory entry ev listed held
          obtain ⟨mb, known, -⟩ := Option.map_eq_some_iff.mp named
          rw [← agree.boxes.same] at known
          cases rows : p.calendarEvents[id]? with
          | none =>
              rw [rows, Option.getD_none, Std.ExtTreeMap.getElem?_empty] at stored
              cases stored
          | some table_ =>
              rw [rows, Option.getD_some] at stored
              have none_ := pg (id, table_)
                ((r.ownerOrder.mem_visit _ _).mpr
                  (Std.ExtTreeMap.mem_toList_iff_getElem?_eq_some.mpr rows))
              rw [stored, Option.bind_some, known] at none_
              cases none_
      | some other =>
          obtain ⟨entry', member', here'⟩ := List.exists_of_findSome?_eq_some pg
          obtain ⟨row, stored, joined⟩ := Option.bind_eq_some_iff.mp here'
          obtain ⟨mb, known, rfl⟩ := Option.map_eq_some_iff.mp joined
          obtain ⟨ev', held', data⟩ :=
            table entry' row mb ((r.ownerOrder.mem_visit _ _).mp member') stored known
          have owned := Std.ExtTreeMap.mem_toList_iff_getElem?_eq_some.mp listed
          have held'' : (m.calendars[entry.1]?.getD ∅)[uid]? = some ev := by
            rw [owned, Option.getD_some]
            exact held
          have same : entry.1 = mb.mailbox.email := by
            apply shared
            · exact Std.ExtTreeMap.mem_iff_isSome_getElem?.mpr (by rw [held'']; rfl)
            · exact Std.ExtTreeMap.mem_iff_isSome_getElem?.mpr (by rw [held']; rfl)
          rw [same] at held''
          have event : ev = ev' := Option.some.inj (held''.symm.trans held')
          change Item.data { ev with owner := entry.1 } = Item.data
            { row with owner := mb.mailbox.email }
          rw [same, event]
          unfold Item.data at data ⊢
          dsimp only
          rw [Prod.mk.injEq] at data
          rw [data.2]

/-! ### Policies and keys -/

theorem Agree.getPolicy (agree : Agree libs n m p) (tenantID : Str)
    (shared : ∀ pol ∈ m.policies[tenantID]?, pol.maxRecipients = 0 ∧ pol.attachmentExtDeny = []) :
    m.getPolicy tenantID = p.getPolicy tenantID := by
  unfold Memory.getPolicy Postgres.getPolicy
  rw [← agree.policies tenantID]
  cases found : m.policies[tenantID]? with
  | none => rfl
  | some pol =>
      obtain ⟨recipients, deny⟩ := shared pol found
      rw [Option.map_some]
      dsimp only [InlinePolicy.row]
      rw [← recipients, ← deny]

theorem Agree.putPolicy (agree : Agree libs n m p) (tenantID : Str) (policy : InlinePolicy)
    (shared : tenantID ≠ [] ∧ fitsText tenantID = true ∧ policy.fits = true) :
    (m.putPolicy tenantID policy).2 = (p.putPolicy tenantID policy).2 ∧
      Agree libs n (m.putPolicy tenantID policy).1 (p.putPolicy tenantID policy).1 := by
  have known : tenantID ∈ (p.insertTenant tenantID).tenants := by
    unfold Postgres.insertTenant
    dsimp only
    split
    · rename_i old
      exact old
    · exact List.mem_append_right _ (List.mem_singleton.mpr rfl)
  unfold Memory.putPolicy Postgres.putPolicy
  rw [ensureTenant_of_fitsText p tenantID shared.1 shared.2.1]
  dsimp only [Option.getD_some]
  rw [if_pos ⟨shared.2.2, shared.2.1, known⟩]
  refine ⟨rfl, ?_⟩
  exact
    { boxes := ⟨agree.boxes.same, agree.boxes.named, agree.boxes.keyed, agree.boxes.drawn⟩
      mail := ⟨agree.mail.same, agree.mail.nobody, agree.mail.inline, agree.mail.counters,
        agree.mail.serial,
        agree.mail.total⟩
      calendars := agree.calendars
      contacts := agree.contacts
      policies := agree.policies.put tenantID policy
      keys := agree.keys }

theorem Agree.getEASSyncKey (agree : Agree libs n m p) (deviceID mailboxID folderID : Str)
    (shared : Unmixed p.easKeys ⟨deviceID, mailboxID, folderID⟩) :
    m.getEASSyncKey deviceID mailboxID folderID = p.getEASSyncKey deviceID mailboxID folderID := by
  unfold Memory.getEASSyncKey Postgres.getEASSyncKey
  have same := agree.keys.get ⟨deviceID, mailboxID, folderID⟩ shared
  unfold EASKey.joined at same
  rw [same]
  rfl

theorem Agree.putEASSyncKey (agree : Agree libs n m p) (deviceID mailboxID folderID syncKey : Str)
    (shared : mailboxID ∈ m.mailboxes ∧
      (fitsText deviceID && fitsText folderID && fitsText syncKey) = true ∧
      Unmixed p.easKeys ⟨deviceID, mailboxID, folderID⟩) :
    (m.putEASSyncKey deviceID mailboxID folderID syncKey).2 =
        (p.putEASSyncKey deviceID mailboxID folderID syncKey).2 ∧
      Agree libs n (m.putEASSyncKey deviceID mailboxID folderID syncKey).1
        (p.putEASSyncKey deviceID mailboxID folderID syncKey).1 := by
  have known : mailboxID ∈ p.mailboxes := by
    rw [agree.boxes.same]
    exact shared.1
  unfold Memory.putEASSyncKey Postgres.putEASSyncKey
  rw [if_pos ⟨known, shared.2.1⟩]
  exact ⟨rfl,
    { boxes := ⟨agree.boxes.same, agree.boxes.named, agree.boxes.keyed, agree.boxes.drawn⟩
      mail := ⟨agree.mail.same, agree.mail.nobody, agree.mail.inline, agree.mail.counters,
        agree.mail.serial,
        agree.mail.total⟩
      calendars := agree.calendars
      contacts := agree.contacts
      policies := agree.policies
      keys := agree.keys.put ⟨deviceID, mailboxID, folderID⟩ syncKey shared.2.2 }⟩

end Calls

/-! ### Runs -/

/-- The two repositories after a number of calls. -/
structure Pair where
  calls : Nat := 0
  memory : Memory := {}
  postgres : Postgres := {}

section Run

variable (libs : Libs) (threshold : Option Nat)

/-- A call on both, each with the ids of its number. -/
def Pair.step (s : Pair) (input : Call × Readings) : Pair where
  calls := s.calls + 1
  memory := (s.memory.call libs { input.2 with serial := s.calls } input.1).1
  postgres := (s.postgres.call libs threshold { input.2 with serial := s.calls } input.1).1

end Run

section Sample

/-- Lower case of ASCII letters only, passwords kept as they are, ids counted by their length. -/
def sampleLibs : Libs where
  lower := fun s => s.map Char.toLower
  hashPassword := fun password _ => some password
  verifyPassword := fun hash password => hash == password
  uuid := fun n => List.replicate n 'u'
  distinct := by
    intro a b same
    have lengths := congrArg List.length same
    simpa using lengths

end Sample

end EraOne.MailRepos
