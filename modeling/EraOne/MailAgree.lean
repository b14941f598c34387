import EraOne.MailRepos
import EraOne.Runs

set_option autoImplicit false

/- When the two mail repositories answer alike: what relates their states, part by part, and which
calls keep it. -/
namespace EraOne.MailRepos

open MailRepo (Mailbox)
open Maps (getElem?_insert_eq)

/-! ### Alike -/

/-- An event or a contact without its generated id and time. -/
def Item.data (item : Item) : Str × Str × Str := (item.owner, item.uid, item.text)

/-- The same answer: lists read from a map come in any order, and generated ids and times are left
out. -/
def Alike : Answer → Answer → Prop
  | .mailboxes a, .mailboxes b => a.Perm b
  | .item a, .item b => a.data = b.data
  | .items a, .items b => (a.map Item.data).Perm (b.map Item.data)
  | a, b => a = b

/-- The email of the mailbox with an id. -/
def emails (mailboxes : StrMap MailboxRec) (id : Str) : Option Str :=
  mailboxes[id]?.map fun mb => mb.mailbox.email

/-- Mailboxes are the same, ids and emails name them, and ids come from the supply. -/
structure Boxes (libs : Libs) (n : Nat) (m : Memory) (p : Postgres) : Prop where
  same : p.mailboxes = m.mailboxes
  named : ∀ email id : Str, m.byEmail[email]? = some id ↔ emails m.mailboxes id = some email
  keyed : ∀ (id : Str) (mb : MailboxRec), m.mailboxes[id]? = some mb → mb.mailbox.id = id
  drawn : ∀ id : Str, id ∈ m.mailboxes → ∃ k < n, id = libs.uuid k

/-- A message as Postgres has it, which keeps no body. -/
def Message.bodiless (msg : Message) : Message := { msg with body := [] }

/-- A row without a blob as a message. -/
def MessageRow.plain (row : MessageRow) (email : Str) : Message := row.message none ∅ email

/-- The messages of every mailbox are the same, as far as Postgres keeps them, and so are the
counters. -/
structure Mail (emails : Str → Option Str) (m : Memory) (p : Postgres) : Prop where
  same : ∀ id email : Str, emails id = some email →
    (m.messages[id]?.getD []).map Message.bodiless = (p.rowsOf id).map fun row => row.plain email
  nobody : ∀ id : Str, emails id = none → m.messages[id]?.getD [] = [] ∧ p.rowsOf id = []
  inline : ∀ row ∈ p.messages, row.minioKey = none
  counters : ∀ id : Str, m.uidCounter[id]?.getD 0 = p.maxUID id
  serial : p.serial = m.msgSeq
  total : p.messages.length = m.msgSeq

/-- The events or contacts of every mailbox are the same, and nobody else has any. -/
structure Items (emails : Str → Option Str) (mem pg : StrMap (StrMap Item)) : Prop where
  same : ∀ id email : Str, emails id = some email → ∀ uid : Str,
    (mem[email]?.getD ∅)[uid]?.map Item.data =
      (pg[id]?.getD ∅)[uid]?.map fun row => (email, row.uid, row.text)
  nobody : ∀ email : Str, (∀ id, emails id ≠ some email) → mem[email]?.getD ∅ = ∅
  stored : ∀ id : Str, emails id = none → pg[id]?.getD ∅ = ∅

def Policies (mem : StrMap InlinePolicy) (pg : StrMap PolicyRow) : Prop :=
  ∀ tenantID : Str, mem[tenantID]?.map InlinePolicy.row = pg[tenantID]?

def EASKey.joined (k : EASKey) : Str := joinKey k.deviceID k.mailboxID k.folderID

def lookup (rows : List (EASKey × Str)) (k : EASKey) : Option Str :=
  (rows.find? (·.1 = k)).map Prod.snd

structure Keys (mem : StrMap Str) (pg : List (EASKey × Str)) : Prop where
  forth : ∀ (k : EASKey) (key : Str), lookup pg k = some key → mem[k.joined]? = some key
  back : ∀ joined key : Str, mem[joined]? = some key → ∃ k : EASKey, lookup pg k = some key ∧
    k.joined = joined

structure Agree (libs : Libs) (n : Nat) (m : Memory) (p : Postgres) : Prop where
  boxes : Boxes libs n m p
  mail : Mail (emails m.mailboxes) m p
  calendars : Items (emails m.mailboxes) m.calendars p.calendarEvents
  contacts : Items (emails m.mailboxes) m.contacts p.contacts
  policies : Policies m.policies p.tenantPolicies
  keys : Keys m.easKeys p.easKeys

section Boxes

variable {libs : Libs} {n : Nat} {m : Memory} {p : Postgres}

theorem Boxes.email_inj (boxes : Boxes libs n m p) {a b email : Str}
    (first : emails m.mailboxes a = some email) (second : emails m.mailboxes b = some email) :
    a = b :=
  Option.some.inj (((boxes.named email a).mpr first).symm.trans ((boxes.named email b).mpr second))

theorem Boxes.find_iff (boxes : Boxes libs n m p) (email : Str) (mb : MailboxRec) :
    m.find libs email = some mb ↔
      m.mailboxes[mb.mailbox.id]? = some mb ∧ mb.mailbox.email = normal libs email := by
  unfold Memory.find
  rw [Option.bind_eq_some_iff]
  constructor
  · intro ⟨id, named, found⟩
    have here := (boxes.named _ id).mp named
    unfold emails at here
    rw [found, Option.map_some, Option.some.injEq] at here
    rw [boxes.keyed id mb found]
    exact ⟨found, here⟩
  · intro ⟨found, email_⟩
    refine ⟨mb.mailbox.id, (boxes.named _ _).mpr ?_, found⟩
    unfold emails
    rw [found, Option.map_some, email_]

/-- Both look a mailbox up alike. -/
theorem Boxes.select_eq (boxes : Boxes libs n m p) (email : Str) :
    p.select libs email = m.find libs email := by
  unfold Postgres.select
  rw [boxes.same]
  cases found : m.mailboxes.toList.find? (·.2.mailbox.email = normal libs email) with
  | some entry =>
      have email_ : entry.2.mailbox.email = normal libs email := by
        simpa using List.find?_some found
      have member :=
        Std.ExtTreeMap.mem_toList_iff_getElem?_eq_some.mp (List.mem_of_find?_eq_some found)
      rw [Option.map_some]
      symm
      rw [boxes.find_iff, boxes.keyed entry.1 entry.2 member]
      exact ⟨member, email_⟩
  | none =>
      rw [Option.map_none]
      symm
      rw [Option.eq_none_iff_forall_ne_some]
      intro mb here
      obtain ⟨stored, email_⟩ := (boxes.find_iff email mb).mp here
      have absent :=
        List.find?_eq_none.mp found _ (Std.ExtTreeMap.mem_toList_iff_getElem?_eq_some.mpr stored)
      simp [email_] at absent

theorem Boxes.next (boxes : Boxes libs n m p) : Boxes libs (n + 1) m p where
  same := boxes.same
  named := boxes.named
  keyed := boxes.keyed
  drawn id member := by
    obtain ⟨k, below, drawn⟩ := boxes.drawn id member
    exact ⟨k, Nat.lt_succ_of_lt below, drawn⟩

theorem emails_update (mailboxes : StrMap MailboxRec) (old mb : MailboxRec) (id : Str)
    (found : mailboxes[id]? = some old) (email : mb.mailbox.email = old.mailbox.email) :
    emails (mailboxes.insert id mb) = emails mailboxes := by
  funext other
  unfold emails
  rw [getElem?_insert_eq]
  split
  · rename_i same
    rw [same, found, Option.map_some, Option.map_some, email]
  · rfl

/-- A mailbox is changed, but for its id and email. -/
theorem Boxes.update (boxes : Boxes libs n m p) (old mb : MailboxRec) (id : Str)
    (found : m.mailboxes[id]? = some old) (email : mb.mailbox.email = old.mailbox.email)
    (id_ : mb.mailbox.id = id) :
    Boxes libs n { m with mailboxes := m.mailboxes.insert id mb }
      { p with mailboxes := p.mailboxes.insert id mb } where
  same := by
    dsimp only
    rw [boxes.same]
  named := by
    dsimp only
    rw [emails_update m.mailboxes old mb id found email]
    exact boxes.named
  keyed := by
    dsimp only
    intro other stored
    rw [getElem?_insert_eq]
    split
    · rename_i same
      rintro ⟨⟩
      rw [id_, same]
    · exact boxes.keyed other stored
  drawn := by
    dsimp only
    intro other member
    rw [Std.ExtTreeMap.mem_insert] at member
    rcases member with same | member
    · rw [← Std.LawfulEqCmp.eq_of_compare same]
      exact boxes.drawn id (Std.ExtTreeMap.mem_iff_isSome_getElem?.mpr (by rw [found]; rfl))
    · exact boxes.drawn other member

theorem emails_create (mailboxes : StrMap MailboxRec) (mb : MailboxRec) (id : Str) :
    emails (mailboxes.insert id mb) = fun other => if other = id then some mb.mailbox.email
      else emails mailboxes other := by
  funext other
  unfold emails
  rw [getElem?_insert_eq]
  split <;> rfl

theorem Boxes.fresh (boxes : Boxes libs n m p) : libs.uuid n ∉ m.mailboxes := by
  intro member
  obtain ⟨k, below, same⟩ := boxes.drawn _ member
  have := libs.distinct same
  omega

theorem emails_eq_none (mailboxes : StrMap MailboxRec) (id : Str) :
    emails mailboxes id = none ↔ id ∉ mailboxes := by
  unfold emails
  rw [Option.map_eq_none_iff, Std.ExtTreeMap.mem_iff_isSome_getElem?, Option.not_isSome_iff_eq_none]

/-- A mailbox of a new id and a new email. -/
theorem Boxes.create (boxes : Boxes libs n m p) (mb : MailboxRec)
    (id_ : mb.mailbox.id = libs.uuid n) (free : mb.mailbox.email ∉ m.byEmail) :
    Boxes libs (n + 1)
      { m with
        mailboxes := m.mailboxes.insert (libs.uuid n) mb
        byEmail := m.byEmail.insert mb.mailbox.email (libs.uuid n) }
      { p with mailboxes := p.mailboxes.insert (libs.uuid n) mb } where
  same := by
    dsimp only
    rw [boxes.same]
  named := by
    dsimp only
    intro email id
    have unnamed : emails m.mailboxes (libs.uuid n) = none :=
      (emails_eq_none _ _).mpr boxes.fresh
    rw [getElem?_insert_eq, emails_create]
    dsimp only
    have old := boxes.named email id
    by_cases same : email = mb.mailbox.email
    · subst same
      rw [if_pos rfl]
      by_cases here : id = libs.uuid n
      · simp [here]
      · have other : ¬ emails m.mailboxes id = some mb.mailbox.email := by
          rw [← old, Std.ExtTreeMap.getElem?_eq_none free]
          nofun
        simp [here, other, Ne.symm here]
    · rw [if_neg same, old]
      by_cases here : id = libs.uuid n
      · rw [if_pos here, here, unnamed]
        simp [Ne.symm same]
      · rw [if_neg here]
  keyed := by
    dsimp only
    intro id stored
    rw [getElem?_insert_eq]
    split
    · rename_i same
      rintro ⟨⟩
      rw [id_, same]
    · exact boxes.keyed id stored
  drawn := by
    dsimp only
    intro id member
    rw [Std.ExtTreeMap.mem_insert] at member
    rcases member with same | member
    · exact ⟨n, Nat.lt_succ_self n, (Std.LawfulEqCmp.eq_of_compare same).symm⟩
    · obtain ⟨k, below, drawn⟩ := boxes.drawn id member
      exact ⟨k, Nat.lt_succ_of_lt below, drawn⟩

end Boxes

/-! ### Events and contacts -/

section Items

variable {emails : Str → Option Str} {mem pg : StrMap (StrMap Item)}

theorem Items.create (items : Items emails mem pg) (id email : Str) (fresh : emails id = none)
    (free : ∀ other, emails other ≠ some email) :
    Items (fun other => if other = id then some email else emails other) mem pg where
  same := by
    intro other email' named uid
    by_cases here : other = id
    · rw [if_pos here, Option.some.injEq] at named
      rw [← named, here, items.nobody email free, items.stored id fresh]
      rfl
    · rw [if_neg here] at named
      exact items.same other email' named uid
  nobody := by
    intro email' absent
    apply items.nobody
    intro other named
    have here := absent other
    split at here
    · rename_i same
      rw [same, fresh] at named
      cases named
    · exact here named
  stored := by
    intro other missing
    split at missing
    · cases missing
    · exact items.stored other missing

theorem Items.put (items : Items emails mem pg) (id email uid : Str)
    (named : emails id = some email) (distinct : ∀ other, emails other = some email → other = id)
    (item row : Item) (data : item.data = (email, row.uid, row.text)) :
    Items emails (mem.insert email ((mem[email]?.getD ∅).insert uid item))
      (pg.insert id ((pg[id]?.getD ∅).insert uid row)) where
  same := by
    intro other email' named' uid'
    rw [getElem?_insert_eq, getElem?_insert_eq]
    by_cases here : other = id
    · have email_ : email' = email := by
        rw [here, named, Option.some.injEq] at named'
        exact named'.symm
      rw [if_pos here, if_pos email_, Option.getD_some, Option.getD_some, getElem?_insert_eq,
        getElem?_insert_eq, email_]
      split
      · rw [Option.map_some, Option.map_some, data]
      · exact items.same id email named uid'
    · have email_ : email' ≠ email := by
        rintro rfl
        exact here (distinct other named')
      rw [if_neg here, if_neg email_]
      exact items.same other email' named' uid'
  nobody := by
    intro email' absent
    rw [getElem?_insert_eq, if_neg]
    · exact items.nobody email' absent
    · rintro rfl
      exact absent id named
  stored := by
    intro other missing
    rw [getElem?_insert_eq, if_neg]
    · exact items.stored other missing
    · rintro rfl
      rw [named] at missing
      cases missing

/-- What is listed of a mailbox is the same. -/
theorem Items.listed (items : Items emails mem pg) (id email : Str)
    (named : emails id = some email) :
    (mem[email]?.getD ∅).toList.map (fun entry => entry.2.data) =
      (pg[id]?.getD ∅).toList.map fun row => (email, row.2.uid, row.2.text) := by
  have whole : ((mem[email]?.getD ∅).map fun _ item => item.data) =
      (pg[id]?.getD ∅).map fun _ row => (email, row.uid, row.text) := by
    apply Std.ExtTreeMap.ext_getElem?
    intro uid
    rw [Std.ExtTreeMap.getElem?_map, Std.ExtTreeMap.getElem?_map]
    exact items.same id email named uid
  have lists := congrArg (fun map => map.toList.map Prod.snd) whole
  rw [Std.ExtTreeMap.toList_map, Std.ExtTreeMap.toList_map, List.map_map, List.map_map] at lists
  exact lists

end Items

/-! ### Keys and policies -/

theorem Policies.put {mem : StrMap InlinePolicy} {pg : StrMap PolicyRow}
    (policies : Policies mem pg) (tenantID : Str) (policy : InlinePolicy) :
    Policies (mem.insert tenantID policy) (pg.insert tenantID policy.row) := by
  intro other
  rw [getElem?_insert_eq, getElem?_insert_eq]
  split
  · rfl
  · exact policies other

theorem lookup_put (rows : List (EASKey × Str)) (k other : EASKey) (key : Str) :
    lookup ((k, key) :: rows.filter (·.1 ≠ k)) other = if other = k then some key
      else lookup rows other := by
  unfold lookup
  by_cases same : other = k
  · simp [same]
  · rw [if_neg same, List.find?_cons_of_neg (by simpa using Ne.symm same)]
    congr 1
    induction rows with
    | nil => rfl
    | cons row rows ih =>
        by_cases here : row.1 = k
        · rw [List.filter_cons_of_neg (by simpa using here), ih, List.find?_cons_of_neg]
          simpa [here] using Ne.symm same
        · rw [List.filter_cons_of_pos (by simpa using here), List.find?_cons, List.find?_cons, ih]

/-- No other triple that is stored is joined to the same text. -/
def Unmixed (rows : List (EASKey × Str)) (k : EASKey) : Prop :=
  ∀ row ∈ rows, row.1.joined = k.joined → row.1 = k

theorem mem_of_lookup (rows : List (EASKey × Str)) (k : EASKey) (key : Str)
    (found : lookup rows k = some key) :
    (k, key) ∈ rows := by
  obtain ⟨row, first, value⟩ := Option.map_eq_some_iff.mp found
  have same : row.1 = k := by simpa using List.find?_some first
  have member := List.mem_of_find?_eq_some first
  rw [← same, ← value]
  exact member

theorem Keys.get {mem : StrMap Str} {pg : List (EASKey × Str)} (keys : Keys mem pg) (k : EASKey)
    (unmixed : Unmixed pg k) : mem[k.joined]? = lookup pg k := by
  cases found : mem[k.joined]? with
  | some key =>
      obtain ⟨other, stored, joined⟩ := keys.back _ _ found
      have same : other = k := unmixed _ (mem_of_lookup pg other key stored) joined
      rw [same] at stored
      exact stored.symm
  | none =>
      symm
      rw [Option.eq_none_iff_forall_ne_some]
      intro key stored
      rw [keys.forth k key stored] at found
      cases found

theorem Keys.put {mem : StrMap Str} {pg : List (EASKey × Str)} (keys : Keys mem pg) (k : EASKey)
    (key : Str) (unmixed : Unmixed pg k) :
    Keys (mem.insert k.joined key) ((k, key) :: pg.filter (·.1 ≠ k)) where
  forth := by
    intro other value
    rw [lookup_put, getElem?_insert_eq]
    by_cases same : other = k
    · rw [if_pos same, if_pos (by rw [same])]
      exact id
    · rw [if_neg same]
      intro stored
      rw [if_neg]
      · exact keys.forth other value stored
      · intro joined
        exact same (unmixed _ (mem_of_lookup pg other value stored) joined)
  back := by
    intro joined value
    rw [getElem?_insert_eq]
    split
    · rename_i same
      intro value_
      exact ⟨k, by rw [lookup_put, if_pos rfl]; exact value_, same.symm⟩
    · rename_i apart
      intro found
      obtain ⟨other, stored, here⟩ := keys.back joined value found
      refine ⟨other, ?_, here⟩
      rw [lookup_put, if_neg, stored]
      rintro rfl
      exact apart here.symm

/-! ### Messages -/

section Mail

variable {emails : Str → Option Str} {m : Memory} {p : Postgres}

theorem rowsOf_append (p q : Postgres) (row : MessageRow) (id : Str)
    (messages : q.messages = p.messages ++ [row]) :
    q.rowsOf id = p.rowsOf id ++ if row.mailboxID = id then [row] else [] := by
  unfold Postgres.rowsOf
  rw [messages, List.filter_append]
  by_cases same : row.mailboxID = id <;> simp [same]

theorem maxUID_append (p q : Postgres) (row : MessageRow) (id : Str)
    (messages : q.messages = p.messages ++ [row]) :
    q.maxUID id = if row.mailboxID = id then max (p.maxUID id) row.uid else p.maxUID id := by
  unfold Postgres.maxUID
  rw [rowsOf_append p q row id messages]
  split
  · rw [List.map_append, List.foldl_append]
    rfl
  · rw [List.append_nil]

theorem Mail.create (mail : Mail emails m p) (id email : Str) (fresh : emails id = none) :
    Mail (fun other => if other = id then some email else emails other) m p where
  same := by
    intro other email' named
    by_cases here : other = id
    · rw [here, (mail.nobody id fresh).1, (mail.nobody id fresh).2]
      rfl
    · rw [if_neg here] at named
      exact mail.same other email' named
  nobody := by
    intro other missing
    split at missing
    · cases missing
    · exact mail.nobody other missing
  inline := mail.inline
  counters := mail.counters
  serial := mail.serial
  total := mail.total

/-- A message is delivered to a mailbox: the same on both sides, with the next uid. -/
theorem Mail.deliver (mail : Mail emails m p) (id email : Str) (named : emails id = some email)
    (msg : Message) (row : MessageRow) (mailboxes : StrMap MailboxRec) (q : Postgres)
    (read : row.plain email = msg.bodiless) (own : row.mailboxID = id)
    (inline : row.minioKey = none) (uid : row.uid = p.maxUID id + 1)
    (messages : q.messages = p.messages ++ [row]) (serial : q.serial = p.serial + 1) :
    Mail emails
      { m with
        msgSeq := m.msgSeq + 1
        uidCounter := m.uidCounter.insert id (m.uidCounter[id]?.getD 0 + 1)
        messages := m.messages.insert id (m.messages[id]?.getD [] ++ [msg])
        mailboxes := mailboxes } q where
  same := by
    dsimp only
    intro other email' named'
    rw [getElem?_insert_eq, rowsOf_append p q row other messages, own]
    by_cases here : other = id
    · subst here
      rw [named, Option.some.injEq] at named'
      subst named'
      rw [if_pos rfl, if_pos rfl, Option.getD_some, List.map_append, List.map_append,
        mail.same other email named, List.map_singleton, List.map_singleton, read]
    · rw [if_neg here, if_neg (Ne.symm here), List.append_nil]
      exact mail.same other email' named'
  nobody := by
    dsimp only
    intro other missing
    have here : other ≠ id := by
      rintro rfl
      rw [named] at missing
      cases missing
    rw [getElem?_insert_eq, if_neg here, rowsOf_append p q row other messages, own,
      if_neg (Ne.symm here), List.append_nil]
    exact mail.nobody other missing
  inline := by
    intro other member
    rw [messages, List.mem_append, List.mem_singleton] at member
    rcases member with old | rfl
    · exact mail.inline other old
    · exact inline
  counters := by
    dsimp only
    intro other
    rw [getElem?_insert_eq, maxUID_append p q row other messages, own]
    by_cases here : other = id
    · subst here
      rw [if_pos rfl, if_pos rfl, Option.getD_some, mail.counters other, uid]
      omega
    · rw [if_neg here, if_neg (Ne.symm here)]
      exact mail.counters other
  serial := by
    rw [serial, mail.serial]
  total := by
    rw [messages, List.length_append, mail.total]
    rfl

/-- What an EWS message gets once it is delivered. -/
def subjectAndBody (id : Nat) (subject body : Str) (msg : Message) : Message :=
  if msg.id = id then { msg with subject := subject, body := body } else msg

def subjectOnly (id : Nat) (subject : Str) (row : MessageRow) : MessageRow :=
  if row.id = id then { row with subject := some subject } else row

theorem bodiless_subject (id : Nat) (subject body : Str) (msg : Message) :
    (subjectAndBody id subject body msg).bodiless = subjectAndBody id subject [] msg.bodiless := by
  unfold subjectAndBody Message.bodiless
  dsimp only
  split <;> rfl

theorem plain_subject (id : Nat) (subject email : Str) (row : MessageRow) :
    (subjectOnly id subject row).plain email = subjectAndBody id subject [] (row.plain email) := by
  unfold subjectOnly subjectAndBody MessageRow.plain MessageRow.message
  dsimp only
  split <;> rfl

theorem rowsOf_subject (p q : Postgres) (i : Nat) (subject id : Str)
    (messages : q.messages = p.messages.map (subjectOnly i subject)) :
    q.rowsOf id = (p.rowsOf id).map (subjectOnly i subject) := by
  unfold Postgres.rowsOf
  rw [messages, List.filter_map]
  congr 1
  apply List.filter_congr
  intro row _
  unfold subjectOnly
  dsimp only [Function.comp]
  split <;> rfl

theorem Mail.subject (mail : Mail emails m p) (i : Nat) (subject body : Str) (q : Postgres)
    (messages : q.messages = p.messages.map (subjectOnly i subject))
    (serial : q.serial = p.serial) :
    Mail emails
      { m with messages := m.messages.map fun _ msgs => msgs.map (subjectAndBody i subject body) }
        q where
  same := by
    dsimp only
    intro id email named
    have before := congrArg (List.map (subjectAndBody i subject [])) (mail.same id email named)
    rw [List.map_map, List.map_map] at before
    rw [Std.ExtTreeMap.getElem?_map, rowsOf_subject p q i subject id messages, List.map_map]
    have heads :
        ((m.messages[id]?.map fun msgs => msgs.map (subjectAndBody i subject body)).getD []) =
          (m.messages[id]?.getD []).map (subjectAndBody i subject body) := by
      cases m.messages[id]? <;> rfl
    rw [heads, List.map_map]
    calc (m.messages[id]?.getD []).map (Message.bodiless ∘ subjectAndBody i subject body)
        = (m.messages[id]?.getD []).map (subjectAndBody i subject [] ∘ Message.bodiless) :=
          List.map_congr_left fun msg _ => bodiless_subject i subject body msg
      _ = (p.rowsOf id).map (subjectAndBody i subject [] ∘ fun row => row.plain email) := before
      _ = (p.rowsOf id).map ((fun row => row.plain email) ∘ subjectOnly i subject) :=
          List.map_congr_left fun row _ => (plain_subject i subject email row).symm
  nobody := by
    dsimp only
    intro id missing
    obtain ⟨none_, rows⟩ := mail.nobody id missing
    rw [Std.ExtTreeMap.getElem?_map, rowsOf_subject p q i subject id messages, rows]
    refine ⟨?_, rfl⟩
    cases found : m.messages[id]? with
    | none => rfl
    | some msgs =>
        rw [found, Option.getD_some] at none_
        rw [none_]
        rfl
  inline := by
    intro row member
    rw [messages, List.mem_map] at member
    obtain ⟨old, inside, rfl⟩ := member
    unfold subjectOnly
    split <;> exact mail.inline old inside
  counters := by
    intro id
    unfold Postgres.maxUID
    rw [rowsOf_subject p q i subject id messages, List.map_map]
    have uids : (p.rowsOf id).map (MessageRow.uid ∘ subjectOnly i subject) = (p.rowsOf id).map
        MessageRow.uid := by
      apply List.map_congr_left
      intro row _
      unfold subjectOnly
      dsimp only [Function.comp]
      split <;> rfl
    rw [uids]
    exact mail.counters id
  serial := by
    rw [serial]
    exact mail.serial
  total := by
    rw [messages, List.length_map]
    exact mail.total

end Mail

/-! ### Calls -/

section Calls

variable {libs : Libs} {n : Nat} {m : Memory} {p : Postgres}

theorem Agree.next (agree : Agree libs n m p) : Agree libs (n + 1) m p :=
  { agree with boxes := agree.boxes.next }

theorem Agree.insertTenant (agree : Agree libs n m p) (tenantID : Str) :
    Agree libs n m (p.insertTenant tenantID) where
  boxes := ⟨agree.boxes.same, agree.boxes.named, agree.boxes.keyed, agree.boxes.drawn⟩
  mail := ⟨agree.mail.same, agree.mail.nobody, agree.mail.inline, agree.mail.counters,
    agree.mail.serial,
    agree.mail.total⟩
  calendars := agree.calendars
  contacts := agree.contacts
  policies := agree.policies
  keys := agree.keys

theorem ensureTenant_of_fitsText (p : Postgres) (tenantID : Str) (named : tenantID ≠ [])
    (fits : fitsText tenantID = true) :
    p.ensureTenant tenantID = some (p.insertTenant tenantID) := by
  unfold Postgres.ensureTenant
  dsimp only
  rw [if_neg named, if_pos fits]

theorem Agree.emails_of_find (agree : Agree libs n m p) (email : Str) (mb : MailboxRec)
    (found : m.find libs email = some mb) :
    emails m.mailboxes mb.mailbox.id = some (normal libs email) := by
  obtain ⟨stored, email_⟩ := (agree.boxes.find_iff email mb).mp found
  unfold emails
  rw [stored, Option.map_some, email_]

theorem Agree.update (agree : Agree libs n m p) (old mb : MailboxRec) (email : Str)
    (found : m.find libs email = some old) (email_ : mb.mailbox.email = old.mailbox.email)
    (id_ : mb.mailbox.id = old.mailbox.id) :
    Agree libs n { m with mailboxes := m.mailboxes.insert old.mailbox.id mb }
      { p with mailboxes := p.mailboxes.insert old.mailbox.id mb } := by
  have stored := ((agree.boxes.find_iff email old).mp found).1
  have same := emails_update m.mailboxes old mb old.mailbox.id stored email_
  exact
    { boxes := agree.boxes.update old mb old.mailbox.id stored email_ id_
      mail := by
        dsimp only
        rw [same]
        exact ⟨agree.mail.same, agree.mail.nobody, agree.mail.inline, agree.mail.counters,
          agree.mail.serial,
          agree.mail.total⟩
      calendars := by
        dsimp only
        rw [same]
        exact agree.calendars
      contacts := by
        dsimp only
        rw [same]
        exact agree.contacts
      policies := agree.policies
      keys := agree.keys }

/-- An email is taken in both or in neither. -/
theorem Agree.taken_iff (agree : Agree libs n m p) (email : Str) :
    p.mailboxes.toList.any (·.2.mailbox.email = email) = true ↔ email ∈ m.byEmail := by
  rw [agree.boxes.same, List.any_eq_true, Std.ExtTreeMap.mem_iff_isSome_getElem?,
    Option.isSome_iff_exists]
  constructor
  · intro ⟨entry, member, here⟩
    refine ⟨entry.1, (agree.boxes.named email entry.1).mpr ?_⟩
    unfold emails
    rw [Std.ExtTreeMap.mem_toList_iff_getElem?_eq_some.mp member, Option.map_some]
    exact congrArg some (of_decide_eq_true here)
  · intro ⟨id, named⟩
    obtain ⟨mb, stored, here⟩ := Option.map_eq_some_iff.mp ((agree.boxes.named email id).mp named)
    exact ⟨(id, mb), Std.ExtTreeMap.mem_toList_iff_getElem?_eq_some.mpr stored, decide_eq_true here⟩

/-- A mailbox is created alike when its email is one, and its tenant named, both without U+0000, or
it is taken. -/
theorem Agree.createMailbox (agree : Agree libs n m p) (r : Readings) (serial : r.serial = n)
    (tenantID email password : Str) (quotaBytes : Int)
    (shared : ∀ hash ∈ libs.hashPassword password r.salt,
      (normal libs email ≠ [] ∧ '@' ∈ normal libs email) ∧
        ((tenantID ≠ [] ∧ fitsText tenantID ∧ fitsText (normal libs email)) ∨
          normal libs email ∈ m.byEmail)) :
    Alike (m.createMailbox libs r tenantID email password quotaBytes).2
        (p.createMailbox libs r tenantID email password quotaBytes).2 ∧
      Agree libs (n + 1) (m.createMailbox libs r tenantID email password quotaBytes).1
        (p.createMailbox libs r tenantID email password quotaBytes).1 := by
  unfold Memory.createMailbox Postgres.createMailbox
  dsimp only
  cases hashed : libs.hashPassword password r.salt with
  | none =>
      split
      · exact ⟨rfl, agree.next⟩
      · exact ⟨rfl, agree.next⟩
  | some hash =>
      obtain ⟨⟨some_, at_⟩, named⟩ := shared hash hashed
      rw [if_neg (by rintro (empty | missing); exacts [some_ empty, missing at_])]
      dsimp only
      by_cases taken : normal libs email ∈ m.byEmail
      · rw [if_pos taken]
        unfold Postgres.ensureTenant
        dsimp only
        split
        · exact ⟨rfl, agree.next⟩
        · rename_i q ensured
          obtain ⟨-, same⟩ := Option.ite_none_right_eq_some.mp ensured
          rw [← Option.some.inj same]
          rw [if_pos (Or.inr (Or.inl (((agree.insertTenant _).taken_iff _).mpr taken)))]
          exact ⟨rfl, (agree.insertTenant _).next⟩
      · obtain ⟨tenant, fits, plain⟩ := named.resolve_right taken
        have fresh : libs.uuid n ∉ (p.insertTenant tenantID).mailboxes := by
          rw [(agree.insertTenant tenantID).boxes.same]
          exact agree.boxes.fresh
        rw [if_neg tenant, if_neg taken, ensureTenant_of_fitsText p tenantID tenant fits]
        dsimp only
        rw [if_neg, serial]
        · refine ⟨rfl, ?_⟩
          have unnamed := (emails_eq_none m.mailboxes _).mpr agree.boxes.fresh
          have free (other : Str) : emails m.mailboxes other ≠ some (normal libs email) := by
            intro here
            have := (agree.boxes.named _ _).mpr here
            rw [Std.ExtTreeMap.getElem?_eq_none taken] at this
            cases this
          have box := (agree.insertTenant tenantID).boxes.create
            ⟨⟨libs.uuid n, tenantID, normal libs email, quotaBytes, 0, true⟩, hash⟩ rfl taken
          have mail := agree.mail.create (libs.uuid n) (normal libs email) unnamed
          have calendars := agree.calendars.create (libs.uuid n) (normal libs email) unnamed free
          have contacts := agree.contacts.create (libs.uuid n) (normal libs email) unnamed free
          exact
            { boxes := box
              mail := by
                dsimp only
                rw [emails_create]
                exact ⟨mail.same, mail.nobody, mail.inline, mail.counters, mail.serial, mail.total⟩
              calendars := by
                dsimp only
                rw [emails_create]
                exact calendars
              contacts := by
                dsimp only
                rw [emails_create]
                exact contacts
              policies := agree.policies
              keys := agree.keys }
        · rw [serial]
          rintro (known | used | refused)
          · exact fresh known
          · exact taken (((agree.insertTenant tenantID).taken_iff _).mp used)
          · exact refused plain

theorem Agree.updateMailbox (agree : Agree libs n m p) (r : Readings) (email : Str)
    (patch : MailboxPatch) :
    Alike (m.updateMailbox libs r email patch).2 (p.updateMailbox libs r email patch).2 ∧
      Agree libs (n + 1) (m.updateMailbox libs r email patch).1
        (p.updateMailbox libs r email patch).1 := by
  unfold Memory.updateMailbox Postgres.updateMailbox
  rw [agree.boxes.select_eq]
  cases found : m.find libs email with
  | none => exact ⟨rfl, agree.next⟩
  | some old =>
      dsimp only
      have written (hash : Str) :
          Alike (.mailbox (patch.apply old.mailbox))
              (({ p with
                  mailboxes := p.mailboxes.insert old.mailbox.id ⟨patch.apply old.mailbox, hash⟩ } :
                Postgres).answerMailbox libs email) ∧
            Agree libs (n + 1)
              { m with
                mailboxes := m.mailboxes.insert old.mailbox.id ⟨patch.apply old.mailbox, hash⟩ }
              { p with
                mailboxes :=
                  p.mailboxes.insert old.mailbox.id ⟨patch.apply old.mailbox, hash⟩ } := by
        have after := agree.update old ⟨patch.apply old.mailbox, hash⟩ email found rfl rfl
        have here : ({ m with
            mailboxes :=
              m.mailboxes.insert old.mailbox.id ⟨patch.apply old.mailbox, hash⟩ } : Memory).find
                libs email = some ⟨patch.apply old.mailbox, hash⟩ := by
          rw [after.boxes.find_iff]
          refine ⟨?_, ((agree.boxes.find_iff email old).mp found).2⟩
          exact Std.ExtTreeMap.getElem?_insert_self
        refine ⟨?_, after.next⟩
        unfold Postgres.answerMailbox
        rw [after.boxes.select_eq, here]
        exact rfl
      cases patch.password with
      | none => exact written old.passwordHash
      | some password =>
          dsimp only
          cases libs.hashPassword password r.salt with
          | none => exact ⟨rfl, agree.next⟩
          | some hash => exact written hash

theorem Agree.listMailboxes (agree : Agree libs n m p) (r : Readings) (tenantID : Str)
    (shared : fitsText tenantID = true) :
    Alike (m.listMailboxes r tenantID) (p.listMailboxes r tenantID) := by
  unfold Memory.listMailboxes Postgres.listMailboxes
  rw [if_pos shared, agree.boxes.same]
  apply List.Perm.map
  apply List.Perm.filter
  exact (r.mailboxOrder.perm _).trans (r.tableOrder.perm _).symm

theorem Agree.getMailboxByEmail (agree : Agree libs n m p) (email : Str) :
    m.getMailboxByEmail libs email = p.getMailboxByEmail libs email := by
  unfold Memory.getMailboxByEmail Postgres.getMailboxByEmail Postgres.answerMailbox
  rw [agree.boxes.select_eq]

/-- A password is verified alike where the mailbox is active, or the password wrong. -/
theorem Agree.verifyMailboxPassword (agree : Agree libs n m p) (email password : Str)
    (shared : ∀ mb ∈ m.find libs email, mb.mailbox.active = false →
      libs.verifyPassword mb.passwordHash password = false) :
    m.verifyMailboxPassword libs email password = p.verifyMailboxPassword libs email password := by
  unfold Memory.verifyMailboxPassword Postgres.verifyMailboxPassword
  rw [agree.boxes.select_eq]
  cases found : m.find libs email with
  | none => rfl
  | some mb =>
      dsimp only
      cases active : mb.mailbox.active with
      | true => rw [Bool.true_and]
      | false => rw [Bool.false_and, shared mb found active]

/-- A message within the quota gets the same answer: no policy without a limit stops it, and where
it is delivered, its mailbox is named as it is stored, the message stays out of the blob store and
its texts fit. -/
def DeliversAlike (libs : Libs) (threshold : Option Nat) (m : Memory) (email : Str)
    (raw : List UInt8) (texts : List Str) : Prop :=
  ∀ mb ∈ m.find libs email, (raw.length : Int) ≤ mb.mailbox.quotaBytes - mb.mailbox.usedBytes →
    (∀ pol ∈ m.policies[mb.mailbox.tenantID]?, pol.maxAttachmentSizeMB = 0 → raw = []) ∧
      (m.tooLarge mb.mailbox raw = false →
        email = normal libs email ∧ Postgres.uploads threshold raw = false ∧
          ∀ text ∈ texts, fitsText text)

theorem Agree.tooLarge (agree : Agree libs n m p) (mb : Mailbox) (raw : List UInt8)
    (limited : ∀ pol ∈ m.policies[mb.tenantID]?, pol.maxAttachmentSizeMB = 0 → raw = []) :
    p.tooLarge mb raw = m.tooLarge mb raw := by
  unfold Memory.tooLarge Postgres.tooLarge
  rw [← agree.policies mb.tenantID]
  cases found : m.policies[mb.tenantID]? with
  | none => rfl
  | some pol =>
      dsimp only [Option.map_some, Option.any_some, InlinePolicy.row]
      by_cases zero : pol.maxAttachmentSizeMB = 0
      · rw [limited pol found zero, zero]
        rfl
      · have positive : 0 < pol.maxAttachmentSizeMB := by
          rw [UInt32.lt_iff_toNat_lt]
          exact Nat.pos_of_ne_zero fun none_ => zero (UInt32.toNat_inj.mp none_)
        rw [decide_eq_true positive, Bool.true_and]

theorem Agree.deliverRaw (agree : Agree libs n m p) (threshold : Option Nat) (r : Readings)
    (email fromAddr : Str) (raw : List UInt8) (texts : List Str) (sender : fromAddr ∈ texts)
    (shared : DeliversAlike libs threshold m email raw texts) :
    (m.deliverRaw libs email raw fromAddr).2 =
      (p.deliverRaw libs threshold r email raw fromAddr).2 ∧
        Agree libs n (m.deliverRaw libs email raw fromAddr).1
          (p.deliverRaw libs threshold r email raw fromAddr).1 := by
  unfold Memory.deliverRaw Postgres.deliverRaw
  rw [agree.boxes.select_eq]
  cases found : m.find libs email with
  | none => exact ⟨rfl, agree⟩
  | some mb =>
      dsimp only
      by_cases full : (raw.length : Int) > mb.mailbox.quotaBytes - mb.mailbox.usedBytes
      · rw [if_pos full, if_pos full]
        constructor
        · split <;> split <;> rfl
        · split <;> split <;> exact agree
      · rw [if_neg full, if_neg full]
        obtain ⟨limited, stored⟩ := shared mb found (Int.not_lt.mp full)
        rw [agree.tooLarge mb.mailbox raw limited]
        cases large : m.tooLarge mb.mailbox raw with
        | true => exact ⟨rfl, agree⟩
        | false =>
            obtain ⟨email_, inline, fits⟩ := stored large
            have named := agree.emails_of_find email mb found
            rw [← email_] at named
            rw [if_neg Bool.false_ne_true, if_neg Bool.false_ne_true, inline,
              if_neg Bool.false_ne_true, ← email_]
            unfold Postgres.insertMessage
            rw [inline]
            dsimp only
            rw [if_pos (fits fromAddr sender), agree.mail.counters, agree.mail.serial]
            refine ⟨rfl, ?_⟩
            have after := agree.update mb
              { mb with
                mailbox :=
                  { mb.mailbox with usedBytes := mb.mailbox.usedBytes + raw.length } } email found
              rfl rfl
            have mail := fun boxes q => agree.mail.deliver mb.mailbox.id email named
              { id := m.msgSeq + 1, mailboxID := mb.mailbox.id, email := email
                uid := p.maxUID mb.mailbox.id + 1, fromAddr := fromAddr, raw := raw }
              { id := m.msgSeq + 1, mailboxID := mb.mailbox.id, uid := p.maxUID mb.mailbox.id + 1
                fromAddr := some fromAddr, sizeBytes := raw.length, minioKey := none,
                  rawInline := some raw }
              boxes q rfl rfl rfl rfl
            rw [agree.mail.counters] at mail
            have same := emails_update m.mailboxes mb
              { mb with
                mailbox := { mb.mailbox with usedBytes := mb.mailbox.usedBytes + raw.length } }
              mb.mailbox.id ((agree.boxes.find_iff email mb).mp found).1 rfl
            exact
              { boxes := ⟨after.boxes.same, after.boxes.named, after.boxes.keyed, after.boxes.drawn⟩
                mail := by
                  dsimp only
                  rw [same]
                  exact mail _ _ rfl (congrArg (· + 1) agree.mail.serial.symm)
                calendars := after.calendars
                contacts := after.contacts
                policies := after.policies
                keys := after.keys }

end Calls

end EraOne.MailRepos
