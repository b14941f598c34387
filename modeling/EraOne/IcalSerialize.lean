import EraOne.IcalText
import EraOne.IcalTime

set_option autoImplicit false

/- The canonical text of an event (`ical.go`): parsing, writing and parsing again. -/
namespace EraOne.Ical

open Calendar (CaseTable parseMailto unfoldLines crlf)
open Utf8

/-! ### Events -/

structure Attendee where
  email : Str
  partStat : Bytes
  deriving DecidableEq

structure Event where
  uid : Str := []
  summary : Str := []
  dtStart : UtcTime := zeroTime
  dtStartRaw : Str := []
  method : Str := []
  organizer : Str := []
  attendees : List Attendee := []
  deriving DecidableEq

/-- White space in UTF-8. -/
def spaces : List Bytes :=
  [9, 10, 11, 12, 13, 0x20, 0x85, 0xA0, 0x1680, 0x2000, 0x2001, 0x2002, 0x2003, 0x2004, 0x2005,
    0x2006, 0x2007, 0x2008, 0x2009, 0x200A, 0x2028, 0x2029, 0x202F, 0x205F, 0x3000].map fun n =>
      String.utf8EncodeChar (Char.ofNat n)

/-- Without the codes that a text begins with; each step takes a byte at least. -/
def trimCodes (codes : List Bytes) : Nat → Bytes → Bytes
  | 0, b => b
  | steps + 1, b =>
      match codes.find? (·.isPrefixOf b) with
      | some code => trimCodes codes steps (b.drop code.length)
      | none => b

/-- `strings.TrimSpace` of bytes. -/
def trimSpace (b : Bytes) : Bytes :=
  let front := trimCodes spaces b.length b
  (trimCodes (spaces.map List.reverse) front.length front.reverse).reverse

variable (table : CaseTable)

/-- `none` where the line is cut out of range. -/
def parseAttendee (line : Str) : Option Attendee :=
  match markerEnd table line with
  | some n =>
      if byteLen line < n then none
      else
        let rest := (utf8 line).drop n
        some {
          email := parseMailto line
          partStat :=
            if 59 ∈ rest then trimSpace (rest.takeWhile (· ≠ 59))
            else if 58 ∈ rest then trimSpace (rest.takeWhile (· ≠ 58))
            else trimSpace rest }
  | none => some { email := parseMailto line, partStat := [] }

def parseLine (ev : Event) (line : Str) : Option Event :=
  match Scan.strip "METHOD:".toList line with
  | some rest => some { ev with method := rest }
  | none =>
  match Scan.strip "UID:".toList line with
  | some rest => some { ev with uid := rest }
  | none =>
  match Scan.strip "SUMMARY:".toList line with
  | some rest => some { ev with summary := rest }
  | none =>
  if "ORGANIZER".toList.isPrefixOf line then some { ev with organizer := parseMailto line }
  else if "ATTENDEE".toList.isPrefixOf line then
    (parseAttendee table line).map fun att =>
      if att.email ≠ [] then { ev with attendees := ev.attendees ++ [att] } else ev
  else if "DTSTART".toList.isPrefixOf line then
    match Scan.splitOnce [':'] line with
    | some (_, value) =>
        some { ev with dtStartRaw := value, dtStart := (parseTime value).getD ev.dtStart }
    | none => some ev
  else some ev

/-- The lines that the parser looks at. -/
def eventLines (raw : Str) : List Str := (unfoldLines raw).map Scan.trim

/-- `ParseVEVENT` with the text of its error; `none` where it indexes out of range. -/
def parseVEVENT (raw : Str) : Option (Event × Option Str) :=
  ((eventLines raw).foldlM (parseLine table) {}).map fun ev =>
    (ev, if ev.uid = [] then some "ical: missing UID".toList else none)

def startText (ev : Event) : Str :=
  if ev.dtStartRaw = [] ∧ ev.dtStart ≠ zeroTime then ev.dtStart.format else ev.dtStartRaw

def storedSummary (ev : Event) : Str := if ev.summary = [] then "Event".toList else ev.summary

def serializeVEVENT (ev : Event) : Str :=
  "BEGIN:VCALENDAR\r\nVERSION:2.0\r\nPRODID:-//ERA Communications//CalDAV//EN\r\nBEGIN:VEVENT\r\nUID:".toList ++ ev.uid ++
    "\r\nSUMMARY:".toList ++ storedSummary ev ++ "\r\nDTSTART:".toList ++ startText ev ++
    "\r\nEND:VEVENT\r\nEND:VCALENDAR\r\n".toList

/-! ### What a parse reads -/

/-- What a line says of the organizer. -/
def organizerOf (line : Str) : Option Str :=
  if "ORGANIZER".toList.isPrefixOf line then some (parseMailto line) else none

def startOf (line : Str) : Option Str :=
  if "DTSTART".toList.isPrefixOf line then (Scan.splitOnce [':'] line).map Prod.snd else none

/-- The line names an attendee. -/
def attends (line : Str) : Bool := "ATTENDEE".toList.isPrefixOf line && parseMailto line ≠ []

/-- The fields behind a line. -/
structure Reads (ev ev' : Event) (line : Str) : Prop where
  uid : ev'.uid = (Scan.strip "UID:".toList line).getD ev.uid
  summary : ev'.summary = (Scan.strip "SUMMARY:".toList line).getD ev.summary
  organizer : ev'.organizer = (organizerOf line).getD ev.organizer
  attendees : ev'.attendees = [] ↔ ev.attendees = [] ∧ attends line = false
  dtStartRaw : ev'.dtStartRaw = (startOf line).getD ev.dtStartRaw
  dtStart : ev'.dtStart = ((startOf line).bind parseTime).getD ev.dtStart

/-- Texts with different first characters do not begin one line. -/
theorem prefix_apart (a b : Char) (p q line : Str) (starts : (a :: p).isPrefixOf line = true)
    (other : a ≠ b) :
    (b :: q).isPrefixOf line = false := by
  cases line with
  | nil => rfl
  | cons c line =>
      have first := (List.cons_prefix_cons.mp (List.isPrefixOf_iff_prefix.mp starts)).1
      rw [Bool.eq_false_iff, Ne, List.isPrefixOf_iff_prefix]
      intro also_
      exact other (first.trans (List.cons_prefix_cons.mp also_).1.symm)

theorem strip_of_prefixed (key line : Str) (starts : key.isPrefixOf line = true) :
    Scan.strip key line = some (line.drop key.length) := by
  rw [Scan.strip, if_pos starts]

theorem strip_of_unprefixed (key line : Str) (other : key.isPrefixOf line = false) :
    Scan.strip key line = none := by
  rw [Scan.strip, other, if_neg Bool.false_ne_true]

theorem parseAttendee_email (line : Str) (att : Attendee)
    (parsed : parseAttendee table line = some att) :
    att.email = parseMailto line := by
  unfold parseAttendee at parsed
  split at parsed
  · split at parsed
    · cases parsed
    · cases parsed
      rfl
  · cases parsed
    rfl

theorem organizerOf_of_unprefixed (line : Str)
    (other : "ORGANIZER".toList.isPrefixOf line = false) : organizerOf line = none := by
  rw [organizerOf, other, if_neg Bool.false_ne_true]

theorem startOf_of_unprefixed (line : Str) (other : "DTSTART".toList.isPrefixOf line = false) :
    startOf line = none := by
  rw [startOf, other, if_neg Bool.false_ne_true]

theorem attends_of_unprefixed (line : Str) (other : "ATTENDEE".toList.isPrefixOf line = false) :
    attends line = false := by
  rw [attends, other, Bool.false_and]

/-- What a line that begins with `c` says of the fields whose keys begin otherwise: nothing. -/
structure Silent (c : Char) (line : Str) : Prop where
  uid : c ≠ 'U' → Scan.strip "UID:".toList line = none
  summary : c ≠ 'S' → Scan.strip "SUMMARY:".toList line = none
  organizer : c ≠ 'O' → organizerOf line = none
  attendee : c ≠ 'A' → attends line = false
  start : c ≠ 'D' → startOf line = none

theorem silent_of_prefixed (c : Char) (p line : Str) (starts : (c :: p).isPrefixOf line = true) :
    Silent c line where
  uid other := strip_of_unprefixed _ _ (prefix_apart c 'U' p _ line starts other)
  summary other := strip_of_unprefixed _ _ (prefix_apart c 'S' p _ line starts other)
  organizer other := organizerOf_of_unprefixed _ (prefix_apart c 'O' p _ line starts other)
  attendee other := attends_of_unprefixed _ (prefix_apart c 'A' p _ line starts other)
  start other := startOf_of_unprefixed _ (prefix_apart c 'D' p _ line starts other)

/-- A line without a key that is read into these fields leaves them. -/
theorem reads_nothing (ev : Event) (method line : Str) (uid : Scan.strip "UID:".toList line = none)
    (summary : Scan.strip "SUMMARY:".toList line = none) (organizer : organizerOf line = none)
    (attendee : attends line = false) (start : startOf line = none) :
    Reads ev { ev with method := method } line where
  uid := by rw [uid, Option.getD_none]
  summary := by rw [summary, Option.getD_none]
  organizer := by rw [organizer, Option.getD_none]
  attendees := by rw [attendee]; simp
  dtStartRaw := by rw [start, Option.getD_none]
  dtStart := by rw [start, Option.bind_none, Option.getD_none]

theorem reads_uid (ev : Event) (line : Str) (starts : "UID:".toList.isPrefixOf line = true) :
    Reads ev { ev with uid := line.drop "UID:".toList.length } line := by
  have silent := silent_of_prefixed 'U' _ line starts
  exact {
    uid := by rw [strip_of_prefixed _ _ starts, Option.getD_some]
    summary := by rw [silent.summary (by decide), Option.getD_none]
    organizer := by rw [silent.organizer (by decide), Option.getD_none]
    attendees := by rw [silent.attendee (by decide)]; simp
    dtStartRaw := by rw [silent.start (by decide), Option.getD_none]
    dtStart := by rw [silent.start (by decide), Option.bind_none, Option.getD_none] }

theorem reads_summary (ev : Event) (line : Str)
    (starts : "SUMMARY:".toList.isPrefixOf line = true) :
    Reads ev { ev with summary := line.drop "SUMMARY:".toList.length } line := by
  have silent := silent_of_prefixed 'S' _ line starts
  exact {
    uid := by rw [silent.uid (by decide), Option.getD_none]
    summary := by rw [strip_of_prefixed _ _ starts, Option.getD_some]
    organizer := by rw [silent.organizer (by decide), Option.getD_none]
    attendees := by rw [silent.attendee (by decide)]; simp
    dtStartRaw := by rw [silent.start (by decide), Option.getD_none]
    dtStart := by rw [silent.start (by decide), Option.bind_none, Option.getD_none] }

theorem reads_organizer (ev : Event) (line : Str)
    (starts : "ORGANIZER".toList.isPrefixOf line = true) :
    Reads ev { ev with organizer := parseMailto line } line := by
  have silent := silent_of_prefixed 'O' _ line starts
  exact {
    uid := by rw [silent.uid (by decide), Option.getD_none]
    summary := by rw [silent.summary (by decide), Option.getD_none]
    organizer := by rw [organizerOf, if_pos starts, Option.getD_some]
    attendees := by rw [silent.attendee (by decide)]; simp
    dtStartRaw := by rw [silent.start (by decide), Option.getD_none]
    dtStart := by rw [silent.start (by decide), Option.bind_none, Option.getD_none] }

theorem reads_attendee (ev : Event) (line : Str) (att : Attendee)
    (starts : "ATTENDEE".toList.isPrefixOf line = true)
    (parsed : parseAttendee table line = some att) :
    Reads ev (if att.email ≠ [] then { ev with attendees := ev.attendees ++ [att] } else ev)
      line := by
  have silent := silent_of_prefixed 'A' _ line starts
  have known : attends line = decide (att.email ≠ []) := by
    rw [attends, starts, Bool.true_and, parseAttendee_email table line att parsed]
  by_cases named : att.email ≠ []
  · rw [if_pos named]
    exact {
      uid := by rw [silent.uid (by decide), Option.getD_none]
      summary := by rw [silent.summary (by decide), Option.getD_none]
      organizer := by rw [silent.organizer (by decide), Option.getD_none]
      attendees := by rw [known]; simp [named]
      dtStartRaw := by rw [silent.start (by decide), Option.getD_none]
      dtStart := by rw [silent.start (by decide), Option.bind_none, Option.getD_none] }
  · rw [if_neg named]
    exact reads_nothing ev ev.method line (silent.uid (by decide)) (silent.summary (by decide))
      (silent.organizer (by decide)) (by rw [known, decide_eq_false named])
        (silent.start (by decide))

theorem reads_start (ev : Event) (line : Str) (halves : Str × Str)
    (starts : "DTSTART".toList.isPrefixOf line = true)
    (found : Scan.splitOnce [':'] line = some halves) :
    Reads ev { ev with dtStartRaw := halves.2, dtStart := (parseTime halves.2).getD ev.dtStart }
      line := by
  have silent := silent_of_prefixed 'D' _ line starts
  have start : startOf line = some halves.2 := by
    rw [startOf, if_pos starts, found, Option.map_some]
  exact {
    uid := by rw [silent.uid (by decide), Option.getD_none]
    summary := by rw [silent.summary (by decide), Option.getD_none]
    organizer := by rw [silent.organizer (by decide), Option.getD_none]
    attendees := by rw [silent.attendee (by decide)]; simp
    dtStartRaw := by rw [start, Option.getD_some]
    dtStart := by rw [start, Option.bind_some] }

theorem reads_parseLine (ev ev' : Event) (line : Str)
    (parsed : parseLine table ev line = some ev') :
    Reads ev ev' line := by
  unfold parseLine at parsed
  by_cases method : "METHOD:".toList.isPrefixOf line = true
  · have silent := silent_of_prefixed 'M' _ line method
    rw [strip_of_prefixed _ _ method] at parsed
    cases parsed
    exact reads_nothing ev _ line (silent.uid (by decide)) (silent.summary (by decide))
      (silent.organizer (by decide)) (silent.attendee (by decide)) (silent.start (by decide))
  rw [strip_of_unprefixed _ _ (Bool.eq_false_iff.mpr method)] at parsed
  by_cases uid : "UID:".toList.isPrefixOf line = true
  · rw [strip_of_prefixed _ _ uid] at parsed
    cases parsed
    exact reads_uid ev line uid
  have noUid := strip_of_unprefixed "UID:".toList line (Bool.eq_false_iff.mpr uid)
  rw [noUid] at parsed
  by_cases summary : "SUMMARY:".toList.isPrefixOf line = true
  · rw [strip_of_prefixed _ _ summary] at parsed
    cases parsed
    exact reads_summary ev line summary
  have noSummary := strip_of_unprefixed "SUMMARY:".toList line (Bool.eq_false_iff.mpr summary)
  rw [noSummary] at parsed
  by_cases organizer : "ORGANIZER".toList.isPrefixOf line = true
  · rw [if_pos organizer] at parsed
    cases parsed
    exact reads_organizer ev line organizer
  have noOrganizer := organizerOf_of_unprefixed line (Bool.eq_false_iff.mpr organizer)
  rw [if_neg organizer] at parsed
  by_cases attendee : "ATTENDEE".toList.isPrefixOf line = true
  · rw [if_pos attendee] at parsed
    obtain ⟨att, read_, rfl⟩ := Option.map_eq_some_iff.mp parsed
    exact reads_attendee table ev line att attendee read_
  have nobody := attends_of_unprefixed line (Bool.eq_false_iff.mpr attendee)
  rw [if_neg attendee] at parsed
  by_cases start : "DTSTART".toList.isPrefixOf line = true
  · rw [if_pos start] at parsed
    cases found : Scan.splitOnce [':'] line with
    | none =>
        rw [found] at parsed
        cases parsed
        have unread : startOf line = none := by rw [startOf, if_pos start, found, Option.map_none]
        exact reads_nothing ev ev.method line noUid noSummary noOrganizer nobody unread
    | some halves =>
        rw [found] at parsed
        cases parsed
        exact reads_start ev line halves start found
  · rw [if_neg start] at parsed
    cases parsed
    exact reads_nothing ev ev.method line noUid noSummary noOrganizer nobody
      (startOf_of_unprefixed line (Bool.eq_false_iff.mpr start))

theorem getLast?_filterMap_cons {α β : Type} (f : α → Option β) (a : α) (l : List α) (d : β) :
    ((a :: l).filterMap f).getLast?.getD d = (l.filterMap f).getLast?.getD ((f a).getD d) := by
  cases found : f a with
  | none => rw [List.filterMap_cons_none found, Option.getD_none]
  | some b =>
      rw [List.filterMap_cons_some found, List.getLast?_cons, Option.getD_some, Option.getD_some]

/-- The fields behind the lines that were read. -/
structure ReadsAll (ev ev' : Event) (lines : List Str) : Prop where
  organizer : ev'.organizer = (lines.filterMap organizerOf).getLast?.getD ev.organizer
  attendees : ev'.attendees = [] ↔ ev.attendees = [] ∧ ∀ line ∈ lines, attends line = false
  dtStartRaw : ev'.dtStartRaw = (lines.filterMap startOf).getLast?.getD ev.dtStartRaw
  dtStart : ev'.dtStart = (lines.filterMap fun line => (startOf line).bind parseTime).getLast?.getD
    ev.dtStart

theorem readsAll_foldlM (lines : List Str) (ev ev' : Event)
    (parsed : lines.foldlM (parseLine table) ev = some ev') :
    ReadsAll ev ev' lines := by
  induction lines generalizing ev with
  | nil =>
      cases parsed
      exact ⟨rfl, by simp, rfl, rfl⟩
  | cons line rest ih =>
      rw [List.foldlM_cons] at parsed
      obtain ⟨middle, first, later⟩ := Option.bind_eq_some_iff.mp parsed
      have one := reads_parseLine table ev middle line first
      have all := ih middle later
      exact {
        organizer := by rw [all.organizer, one.organizer, getLast?_filterMap_cons]
        attendees := by
          rw [all.attendees, one.attendees, List.forall_mem_cons, and_assoc]
        dtStartRaw := by rw [all.dtStartRaw, one.dtStartRaw, getLast?_filterMap_cons]
        dtStart := by rw [all.dtStart, one.dtStart, getLast?_filterMap_cons] }

/-- A text that a line may end with: trimming leaves it. -/
structure Clean (value : Str) : Prop where
  oneLine : '\n' ∉ value
  last : ∀ c ∈ value.getLast?, Scan.isWhitespace c = false

theorem clean_nil : Clean [] := ⟨List.not_mem_nil, fun _ none_ => by cases none_⟩

theorem Clean.suffix {line value : Str} (clean : Clean line) (within : value <:+ line) :
    Clean value := by
  constructor
  · exact fun member => clean.oneLine (within.subset member)
  · intro c last
    apply clean.last c
    obtain ⟨front, whole⟩ := within
    rw [← whole, List.getLast?_append, Option.mem_def.mp last, Option.some_or]
    rfl

theorem clean_eventLines (raw line : Str) (member : line ∈ eventLines raw) : Clean line := by
  obtain ⟨whole, inside, rfl⟩ := List.mem_map.mp member
  have trimmed := (Scan.trim_eq_self_iff (Scan.trim whole)).mp (Scan.trim_trim whole)
  refine ⟨fun within => ?_, trimmed.2⟩
  have front :=
    (List.rdropWhile_prefix Scan.isWhitespace (l := whole.dropWhile Scan.isWhitespace)).subset
      within
  exact Calendar.unfoldLines_no_newline raw whole inside
    ((List.dropWhile_suffix Scan.isWhitespace).subset front)

theorem suffix_of_strip (key line value : Str) (found : Scan.strip key line = some value) :
    value <:+ line := by
  unfold Scan.strip at found
  split at found
  · cases found
    exact List.drop_suffix _ _
  · cases found

theorem suffix_of_startOf (line value : Str) (found : startOf line = some value) :
    value <:+ line := by
  unfold startOf at found
  split at found
  · obtain ⟨halves, cut, rfl⟩ := Option.map_eq_some_iff.mp found
    rw [Scan.splitOnce_append [':'] line halves.1 halves.2 cut]
    exact (List.suffix_append [':'] halves.2).trans (List.suffix_append halves.1 _)
  · cases found

/-- The values that are written again. -/
structure CleanEvent (ev : Event) : Prop where
  uid : Clean ev.uid
  summary : Clean ev.summary
  dtStartRaw : Clean ev.dtStartRaw

theorem clean_getD {line old : Str} (found : Option Str) (clean : Clean line) (before : Clean old)
    (within : ∀ value, found = some value → value <:+ line) : Clean (found.getD old) := by
  cases found with
  | none => exact before
  | some value => exact clean.suffix (within value rfl)

theorem cleanEvent_foldlM (lines : List Str) (clean : ∀ line ∈ lines, Clean line) (ev ev' : Event)
    (before : CleanEvent ev) (parsed : lines.foldlM (parseLine table) ev = some ev') :
    CleanEvent ev' := by
  induction lines generalizing ev with
  | nil =>
      cases parsed
      exact before
  | cons line rest ih =>
      rw [List.foldlM_cons] at parsed
      obtain ⟨middle, first, later⟩ := Option.bind_eq_some_iff.mp parsed
      have one := reads_parseLine table ev middle line first
      have here := clean line List.mem_cons_self
      apply ih (fun l member => clean l (List.mem_cons_of_mem line member)) middle _ later
      exact {
        uid := by
          rw [one.uid]
          exact clean_getD _ here before.uid fun _ => suffix_of_strip _ line _
        summary := by
          rw [one.summary]
          exact clean_getD _ here before.summary fun _ => suffix_of_strip _ line _
        dtStartRaw := by
          rw [one.dtStartRaw]
          exact clean_getD _ here before.dtStartRaw fun _ => suffix_of_startOf line _ }

/-! ### Writing an event and parsing it again -/

/-- A key before a value: the line is trimmed to itself. -/
theorem clean_line (key value : Str) (plain : Clean key) (clean : Clean value)
    (first : ∀ c ∈ key.head?, Scan.isWhitespace c = false) (some_ : key ≠ []) :
    Clean (key ++ value) ∧ Scan.trim (key ++ value) = key ++ value := by
  have last : ∀ c ∈ (key ++ value).getLast?, Scan.isWhitespace c = false := by
    intro c member
    rw [List.getLast?_append] at member
    cases found : value.getLast? with
    | none =>
        rw [found] at member
        exact plain.last c member
    | some d =>
        rw [found] at member
        cases member
        exact clean.last _ found
  constructor
  · refine ⟨?_, last⟩
    rw [List.mem_append, not_or]
    exact ⟨plain.oneLine, clean.oneLine⟩
  · rw [Scan.trim_eq_self_iff]
    refine ⟨?_, last⟩
    intro c member
    rw [List.head?_append_of_ne_nil _ some_] at member
    exact first c member

/-- The lines of the stored text. -/
def storedLines (ev : Event) : List Str :=
  ["BEGIN:VCALENDAR".toList, "VERSION:2.0".toList,
    "PRODID:-//ERA Communications//CalDAV//EN".toList, "BEGIN:VEVENT".toList,
    "UID:".toList ++ ev.uid, "SUMMARY:".toList ++ storedSummary ev,
    "DTSTART:".toList ++ startText ev, "END:VEVENT".toList, "END:VCALENDAR".toList, []]

theorem intercalate_stored (a b c d u s t e f uid summary start head middle lower foot : Str)
    (heads : head = a ++ crlf ++ b ++ crlf ++ c ++ crlf ++ d ++ crlf ++ u)
    (middles : middle = crlf ++ s) (lowers : lower = crlf ++ t)
    (feet : foot = crlf ++ e ++ crlf ++ f ++ crlf) :
    head ++ uid ++ middle ++ summary ++ lower ++ start ++ foot =
      List.intercalate crlf [a, b, c, d, u ++ uid, s ++ summary, t ++ start, e, f, []] := by
  rw [heads, middles, lowers, feet]
  simp only [List.intercalate, List.intersperse, List.flatten_cons, List.flatten_nil,
    List.append_assoc, List.append_nil]

theorem serializeVEVENT_eq (ev : Event) :
    serializeVEVENT ev = List.intercalate crlf (storedLines ev) := by
  have heads :
      "BEGIN:VCALENDAR\r\nVERSION:2.0\r\nPRODID:-//ERA Communications//CalDAV//EN\r\nBEGIN:VEVENT\r\nUID:".toList =
      "BEGIN:VCALENDAR".toList ++ crlf ++ "VERSION:2.0".toList ++ crlf ++
        "PRODID:-//ERA Communications//CalDAV//EN".toList ++ crlf ++
        "BEGIN:VEVENT".toList ++ crlf ++ "UID:".toList := by decide
  have middles : "\r\nSUMMARY:".toList = crlf ++ "SUMMARY:".toList := by decide
  have lowers : "\r\nDTSTART:".toList = crlf ++ "DTSTART:".toList := by decide
  have feet : "\r\nEND:VEVENT\r\nEND:VCALENDAR\r\n".toList = crlf ++ "END:VEVENT".toList ++ crlf ++
      "END:VCALENDAR".toList ++ crlf := by
    decide
  exact intercalate_stored _ _ _ _ _ _ _ _ _ ev.uid (storedSummary ev)
    (startText ev) _ _ _ _ heads middles lowers feet

/-- A fixed line of the stored text. -/
def plainLine (line : Str) : Bool :=
  !line.contains '\n' && line.getLast?.toList.all (fun c => !Scan.isWhitespace c) &&
    line.head?.toList.all fun c => !Scan.isWhitespace c

theorem clean_of_plainLine (line : Str) (plain : plainLine line = true) :
    Clean line ∧ ∀ c ∈ line.head?, Scan.isWhitespace c = false := by
  unfold plainLine at plain
  rw [Bool.and_eq_true, Bool.and_eq_true, Bool.not_eq_true'] at plain
  refine ⟨⟨fun member => ?_, fun c member => ?_⟩, fun c member => ?_⟩
  · rw [List.contains_iff_mem.mpr member] at plain
    exact absurd plain.1.1 (by decide)
  · have one := List.all_eq_true.mp plain.1.2 c (Option.mem_toList.mpr member)
    simpa using one
  · have one := List.all_eq_true.mp plain.2 c (Option.mem_toList.mpr member)
    simpa using one

theorem clean_default : Clean "Event".toList := (clean_of_plainLine _ (by decide)).1

theorem clean_format (t : UtcTime) : Clean t.format := by
  have digits (width n : Nat) : '\n' ∉ padded width n := by
    intro member
    have digit := List.all_eq_true.mp (all_isDigit_padded width n) '\n' member
    exact absurd digit (by decide)
  constructor
  · simp [UtcTime.format, digits]
  · intro c member
    rw [UtcTime.format, List.getLast?_concat] at member
    cases member
    decide

theorem clean_startText (ev : Event) (clean : CleanEvent ev) : Clean (startText ev) := by
  unfold startText
  split
  · exact clean_format ev.dtStart
  · exact clean.dtStartRaw

theorem clean_storedSummary (ev : Event) (clean : CleanEvent ev) : Clean (storedSummary ev) := by
  unfold storedSummary
  split
  · exact clean_default
  · exact clean.summary

theorem storedLines_clean (ev : Event) (clean : CleanEvent ev) :
    ∀ line ∈ storedLines ev, Clean line ∧ Scan.trim line = line := by
  have fixed (line : Str) (plain : plainLine line = true) : Clean line ∧ Scan.trim line = line := by
    have both := clean_of_plainLine line plain
    exact ⟨both.1, (Scan.trim_eq_self_iff line).mpr ⟨both.2, both.1.last⟩⟩
  have keyed (key value : Str) (plain : plainLine key = true) (some_ : key ≠ [])
      (here : Clean value) :
      Clean (key ++ value) ∧ Scan.trim (key ++ value) = key ++ value := by
    have both := clean_of_plainLine key plain
    exact clean_line key value both.1 here both.2 some_
  simp only [storedLines, List.forall_mem_cons]
  exact ⟨fixed _ (by decide), fixed _ (by decide), fixed _ (by decide), fixed _ (by decide),
    keyed _ _ (by decide) (by decide) clean.uid,
    keyed _ _ (by decide) (by decide) (clean_storedSummary ev clean),
    keyed _ _ (by decide) (by decide) (clean_startText ev clean), fixed _ (by decide),
    fixed _ (by decide),
    fixed _ (by decide), fun _ none_ => by cases none_⟩

theorem not_blank_of_trim (line : Str) (trimmed : Scan.trim line = line) :
    ¬ line.head?.any Calendar.isBlank = true := by
  have first := ((Scan.trim_eq_self_iff line).mp trimmed).1
  intro blank
  cases head : line.head? with
  | none =>
      rw [head] at blank
      cases blank
  | some c =>
      rw [head, Option.any_some, Calendar.isBlank, Bool.or_eq_true, decide_eq_true_eq,
        decide_eq_true_eq] at blank
      have solid := first c head
      rcases blank with rfl | rfl
      · exact absurd solid (by decide)
      · exact absurd solid (by decide)

theorem eventLines_serialize (ev : Event) (clean : CleanEvent ev) :
    eventLines (serializeVEVENT ev) = storedLines ev := by
  have lines := storedLines_clean ev clean
  have physical := Calendar.physicalLines_intercalate (storedLines ev)
    (List.cons_ne_nil _ _) fun line member => (lines line member).1.oneLine
  rw [eventLines, serializeVEVENT_eq, unfoldLines, physical,
    Calendar.unfold_of_clean _ _ _ fun line member => not_blank_of_trim line (lines line member).2,
    List.nil_append]
  exact (List.map_congr_left fun line member => (lines line member).2).trans (List.map_id _)

/-- The beginnings of the lines that are read. -/
def keys : List Str :=
  ["METHOD:".toList, "UID:".toList, "SUMMARY:".toList, "ORGANIZER".toList, "ATTENDEE".toList,
    "DTSTART".toList]

theorem parseLine_other (ev : Event) (line : Str)
    (other : keys.all (fun key => !key.isPrefixOf line) = true) :
    parseLine table ev line = some ev := by
  have none_ := List.all_eq_true.mp other
  simp only [keys, List.forall_mem_cons, Bool.not_eq_true'] at none_
  obtain ⟨method, uid, summary, organizer, attendee, start, _⟩ := none_
  unfold parseLine
  rw [strip_of_unprefixed _ _ method, strip_of_unprefixed _ _ uid, strip_of_unprefixed _ _ summary]
  dsimp only
  rw [organizer, attendee, start, if_neg Bool.false_ne_true, if_neg Bool.false_ne_true,
    if_neg Bool.false_ne_true]

theorem parseLine_uid (ev : Event) (value : Str) :
    parseLine table ev ("UID:".toList ++ value) = some { ev with uid := value } := rfl

theorem parseLine_summary (ev : Event) (value : Str) :
    parseLine table ev ("SUMMARY:".toList ++ value) = some { ev with summary := value } := rfl

theorem parseLine_dtStart (ev : Event) (value : Str) :
    parseLine table ev ("DTSTART:".toList ++ value) =
      some { ev with dtStartRaw := value, dtStart := (parseTime value).getD ev.dtStart } := rfl

/-- What the stored text of an event is read as. -/
def stored (ev : Event) : Event where
  uid := ev.uid
  summary := storedSummary ev
  dtStart := (parseTime (startText ev)).getD zeroTime
  dtStartRaw := startText ev

theorem parseVEVENT_serialize (ev : Event) (clean : CleanEvent ev) :
    parseVEVENT table (serializeVEVENT ev) = some
      (stored ev, if ev.uid = [] then some "ical: missing UID".toList else none) := by
  have run : (storedLines ev).foldlM (parseLine table) {} = some (stored ev) := by
    have step (ev ev' : Event) (line : Str) (rest : List Str)
        (one : parseLine table ev line = some ev') :
        (line :: rest).foldlM (parseLine table) ev = rest.foldlM (parseLine table) ev' := by
      rw [List.foldlM_cons, one]
      rfl
    have other (ev : Event) (line : Str) (rest : List Str)
        (plain : keys.all (fun key => !key.isPrefixOf line) = true) :
        (line :: rest).foldlM (parseLine table) ev = rest.foldlM (parseLine table) ev :=
      step ev ev line rest (parseLine_other table ev line plain)
    unfold storedLines
    rw [other _ _ _ (by decide), other _ _ _ (by decide), other _ _ _ (by decide),
      other _ _ _ (by decide), step _ _ _ _ (parseLine_uid table _ _),
      step _ _ _ _ (parseLine_summary table _ _), step _ _ _ _ (parseLine_dtStart table _ _),
      other _ _ _ (by decide), other _ _ _ (by decide),
      other _ _ _ (by decide)]
    rfl
  rw [parseVEVENT, eventLines_serialize ev clean, run, Option.map_some]
  rfl

/-- What storing keeps of an event. -/
structure Keeps (ev ev' : Event) : Prop where
  uid : ev'.uid = ev.uid
  summary : ev'.summary = storedSummary ev
  dtStart : ev'.dtStart = ev.dtStart
  organizer : ev'.organizer = ev.organizer
  attendees : ev'.attendees = ev.attendees

/-- The stored text of the event is accepted and keeps it. -/
def Kept (ev : Event) : Prop :=
  ∃ ev', parseVEVENT table (serializeVEVENT ev) = some (ev', none) ∧ Keeps ev ev'

/-- The text of the start is kept as well. -/
def KeptText (ev : Event) : Prop :=
  ∃ ev', parseVEVENT table (serializeVEVENT ev) = some (ev', none) ∧ Keeps ev ev' ∧
    ev'.dtStartRaw = ev.dtStartRaw

/-- The value of the last start line. -/
def lastStart (raw : Str) : Str := ((eventLines raw).filterMap startOf).getLast?.getD []

/-- The last start that reads as a time. -/
def lastTime (raw : Str) : UtcTime :=
  (((eventLines raw).filterMap startOf).filterMap parseTime).getLast?.getD zeroTime

/-- A text without organizer and attendees, whose last start is the time it starts at. -/
structure Storable (raw : Str) : Prop where
  organizer : ((eventLines raw).filterMap organizerOf).getLast?.getD [] = []
  attendees : ∀ line ∈ eventLines raw, attends line = false
  start : if lastStart raw = [] then (lastTime raw).nanosecond = 0
    else (parseTime (lastStart raw)).getD zeroTime = lastTime raw

/-- What is known of a parsed event. -/
theorem accepted_parts (raw : Str) (ev : Event)
    (accepted : parseVEVENT table raw = some (ev, none)) :
    ReadsAll {} ev (eventLines raw) ∧ CleanEvent ev ∧ ev.uid ≠ [] := by
  obtain ⟨ev', run, same⟩ := Option.map_eq_some_iff.mp accepted
  rw [Prod.mk.injEq] at same
  obtain ⟨rfl, error⟩ := same
  refine ⟨readsAll_foldlM table _ _ _ run, ?_, ?_⟩
  · exact cleanEvent_foldlM table _ (clean_eventLines raw) _ _ ⟨clean_nil, clean_nil, clean_nil⟩ run
  · intro missing
    rw [if_pos missing] at error
    cases error

theorem valid_lastTime (raw : Str) : (lastTime raw).Valid := by
  unfold lastTime
  cases found : (((eventLines raw).filterMap startOf).filterMap parseTime).getLast? with
  | none => exact ⟨by decide, by decide, by decide, by decide, by decide, by decide⟩
  | some t =>
      obtain ⟨value, _, parsed⟩ := List.mem_filterMap.mp (List.mem_of_getLast? found)
      exact valid_parseTime value t parsed

/-- The start behind the stored text. -/
theorem start_stored (raw : Str) (ev : Event) (text : ev.dtStartRaw = lastStart raw)
    (time : ev.dtStart = lastTime raw) :
    (stored ev).dtStart = ev.dtStart ↔
      if lastStart raw = [] then (lastTime raw).nanosecond = 0
        else (parseTime (lastStart raw)).getD zeroTime = lastTime raw := by
  unfold stored startText
  rw [text, time]
  by_cases empty : lastStart raw = []
  · rw [if_pos empty]
    by_cases zero : lastTime raw = zeroTime
    · rw [if_neg fun both => both.2 zero, empty, zero]
      exact iff_of_true rfl rfl
    · rw [if_pos ⟨empty, zero⟩, parseTime_format _ (valid_lastTime raw), Option.getD_some]
      exact ⟨fun same => (congrArg UtcTime.nanosecond same).symm, fun whole => by rw [← whole]⟩
  · rw [if_neg empty, if_neg fun both => empty both.1]

theorem keeps_stored_iff (raw : Str) (ev : Event)
    (accepted : parseVEVENT table raw = some (ev, none)) :
    Keeps ev (stored ev) ↔ Storable raw := by
  obtain ⟨reads, _, _⟩ := accepted_parts table raw ev accepted
  have text : ev.dtStartRaw = lastStart raw := reads.dtStartRaw
  have time : ev.dtStart = lastTime raw := by
    rw [reads.dtStart, lastTime, List.filterMap_filterMap]
  have start := start_stored raw ev text time
  constructor
  · intro keeps
    exact {
      organizer := by rw [← keeps.organizer.trans reads.organizer]; rfl
      attendees := (reads.attendees.mp keeps.attendees.symm).2
      start := start.mp keeps.dtStart }
  · intro storable
    exact {
      uid := rfl
      summary := rfl
      dtStart := start.mpr storable.start
      organizer := (reads.organizer.trans storable.organizer).symm
      attendees := (reads.attendees.mpr ⟨rfl, storable.attendees⟩).symm }

theorem canonical_keeps_iff (raw : Str) (ev : Event)
    (accepted : parseVEVENT table raw = some (ev, none)) :
    (Kept table ev ↔ Storable raw) ∧
    (KeptText table ev ↔ Storable raw ∧ (lastStart raw = [] → lastTime raw = zeroTime)) := by
  obtain ⟨reads, clean, named⟩ := accepted_parts table raw ev accepted
  have again := parseVEVENT_serialize table ev clean
  rw [if_neg named] at again
  have text : ev.dtStartRaw = lastStart raw := reads.dtStartRaw
  have time : ev.dtStart = lastTime raw := by
    rw [reads.dtStart, lastTime, List.filterMap_filterMap]
  have keeps := keeps_stored_iff table raw ev accepted
  have same : (stored ev).dtStartRaw = ev.dtStartRaw ↔
      (lastStart raw = [] → lastTime raw = zeroTime) := by
    change startText ev = ev.dtStartRaw ↔ _
    unfold startText
    rw [text, time]
    split
    · rename_i both
      constructor
      · intro wrong
        rw [both.1] at wrong
        exact absurd wrong (by simp [UtcTime.format])
      · intro implied
        exact absurd (implied both.1) both.2
    · rename_i other
      rw [not_and, Decidable.not_not] at other
      exact iff_of_true rfl other
  constructor
  · constructor
    · rintro ⟨ev', parsed, kept⟩
      cases again.symm.trans parsed
      exact keeps.mp kept
    · exact fun storable => ⟨stored ev, again, keeps.mpr storable⟩
  · constructor
    · rintro ⟨ev', parsed, kept, raw_⟩
      cases again.symm.trans parsed
      exact ⟨keeps.mp kept, same.mp raw_⟩
    · rintro ⟨storable, whole⟩
      exact ⟨stored ev, again, keeps.mpr storable, same.mpr whole⟩

def standup : Str := "BEGIN:VEVENT\r\nUID:standup\r\nDTSTART:20260707T090000Z\r\nEND:VEVENT".toList

def standupEvent : Event where
  uid := "standup".toList
  dtStart := { year := 2026, month := 7, day := 7, hour := 9 }
  dtStartRaw := "20260707T090000Z".toList

theorem standup_kept :
    (Kept Calendar.asciiOnly standupEvent ↔ Storable standup) ∧
      (KeptText Calendar.asciiOnly standupEvent ↔ Storable standup ∧
        (lastStart standup = [] → lastTime standup = zeroTime)) :=
  canonical_keeps_iff Calendar.asciiOnly standup standupEvent (by decide)

def meeting : Str :=
  "BEGIN:VEVENT\r\nUID:meeting\r\nORGANIZER:mailto:ann@era\r\nATTENDEE;PARTSTAT=ACCEPTED:mailto:bob@era\r\nEND:VEVENT".toList

/-- The organizer and the attendees of a meeting are not in its stored text. -/
theorem organizer_lost : ¬ ∀ (table : CaseTable) (raw : Str) (ev : Event),
    parseVEVENT table raw = some (ev, none) → Kept table ev := by
  intro keeps
  have parsed : parseVEVENT Calendar.asciiOnly meeting =
      some ({ uid := "meeting".toList, organizer := "ann@era".toList,
              attendees := [⟨"bob@era".toList, utf8 "ACCEPTED".toList⟩] }, none) := by
    decide
  obtain ⟨ev', again, kept⟩ := keeps _ _ _ parsed
  have written : parseVEVENT Calendar.asciiOnly (serializeVEVENT
      { uid := "meeting".toList, organizer := "ann@era".toList,
        attendees := [⟨"bob@era".toList, utf8 "ACCEPTED".toList⟩] }) =
      some ({ uid := "meeting".toList, summary := "Event".toList }, none) := by
    decide
  cases written.symm.trans again
  exact absurd kept.organizer (by decide)

end EraOne.Ical
