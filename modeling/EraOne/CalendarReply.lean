import EraOne.CalendarStore

set_option autoImplicit false

/- A PUT of one user changes nothing of another's events but, by a reply, the user's own answer in
the organizer's event: exactly when. -/
namespace EraOne.Calendar

open GoTime Utf8
open Ical (Concerns HasPlace LineRight Taken addressOf beforeColon bytesOf expected fields splice
  updateLine)

/-! ### What is allowed -/

/-- A text that is one value of a parameter: no sign ends it outside quotes, and its quotes are
closed. -/
def OneValue (status : Str) : Prop :=
  (beforeColon false status).2 = [] ∧ (fields false status).length = 1 ∧ status.count '"' % 2 = 0

instance (status : Str) : Decidable (OneValue status) := inferInstanceAs (Decidable (_ ∧ _ ∧ _))

section

variable (table : CaseTable)

/-- The address of a user. -/
def addressFor (user : Str) : Str := table.toLower (Scan.trim user)

/-- An ORGANIZER line of the address. -/
def NamesOrganizer (address line : Str) : Prop :=
  table.toUpper ((fields false (beforeColon false line).1).headD []) = "ORGANIZER".toList ∧
    (beforeColon false line).2 ≠ [] ∧
      table.toLower (addressOf table (beforeColon false line).2.tail) = address

instance (address line : Str) : Decidable (NamesOrganizer table address line) :=
  inferInstanceAs (Decidable (_ ∧ _ ∧ _))

/-- The event of its organizer. -/
def Organizes (ev : Event Str) : Prop :=
  ∃ line ∈ contentLines ev.body, NamesOrganizer table (table.toLower ev.owner) line

/-- The user that a path names; a path without one names the empty user. -/
def userOf (path : Str) : Str := (segments path).headD []

/-- The event of a PUT that is taken as a reply, and the attendee whose answer it is taken as. -/
def repliesFor (path body : Str) : Option (Ical.Event × Ical.Attendee) :=
  match segments path with
  | user :: _ :: _ =>
      if user = [] then none
      else
        match Ical.parseVEVENT table body with
        | none => none
        | some (parsed, _) =>
            if parsed.method = "REPLY".toList then
              parsed.attendees.head?.map fun att => (parsed, att)
            else none
  | _ => none

/-- The answer of a reply's attendee as it is written. -/
def answerOf (att : Ical.Attendee) : Str := table.toUpper (Scan.trim (partstatOf att))

/-- What is put in the place of an unfolded line: the line itself, or what the package keeps of it
around the new answer where it takes the line for one of the attendee. -/
def PutBack (att : Ical.Attendee) (unfolded : Str) (out : Bytes) : Prop :=
  if Taken table (addressFor table att.email) unfolded ∧ HasPlace table unfolded then
    ∃ halves, splice table unfolded = some halves ∧
      halves.1 ++ utf8 (answerOf table att) ++ halves.2 = out
  else utf8 unfolded = out

/-- A line of the event is cut out of range, so that nothing is written. -/
def OutOfRange (att : Ical.Attendee) (ev : Event Str) : Prop :=
  ∃ p ∈ linePairs ev.body,
    Taken table (addressFor table att.email) p.2 ∧ HasPlace table p.2 ∧ splice table p.2 = none

/-- Every content line is put back as it is. -/
def Settled (att : Ical.Attendee) (ev : Event Str) : Prop :=
  ∀ p ∈ linePairs ev.body, PutBack table att p.2 (utf8 p.1)

/-- The event is its organizer's, and every content line is put back as it is, or is the user's own
and put back with one value for its answer. -/
def Own (user : Str) (att : Ical.Attendee) (ev : Event Str) : Prop :=
  Organizes table ev ∧ ∀ p ∈ linePairs ev.body,
    PutBack table att p.2 (utf8 p.1) ∨
      Concerns table (addressFor table user) p.1 ∧ ∃ status, OneValue status ∧
        PutBack table att p.2 (utf8 (expected table (addressFor table user) status p.1))

/-- Every other user's event with the UID of the reply cannot be rewritten, is settled, or is the
organizer's to answer in. -/
def Harmless (path body : Str) (s : Store Str) : Prop :=
  ∀ parsed att, repliesFor table path body = some (parsed, att) → ∀ owner ev, owner ≠ userOf path →
    s.get owner parsed.uid = some ev →
      OutOfRange table att ev ∨ Settled table att ev ∨ Own table (userOf path) att ev

/-! ### The answer of a reply -/

theorem putBack_iff (att : Ical.Attendee) (unfolded : Str) (out : Bytes) :
    PutBack table att unfolded out ↔
      updateLine table (addressFor table att.email) (answerOf table att) unfolded = some out := by
  unfold PutBack
  split
  · rename_i active
    rw [Ical.updateLine_of_taken table _ _ _ active.1 active.2, Option.map_eq_some_iff]
  · rename_i other
    rw [Ical.updateLine_of_not_taken table _ _ _ other, Option.some.injEq]

/-- A reply for the user's own address, of one value, to which every other's event with its UID is
the organizer's and has its lines read right. -/
def OwnReply (path body : Str) (s : Store Str) : Prop :=
  ∀ parsed att, repliesFor table path body = some (parsed, att) →
    addressFor table att.email = addressFor table (userOf path) ∧ OneValue (answerOf table att) ∧
      ∀ owner ev, owner ≠ userOf path → s.get owner parsed.uid = some ev →
        Organizes table ev ∧ ∀ p ∈ linePairs ev.body,
          LineRight table (addressFor table att.email) p.1 p.2

theorem harmless_of_ownReply (path body : Str) (s : Store Str) (own : OwnReply table path body s) :
    Harmless table path body s := by
  intro parsed att reply owner ev foreign there
  obtain ⟨address, one, events⟩ := own parsed att reply
  obtain ⟨organizes, right⟩ := events owner ev foreign there
  refine Or.inr (Or.inr ⟨organizes, fun p member => ?_⟩)
  have updated := Ical.updateLine_of_right table _ (answerOf table att) p.1 p.2 (right p member)
  rw [← putBack_iff] at updated
  by_cases concerns : Concerns table (addressFor table att.email) p.1
  · rw [address] at concerns updated
    exact Or.inr ⟨concerns, answerOf table att, one, updated⟩
  · rw [expected, if_neg concerns] at updated
    exact Or.inl updated

end

def lines (text : List String) : Str := List.intercalate newline (text.map String.toList)

def bobsLine : String := "ATTENDEE;PARTSTAT=NEEDS-ACTION:mailto:bob@x"

/-- The invitation as its organizer keeps it. -/
def invitation : Event Str where
  uid := "m1".toList
  owner := "alice@x".toList
  body := lines ["BEGIN:VEVENT", "UID:m1", "ORGANIZER:mailto:alice@x", bobsLine, "END:VEVENT"]
  updatedAt := zeroTime

/-- What the forged reply is read as. -/
def forged : Ical.Event where
  uid := "m1".toList
  method := "REPLY".toList
  attendees := [⟨"bob@x".toList, utf8 "DECLINED".toList⟩]

end EraOne.Calendar
