import EraOne.GoTime
import EraOne.IcalPartstat
import EraOne.IcalSerialize
import EraOne.Maps
import EraOne.Utf8Lossy
import EraOne.Visits

set_option autoImplicit false

/- The events of each owner (`store.go`) and the PUT of a CalDAV client (`handler.go`). A PUT finds
the texts of events and leaves bytes, as a new answer may cut a line within a character. -/
namespace EraOne.Calendar

open GoTime Utf8

/-- An event with its body, a text or bytes. -/
structure Event (β : Type) where
  uid : Str
  owner : Str
  body : β
  updatedAt : Time
  deriving DecidableEq

/-- The events of each owner by UID; an event knows where it stands. -/
structure Store (β : Type) where
  events : StrMap (StrMap (Event β)) := ∅
  keyed : ∀ (owner uid : Str) (mine : StrMap (Event β)) (ev : Event β), events[owner]? = some mine →
    mine[uid]? = some ev → ev.owner = owner ∧ ev.uid = uid := by simp

section

variable {β : Type}

def Store.get (owner uid : Str) (s : Store β) : Option (Event β) :=
  s.events[owner]?.bind fun mine => mine[uid]?

def Store.put (now : Time) (owner uid : Str) (body : β) (s : Store β) : Store β where
  events := s.events.insert owner ((s.events[owner]?.getD ∅).insert uid ⟨uid, owner, body, now⟩)
  keyed o u mine ev foundO foundU := by
    rw [Maps.getElem?_insert_eq] at foundO
    split at foundO
    · rename_i sameO
      rw [← Option.some.inj foundO, Maps.getElem?_insert_eq] at foundU
      split at foundU
      · rename_i sameU
        rw [← Option.some.inj foundU]
        exact ⟨sameO.symm, sameU.symm⟩
      · cases known : s.events[owner]? with
        | none => simp [known] at foundU
        | some old =>
            rw [known, Option.getD_some] at foundU
            rw [sameO]
            exact s.keyed owner u old ev known foundU
    · exact s.keyed o u mine ev foundO foundU

end

def Event.encoded (ev : Event Str) : Event Bytes := ⟨ev.uid, ev.owner, utf8 ev.body, ev.updatedAt⟩

/-- The same events with the bytes of their bodies. -/
def Store.encoded (s : Store Str) : Store Bytes where
  events := s.events.map fun _ mine => mine.map fun _ ev => ev.encoded
  keyed owner uid mine ev foundO foundU := by
    rw [Std.ExtTreeMap.getElem?_map] at foundO
    obtain ⟨old, known, rfl⟩ := Option.map_eq_some_iff.mp foundO
    rw [Std.ExtTreeMap.getElem?_map] at foundU
    obtain ⟨text, there, rfl⟩ := Option.map_eq_some_iff.mp foundU
    exact s.keyed owner uid old text known there

/-- The answer that a reply is taken for. -/
def partstatOf (att : Ical.Attendee) : Str :=
  if att.partStat = [] then "ACCEPTED".toList else runes att.partStat

/-- The segments of a path below `/caldav/`. -/
def segments (path : Str) : List Str :=
  let path := (Scan.strip "/caldav/".toList path).getD path
  Scan.splitAll ['/'] (Scan.trimMatches '/' path)

section

variable {β : Type}

end

end EraOne.Calendar
