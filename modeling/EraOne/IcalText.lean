import EraOne.CalendarText
import EraOne.Utf8

set_option autoImplicit false

/- The bytes of iCalendar texts (`ical.go`). Go finds a parameter in an upper-cased copy of a line
and cuts the line itself at that byte. -/
namespace EraOne.Ical

open Calendar (CaseTable marker)
open Utf8

/-- The byte behind `PARTSTAT=` in the upper-cased line. -/
def markerEnd (table : CaseTable) (line : Str) : Option Nat :=
  (Scan.splitOnce marker (table.toUpper line)).map fun halves => byteLen halves.1 + byteLen marker

theorem startsBlank_byteText (s : Str) :
    (byteText (utf8 s)).head?.any Calendar.isBlank = s.head?.any Calendar.isBlank := by
  cases s with
  | nil => rfl
  | cons c s =>
      by_cases inside : c.toNat < 128
      · have char : Char.ofNat (UInt8.ofNat c.toNat).toNat = c := by
          rw [UInt8.toNat_ofNat', Nat.mod_eq_of_lt (by omega), Char.ofNat_toNat]
        rw [utf8_cons, utf8_ascii c inside, byteText, List.singleton_append, List.map_cons,
          List.head?_cons, List.head?_cons, char]
      · have outside := utf8_outside c (Nat.not_lt.mp inside)
        have plain (d : Char) (large : 128 ≤ d.toNat) : Calendar.isBlank d = false := by
          have space : d ≠ ' ' := by
            rintro rfl
            exact absurd large (by decide)
          have tab : d ≠ '\t' := by
            rintro rfl
            exact absurd large (by decide)
          simp [Calendar.isBlank, space, tab]
        rw [List.head?_cons, Option.any_some, plain c (Nat.not_lt.mp inside), utf8_cons]
        cases bytes : String.utf8EncodeChar c with
        | nil => exact absurd bytes String.utf8EncodeChar_ne_nil
        | cons b rest =>
            have large := outside b (by rw [bytes]; exact List.mem_cons_self)
            rw [byteText, List.cons_append, List.map_cons, List.head?_cons, Option.any_some]
            exact plain _ (by rw [toNat_byteChar]; exact large)

/-! ### Content lines as bytes -/

/-- The bytes of a line, as a text that has a character for each. -/
def bytesOf (line : Str) : Str := byteText (utf8 line)

end EraOne.Ical
