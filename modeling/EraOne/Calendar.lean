import EraOne.Search

set_option autoImplicit false

/- The lines of iCalendar texts as `ical.go` reads them, and the case mappings of Go. -/
namespace EraOne.Calendar

/-- The case mappings outside ASCII; what they give inside ASCII are letters. -/
structure CaseTable where
  upper : Char → Char
  lower : Char → Char
  letters : ∀ c, 128 ≤ c.toNat → (upper c).toNat < 128 → (upper c).isAlpha

def CaseTable.up (table : CaseTable) (c : Char) : Char :=
  if c.toNat < 128 then c.toUpper else table.upper c

def CaseTable.low (table : CaseTable) (c : Char) : Char :=
  if c.toNat < 128 then c.toLower else table.lower c

/-- `strings.ToUpper`. -/
def CaseTable.toUpper (table : CaseTable) (s : Str) : Str := s.map table.up

/-- `strings.ToLower`. -/
def CaseTable.toLower (table : CaseTable) (s : Str) : Str := s.map table.low

def isBlank (c : Char) : Bool := c = ' ' || c = '\t'

def newline : Str := ['\n']

def crlf : Str := ['\r', '\n']

def physicalLines (raw : Str) : List Str := Scan.splitAll newline (Scan.replaceAll crlf newline raw)

/-- Lines that start with a blank are joined to the line before them; `strip` takes the blank
off. -/
def unfold (strip : Str → Str) : List Str → List Str → List Str
  | out, [] => out
  | out, line :: rest =>
      if out ≠ [] ∧ (line.head?.any isBlank) then
        unfold strip (out.dropLast ++ [out.getLastD [] ++ strip line]) rest
      else unfold strip (out ++ [line]) rest

def unfoldLines (raw : Str) : List Str := unfold (·.dropWhile isBlank) [] (physicalLines raw)

def parseMailto (line : Str) : Str :=
  match Scan.splitOnce "mailto:".toList line with
  | some (_, addr) => Scan.trim (addr.takeWhile (· ≠ ';'))
  | none =>
    match Scan.splitOnce [':'] line with
    | some (_, value) => Scan.trim value
    | none => []

def marker : Str := "PARTSTAT=".toList

/-- Where a parameter value ends. -/
def endsValue (c : Char) : Bool := c = ';' || c = ':'

/-- Case mappings that leave everything outside ASCII. -/
def asciiOnly : CaseTable where
  upper := id
  lower := id
  letters c outside_ inside := absurd inside (by simpa using outside_)

end EraOne.Calendar
