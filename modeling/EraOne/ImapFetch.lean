import EraOne.ImapQuote
import EraOne.MigrationWorker
import EraOne.Utf8

set_option autoImplicit false

/- FETCH of the IMAP client (`imapclient/fetch.go`, `client.go`) on the bytes that a server
answers. -/
namespace EraOne.Imap

open Migration (beforeDelimiter parseUint afterBrace atoi)
open Utf8

/-- `strings.ToUpper`, `strings.ToLower` and `strings.TrimSpace` of bytes. -/
structure Text where
  upper : Str → Str
  lower : Str → Str
  trimSpace : Str → Str
  upper_ascii : ∀ s, (∀ c ∈ s, c.toNat < 128) → upper s = s.map Char.toUpper
  trimSpace_ascii : ∀ s, (∀ c ∈ s, c.toNat < 128) → trimSpace s = Scan.trim s

/-! ### The client -/

structure Message where
  uid : Nat
  folder : Str
  raw : Bytes
  hash : Str
  subject : Str
  seen : Bool
  deriving DecidableEq

/-- The next tag, what the server is still to be read of, and what was sent to it. -/
structure Client where
  tag : Nat
  reader : Bytes
  sent : List Str
  deriving DecidableEq

section

variable (text : Text) (hashRaw : Bytes → Str)

def parseUID (line : Str) : Nat :=
  match Scan.splitOnce "UID ".toList line with
  | none => 0
  | some (_, rest) =>
    match beforeDelimiter (text.trimSpace rest) with
    | none => 0
    | some number => if number = [] then 0 else parseUint number

def parseLiteralSize (line : Str) : Int :=
  match afterBrace line with
  | none => 0
  | some rest =>
    match Scan.splitOnce ['\x7d'] rest with
    | none => 0
    | some (inner, _) => atoi (text.trimSpace inner)

def parseSeen (line : Str) : Bool := Scan.contains "\\SEEN".toList (text.upper line)

def parseSubject (raw : Bytes) : Str :=
  match (Scan.splitAll ['\n'] (byteText raw)).find? fun line =>
    "subject:".toList.isPrefixOf (text.lower line) with
  | some line => text.trimSpace (line.drop 8)
  | none => []

/-- `readLine`; `none` where the server has closed before the end of the line. -/
def readLine (reader : Bytes) : Option (Str × Bytes) :=
  if 10 ∈ reader then
    some ((byteText (reader.takeWhile (· ≠ 10))).rdropWhile (fun c => c = '\r' ∨ c = '\n'),
      (reader.dropWhile (· ≠ 10)).tail)
  else none

def nextTag (tag : Nat) : Str := 'a' :: Nat.toDigits 10 (tag + 1)

def endOfFile : Str := "EOF".toList

/-- Lines are read up to the one that ends the command; each takes a byte at least. -/
def awaitOK (tag : Str) : Nat → Bytes → Except Str Bytes
  | 0, _ => .error endOfFile
  | steps + 1, reader =>
      match readLine reader with
      | none => .error endOfFile
      | some (resp, rest) =>
          if (tag ++ " OK".toList).isPrefixOf resp then .ok rest
          else if (tag ++ " NO".toList).isPrefixOf resp ∨
            (tag ++ " BAD".toList).isPrefixOf resp then
            .error ("imap: ".toList ++ resp)
          else awaitOK tag steps rest

def fetchLines (folder tag : Str) : Nat → Bytes → Except Str (List Message × Bytes)
  | 0, _ => .error endOfFile
  | steps + 1, reader =>
      match readLine reader with
      | none => .error endOfFile
      | some (line, rest) =>
          if (tag ++ " OK".toList).isPrefixOf line then .ok ([], rest)
          else if ¬ Scan.contains "FETCH".toList line ∨
            ¬ Scan.contains "BODY[]".toList line then fetchLines folder tag steps rest
          else if parseLiteralSize text line ≤ 0 then fetchLines folder tag steps rest
          else
            let size := (parseLiteralSize text line).toNat
            if rest.length < size then
              .error (if rest = [] then endOfFile else "unexpected EOF".toList)
            else
              match readLine (rest.drop size) with
              | none => .error endOfFile
              | some (_, behind) =>
                  (fetchLines folder tag steps behind).map fun more =>
                    ({ uid := parseUID text line, folder := folder, raw := rest.take size,
                       hash := hashRaw (rest.take size)
                       subject := parseSubject text (rest.take size),
                         seen := parseSeen text line } :: more.1, more.2)

/-- `FetchFolder`; a failed command leaves the rest of the answers unread. -/
def fetchFolder (cl : Client) (folder : Str) : Except Str (List Message × Client) :=
  (awaitOK (nextTag cl.tag) (cl.reader.length + 1) cl.reader).bind fun selected =>
    (fetchLines text hashRaw folder (nextTag (cl.tag + 1)) (selected.length + 1) selected).map
      fun fetched =>
      (fetched.1, {
        tag := cl.tag + 2
        reader := fetched.2
        sent := cl.sent ++ [nextTag cl.tag ++ " SELECT ".toList ++ argument folder ++ "\r\n".toList,
          nextTag (cl.tag + 1) ++ " FETCH 1:* (UID FLAGS BODY[])\r\n".toList] })

end

/-! ### The server -/

/-- A character of an atom of RFC 3501. -/
def isAtomChar (c : Char) : Bool :=
  0x21 ≤ c.toNat && c.toNat < 0x7F && !"()\x7b%*\"\\]".toList.contains c

def isAtom (s : Str) : Bool := s ≠ [] && s.all isAtomChar

/-- A keyword or, behind a backslash, a system flag. -/
structure Flag where
  name : Str
  atom : isAtom (if name.head? = some '\\' then name.tail else name) = true

inductive Item where
  | uid
  | flags
  deriving DecidableEq

/-- A message in a mailbox, and how the server lists it: its sequence number, and the items it puts
before and behind the body. -/
structure Answer where
  seq : Nat
  uid : Nat
  flags : List Flag
  raw : Bytes
  before : List Item
  behind : List Item
  uid_pos : 0 < uid
  uid_lt : uid < 2 ^ 32
  raw_lt : raw.length < 2 ^ 32
  items : (before ++ behind).Perm [.uid, .flags]

def Answer.item (a : Answer) : Item → Str
  | .uid => "UID ".toList ++ Nat.toDigits 10 a.uid
  | .flags => "FLAGS (".toList ++ List.intercalate [' '] (a.flags.map Flag.name) ++ [')']

/-- The line that ends in the length of the body. -/
def Answer.header (a : Answer) : Str :=
  "* ".toList ++ Nat.toDigits 10 a.seq ++ " FETCH (".toList ++ a.before.flatMap
    (fun i => a.item i ++ [' ']) ++
    "BODY[] \x7b".toList ++ Nat.toDigits 10 a.raw.length ++ ['\x7d']

/-- The line that goes on behind the body. -/
def Answer.trailer (a : Answer) : Str := a.behind.flatMap (fun i => ' ' :: a.item i) ++ [')']

def crlf : Bytes := [13, 10]

def Answer.text (a : Answer) : Bytes := utf8 a.header ++ crlf ++ a.raw ++ utf8 a.trailer ++ crlf

/-- A text within a line. -/
structure Remark where
  text : Bytes
  oneLine : 10 ∉ text

/-- What the server answers to both commands: lines about the mailbox, then the messages, each time
with the line that ends the command. -/
def serverText (tag : Nat) (mailbox : List Remark) (selected fetched : Remark)
    (answers : List Answer) : Bytes :=
  mailbox.flatMap (fun line => utf8 "* ".toList ++ line.text ++ crlf) ++
    (utf8 (nextTag tag ++ " OK ".toList) ++ selected.text ++ crlf) ++
    answers.flatMap Answer.text ++
      (utf8 (nextTag (tag + 1) ++ " OK ".toList) ++ fetched.text ++ crlf)

/-- The message has the flag `\Seen`. -/
def Answer.seen (a : Answer) : Bool :=
  a.flags.any fun flag => flag.name.map Char.toUpper = "\\SEEN".toList

/-- The message as it is in the mailbox. -/
def Answer.message (text : Text) (hashRaw : Bytes → Str) (folder : Str) (a : Answer) : Message where
  uid := a.uid
  folder := folder
  raw := a.raw
  hash := hashRaw a.raw
  subject := parseSubject text a.raw
  seen := a.seen

/-! ### Lines -/

/-- Printable ASCII. -/
def Plain (s : Str) : Prop := ∀ c ∈ s, 0x20 ≤ c.toNat ∧ c.toNat < 0x7F

theorem plain_append (s t : Str) : Plain (s ++ t) ↔ Plain s ∧ Plain t := by
  unfold Plain
  rw [List.forall_mem_append]

theorem plain_cons (c : Char) (s : Str) :
    Plain (c :: s) ↔ (0x20 ≤ c.toNat ∧ c.toNat < 0x7F) ∧ Plain s := by
  unfold Plain
  rw [List.forall_mem_cons]

theorem plain_literal (s : Str)
    (all : s.all (fun c => 0x20 ≤ c.toNat && c.toNat < 0x7F) = true) : Plain s := by
  intro c member
  have one := List.all_eq_true.mp all c member
  rwa [Bool.and_eq_true, decide_eq_true_eq, decide_eq_true_eq] at one

theorem plain_toDigits (n : Nat) : Plain (Nat.toDigits 10 n) := by
  intro c member
  have digit := Nat.isDigit_of_mem_toDigits (by decide) (by decide) member
  simp only [Char.isDigit, ge_iff_le, Bool.and_eq_true, decide_eq_true_eq,
    UInt32.le_iff_toNat_le] at digit
  have lower : 48 ≤ c.toNat := digit.1
  have upper : c.toNat ≤ 57 := digit.2
  omega

/-- The characters of a flag: those of atoms, and a backslash in front. -/
theorem Flag.chars (flag : Flag) : ∀ c ∈ flag.name, isAtomChar c = true ∨ c = '\\' := by
  have atom := flag.atom
  unfold isAtom at atom
  rw [Bool.and_eq_true] at atom
  intro c member
  split at atom
  · rename_i first
    obtain ⟨rest, shape⟩ := List.head?_eq_some_iff.mp first
    rw [shape, List.tail_cons] at atom
    rw [shape] at member
    rcases List.mem_cons.mp member with same | later
    · exact Or.inr same
    · exact Or.inl (List.all_eq_true.mp atom.2 c later)
  · exact Or.inl (List.all_eq_true.mp atom.2 c member)

theorem Flag.plain (flag : Flag) : Plain flag.name := by
  intro c member
  rcases flag.chars c member with atom | rfl
  · unfold isAtomChar at atom
    rw [Bool.and_eq_true, Bool.and_eq_true, decide_eq_true_eq, decide_eq_true_eq] at atom
    omega
  · decide

theorem mem_intercalate (c : Char) (texts : List Str) (member : c ∈ List.intercalate [' '] texts) :
    c = ' ' ∨ ∃ s ∈ texts, c ∈ s := by
  induction texts with
  | nil => cases member
  | cons s rest ih =>
      cases rest with
      | nil =>
          rw [show List.intercalate [' '] [s] = s by simp [List.intercalate]] at member
          exact Or.inr ⟨s, List.mem_cons_self, member⟩
      | cons t rest =>
          have step : List.intercalate [' '] (s :: t :: rest) = s ++ [' '] ++ List.intercalate [' ']
              (t :: rest) := by
            simp [List.intercalate]
          rw [step, List.mem_append, List.mem_append, List.mem_singleton] at member
          rcases member with (here | blank) | later
          · exact Or.inr ⟨s, List.mem_cons_self, here⟩
          · exact Or.inl blank
          · rcases ih later with blank | ⟨t', inside, found⟩
            · exact Or.inl blank
            · exact Or.inr ⟨t', List.mem_cons_of_mem s inside, found⟩

theorem plain_flatMap (items : List Item) (f : Item → Str) (all : ∀ i, Plain (f i)) : Plain
    (items.flatMap f) := by
  intro c member
  obtain ⟨i, _, inside⟩ := List.mem_flatMap.mp member
  exact all i c inside

theorem Answer.item_uid (a : Answer) : a.item .uid = "UID ".toList ++ Nat.toDigits 10 a.uid := rfl

theorem Answer.item_flags (a : Answer) :
    a.item .flags = "FLAGS (".toList ++ List.intercalate [' '] (a.flags.map Flag.name) ++ [')'] :=
      rfl

theorem Answer.plain_item (a : Answer) (i : Item) : Plain (a.item i) := by
  cases i with
  | uid =>
      rw [a.item_uid, plain_append]
      exact ⟨plain_literal _ (by decide), plain_toDigits _⟩
  | flags =>
      rw [a.item_flags, plain_append, plain_append]
      refine ⟨⟨plain_literal _ (by decide), ?_⟩, plain_literal _ (by decide)⟩
      intro c member
      rcases mem_intercalate c _ member with rfl | ⟨s, inside, found⟩
      · decide
      · obtain ⟨flag, _, rfl⟩ := List.mem_map.mp inside
        exact flag.plain c found

theorem Answer.plain_header (a : Answer) : Plain a.header := by
  unfold Answer.header
  rw [plain_append, plain_append, plain_append, plain_append, plain_append, plain_append]
  refine ⟨⟨⟨⟨⟨⟨plain_literal _ (by decide), plain_toDigits _⟩, plain_literal _ (by decide)⟩, ?_⟩,
    plain_literal _ (by decide)⟩, plain_toDigits _⟩, plain_literal _ (by decide)⟩
  apply plain_flatMap
  intro i
  rw [plain_append]
  exact ⟨a.plain_item i, plain_literal _ (by decide)⟩

theorem Answer.plain_trailer (a : Answer) : Plain a.trailer := by
  unfold Answer.trailer
  rw [plain_append]
  refine ⟨plain_flatMap _ _ fun i => ?_, plain_literal _ (by decide)⟩
  rw [plain_cons]
  exact ⟨by decide, a.plain_item i⟩

theorem Plain.ascii {s : Str} (plain : Plain s) : ∀ c ∈ s, c.toNat < 128 := by
  intro c member
  have both := plain c member
  omega

theorem Plain.feedless {s : Str} (plain : Plain s) : (10 : UInt8) ∉ utf8 s := by
  intro member
  have inside : '\n' ∈ byteText (utf8 s) := List.mem_map.mpr ⟨10, member, by decide⟩
  rw [mem_byteText_utf8 _ (by decide)] at inside
  have both := plain _ inside
  exact absurd both.1 (by decide)

def isLineEnd (c : Char) : Bool := c = '\r' || c = '\n'

theorem readLine_line (b rest : Bytes) (oneLine : 10 ∉ b) :
    readLine (b ++ crlf ++ rest) = some ((byteText b ++ ['\r']).rdropWhile isLineEnd, rest) := by
  have whole : b ++ crlf ++ rest = (b ++ [13]) ++ 10 :: rest := by
    simp [crlf]
  have front : ∀ x ∈ b ++ [13], decide (x ≠ 10) = true := by
    intro x member
    rw [decide_eq_true_eq]
    rintro rfl
    rcases List.mem_append.mp member with old | new
    · exact oneLine old
    · exact absurd (List.mem_singleton.mp new) (by decide)
  unfold readLine
  rw [whole, if_pos (by simp), List.takeWhile_append_of_pos front,
    List.dropWhile_append_of_pos front]
  have stop : (10 :: rest).takeWhile (fun x => decide (x ≠ 10)) = [] ∧
      (10 :: rest).dropWhile (fun x => decide (x ≠ 10)) = 10 :: rest :=
    ⟨rfl, rfl⟩
  rw [stop.1, stop.2, List.append_nil, byteText_append, List.tail_cons]
  have ends : (fun c : Char => decide (c = '\r' ∨ c = '\n')) = isLineEnd := by
    funext c
    rw [isLineEnd, Bool.decide_or]
  rw [ends]
  rfl

/-- What does not end in a line end stays whole in front. -/
theorem prefix_rdropWhile (front s : Str) (solid : ∀ c ∈ front.getLast?, isLineEnd c = false) :
    front <+: (front ++ s).rdropWhile isLineEnd := by
  induction s using List.reverseRecOn with
  | nil =>
      rw [List.append_nil]
      by_cases empty : front = []
      · rw [empty]
        exact List.nil_prefix
      · rw [List.rdropWhile_eq_self_iff.mpr]
        intro some_
        rw [solid _ (List.getLast?_eq_getLast_of_ne_nil some_)]
        exact Bool.false_ne_true
  | append_singleton s c ih =>
      rw [← List.append_assoc, List.rdropWhile_concat]
      split
      · exact ih
      · rw [List.append_assoc]
        exact List.prefix_append _ _

theorem Plain.solid {s : Str} (plain : Plain s) : ∀ c ∈ s.getLast?, isLineEnd c = false := by
  intro c last
  have both := plain c (List.mem_of_getLast? last)
  rw [isLineEnd, Bool.or_eq_false_iff, decide_eq_false_iff_not, decide_eq_false_iff_not]
  constructor
  · rintro rfl
    exact absurd both.1 (by decide)
  · rintro rfl
    exact absurd both.1 (by decide)

theorem readLine_plain (s : Str) (rest : Bytes) (plain : Plain s) :
    readLine (utf8 s ++ crlf ++ rest) = some (s, rest) := by
  rw [readLine_line _ _ plain.feedless, byteText_utf8 s plain.ascii, List.rdropWhile_concat,
    if_pos (by decide)]
  have front := prefix_rdropWhile s [] plain.solid
  rw [List.append_nil] at front
  have same := front.eq_of_length_le (List.rdropWhile_prefix isLineEnd _).length_le
  rw [← same]

/-- A line keeps the printable text it begins with. -/
theorem readLine_begins (s : Str) (b rest : Bytes) (plain : Plain s) (oneLine : 10 ∉ b) :
    ∃ line, readLine (utf8 s ++ b ++ crlf ++ rest) = some (line, rest) ∧ s <+: line := by
  have clean : 10 ∉ utf8 s ++ b := by
    rw [List.mem_append, not_or]
    exact ⟨plain.feedless, oneLine⟩
  refine ⟨_, readLine_line _ rest clean, ?_⟩
  rw [byteText_append, byteText_utf8 s plain.ascii, List.append_assoc]
  exact prefix_rdropWhile s _ plain.solid

/-! ### The length of a body -/

theorem afterBrace_append (front back : Str) (none_ : '\x7b' ∉ back) :
    afterBrace (front ++ '\x7b' :: back) = some back := by
  have inside : '\x7b' ∈ front ++ '\x7b' :: back := by simp
  have turned : (front ++ '\x7b' :: back).reverse = back.reverse ++ '\x7b' :: front.reverse := by
    simp
  have every : ∀ c ∈ back.reverse, decide (c ≠ '\x7b') = true := by
    intro c member
    rw [decide_eq_true_eq]
    rintro rfl
    exact none_ (List.mem_reverse.mp member)
  have stop : ('\x7b' :: front.reverse).takeWhile (fun c => decide (c ≠ '\x7b')) = [] := rfl
  rw [afterBrace, if_pos inside, turned, List.takeWhile_append_of_pos every, stop, List.append_nil,
    List.reverse_reverse]

theorem not_mem_toDigits (c : Char) (other : c.isDigit = false) (n : Nat) :
    c ∉ Nat.toDigits 10 n := by
  intro member
  rw [Nat.isDigit_of_mem_toDigits (by decide) (by decide) member] at other
  cases other

theorem trim_eq_self_of_ends (s : Str) (first : ∀ c ∈ s.head?, Scan.isWhitespace c = false)
    (last : ∀ c ∈ s.getLast?, Scan.isWhitespace c = false) : Scan.trim s = s :=
  (Scan.trim_eq_self_iff s).mpr ⟨first, last⟩

theorem not_space_of_digit (c : Char) (digit : c.isDigit = true) : Scan.isWhitespace c = false := by
  simp only [Char.isDigit, ge_iff_le, Bool.and_eq_true, decide_eq_true_eq,
    UInt32.le_iff_toNat_le] at digit
  have lower : 48 ≤ c.toNat := digit.1
  have upper : c.toNat ≤ 57 := digit.2
  unfold Scan.isWhitespace
  rw [decide_eq_false_iff_not]
  omega

theorem atoi_toDigits (n : Nat) (small : n < 2 ^ 32) : atoi (Nat.toDigits 10 n) = n := by
  have unsigned (c : Char) (rest : Str) (other : c.isDigit = false) :
      Nat.toDigits 10 n ≠ c :: rest := by
    intro shape
    exact not_mem_toDigits c other n (shape ▸ List.mem_cons_self)
  unfold atoi
  split
  · rename_i shape
    exact absurd shape (unsigned _ _ (by decide))
  · rename_i shape
    exact absurd shape (unsigned _ _ (by decide))
  · dsimp only
    rw [Scan.parseDigits_toDigits]
    dsimp only
    omega

section

variable (text : Text) (hashRaw : Bytes → Str)

theorem Answer.literalSize (a : Answer) : parseLiteralSize text a.header = a.raw.length := by
  have shape : a.header = ("* ".toList ++ Nat.toDigits 10 a.seq ++ " FETCH (".toList ++
      a.before.flatMap (fun i => a.item i ++ [' ']) ++ "BODY[] ".toList) ++ '\x7b' ::
        (Nat.toDigits 10 a.raw.length ++ ['\x7d']) := by
    have brace : "BODY[] \x7b".toList = "BODY[] ".toList ++ ['\x7b'] := by decide
    unfold Answer.header
    rw [brace]
    simp only [List.append_assoc, List.cons_append, List.nil_append]
  have none_ : '\x7b' ∉ Nat.toDigits 10 a.raw.length ++ ['\x7d'] := by
    rw [List.mem_append, not_or]
    exact ⟨not_mem_toDigits _ (by decide) _, by decide⟩
  have closed : Scan.splitOnce ['\x7d'] (Nat.toDigits 10 a.raw.length ++ ['\x7d']) = some
      (Nat.toDigits 10 a.raw.length, []) :=
    Scan.splitOnce_quiet_match ['\x7d'] _ [] (by decide)
      (Scan.quiet_of_not_mem _ _ _ (not_mem_toDigits _ (by decide) _))
  have digit (c : Char) (member : c ∈ Nat.toDigits 10 a.raw.length) : Scan.isWhitespace c = false :=
    not_space_of_digit c (Nat.isDigit_of_mem_toDigits (by decide) (by decide) member)
  have trimmed : Scan.trim (Nat.toDigits 10 a.raw.length) = Nat.toDigits 10 a.raw.length :=
    trim_eq_self_of_ends _ (fun c member => digit c (List.mem_of_head? member)) fun c member =>
      digit c (List.mem_of_getLast? member)
  unfold parseLiteralSize
  rw [shape, afterBrace_append _ _ none_]
  dsimp only
  rw [closed]
  dsimp only
  rw [text.trimSpace_ascii _ (plain_toDigits _).ascii, trimmed, atoi_toDigits _ a.raw_lt]

/-! ### A whole answer -/

/-- What is read of a message. -/
def Answer.read (folder : Str) (a : Answer) : List Message :=
  if a.raw = [] then []
  else
    [{ uid := parseUID text a.header, folder := folder, raw := a.raw, hash := hashRaw a.raw,
       subject := parseSubject text a.raw
       seen := parseSeen text a.header }]

theorem not_isPrefixOf_tag (tag : Nat) (word line : Str) (other : line.head? ≠ some 'a') :
    (nextTag tag ++ word).isPrefixOf line = false := by
  rw [Bool.eq_false_iff, Ne, List.isPrefixOf_iff_prefix]
  rintro ⟨rest, rfl⟩
  exact other rfl

theorem Answer.header_head (a : Answer) : a.header.head? = some '*' := by
  unfold Answer.header
  rfl

theorem Answer.trailer_head (a : Answer) : a.trailer.head? ≠ some 'a' := by
  unfold Answer.trailer
  cases a.behind with
  | nil => exact (by decide : some ')' ≠ some 'a')
  | cons i rest => exact (by decide : some ' ' ≠ some 'a')

theorem Answer.header_contains (a : Answer) :
    Scan.contains "FETCH".toList a.header = true ∧
      Scan.contains "BODY[]".toList a.header = true := by
  rw [Scan.contains_iff_infix, Scan.contains_iff_infix]
  unfold Answer.header
  have fetch : " FETCH (".toList = [' '] ++ "FETCH".toList ++ " (".toList := by decide
  have body : "BODY[] \x7b".toList = "BODY[]".toList ++ " \x7b".toList := by decide
  rw [fetch, body]
  generalize "FETCH".toList = word
  generalize "BODY[]".toList = key
  constructor
  · refine ⟨"* ".toList ++ Nat.toDigits 10 a.seq ++ [' '],
      " (".toList ++ a.before.flatMap (fun i => a.item i ++ [' ']) ++
      (key ++ " \x7b".toList) ++ Nat.toDigits 10 a.raw.length ++ ['\x7d'], ?_⟩
    simp only [List.append_assoc]
  · refine ⟨"* ".toList ++ Nat.toDigits 10 a.seq ++ ([' '] ++ word ++ " (".toList) ++
      a.before.flatMap (fun i => a.item i ++ [' ']),
      " \x7b".toList ++ Nat.toDigits 10 a.raw.length ++ ['\x7d'], ?_⟩
    simp only [List.append_assoc]

theorem Answer.bracket_not_mem_item (a : Answer) (i : Item) : ']' ∉ a.item i := by
  cases i with
  | uid =>
      rw [a.item_uid, List.mem_append, not_or]
      exact ⟨by decide, not_mem_toDigits _ (by decide) _⟩
  | flags =>
      rw [a.item_flags, List.mem_append, List.mem_append, not_or, not_or]
      refine ⟨⟨by decide, fun member => ?_⟩, by decide⟩
      rcases mem_intercalate _ _ member with blank | ⟨s, inside, found⟩
      · exact absurd blank (by decide)
      · obtain ⟨flag, _, rfl⟩ := List.mem_map.mp inside
        rcases flag.chars _ found with atom | same
        · exact absurd atom (by decide)
        · exact absurd same (by decide)

theorem Answer.trailer_lacks (a : Answer) : Scan.contains "BODY[]".toList a.trailer = false := by
  rw [Bool.eq_false_iff, Ne, Scan.contains_iff_infix]
  intro within
  have bracket : ']' ∈ a.trailer := within.subset (by decide)
  unfold Answer.trailer at bracket
  rcases List.mem_append.mp bracket with items | last
  · obtain ⟨i, _, inside⟩ := List.mem_flatMap.mp items
    rcases List.mem_cons.mp inside with blank | here
    · exact absurd blank (by decide)
    · exact a.bracket_not_mem_item i here
  · exact absurd (List.mem_singleton.mp last) (by decide)

/-- The line that ends a command begins with its tag. -/
theorem readLine_completion (tag : Nat) (remark : Remark) (rest : Bytes) :
    ∃ line, readLine (utf8 (nextTag tag ++ " OK ".toList) ++ remark.text ++ crlf ++ rest) = some
      (line, rest) ∧
      (nextTag tag ++ " OK".toList).isPrefixOf line = true := by
  have plain : Plain (nextTag tag ++ " OK ".toList) := by
    rw [plain_append, nextTag, plain_cons]
    exact ⟨⟨by decide, plain_toDigits _⟩, plain_literal _ (by decide)⟩
  obtain ⟨line, found, begins⟩ := readLine_begins _ remark.text rest plain remark.oneLine
  refine ⟨line, found, ?_⟩
  rw [List.isPrefixOf_iff_prefix]
  refine List.IsPrefix.trans ?_ begins
  exact (List.prefix_append_right_inj _).mpr ⟨[' '], by decide⟩

theorem awaitOK_selected (tag : Nat) (mailbox : List Remark) (selected : Remark) (rest : Bytes)
    (steps : Nat) (enough : mailbox.length < steps) :
    awaitOK (nextTag tag) steps
      (mailbox.flatMap (fun line => utf8 "* ".toList ++ line.text ++ crlf) ++
      (utf8 (nextTag tag ++ " OK ".toList) ++ selected.text ++ crlf) ++ rest) = .ok rest := by
  induction mailbox generalizing steps with
  | nil =>
      obtain ⟨steps, rfl⟩ := Nat.exists_eq_succ_of_ne_zero (Nat.ne_of_gt enough)
      obtain ⟨line, found, tagged⟩ := readLine_completion tag selected rest
      rw [List.flatMap_nil, List.nil_append, awaitOK, found]
      dsimp only
      rw [if_pos tagged]
  | cons first mailbox ih =>
      obtain ⟨steps, rfl⟩ := Nat.exists_eq_succ_of_ne_zero (Nat.ne_of_gt (Nat.zero_lt_of_lt enough))
      rw [List.length_cons, Nat.succ_lt_succ_iff] at enough
      have later := ih steps enough
      rw [List.flatMap_cons]
      generalize answers : mailbox.flatMap (fun line => utf8 "* ".toList ++ line.text ++ crlf) ++
        (utf8 (nextTag tag ++ " OK ".toList) ++ selected.text ++ crlf) ++ rest = more at later
      have whole : utf8 "* ".toList ++ first.text ++ crlf ++ mailbox.flatMap
          (fun line => utf8 "* ".toList ++ line.text ++ crlf) ++
          (utf8 (nextTag tag ++ " OK ".toList) ++ selected.text ++ crlf) ++ rest = utf8
            "* ".toList ++ first.text ++ crlf ++ more := by
        rw [← answers]
        simp only [List.append_assoc]
      obtain ⟨line, found, begins⟩ :=
        readLine_begins "* ".toList first.text more (plain_literal _ (by decide)) first.oneLine
      have head : line.head? ≠ some 'a' := by
        obtain ⟨tail, rfl⟩ := begins
        exact (by decide : some '*' ≠ some 'a')
      rw [whole, awaitOK, found]
      dsimp only
      rw [not_isPrefixOf_tag _ _ _ head, not_isPrefixOf_tag _ _ _ head,
        not_isPrefixOf_tag _ _ _ head, if_neg Bool.false_ne_true, if_neg (by decide), later]

/-- The lines of one message give what is read of it. -/
theorem fetchLines_answer (folder : Str) (tag steps : Nat) (a : Answer) (rest : Bytes)
    (fetched : List Message) (left : Bytes) (later : ∀ more,
      fetchLines text hashRaw folder (nextTag tag) (steps + more) rest = .ok (fetched, left)) :
    fetchLines text hashRaw folder (nextTag tag) (steps + 2) (a.text ++ rest) = .ok
      (a.read text hashRaw folder ++ fetched, left) := by
  have whole :
      a.text ++ rest = utf8 a.header ++ crlf ++ (a.raw ++ (utf8 a.trailer ++ crlf ++ rest)) := by
    unfold Answer.text
    simp only [List.append_assoc]
  have kept : ¬ (¬ Scan.contains "FETCH".toList a.header = true ∨
      ¬ Scan.contains "BODY[]".toList a.header = true) := by
    rw [not_or, not_not, not_not]
    exact a.header_contains
  have head : a.header.head? ≠ some 'a' := by
    rw [a.header_head]
    decide
  rw [whole, fetchLines, readLine_plain _ _ a.plain_header]
  dsimp only
  rw [not_isPrefixOf_tag _ _ _ head, if_neg Bool.false_ne_true, if_neg kept, a.literalSize text]
  unfold Answer.read
  by_cases empty : a.raw = []
  · rw [if_pos empty, empty, if_pos (by decide), List.nil_append, List.nil_append, fetchLines,
      readLine_plain _ _ a.plain_trailer]
    dsimp only
    rw [not_isPrefixOf_tag _ _ _ a.trailer_head, if_neg Bool.false_ne_true,
      if_pos (Or.inr (by rw [a.trailer_lacks]; decide))]
    exact later 0
  · have positive : 0 < a.raw.length := List.length_pos_of_ne_nil empty
    rw [if_neg empty, if_neg (by omega), Int.toNat_natCast, List.length_append, if_neg (by omega),
      List.take_left, List.drop_left, readLine_plain _ _ a.plain_trailer]
    dsimp only
    rw [later 1]
    rfl

theorem fetchLines_answers (folder : Str) (tag : Nat) (answers : List Answer) (fetched : Remark)
    (steps : Nat) (enough : 2 * answers.length < steps) :
    fetchLines text hashRaw folder (nextTag tag) steps (answers.flatMap Answer.text ++
      (utf8 (nextTag tag ++ " OK ".toList) ++ fetched.text ++ crlf)) = .ok
        (answers.flatMap (Answer.read text hashRaw folder), []) := by
  induction answers generalizing steps with
  | nil =>
      obtain ⟨steps, rfl⟩ := Nat.exists_eq_succ_of_ne_zero (Nat.ne_of_gt enough)
      obtain ⟨line, found, tagged⟩ := readLine_completion tag fetched []
      rw [List.append_nil] at found
      rw [List.flatMap_nil, List.nil_append, fetchLines, found]
      dsimp only
      rw [if_pos tagged]
      rfl
  | cons a answers ih =>
      rw [List.length_cons] at enough
      obtain ⟨steps, rfl⟩ : ∃ fewer, steps = fewer + 2 := ⟨steps - 2, by omega⟩
      rw [List.flatMap_cons, List.flatMap_cons, List.append_assoc]
      apply fetchLines_answer
      exact fun more => ih (steps + more) (by omega)

end

end EraOne.Imap
