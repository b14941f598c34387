import EraOne.ByteText

set_option autoImplicit false

/- MBOX import (`archive/mbox.go`) against the mboxrd format. Hash and subject are functions of the
raw message and left out. -/
namespace EraOne.Mbox

open ByteText

/-! ### The import -/

structure Message where
  uid : Nat
  folder : Bytes
  raw : Bytes
  deriving DecidableEq

def fromPrefix : Bytes := ascii "From "

/-- The messages so far and the text of the one that is read. -/
structure ParseState where
  msgs : List Message := []
  buf : Bytes := []

def ParseState.flush (st : ParseState) : ParseState where
  msgs := st.msgs ++ [{ uid := st.msgs.length + 1, folder := ascii "INBOX", raw := st.buf }]

/-- The loop body. -/
def ParseState.line (st : ParseState) (line : Bytes) : ParseState :=
  if fromPrefix.isPrefixOf line ∧ 0 < st.buf.length then st.flush
  else { st with buf := (if 0 < st.buf.length then st.buf ++ [lineFeed] else st.buf) ++ line }

/-- What is returned behind the loop. -/
def ParseState.finish (st : ParseState) : List Message :=
  if 0 < st.buf.length then st.flush.msgs else st.msgs

/-- `ParseMBOX`, and whether `sc.Err()` is an error. -/
def parseMBOX (text : Bytes) : List Message × Bool :=
  (((scanLines text).1.foldl ParseState.line {}).finish, (scanLines text).2)

/-! ### The format -/

/-- A line `>*From `. -/
def isFromLine (line : Bytes) : Bool := fromPrefix.isPrefixOf (line.dropWhile (· = 62))

def quoteLine (line : Bytes) : Bytes := if isFromLine line then 62 :: line else line

/-- A message with what follows `From ` in its separator line. -/
structure Entry where
  sender : Bytes
  lines : List Bytes
  deriving DecidableEq

structure Entry.Clean (entry : Entry) : Prop where
  sender : lineFeed ∉ entry.sender
  lines : ∀ line ∈ entry.lines, lineFeed ∉ line

def Entry.separator (entry : Entry) : Bytes := fromPrefix ++ entry.sender

/-- The lines of a message in the file. -/
def Entry.written (entry : Entry) : List Bytes :=
  entry.separator :: (entry.lines.map quoteLine ++ [[]])

def exportMBOX (entries : List Entry) : Bytes := unlines (entries.flatMap Entry.written)

def Entry.raw (entry : Entry) : Bytes := List.intercalate [lineFeed] entry.lines

/-- The import undoes the export. -/
def RoundTrips (entries : List Entry) : Prop :=
  (parseMBOX (exportMBOX entries)).2 = false ∧
    (parseMBOX (exportMBOX entries)).1.map Message.raw = entries.map Entry.raw

instance (entries : List Entry) : Decidable (RoundTrips entries) :=
  inferInstanceAs (Decidable (_ ∧ _))

/-! ### Runs of the loop -/

theorem quoteLine_clean (line : Bytes) (clean : lineFeed ∉ line) : lineFeed ∉ quoteLine line := by
  unfold quoteLine
  split
  · rw [List.mem_cons, not_or]
    exact ⟨by decide, clean⟩
  · exact clean

theorem written_clean (entry : Entry) (clean : entry.Clean) :
    ∀ line ∈ entry.written, lineFeed ∉ line := by
  have separator : lineFeed ∉ entry.separator := by
    rw [Entry.separator, List.mem_append, not_or]
    exact ⟨by decide, clean.sender⟩
  intro line member
  rcases List.mem_cons.mp member with first | later
  · rwa [first]
  · rcases List.mem_append.mp later with quoted | blank
    · obtain ⟨original, inside, same⟩ := List.mem_map.mp quoted
      rw [← same]
      exact quoteLine_clean original (clean.lines original inside)
    · rw [List.mem_singleton.mp blank]
      exact List.not_mem_nil

/-- No quoted line is taken for a separator. -/
theorem quoteLine_not_from (line : Bytes) : ¬ fromPrefix <+: quoteLine line := by
  unfold quoteLine
  split
  · intro starts
    exact absurd (List.cons_prefix_cons.mp starts).1 (by decide)
  · rename_i other
    intro starts
    obtain ⟨rest, shape⟩ := starts
    apply other
    rw [isFromLine, ← shape, List.isPrefixOf_iff_prefix]
    exact List.prefix_append _ _

/-- Lines that are no separators are added to the message that is read. -/
theorem foldl_lines (lines : List Bytes) (st : ParseState) (started : 0 < st.buf.length)
    (plain : ∀ line ∈ lines, ¬ fromPrefix <+: line) :
    lines.foldl ParseState.line st =
      { st with buf := st.buf ++ lines.flatMap (lineFeed :: ·) } := by
  induction lines generalizing st with
  | nil => rw [List.foldl_nil, List.flatMap_nil, List.append_nil]
  | cons line lines ih =>
      have other : ¬ (fromPrefix.isPrefixOf line = true ∧ 0 < st.buf.length) := by
        rintro ⟨starts, -⟩
        exact plain line List.mem_cons_self (List.isPrefixOf_iff_prefix.mp starts)
      have step : st.line line = { st with buf := st.buf ++ lineFeed :: line } := by
        rw [ParseState.line, if_neg other, if_pos started, List.append_assoc, List.singleton_append]
      rw [List.foldl_cons, step, ih _ (by simp) fun l member =>
        plain l (List.mem_cons_of_mem _ member)]
      simp

theorem line_grows (st : ParseState) (line : Bytes) : st.msgs <+: (st.line line).msgs := by
  unfold ParseState.line
  split
  · exact List.prefix_append _ _
  · exact List.prefix_rfl

/-- No message that was read is lost. -/
theorem foldl_grows (lines : List Bytes) (st : ParseState) :
    st.msgs <+: (lines.foldl ParseState.line st).msgs := by
  induction lines generalizing st with
  | nil => exact List.prefix_rfl
  | cons line lines ih => exact (line_grows st line).trans (ih (st.line line))

theorem finish_grows (st : ParseState) : st.msgs <+: st.finish := by
  unfold ParseState.finish
  split
  · exact List.prefix_append _ _
  · exact List.prefix_rfl

/-- The text of the first message: its separator line, its lines as quoted, and the line behind
them. -/
def Entry.firstRaw (entry : Entry) : Bytes :=
  dropCR entry.separator ++ (entry.lines.map fun line => dropCR (quoteLine line)).flatMap
    (lineFeed :: ·) ++ [lineFeed]

theorem dropCR_separator (entry : Entry) : fromPrefix <+: dropCR entry.separator := by
  unfold dropCR
  split
  · rename_i carriage
    have some_ : entry.sender ≠ [] := by
      intro none_
      rw [Entry.separator, none_] at carriage
      exact absurd carriage (by decide)
    rw [Entry.separator, List.dropLast_append_of_ne_nil some_]
    exact List.prefix_append _ _
  · exact List.prefix_append _ _

theorem separator_positive (entry : Entry) : 0 < (dropCR entry.separator).length :=
  Nat.lt_of_lt_of_le (by decide : 0 < fromPrefix.length) (dropCR_separator entry).length_le

/-- Behind the lines of the first message. -/
theorem foldl_first (entry : Entry) :
    (entry.written.map dropCR).foldl ParseState.line
    {} = { msgs := [], buf := entry.firstRaw } := by
  have opened : ParseState.line {}
      (dropCR entry.separator) = { msgs := [], buf := dropCR entry.separator } := by
    rw [ParseState.line, if_neg fun both => Nat.lt_irrefl 0 both.2]
    rfl
  have plain : ∀ line ∈ (entry.lines.map quoteLine ++ [[]]).map dropCR, ¬ fromPrefix <+: line := by
    intro line member starts
    obtain ⟨written, inside, same⟩ := List.mem_map.mp member
    rw [← same] at starts
    have whole := starts.trans (dropCR_prefixed written)
    rcases List.mem_append.mp inside with quoted | blank
    · obtain ⟨original, _, shape⟩ := List.mem_map.mp quoted
      rw [← shape] at whole
      exact quoteLine_not_from original whole
    · rw [List.mem_singleton.mp blank] at whole
      exact absurd whole.length_le (by decide)
  rw [Entry.written, List.map_cons, List.foldl_cons, opened,
    foldl_lines _ _ (separator_positive entry) plain, List.map_append, List.flatMap_append,
    List.map_map, Entry.firstRaw, List.append_assoc]
  rfl

/-- The first message is read with its separator line and the empty line behind it. -/
theorem head_parse (entry : Entry) (rest : List Entry) :
    ∃ msg others,
      (((entry :: rest).flatMap Entry.written).map dropCR |>.foldl ParseState.line {}).finish =
        msg :: others ∧ msg.raw = entry.firstRaw := by
  have started : 0 < entry.firstRaw.length := by
    rw [Entry.firstRaw, List.length_append, List.length_singleton]
    omega
  rw [List.flatMap_cons, List.map_append, List.foldl_append, foldl_first]
  cases rest with
  | nil =>
      refine ⟨{ uid := 1, folder := ascii "INBOX", raw := entry.firstRaw }, [], ?_, rfl⟩
      rw [List.flatMap_nil, List.map_nil, List.foldl_nil, ParseState.finish, if_pos started]
      rfl
  | cons next rest =>
      have flushed : ParseState.line { msgs := [], buf := entry.firstRaw } (dropCR next.separator) =
          ParseState.flush { msgs := [], buf := entry.firstRaw } := by
        rw [ParseState.line,
          if_pos ⟨List.isPrefixOf_iff_prefix.mpr (dropCR_separator next), started⟩]
      rw [List.flatMap_cons, Entry.written, List.cons_append, List.map_cons, List.foldl_cons,
        flushed]
      obtain ⟨others, same⟩ :=
        (foldl_grows ((next.lines.map quoteLine ++ [[]] ++ rest.flatMap Entry.written).map dropCR)
          (ParseState.flush { msgs := [], buf := entry.firstRaw })).trans (finish_grows _)
      exact ⟨{ uid := 1, folder := ascii "INBOX", raw := entry.firstRaw }, others, same.symm, rfl⟩

theorem count_intercalate (lines : List Bytes) (clean : ∀ line ∈ lines, lineFeed ∉ line) :
    (List.intercalate [lineFeed] lines).count lineFeed ≤ lines.length := by
  induction lines with
  | nil => exact le_rfl
  | cons line lines ih =>
      have here : line.count lineFeed = 0 := List.count_eq_zero.mpr (clean line List.mem_cons_self)
      have later := ih fun other member => clean other (List.mem_cons_of_mem _ member)
      cases lines with
      | nil => simp [List.intercalate, here]
      | cons next lines =>
          have shape : List.intercalate [lineFeed] (line :: next :: lines) =
              line ++ lineFeed :: List.intercalate [lineFeed] (next :: lines) := by
            simp [List.intercalate]
          rw [shape, List.count_append, List.count_cons_self, here, List.length_cons]
          omega

theorem count_flatMap (lines : List Bytes) :
    lines.length ≤ (lines.flatMap (lineFeed :: ·)).count lineFeed := by
  induction lines with
  | nil => exact Nat.zero_le _
  | cons line lines ih =>
      rw [List.flatMap_cons, List.count_append, List.count_cons_self, List.length_cons]
      omega

theorem firstRaw_ne (entry : Entry) (clean : entry.Clean) : entry.firstRaw ≠ entry.raw := by
  intro same
  have fewer := count_intercalate entry.lines clean.lines
  have more := count_flatMap (entry.lines.map fun line => dropCR (quoteLine line))
  have counts := congrArg (List.count lineFeed) same
  rw [List.length_map] at more
  rw [Entry.firstRaw, List.count_append, List.count_append, List.count_singleton_self,
    Entry.raw] at counts
  omega

/-- The import undoes the export of the empty list alone. -/
theorem roundTrips_iff (entries : List Entry) (clean : ∀ entry ∈ entries, entry.Clean) :
    RoundTrips entries ↔ entries = [] := by
  constructor
  · rintro ⟨ok, same⟩
    cases entries with
    | nil => rfl
    | cons entry rest =>
        have lines : ∀ line ∈ (entry :: rest).flatMap Entry.written, lineFeed ∉ line := by
          intro line member
          obtain ⟨owner, inside, written⟩ := List.mem_flatMap.mp member
          exact written_clean owner (clean owner inside) line written
        obtain ⟨msg, others, parsed, raw⟩ := head_parse entry rest
        rw [parseMBOX, scanLines_ok _ ok, exportMBOX, pieces_unlines _ lines, parsed] at same
        have first := (List.cons.inj same).1
        rw [raw] at first
        exact absurd first (firstRaw_ne entry (clean entry List.mem_cons_self))
  · rintro rfl
    decide

def hello : Entry := { sender := ascii "a@b", lines := [ascii "Hello"] }

theorem hello_roundTrips_iff : RoundTrips [hello] ↔ [hello] = [] :=
  roundTrips_iff [hello] (by
    intro entry member
    rw [List.mem_singleton.mp member]
    exact ⟨by decide, by decide⟩)

/-- A message of one line comes back with its separator. -/
theorem hello_misread : ¬ RoundTrips [hello] := by decide

end EraOne.Mbox
