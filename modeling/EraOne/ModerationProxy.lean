import Mathlib

set_option autoImplicit false

/- The SMTP proxy of mail moderation (`smtpproxy/proxy.go`). Strings are bytes; Go's upper case and
blanks are given, and the engine is any that answers. -/
namespace EraOne.ModerationProxy

abbrev Bytes := List UInt8

def ascii (s : String) : Bytes := s.toList.map fun c => c.toNat.toUInt8

def asciiUpper (b : UInt8) : UInt8 := if 97 ≤ b ∧ b ≤ 122 then b - 32 else b

/-- `strings.ToUpper` and `strings.TrimSpace`. -/
structure Text where
  upper : Bytes → Bytes
  trimSpace : Bytes → Bytes
  upper_ascii : ∀ s, (∀ b ∈ s, b < 128) → upper s = s.map asciiUpper

/-- What `ProcessRaw` returns. -/
inductive Outcome where
  | failed (err : Bytes)
  | held (id : Bytes)
  | queued

/-- The engine behind the proxy. -/
structure Engine (σ : Type) where
  processRaw : σ → Bytes → Bytes → List Bytes → Outcome × σ

/-- What the proxy does: it answers, or passes a message with its envelope to the engine. -/
inductive Event where
  | reply (line : Bytes)
  | processed (raw sender : Bytes) (recipients : List Bytes)
  deriving DecidableEq

def crlf : Bytes := [13, 10]

/-- `ReadString('\n')` until it fails: what follows the last line feed is dropped. -/
def readLines : Bytes → List Bytes
  | [] => []
  | b :: rest =>
      if b = 10 then [b] :: readLines rest
      else
        match readLines rest with
        | [] => []
        | line :: lines => (b :: line) :: lines

/-- `TrimRight(line, "\r\n")`. -/
def trimLine (line : Bytes) : Bytes := line.rdropWhile fun b => b = 13 ∨ b = 10

/-- `Trim(s, "<>")`. -/
def trimAngles (s : Bytes) : Bytes :=
  (s.dropWhile fun b => b = 60 ∨ b = 62).rdropWhile fun b => b = 60 ∨ b = 62

section Server

variable (text : Text) {σ : Type} (engine : Engine σ)

def extractAngle (s : Bytes) : Bytes :=
  let s := text.trimSpace s
  match s.findIdx? (· = 60) with
  | none => trimAngles s
  | some i =>
      match (s.drop i).findIdx? (· = 62) with
      | none => trimAngles s
      | some j => if 0 < j then (s.drop (i + 1)).take (j - 1) else trimAngles s

/-- Where the handler stands: before a command, in the loop that reads a message, or at the end. -/
inductive Mode where
  | command
  | data (raw : Bytes)
  | closed

structure Session (σ : Type) where
  state : σ
  sender : Bytes := []
  recipients : List Bytes := []
  mode : Mode := .command

def isEnd (l : Bytes) : Bool := l == ascii ".\r\n" || l == ascii ".\n"

/-- The answer to a processed message. -/
def Outcome.reply : Outcome → Bytes
  | .failed err => ascii "451 " ++ err
  | .held id => ascii "250 Queued for moderation id=" ++ id
  | .queued => ascii "250 OK queued"

/-- One turn of the command loop. -/
def command (s : Session σ) (line : Bytes) : Session σ × List Event :=
  let line := trimLine line
  let upper := text.upper line
  if ascii "HELO" <+: upper ∨ ascii "EHLO" <+: upper then (s, [.reply (ascii "250 OK")])
  else if ascii "MAIL FROM:" <+: upper then
    ({ s with sender := extractAngle text (line.drop 10), recipients := [] },
      [.reply (ascii "250 OK")])
  else if ascii "RCPT TO:" <+: upper then
    ({ s with recipients := s.recipients ++ [extractAngle text (line.drop 8)] },
      [.reply (ascii "250 OK")])
  else if upper = ascii "DATA" then
    ({ s with mode := .data [] }, [.reply (ascii "354 End data with <CR><LF>.<CR><LF>")])
  else if upper = ascii "QUIT" then ({ s with mode := .closed }, [.reply (ascii "221 Bye")])
  else if upper = ascii "RSET" then
    ({ s with sender := [], recipients := [] }, [.reply (ascii "250 OK")])
  else if upper = ascii "NOOP" then (s, [.reply (ascii "250 OK")])
  else (s, [.reply (ascii "502 Command not implemented")])

/-- One line of the connection. -/
def step (s : Session σ) (line : Bytes) : Session σ × List Event :=
  match s.mode with
  | .closed => (s, [])
  | .command => command text s line
  | .data raw =>
      if isEnd line then
        let answer := engine.processRaw s.state raw s.sender s.recipients
        ({ s with state := answer.2, mode := .command },
          [.processed raw s.sender s.recipients, .reply answer.1.reply])
      else ({ s with mode := .data (raw ++ line) }, [])

def run : Session σ → List Bytes → List Event
  | _, [] => []
  | s, line :: lines => (step text engine s line).2 ++ run (step text engine s line).1 lines

/-- A connection, from the bytes the client sends. -/
def handle (state : σ) (input : Bytes) : List Event :=
  .reply (ascii "220 era-mail-moderation ESMTP") :: run text engine { state := state }
    (readLines input)

end Server

/-- The messages passed to the engine. -/
def passed (events : List Event) : List Bytes :=
  events.filterMap fun event =>
    match event with
    | .processed raw _ _ => some raw
    | .reply _ => none

/-- A message of lines, and the same with a dot before each line that begins with one. -/
def message (lines : List Bytes) : Bytes := lines.flatMap (· ++ crlf)

def stuffLine (line : Bytes) : Bytes := if line.head? = some 46 then 46 :: line else line

def stuffed (lines : List Bytes) : Bytes := message (lines.map stuffLine)

/-! ### Lines of a stream -/

theorem flatten_readLines (a : Bytes) : (readLines (a ++ [10])).flatten = a ++ [10] := by
  induction a with
  | nil => rfl
  | cons b a ih =>
      rw [List.cons_append, readLines]
      split
      · rw [List.flatten_cons, ih]
        rfl
      · cases more : readLines (a ++ [10]) with
        | nil =>
            rw [more] at ih
            simp at ih
        | cons line lines =>
            rw [more] at ih
            dsimp only
            rw [List.flatten_cons, List.cons_append, ← List.flatten_cons, ih]

/-- A line feed ends a line, whatever comes before and after. -/
theorem readLines_append (a b : Bytes) :
    readLines (a ++ 10 :: b) = readLines (a ++ [10]) ++ readLines b := by
  induction a with
  | nil => rfl
  | cons c a ih =>
      rw [List.cons_append, List.cons_append, readLines, readLines]
      split
      · rw [ih, List.cons_append]
      · have whole := flatten_readLines a
        rw [ih]
        cases more : readLines (a ++ [10]) with
        | nil =>
            rw [more] at whole
            simp at whole
        | cons line lines => rfl

theorem message_cons (line : Bytes) (lines : List Bytes) :
    message (line :: lines) = (line ++ [13]) ++ 10 :: message lines := by
  simp [message, crlf]

theorem readLines_message (lines : List Bytes) (rest : Bytes) :
    readLines (message lines ++ rest) = readLines (message lines) ++ readLines rest := by
  induction lines with
  | nil => rfl
  | cons line lines ih =>
      have first := readLines_append (line ++ [13]) (message lines ++ rest)
      have second := readLines_append (line ++ [13]) (message lines)
      rw [message_cons, List.append_assoc (line ++ [13]), List.cons_append, first, ih, second]
      exact (List.append_assoc _ _ _).symm

theorem flatten_readLines_message (lines : List Bytes) :
    (readLines (message lines)).flatten = message lines := by
  induction lines with
  | nil => rfl
  | cons line lines ih =>
      rw [message_cons, readLines_append, List.flatten_append, ih, flatten_readLines]
      simp

/-- What stops a `takeWhile` is missing from it. -/
theorem all_of_flatten_takeWhile (p : Bytes → Bool) (lines : List Bytes)
    (filled : ∀ l ∈ lines, p l = false → l ≠ [])
    (same : (lines.takeWhile p).flatten = lines.flatten) : ∀ l ∈ lines, p l = true := by
  induction lines with
  | nil => simp
  | cons line lines ih =>
      cases kept : p line with
      | true =>
          rw [List.takeWhile_cons_of_pos kept, List.flatten_cons, List.flatten_cons] at same
          have rest :=
            ih (fun l inside => filled l (by simp [inside])) (List.append_cancel_left same)
          intro l inside
          cases List.mem_cons.mp inside with
          | inl here => rwa [here]
          | inr later => exact rest l later
      | false =>
          rw [List.takeWhile_cons_of_neg (by simp [kept]), List.flatten_cons] at same
          have empty : line = [] := (List.append_eq_nil_iff.mp same.symm).1
          exact absurd empty (filled line (by simp) kept)

/-! ### Stuffing -/

theorem not_dot_prefix (t x y : Bytes) : ¬(t ++ 13 :: x <+: 46 :: (t ++ 13 :: y)) := by
  induction t with
  | nil =>
      intro starts
      rw [List.nil_append, List.cons_prefix_cons] at starts
      exact absurd starts.1 (by decide)
  | cons b t ih =>
      intro starts
      rw [List.cons_append, List.cons_prefix_cons] at starts
      rw [starts.1] at starts
      exact ih starts.2

/-- A message that begins as its stuffed form does needs no stuffing. -/
theorem plain_of_prefix (lines : List Bytes) (starts : message lines <+: stuffed lines) :
    ∀ line ∈ lines, line.head? ≠ some 46 := by
  unfold stuffed at starts
  induction lines with
  | nil => simp
  | cons line lines ih =>
      rw [List.map_cons, message_cons, message_cons] at starts
      have plain : line.head? ≠ some 46 := by
        intro dotted
        rw [stuffLine, if_pos dotted] at starts
        apply not_dot_prefix line (10 :: message lines) (10 :: message (lines.map stuffLine))
        simpa using starts
      rw [stuffLine, if_neg plain, List.prefix_append_right_inj, List.cons_prefix_cons] at starts
      intro other inside
      cases List.mem_cons.mp inside with
      | inl here => rwa [here]
      | inr later => exact ih starts.2 other later

theorem stuffed_of_plain (lines : List Bytes) (plain : ∀ line ∈ lines, line.head? ≠ some 46) :
    stuffed lines = message lines := by
  unfold stuffed
  congr 1
  rw [List.map_congr_left (g := id), List.map_id]
  intro line inside
  rw [stuffLine, if_neg (plain line inside)]
  rfl

/-! ### The data loop -/

section Loop

variable (text : Text) {σ : Type} (engine : Engine σ)

/-- What is passed first is all that was read before the first end mark. -/
theorem passed_data (state : σ) (sender : Bytes) (recipients : List Bytes) (raw : Bytes)
    (lines : List Bytes) (stop : Bytes) (rest : List Bytes) (ends : isEnd stop = true) :
    (passed (run text engine ⟨state, sender, recipients, .data raw⟩
      (lines ++ stop :: rest))).head? =
        some (raw ++ (lines.takeWhile fun l => !isEnd l).flatten) := by
  induction lines generalizing raw with
  | nil => simp [run, step, ends, passed]
  | cons line lines ih =>
      rw [List.cons_append, run]
      cases last : isEnd line with
      | true => simp [step, last, passed]
      | false =>
          have next := ih (raw ++ line)
          simp only [step, last, Bool.false_eq_true, if_false, List.nil_append]
          rw [next, List.takeWhile_cons_of_pos (by simp [last]), List.flatten_cons,
            List.append_assoc]

theorem command_data (state : σ) (sender : Bytes) (recipients : List Bytes) :
    command text ⟨state, sender, recipients, .command⟩ (ascii "DATA\r\n") =
      (⟨state, sender, recipients, .data []⟩,
        [.reply (ascii "354 End data with <CR><LF>.<CR><LF>")]) := by
  have word : text.upper (trimLine (ascii "DATA\r\n")) = ascii "DATA" := by
    have trimmed : trimLine (ascii "DATA\r\n") = [68, 65, 84, 65] := by decide
    rw [trimmed, text.upper_ascii _ (by decide +kernel)]
    decide
  have helo : ¬(ascii "HELO" <+: ascii "DATA" ∨ ascii "EHLO" <+: ascii "DATA") := by decide
  have mail : ¬ascii "MAIL FROM:" <+: ascii "DATA" := by decide
  have rcpt : ¬ascii "RCPT TO:" <+: ascii "DATA" := by decide
  unfold command
  dsimp only
  rw [word, if_neg helo, if_neg mail, if_neg rcpt, if_pos rfl]

/-- The engine gets the message as it was before stuffing exactly if no line begins with a dot and
no line feed, alone or after a carriage return, ends a line of one dot. -/
theorem data_transparent_iff (state : σ) (sender : Bytes) (recipients : List Bytes)
    (lines : List Bytes) (rest : Bytes) :
    (passed (run text engine ⟨state, sender, recipients, .command⟩
        (readLines (ascii "DATA\r\n" ++ (stuffed lines ++ (ascii ".\r\n" ++ rest)))))).head? =
      some (message lines) ↔
    (∀ line ∈ lines, line.head? ≠ some 46) ∧ ∀ l ∈ readLines (message lines), isEnd l = false := by
  have first : (passed (run text engine ⟨state, sender, recipients, .command⟩
      (readLines (ascii "DATA\r\n" ++ (stuffed lines ++ (ascii ".\r\n" ++ rest)))))).head? =
        some ((readLines (stuffed lines)).takeWhile fun l => !isEnd l).flatten := by
    have input : readLines (ascii "DATA\r\n" ++ (stuffed lines ++ (ascii ".\r\n" ++ rest))) =
        ascii "DATA\r\n" :: (readLines (stuffed lines) ++ ascii ".\r\n" :: readLines rest) := by
      have command := readLines_append (ascii "DATA\r") (stuffed lines ++ (ascii ".\r\n" ++ rest))
      have stop := readLines_append (ascii ".\r") rest
      rw [show ascii "DATA\r\n" ++ (stuffed lines ++ (ascii ".\r\n" ++ rest)) =
        ascii "DATA\r" ++ 10 :: (stuffed lines ++ (ascii ".\r\n" ++ rest)) from rfl, command]
      rw [show ascii ".\r\n" ++ rest = ascii ".\r" ++ 10 :: rest from rfl, stuffed,
        readLines_message, stop]
      rfl
    have data :=
      passed_data text engine state sender recipients [] (readLines (stuffed lines)) (ascii ".\r\n")
        (readLines rest) (by decide)
    rw [input, run, step]
    dsimp only
    rw [command_data]
    exact data
  rw [first, Option.some.injEq]
  have whole : (readLines (stuffed lines)).flatten = stuffed lines := flatten_readLines_message _
  have front :
      ((readLines (stuffed lines)).takeWhile fun l => !isEnd l).flatten <+: stuffed lines := by
    have halves :=
      List.takeWhile_append_dropWhile (p := fun l => !isEnd l) (l := readLines (stuffed lines))
    rw [← halves, List.flatten_append] at whole
    exact ⟨_, whole⟩
  constructor
  · intro same
    rw [same] at front
    have plain := plain_of_prefix lines front
    have whole := flatten_readLines_message lines
    rw [stuffed_of_plain lines plain] at same
    refine ⟨plain, ?_⟩
    intro l inside
    have kept := all_of_flatten_takeWhile (fun l => !isEnd l) (readLines (message lines)) ?_
      (same.trans whole.symm) l inside
    · simpa using kept
    · intro other _ last empty
      rw [empty] at last
      exact absurd last (by decide)
  · intro condition
    rw [stuffed_of_plain lines condition.1]
    have all :
        (readLines (message lines)).takeWhile (fun l => !isEnd l) = readLines (message lines) := by
      apply List.takeWhile_eq_self_iff.mpr
      intro l inside
      simp [condition.2 l inside]
    rw [all]
    exact flatten_readLines_message lines

end Loop

section Sample

/-- Go's functions on ASCII text without outer blanks. -/
def asciiText : Text where
  upper := fun s => s.map asciiUpper
  trimSpace := id
  upper_ascii := fun _ _ => rfl

/-- An engine that queues everything. -/
def queueAll : Engine Unit := ⟨fun _ _ _ _ => (.queued, ())⟩

/-- What is passed first when lines are sent as a message in an open session. -/
def firstPassed (lines : List Bytes) : Option Bytes :=
  (passed (run asciiText queueAll ⟨(), ascii "a@x", [ascii "b@x"], .command⟩
    (readLines (ascii "DATA\r\n" ++ (stuffed lines ++ (ascii ".\r\n" ++ ascii "QUIT\r\n")))))).head?

/-- A dot is doubled, and a bare line feed before and after a dot ends the message. -/
theorem dots_corrupted :
    firstPassed [ascii "Hi", ascii ".x"] = some (ascii "Hi\r\n..x\r\n") ∧
      message [ascii "Hi", ascii ".x"] = ascii "Hi\r\n.x\r\n" ∧
      firstPassed [ascii "a\n.\nb"] = some (ascii "a\n") ∧
      message [ascii "a\n.\nb"] = ascii "a\n.\nb\r\n" ∧
      ¬∀ lines, firstPassed lines = some (message lines) := by
  refine ⟨by decide, by decide, by decide, by decide, ?_⟩
  intro all
  have first := all [ascii "Hi", ascii ".x"]
  revert first
  decide

end Sample

end EraOne.ModerationProxy
