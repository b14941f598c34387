import EraOne.Maps
import EraOne.Sanitize

set_option autoImplicit false

/- Syslog lines of `crates/era-collectors/src/byo_edr.rs`, and which values of a CEF extension the
envelope shows. -/
namespace EraOne.ByoEdr

open Sanitize (asciiLower)
open Words

inductive Severity where
  | low
  | medium
  | high
  | critical
  deriving DecidableEq, Repr

inductive EventCategory where
  | process
  | module
  deriving DecidableEq, Repr

structure Config where
  tenantId : Str := "default".toList
  nodeId : Str := "byo-edr-node".toList
  hostname : Str := "collector".toList
  agentId : Str := "byo-edr-collector".toList
  fixedEventId : Option (List UInt8) := none
  fixedObservedAt : Option Int := none

/-- The id and the time that a call draws. -/
structure Stamp where
  eventId : List UInt8
  now : Int

structure Source where
  tenantId : Str
  nodeId : Str
  hostname : Str
  agentId : Str
  agentVersion : Str
  deriving DecidableEq, Repr

structure Ocsf where
  classUid : Nat
  categoryUid : Nat
  activityId : Nat
  deriving DecidableEq, Repr

structure Envelope where
  schemaVersion : Str
  eventId : List UInt8
  observedAt : Option Int
  source : Source
  severity : Severity
  category : EventCategory
  ocsf : Ocsf
  piiSanitized : Bool
  sourceType : Str
  fields : StrMap Str

inductive ByoEdrError where
  | empty
  | unrecognizedSyslog
  deriving DecidableEq, Repr

def genericSourceType : Str := "era.byo-edr.generic".toList

def redact (kind val : Str) : Str := if val = [] then [] else "[redacted:".toList ++ (kind ++ [']'])

def cefSeverity (n : UInt32) : Severity :=
  if n ≤ 3 then .low else if n ≤ 6 then .medium else if n ≤ 8 then .high else .critical

def buildEnvelope (cfg : Config) (stamp : Stamp) (severity : Severity) (category : EventCategory)
    (fields : StrMap Str) (piiSanitized : Bool) : Envelope where
  schemaVersion := "1.0.0".toList
  eventId := cfg.fixedEventId.getD stamp.eventId
  observedAt := cfg.fixedObservedAt.or (some stamp.now)
  source :=
    { tenantId := cfg.tenantId, nodeId := cfg.nodeId
      hostname := if cfg.hostname = [] then cfg.nodeId else cfg.hostname
      agentId := cfg.agentId, agentVersion := "0.1.0".toList }
  severity := severity
  category := category
  ocsf := { classUid := 2001, categoryUid := 1, activityId := 1 }
  piiSanitized := piiSanitized
  sourceType := genericSourceType
  fields := fields

/-- `str::splitn`. -/
def splitn : Nat → Char → Str → List Str
  | 0, _, _ => []
  | 1, _, s => [s]
  | n + 2, q, s =>
      match Scan.splitOnce [q] s with
      | some (piece, rest) => piece :: splitn (n + 1) q rest
      | none => [s]

/-- What is stored for a key. -/
def stored (k v : Str) : Str :=
  let kl := asciiLower k
  if kl = "src".toList ∨ kl = "src_ip".toList ∨ kl = "dst".toList ∨
    kl = "dst_ip".toList then redact "ip".toList v
  else if kl = "suser".toList ∨ kl = "duser".toList ∨ kl = "user".toList then redact "user".toList v
  else if kl = "shost".toList ∨ kl = "dhost".toList ∨ kl = "host".toList then redact "host".toList v
  else v

/-- The field that a word of the extension sets. -/
def field (kv : Str) : Option (Str × Str) :=
  (Scan.splitOnce ['='] kv).map fun (k, v) => (k, stored k v)

def insertWord (fields : StrMap Str) (kv : Str) : StrMap Str :=
  match field kv with
  | some (k, v) => fields.insert k v
  | none => fields

/-- The fields that the header gives. -/
def named (parts : List Str) : StrMap Str :=
  (((∅ : StrMap Str).insert "summary".toList (parts.getD 5 [])).insert "vendor".toList
    (parts.getD 1 [])).insert
    "product".toList (parts.getD 2 [])

def parseCef (cfg : Config) (stamp : Stamp) (rest : Str) : Except ByoEdrError Envelope :=
  let parts := splitn 8 '|' rest
  if parts.length < 7 then .error .unrecognizedSyslog
  else
    let severity := cefSeverity ((Scan.parseU32 (parts.getD 6 [])).getD 5)
    let fields := match parts[7]? with
      | some ext => (splitWhitespace ext).foldl insertWord (named parts)
      | none => named parts
    .ok (buildEnvelope cfg stamp severity .process fields true)

def parseSyslogLine (cfg : Config) (stamp : Stamp) (line : Str) : Except ByoEdrError Envelope :=
  let line := Scan.trim line
  if line = [] then .error .empty
  else
    match Scan.strip "CEF:".toList line with
    | some rest => parseCef cfg stamp rest
    | none =>
        .ok (buildEnvelope cfg stamp .medium .module
          ((∅ : StrMap Str).insert "summary".toList "[redacted:raw]".toList) true)

/-! ### Lines -/

structure Header where
  version : Str
  vendor : Str
  product : Str
  deviceVersion : Str
  signatureId : Str
  name : Str
  severity : Str
  deriving DecidableEq, Repr

def Header.fields (h : Header) : List Str :=
  [h.version, h.vendor, h.product, h.deviceVersion, h.signatureId, h.name, h.severity]

def escapeHeader (c : Char) : Str := if c = '|' ∨ c = '\\' then ['\\', c] else [c]

def escapeValue (c : Char) : Str := if c = '=' ∨ c = '\\' then ['\\', c] else [c]

/-- The header of a line, with the pipe behind each field. -/
def headerText (h : Header) : Str := h.fields.flatMap fun f => f.flatMap escapeHeader ++ ['|']

def pairText (pair : Str × Str) : Str := pair.1 ++ '=' :: pair.2.flatMap escapeValue

def cefLine (h : Header) (pairs : List (Str × Str)) : Str :=
  "CEF:".toList ++ (headerText h ++ List.intercalate [' '] (pairs.map pairText))

def sensitiveKeys : List Str :=
  ["src".toList, "dst".toList, "suser".toList, "duser".toList, "user".toList, "shost".toList,
    "dhost".toList, "host".toList]

/-- An envelope without its id and time. -/
def unstamped (e : Envelope) : Envelope := { e with eventId := [], observedAt := none }

/-- The pieces before the first pipes, and what stands behind them. -/
def cut : Nat → Str → List Str × Str
  | 0, s => ([], s)
  | n + 1, s =>
      match Scan.splitOnce ['|'] s with
      | some (piece, rest) => (piece :: (cut n rest).1, (cut n rest).2)
      | none => ([], [])

/-- The end of the header that is read as extension: what escaped pipes have pushed there. -/
def glue (h : Header) : Str := (cut 7 (headerText h)).2

/-- The words up to the pair of a key. -/
def earlierWords (h : Header) (front : List (Str × Str)) : List Str :=
  if front = [] then []
    else splitWhitespace (glue h ++ front.flatMap fun pair => pairText pair ++ [' '])

/-- The words that the pair of a key is cut into. -/
def ownWords (h : Header) (front : List (Str × Str)) (key v : Str) : List Str :=
  splitWhitespace ((if front = [] then glue h else []) ++ pairText (key, v))

def laterWords (back : List (Str × Str)) : List Str :=
  splitWhitespace (back.flatMap fun pair => ' ' :: pairText pair)

/-- What the last of some words with a field sets it to. -/
def lastOf (k : Str) (words : List Str) : Option Str :=
  (words.filterMap fun word => (field word).bind fun (key, v) => if key = k then some v
    else none).getLast?

/-- Each field that no later word sets is set by the words of both values to the same text, or left
as the header and the words before them have it. -/
def Covered (h : Header) (front : List (Str × Str)) (key v v' : Str) (back : List (Str × Str)) :
    Prop :=
  ∀ k, lastOf k (laterWords back) = none →
    (lastOf k (ownWords h front key v)).or
      ((lastOf k (earlierWords h front)).or (named (cut 7 (headerText h)).1)[k]?) =
      (lastOf k (ownWords h front key v')).or
        ((lastOf k (earlierWords h front)).or (named (cut 7 (headerText h)).1)[k]?)

/-- A value that does not begin with white space, and has no `=` behind its first word. -/
def Plain (v : Str) : Prop :=
  (∀ c ∈ v.head?, Scan.isWhitespace c = false) ∧ ∀ word ∈ (splitWhitespace v).tail, '=' ∉ word

theorem lastOf_append (k : Str) (words more : List Str) :
    lastOf k (words ++ more) = (lastOf k more).or (lastOf k words) := by
  unfold lastOf
  rw [List.filterMap_append, List.getLast?_append]

theorem getElem?_foldl_insertWord (words : List Str) (fields : StrMap Str) (k : Str) :
    (words.foldl insertWord fields)[k]? = (lastOf k words).or fields[k]? := by
  induction words using List.reverseRecOn with
  | nil => rfl
  | append_singleton words word ih =>
      have last : lastOf k [word] = (field word).bind fun (key, v) => if key = k then some v
          else none := by
        unfold lastOf
        rw [List.filterMap_cons]
        cases (field word).bind fun (key, v) => if key = k then some v else none with
        | none => rfl
        | some v => rfl
      rw [List.foldl_append, List.foldl_cons, List.foldl_nil, lastOf_append, last, Option.or_assoc,
        ← ih]
      unfold insertWord
      cases field word with
      | none => rfl
      | some pair =>
          obtain ⟨key, v⟩ := pair
          dsimp only
          rw [Option.bind_some, Maps.getElem?_insert_eq]
          by_cases same : k = key
          · rw [if_pos same, if_pos same.symm]
            rfl
          · rw [if_neg same, if_neg (Ne.symm same)]
            rfl

/-! ### What is read of a line -/

theorem splitn_cut (n : Nat) (s t : Str) (enough : n ≤ s.count '|') :
    splitn (n + 1) '|' (s ++ t) = (cut n s).1 ++ [(cut n s).2 ++ t] ∧ (cut n s).1.length = n := by
  induction n generalizing s with
  | zero => exact ⟨rfl, rfl⟩
  | succ n ih =>
      have member : '|' ∈ s := List.count_pos_iff.mp (by omega)
      obtain ⟨piece, rest, shape, first⟩ := List.eq_append_cons_of_mem member
      have found (t : Str) :
          Scan.splitOnce ['|'] (piece ++ ('|' :: (rest ++ t))) = some (piece, rest ++ t) :=
        Scan.splitOnce_quiet_match ['|'] piece (rest ++ t) (List.cons_ne_nil _ _)
          (Scan.quiet_of_not_mem '|' [] piece first)
      have whole := found []
      rw [List.append_nil] at whole
      rw [shape, List.count_append, List.count_cons_self,
        List.count_eq_zero_of_not_mem first] at enough
      obtain ⟨reads, size⟩ := ih rest (by omega)
      constructor
      · rw [splitn, shape, List.append_assoc, List.cons_append, found, cut, whole]
        dsimp only
        rw [reads, List.cons_append]
      · rw [shape, cut, whole, List.length_cons, size]

theorem enough_pipes (h : Header) : 7 ≤ (headerText h).count '|' := by
  have piped (f : Str) : 1 ≤ (f.flatMap escapeHeader ++ ['|']).count '|' := by
    rw [List.count_append, List.count_singleton_self]
    omega
  have each (fields : List Str) :
      fields.length ≤ (fields.flatMap fun f => f.flatMap escapeHeader ++ ['|']).count '|' := by
    induction fields with
    | nil => exact le_refl 0
    | cons f fields ih =>
        rw [List.flatMap_cons, List.count_append, List.length_cons]
        have here := piped f
        omega
  exact each h.fields

theorem rdropWhile_behind (front back : Str) (c : Char) (p : Char → Bool) (stops : p c = false) :
    (front ++ c :: back).rdropWhile p = front ++ c :: back.rdropWhile p := by
  unfold List.rdropWhile
  have other : ((c :: front.reverse).dropWhile p) = c :: front.reverse :=
    List.dropWhile_cons_of_neg (Bool.eq_false_iff.mp stops)
  rw [List.reverse_append, List.reverse_cons, List.append_assoc, List.singleton_append,
    List.dropWhile_append]
  split
  · rename_i empty
    rw [List.isEmpty_iff.mp empty, other]
    simp
  · simp

theorem exists_headerText (h : Header) : ∃ init, headerText h = init ++ ['|'] := by
  unfold headerText
  rw [show h.fields = [h.version, h.vendor, h.product, h.deviceVersion, h.signatureId, h.name] ++
    [h.severity] from rfl, List.flatMap_append, List.flatMap_singleton, ← List.append_assoc]
  exact ⟨_, rfl⟩

theorem trim_cefLine (h : Header) (ext : Str) :
    Scan.trim ("CEF:".toList ++ (headerText h ++ ext)) =
      "CEF:".toList ++ (headerText h ++ ext.rdropWhile Scan.isWhitespace) := by
  obtain ⟨init, shape⟩ := exists_headerText h
  have whole (e : Str) :
      "CEF:".toList ++ (init ++ ['|'] ++ e) = ("CEF:".toList ++ init) ++ '|' :: e := by simp
  have starts : (("CEF:".toList ++ init) ++ '|' :: ext).dropWhile Scan.isWhitespace =
      ("CEF:".toList ++ init) ++ '|' :: ext :=
    List.dropWhile_cons_of_neg (by decide)
  rw [shape, whole, whole, Scan.trim, starts]
  exact rdropWhile_behind _ _ '|' _ (by decide)

theorem splitWhitespace_trimmed (front ext : Str) :
    splitWhitespace (front ++ ext.rdropWhile Scan.isWhitespace) = splitWhitespace
      (front ++ ext) := by
  have blank : ∀ c ∈ ext.rtakeWhile Scan.isWhitespace, Scan.isWhitespace c = true := fun c member =>
    List.mem_rtakeWhile_imp member
  have around := splitWhitespace_around [] (front ++ ext.rdropWhile Scan.isWhitespace)
    (ext.rtakeWhile Scan.isWhitespace) nofun
    fun c first => blank c (List.mem_of_mem_head? first)
  rw [Sanitize.splitWhitespace_blank _ blank, List.append_nil, List.append_assoc,
    List.rdropWhile_append_rtakeWhile] at around
  exact around.symm

theorem named_append (parts : List Str) (last : Str) (seven : parts.length = 7) :
    named (parts ++ [last]) = named parts := by
  unfold named
  rw [List.getD_append _ _ _ _ (by omega), List.getD_append _ _ _ _ (by omega),
    List.getD_append _ _ _ _ (by omega)]

theorem parse_cefLine (cfg : Config) (stamp : Stamp) (h : Header) (pairs : List (Str × Str)) :
    parseSyslogLine cfg stamp (cefLine h pairs) =
      .ok (buildEnvelope cfg stamp
        (cefSeverity ((Scan.parseU32 ((cut 7 (headerText h)).1.getD 6 [])).getD 5)) .process
        ((splitWhitespace (glue h ++ List.intercalate [' '] (pairs.map pairText))).foldl insertWord
          (named (cut 7 (headerText h)).1)) true) := by
  generalize textual : List.intercalate [' '] (pairs.map pairText) = ext
  obtain ⟨reads, seven⟩ :=
    splitn_cut 7 (headerText h) (ext.rdropWhile Scan.isWhitespace) (enough_pipes h)
  have nonempty : "CEF:".toList ++ (headerText h ++ ext.rdropWhile Scan.isWhitespace) ≠ [] :=
    List.cons_ne_nil _ _
  have strip (rest : Str) : Scan.strip "CEF:".toList ("CEF:".toList ++ rest) = some rest := by
    unfold Scan.strip
    rw [if_pos (List.isPrefixOf_iff_prefix.mpr (List.prefix_append _ _)), List.drop_left]
  unfold parseSyslogLine cefLine
  rw [textual, trim_cefLine]
  dsimp only
  rw [if_neg nonempty, strip]
  dsimp only
  unfold parseCef
  rw [reads]
  dsimp only
  have eight :
      ¬ ((cut 7 (headerText h)).1 ++
        [(cut 7 (headerText h)).2 ++ ext.rdropWhile Scan.isWhitespace]).length < 7 := by
    rw [List.length_append, seven]
    omega
  rw [if_neg eight, List.getElem?_append_right (by omega), seven, named_append _ _ seven,
    List.getD_append _ _ _ _ (by omega)]
  show Except.ok (buildEnvelope cfg stamp _ .process
    ((splitWhitespace (glue h ++ _)).foldl insertWord _) true) = _
  rw [splitWhitespace_trimmed]

theorem intercalate_pairs (front : List (Str × Str)) (pair : Str × Str) (back : List (Str × Str)) :
    List.intercalate [' '] ((front ++ pair :: back).map pairText) =
      (front.flatMap fun p => pairText p ++ [' ']) ++
        (pairText pair ++ back.flatMap fun p => ' ' :: pairText p) := by
  induction front generalizing pair with
  | nil =>
      induction back generalizing pair with
      | nil => simp [List.intercalate]
      | cons next back ih =>
          have later := ih next
          rw [List.nil_append] at later ⊢
          rw [List.map_cons, List.map_cons, List.intercalate_cons_cons, ← List.map_cons, later]
          simp
  | cons first front ih =>
      obtain ⟨second, rest, shape⟩ :=
        List.exists_cons_of_ne_nil (show (front ++ pair :: back).map pairText ≠ [] by simp)
      rw [List.cons_append, List.map_cons, shape, List.intercalate_cons_cons, ← shape, ih]
      simp

/-- The words of the extension, at the pair of a key. -/
theorem words_of_pairs (h : Header) (front : List (Str × Str)) (key v : Str)
    (back : List (Str × Str)) :
    splitWhitespace (glue h ++ List.intercalate [' '] ((front ++ (key, v) :: back).map pairText)) =
      earlierWords h front ++ (ownWords h front key v ++ laterWords back) := by
  have ends : EndsWord (back.flatMap fun p => ' ' :: pairText p) := by
    intro c first
    cases back with
    | nil => cases first
    | cons pair back =>
        cases first
        decide
  rw [intercalate_pairs]
  unfold earlierWords ownWords laterWords
  cases front with
  | nil =>
      rw [if_pos rfl, if_pos rfl, List.flatMap_nil, List.nil_append, ← List.append_assoc]
      exact splitWhitespace_around [] _ _ nofun ends
  | cons pair front =>
      have starts :
          StartsWord (glue h ++ (pair :: front).flatMap fun p => pairText p ++ [' ']) := by
        intro c last
        obtain ⟨before, p, shape⟩ :=
          (List.eq_nil_or_concat' (pair :: front)).resolve_left (List.cons_ne_nil pair front)
        rw [shape, List.flatMap_append, List.flatMap_singleton, ← List.append_assoc,
          ← List.append_assoc, List.getLast?_concat] at last
        cases last
        decide
      rw [if_neg (List.cons_ne_nil _ _), if_neg (List.cons_ne_nil _ _), List.nil_append,
        ← List.append_assoc]
      exact splitWhitespace_around _ _ _ starts ends

/-- The fields that the words of a line set. -/
theorem getElem?_fields (h : Header) (front : List (Str × Str)) (key v : Str)
    (back : List (Str × Str)) (k : Str) :
    ((splitWhitespace (glue h ++ List.intercalate [' ']
      ((front ++ (key, v) :: back).map pairText))).foldl insertWord
        (named (cut 7 (headerText h)).1))[k]? =
      (lastOf k (laterWords back)).or ((lastOf k (ownWords h front key v)).or
        ((lastOf k (earlierWords h front)).or (named (cut 7 (headerText h)).1)[k]?)) := by
  rw [getElem?_foldl_insertWord, words_of_pairs, lastOf_append, lastOf_append, Option.or_assoc,
    Option.or_assoc]

/-! ### Plain values -/

theorem glue_of_pipeless (h : Header) (pipeless : ∀ f ∈ h.fields, '|' ∉ f) : glue h = [] := by
  have cuts (fields : List Str) (free : ∀ f ∈ fields, '|' ∉ f) :
      (cut fields.length (fields.flatMap fun f => f.flatMap escapeHeader ++ ['|'])).2 = [] := by
    induction fields with
    | nil => rfl
    | cons f fields ih =>
        have absent : '|' ∉ f.flatMap escapeHeader := by
          intro member
          obtain ⟨c, inside, here⟩ := List.mem_flatMap.mp member
          have other : c ≠ '|' := fun pipe => free f List.mem_cons_self (pipe ▸ inside)
          unfold escapeHeader at here
          split at here
          · simp only [List.mem_cons, List.not_mem_nil, or_false] at here
            exact here.elim (by decide) (Ne.symm other)
          · exact other (List.mem_singleton.mp here).symm
        have found := Scan.splitOnce_quiet_match ['|'] _
          (fields.flatMap fun f => f.flatMap escapeHeader ++ ['|'])
          (List.cons_ne_nil _ _) (Scan.quiet_of_not_mem '|' [] _ absent)
        rw [List.length_cons, List.flatMap_cons, List.append_assoc, cut, found]
        exact ih fun g member => free g (List.mem_cons_of_mem f member)
  exact cuts h.fields pipeless

theorem field_equals (k v : Str) (absent : '=' ∉ k) :
    field (k ++ '=' :: v) = some (k, stored k v) := by
  unfold field
  rw [show k ++ '=' :: v = k ++ (['='] ++ v) from rfl,
    Scan.splitOnce_quiet_match ['='] k v (List.cons_ne_nil _ _)
      (Scan.quiet_of_not_mem '=' [] k absent)]
  rfl

theorem field_eq_none (word : Str) (absent : '=' ∉ word) : field word = none := by
  unfold field
  rw [Scan.splitOnce_quiet ['='] word (List.cons_ne_nil _ _)
    (Scan.quiet_of_not_mem '=' [] word absent)]
  rfl

theorem escapeValue_word (c : Char) (solid : Scan.isWhitespace c = false) :
    IsWord (escapeValue c) := by
  unfold escapeValue
  split
  · refine ⟨List.cons_ne_nil _ _, fun d member => ?_⟩
    simp only [List.mem_cons, List.not_mem_nil, or_false] at member
    rcases member with rfl | rfl
    · decide
    · exact solid
  · refine ⟨List.cons_ne_nil _ _, fun d member => ?_⟩
    rwa [List.mem_singleton.mp member]

theorem escapeValue_white (c : Char) (blank : Scan.isWhitespace c = true) :
    escapeValue c = [c] := by
  unfold escapeValue
  rw [if_neg]
  rintro (rfl | rfl)
  · cases blank
  · cases blank

theorem mem_escaped_equals (word : Str) : '=' ∈ word.flatMap escapeValue ↔ '=' ∈ word := by
  rw [List.mem_flatMap]
  constructor
  · rintro ⟨c, inside, here⟩
    unfold escapeValue at here
    split at here
    · rename_i kind
      simp only [List.mem_cons, List.not_mem_nil, or_false] at here
      rw [here.resolve_left (by decide)]
      exact inside
    · rw [List.mem_singleton.mp here]
      exact inside
  · intro inside
    exact ⟨'=', inside, by decide⟩

/-- A plain value is one word with the key in front, and words without a field. -/
theorem exists_ownWords (key v : Str) (solid : Solid key) (some_ : v ≠ []) (plain : Plain v) :
    ∃ piece words, piece ≠ [] ∧ (∀ word ∈ words, '=' ∉ word) ∧
      splitWhitespace (pairText (key, v)) = (key ++ '=' :: piece) :: words := by
  obtain ⟨w, rest, shape, word, ends⟩ : ∃ w rest, v = w ++ rest ∧ IsWord w ∧ EndsWord rest := by
    refine ⟨v.takeWhile (! Scan.isWhitespace ·), v.dropWhile (! Scan.isWhitespace ·),
      List.takeWhile_append_dropWhile.symm, ⟨?_, ?_⟩, ?_⟩
    · obtain ⟨c, s, rfl⟩ := List.exists_cons_of_ne_nil some_
      rw [List.takeWhile_cons_of_pos (by rw [plain.1 c rfl]; rfl)]
      exact List.cons_ne_nil _ _
    · intro c member
      have kept := List.mem_takeWhile_imp member
      rwa [Bool.not_eq_eq_eq_not, Bool.not_true] at kept
    · intro c first
      have kept : (! Scan.isWhitespace c) = false := by
        have all := List.head?_dropWhile_not (! Scan.isWhitespace ·) v
        rwa [first] at all
      rwa [Bool.not_eq_eq_eq_not, Bool.not_false] at kept
  have words : splitWhitespace v = w :: splitWhitespace rest := by
    rw [shape]
    exact splitWhitespace_word [] w rest nofun word ends
  have escaped : IsWord (w.flatMap escapeValue) := by
    refine ⟨?_, fun c member => ?_⟩
    · obtain ⟨c, s, rfl⟩ := List.exists_cons_of_ne_nil word.1
      rw [List.flatMap_cons]
      exact List.append_ne_nil_of_left_ne_nil (escapeValue_word c (word.2 c List.mem_cons_self)).1 _
    · obtain ⟨d, inside, here⟩ := List.mem_flatMap.mp member
      exact (escapeValue_word d (word.2 d inside)).2 c here
  have ended : EndsWord (rest.flatMap escapeValue) := by
    intro c first
    cases rest with
    | nil => cases first
    | cons d rest =>
        have blank := ends d rfl
        rw [List.flatMap_cons, escapeValue_white d blank] at first
        rwa [← Option.some.inj first]
  have glued : IsWord (key ++ '=' :: w.flatMap escapeValue) := by
    refine ⟨List.append_ne_nil_of_right_ne_nil _ (List.cons_ne_nil _ _),
      solid.append fun c member => ?_⟩
    cases List.mem_cons.mp member with
    | inl equals => rw [equals]; decide
    | inr inside => exact escaped.2 c inside
  refine ⟨w.flatMap escapeValue, (splitWhitespace rest).map fun word => word.flatMap escapeValue,
    escaped.1, ?_, ?_⟩
  · intro word' member
    obtain ⟨word, inside, here⟩ := List.mem_map.mp member
    rw [← here, mem_escaped_equals]
    exact plain.2 word (by rwa [words])
  · rw [← splitWhitespace_flatMap escapeValue escapeValue_white escapeValue_word]
    have parts :
        pairText
          (key, v) = [] ++ ((key ++ '=' :: w.flatMap escapeValue) ++ rest.flatMap escapeValue) := by
      unfold pairText
      rw [shape, List.flatMap_append]
      simp
    rw [parts]
    exact splitWhitespace_word [] _ _ nofun glued ended

theorem exists_redacted (key : Str) (sensitive : key ∈ sensitiveKeys) :
    ∃ kind, ∀ piece, stored key piece = redact kind piece := by
  simp only [sensitiveKeys, List.mem_cons, List.not_mem_nil, or_false] at sensitive
  rcases sensitive with rfl | rfl | rfl | rfl | rfl | rfl | rfl | rfl
  · exact ⟨"ip".toList, fun piece => rfl⟩
  · exact ⟨"ip".toList, fun piece => rfl⟩
  · exact ⟨"user".toList, fun piece => rfl⟩
  · exact ⟨"user".toList, fun piece => rfl⟩
  · exact ⟨"user".toList, fun piece => rfl⟩
  · exact ⟨"host".toList, fun piece => rfl⟩
  · exact ⟨"host".toList, fun piece => rfl⟩
  · exact ⟨"host".toList, fun piece => rfl⟩

/-- A plain value sets the field of its key only, to a text without it. -/
theorem lastOf_plain (key kind v : Str) (redacted : ∀ piece, stored key piece = redact kind piece)
    (word : Solid key) (absent : '=' ∉ key) (some_ : v ≠ []) (plain : Plain v) (k : Str) :
    lastOf k (splitWhitespace (pairText (key, v))) =
      if key = k then some ("[redacted:".toList ++ (kind ++ [']'])) else none := by
  obtain ⟨piece, words, nonempty, free, shape⟩ := exists_ownWords key v word some_ plain
  have others :
      (words.filterMap fun word => (field word).bind fun (key, v) => if key = k then some v
        else none) = [] := by
    apply List.filterMap_eq_nil_iff.mpr
    intro word member
    rw [field_eq_none word (free word member)]
    rfl
  rw [shape]
  unfold lastOf
  rw [List.filterMap_cons, field_equals key piece absent, others, Option.bind_some, redacted,
    redact, if_neg nonempty]
  dsimp only
  split
  · rename_i none_
    split at none_
    · cases none_
    · rename_i other
      rw [if_neg other]
      rfl
  · rename_i text found
    rw [found]
    rfl

/-- Two values leave the same envelope exactly if they cover the same fields; without pipes in the
header, plain values do. -/
theorem same_envelope_iff (cfg : Config) (stamp stamp' : Stamp) (h : Header)
    (front back : List (Str × Str)) (key v v' : Str) :
    ((parseSyslogLine cfg stamp (cefLine h (front ++ (key, v) :: back))).map unstamped =
        (parseSyslogLine cfg stamp' (cefLine h (front ++ (key, v') :: back))).map unstamped ↔
          Covered h front key v v' back) ∧
      ((∀ f ∈ h.fields, '|' ∉ f) → key ∈ sensitiveKeys → v ≠ [] → v' ≠ [] → Plain v → Plain v' →
        Covered h front key v v' back) := by
  constructor
  · rw [parse_cefLine, parse_cefLine]
    constructor
    · intro same k unset
      have fields := congrArg (fun e : Envelope => e.fields[k]?) (Except.ok.inj same)
      change (List.foldl insertWord _ _)[k]? = (List.foldl insertWord _ _)[k]? at fields
      rw [getElem?_fields, getElem?_fields, unset, Option.none_or, Option.none_or] at fields
      exact fields
    · intro covered
      have fields :
          (splitWhitespace (glue h ++ List.intercalate [' ']
            ((front ++ (key, v) :: back).map pairText))).foldl insertWord
            (named (cut 7 (headerText h)).1) =
          (splitWhitespace (glue h ++ List.intercalate [' ']
            ((front ++ (key, v') :: back).map pairText))).foldl insertWord
            (named (cut 7 (headerText h)).1) := by
        apply Std.ExtTreeMap.ext_getElem?
        intro k
        rw [getElem?_fields, getElem?_fields]
        cases later : lastOf k (laterWords back) with
        | some text => rfl
        | none => rw [covered k later]
      rw [fields]
      rfl
  · intro pipeless sensitive some_ some' plain plain' k unset
    obtain ⟨kind, redacted⟩ := exists_redacted key sensitive
    have word : Solid key ∧ '=' ∉ key := by
      have each : ∀ key ∈ sensitiveKeys, (key.all (! Scan.isWhitespace ·)) = true ∧ '=' ∉ key := by
        decide
      exact ⟨Sanitize.solid_of_all key (each key sensitive).1, (each key sensitive).2⟩
    have own (v : Str) : ownWords h front key v = splitWhitespace (pairText (key, v)) := by
      unfold ownWords
      rw [glue_of_pipeless h pipeless, ite_self, List.nil_append]
    rw [own, own, lastOf_plain key kind v redacted word.1 word.2 some_ plain,
      lastOf_plain key kind v' redacted word.1 word.2 some' plain']

/-- A second word with an `=` is shown. -/
theorem second_word_shown :
    ¬ ∀ (cfg : Config) (stamp stamp' : Stamp) (h : Header) (front back : List (Str × Str))
      (key v v' : Str), key ∈ sensitiveKeys →
      v ≠ [] → v' ≠ [] →
        (parseSyslogLine cfg stamp (cefLine h (front ++ (key, v) :: back))).map unstamped =
          (parseSyslogLine cfg stamp' (cefLine h (front ++ (key, v') :: back))).map unstamped := by
  intro same
  have shown :=
    congrArg (fun result : Except ByoEdrError Envelope => result.toOption.bind fun e =>
      e.fields["pin\\".toList]?)
    (same {} ⟨[], 0⟩ ⟨[], 0⟩
      ⟨"0".toList, "V".toList, "EDR".toList, "1.0".toList, "100".toList, "Logon".toList, "8".toList⟩
        [] [] "suser".toList
      "ann".toList "ann pin=1234".toList (by decide) (by decide) (by decide))
  revert shown
  decide

end EraOne.ByoEdr
