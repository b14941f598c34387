import EraOne.LowerCase

set_option autoImplicit false

/- Matching of Sigma rules (`sigma/rule.go`). Fields of a rule that `Match` does not read are left
out. -/
namespace EraOne.Sigma

open LowerCase

/-- A value that YAML decodes to; a number carries its decimal text, and `other` is what is neither
text, number, list nor map. -/
inductive Value where
  | text (s : Str)
  | number (decimal : Str)
  | list (items : List Value)
  | map (entries : List (Str × Value))
  | other (tag : Str)

structure Rule where
  logsource : List (Str × Str) := []
  detection : List (Str × Value) := []

/-- `SplitN(k, "|", 2)`: a field with its modifier. -/
def parseField (k : Str) : Str × Str :=
  match Scan.splitOnce ['|'] k with
  | some (field, modifier) => (field, modifier)
  | none => (k, "contains".toList)

def toString : Value → Str
  | .text s => s
  | _ => []

/-- `r.Detection["selection"].(map[string]any)`. -/
def Rule.selection (r : Rule) : Option (List (Str × Value)) :=
  match r.detection.lookup "selection".toList with
  | some (.map entries) => some entries
  | _ => none

variable (table : Table)

/-- The loop body: whether the loop goes on. -/
def matchEntry (payloadText : Str) (entry : Str × Value) : Bool :=
  let modifier := (parseField entry.1).2
  let val := toString entry.2
  if modifier = "contains".toList then table.contains payloadText val
  else table.contains payloadText val

/-- Whether the rule is for events of a category. -/
def Rule.concerns (r : Rule) (category : Str) : Bool :=
  let cat := (r.logsource.lookup "category".toList).getD []
  cat = [] || cat = category

/-- `Rule.Match`. -/
def Rule.matches (r : Rule) (category payloadText : Str) : Bool :=
  if r.concerns category then
    match r.selection with
    | some sel => sel.all (matchEntry table payloadText)
    | none => false
  else false

/-! ### What a selection says -/

/-- What the values say that are no text, number or list. -/
abbrev Reading := Value → Str → Prop

/-- A value is satisfied by an event. -/
def Value.Satisfied (reading : Reading) (event : Str) : Value → Prop
  | .text s => table.Occurs s event
  | .number decimal => table.Occurs decimal event
  | .list items => ∃ item : { v // v ∈ items }, Value.Satisfied reading event item.1
  | v => reading v event
termination_by v => sizeOf v
decreasing_by
  have less := List.sizeOf_lt_of_mem item.2
  simp only [Value.list.sizeOf_spec]
  omega

/-- A match is founded on an entry, and each entry is satisfied. -/
def Founded (reading : Reading) (r : Rule) (category event : Str) : Prop :=
  r.matches table category event = true →
    ∃ sel, r.selection = some sel ∧ sel ≠ [] ∧ ∀ entry ∈ sel, entry.2.Satisfied table reading event

def Value.isText : Value → Bool
  | .text _ => true
  | _ => false

/-- A text of the selection is not in the event. -/
def TextMissing (sel : List (Str × Value)) (event : Str) : Prop :=
  ∃ entry ∈ sel, entry.2.isText = true ∧ ¬ table.Occurs (toString entry.2) event

theorem matchEntry_iff (event : Str) (entry : Str × Value) :
    matchEntry table event entry = true ↔
      (entry.2.isText = true → table.Occurs (toString entry.2) event) := by
  have same : matchEntry table event entry = table.contains event (toString entry.2) := by
    unfold matchEntry
    exact ite_self _
  rw [same, contains_iff]
  cases entry.2 with
  | text s => exact ⟨fun occurs _ => occurs, fun occurs => occurs rfl⟩
  | number decimal => exact ⟨fun _ text => (Bool.false_ne_true text).elim, fun _ => List.nil_infix⟩
  | list items => exact ⟨fun _ text => (Bool.false_ne_true text).elim, fun _ => List.nil_infix⟩
  | map entries => exact ⟨fun _ text => (Bool.false_ne_true text).elim, fun _ => List.nil_infix⟩
  | other tag => exact ⟨fun _ text => (Bool.false_ne_true text).elim, fun _ => List.nil_infix⟩

/-- A rule matches every event of its category in which no text of its selection is missing. -/
theorem matches_iff (r : Rule) (category event : Str) :
    r.matches table category event = true ↔
      r.concerns category = true ∧ ∃ sel, r.selection = some sel ∧
        ¬ TextMissing table sel event := by
  unfold Rule.matches
  by_cases concerned : r.concerns category = true
  · rw [if_pos concerned]
    cases r.selection with
    | none => simp
    | some sel =>
        have entries : sel.all (matchEntry table event) = true ↔ ¬ TextMissing table sel event := by
          rw [List.all_eq_true]
          unfold TextMissing
          simp only [matchEntry_iff]
          push Not
          rfl
        simp [concerned, entries]
  · simp [concerned]

theorem satisfied_text (reading : Reading) (event : Str) (v : Value) (text : v.isText = true) :
    v.Satisfied table reading event ↔ table.Occurs (toString v) event := by
  cases v with
  | text s => rw [Value.Satisfied, toString]
  | number decimal => cases text
  | list items => cases text
  | map entries => cases text
  | other tag => cases text

/-- Where the matches of a rule are founded: the rule is for another category, it has no selection,
a text of the selection is missing, or the selection has an entry and each that is no text is
satisfied too. -/
theorem founded_iff (reading : Reading) (r : Rule) (category event : Str) :
    Founded table reading r category event ↔
      r.concerns category = false ∨ r.selection = none ∨
        ∃ sel, r.selection = some sel ∧
          (TextMissing table sel event ∨
            sel ≠ [] ∧ ∀ entry ∈ sel, entry.2.isText = false →
              entry.2.Satisfied table reading event) := by
  unfold Founded
  rw [matches_iff]
  by_cases concerned : r.concerns category = true
  · cases selected : r.selection with
    | none => simp
    | some sel =>
        by_cases missing : TextMissing table sel event
        · simp [missing]
        · have texts : ∀ entry ∈ sel, entry.2.isText = true →
              entry.2.Satisfied table reading event := by
            intro entry member text
            rw [satisfied_text table reading event entry.2 text]
            by_contra absent
            exact missing ⟨entry, member, text, absent⟩
          have all_ : (∀ entry ∈ sel, entry.2.Satisfied table reading event) ↔
              ∀ entry ∈ sel, entry.2.isText = false → entry.2.Satisfied table reading event := by
            constructor
            · intro every entry member _
              exact every entry member
            · intro others entry member
              cases text : entry.2.isText with
              | true => exact texts entry member text
              | false => exact others entry member text
          constructor
          · intro founded
            obtain ⟨sel', same, some_, every⟩ := founded ⟨concerned, sel, rfl, missing⟩
            cases same
            exact Or.inr (Or.inr ⟨sel, rfl, Or.inr ⟨some_, all_.mp every⟩⟩)
          · rintro (other | none_ | ⟨sel', same, absent | ⟨some_, others⟩⟩) -
            · rw [concerned] at other
              cases other
            · cases none_
            · cases same
              exact absurd absent missing
            · cases same
              exact ⟨sel, rfl, some_, all_.mpr others⟩
  · simp [concerned]

/-- The selection `Port: 4444` of a rule for network events. -/
def portRule : Rule where
  detection := [("selection".toList, .map [("Port".toList, .number "4444".toList)])]

/-- The rule matches an event on another port. -/
theorem portRule_unfounded :
    ¬ Founded asciiTable (fun _ _ => False) portRule [] "port 80".toList := by
  intro founded
  obtain ⟨sel, selected, -, satisfied⟩ := founded (by decide)
  cases selected
  have port := satisfied _ List.mem_cons_self
  rw [Value.Satisfied] at port
  exact absurd port (by decide)

end EraOne.Sigma
