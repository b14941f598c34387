import EraOne.Strings

set_option autoImplicit false

/- Postgres array literals of one dimension, read a character at a time. -/
namespace EraOne.PgArray

inductive State where
  | before
  | opened
  | next
  | quoted (item : Str)
  | quotedEscape (item : Str)
  | read (item : Option Str)
  | bare (item blank : Str) (escaped : Bool)
  | bareEscape (item : Str)
  | closed
  | bad
  deriving DecidableEq, Repr

/-- White space around items. -/
def isSpace (c : Char) : Bool := c = ' ' ∨ (9 ≤ c.toNat ∧ c.toNat ≤ 13)

/-- An item without quotes; `NULL` is none if nothing in it is escaped. -/
def bareItem (item : Str) (escaped : Bool) : Option Str :=
  if escaped = false ∧ item.map Char.toLower = "null".toList then none else some item

/-- The first character of an item. -/
def start (c : Char) : State :=
  if c = '"' then .quoted []
  else if c = '\\' then .bareEscape []
  else if c = ',' ∨ c = '{' ∨ c = '}' then .bad
  else .bare [c] [] false

def step (st : List (Option Str) × State) (c : Char) : List (Option Str) × State :=
  match st.2 with
  | .before => (st.1, if isSpace c then .before else if c = '{' then .opened else .bad)
  | .opened => (st.1, if isSpace c then .opened else if c = '}' then .closed else start c)
  | .next => (st.1, if isSpace c then .next else start c)
  | .quoted item =>
      (st.1, if c = '"' then .read (some item) else if c = '\\' then .quotedEscape item
        else .quoted (item ++ [c]))
  | .quotedEscape item => (st.1, .quoted (item ++ [c]))
  | .read item =>
      if isSpace c then st
      else if c = ',' then (st.1 ++ [item], .next)
      else if c = '}' then (st.1 ++ [item], .closed)
      else (st.1, .bad)
  | .bare item blank escaped =>
      if c = ',' then (st.1 ++ [bareItem item escaped], .next)
      else if c = '}' then (st.1 ++ [bareItem item escaped], .closed)
      else if c = '"' ∨ c = '{' then (st.1, .bad)
      else if c = '\\' then (st.1, .bareEscape (item ++ blank))
      else if isSpace c then (st.1, .bare item (blank ++ [c]) escaped)
      else (st.1, .bare (item ++ (blank ++ [c])) [] escaped)
  | .bareEscape item => (st.1, .bare (item ++ [c]) [] true)
  | .closed => (st.1, if isSpace c then .closed else .bad)
  | .bad => st

/-- The items of a literal. -/
def readArray (s : Str) : Option (List (Option Str)) :=
  match s.foldl step ([], .before) with
  | (items, .closed) => some items
  | _ => none

/-- `array_to_string`, which leaves out nulls. -/
def arrayToString (items : List (Option Str)) (sep : Str) : Str :=
  List.intercalate sep (items.filterMap id)

theorem readArray_eq_some (s : Str) (items : List (Option Str)) :
    readArray s = some items ↔ s.foldl step ([], .before) = (items, .closed) := by
  unfold readArray
  constructor
  · intro found
    split at found
    · rename_i items' ended
      rw [ended, Option.some.inj found]
    · cases found
  · intro ended
    rw [ended]

theorem step_items (st : List (Option Str) × State) (c : Char) : st.1 <+: (step st c).1 := by
  unfold step
  cases st.2 with
  | read item =>
      dsimp only
      split_ifs
      · exact List.prefix_refl _
      · exact List.prefix_append _ _
      · exact List.prefix_append _ _
      · exact List.prefix_refl _
  | bare item blank escaped =>
      dsimp only
      split_ifs
      · exact List.prefix_append _ _
      · exact List.prefix_append _ _
      · exact List.prefix_refl _
      · exact List.prefix_refl _
      · exact List.prefix_refl _
      · exact List.prefix_refl _
  | before | opened | next | quoted | quotedEscape | bareEscape | closed | bad =>
      exact List.prefix_refl _

theorem foldl_items (s : Str) (st : List (Option Str) × State) : st.1 <+: (s.foldl step st).1 := by
  induction s generalizing st with
  | nil => exact List.prefix_refl _
  | cons c s ih =>
      rw [List.foldl_cons]
      exact (step_items st c).trans (ih _)

theorem foldl_bad (s : Str) (items : List (Option Str)) :
    s.foldl step (items, .bad) = (items, .bad) := by
  induction s with
  | nil => rfl
  | cons c s ih => exact ih

/-- The item that is read stays in front of what is read later. -/
theorem exists_item (s : Str) (items result : List (Option Str)) (item : Str) :
    (s.foldl step (items, .quoted item) = (result, .closed) →
      ∃ more rest, result = items ++ some (item ++ more) :: rest) ∧
      (s.foldl step (items, .quotedEscape item) = (result, .closed) →
        ∃ more rest, result = items ++ some (item ++ more) :: rest) ∧
      (s.foldl step (items, .read (some item)) = (result, .closed) →
        ∃ rest, result = items ++ some item :: rest) := by
  induction s generalizing item with
  | nil =>
      refine ⟨fun ended => ?_, fun ended => ?_, fun ended => ?_⟩
      · cases congrArg Prod.snd ended
      · cases congrArg Prod.snd ended
      · cases congrArg Prod.snd ended
  | cons c s ih =>
      have longer (found : ∃ more rest, result = items ++ some ((item ++ [c]) ++ more) :: rest) :
          ∃ more rest, result = items ++ some (item ++ more) :: rest := by
        obtain ⟨more, rest, shape⟩ := found
        exact ⟨c :: more, rest, by rw [shape, List.append_assoc, List.singleton_append]⟩
      refine ⟨fun ended => ?_, fun ended => ?_, fun ended => ?_⟩
      · rw [List.foldl_cons, step] at ended
        dsimp only at ended
        by_cases quote : c = '"'
        · rw [if_pos quote] at ended
          obtain ⟨rest, shape⟩ := (ih item).2.2 ended
          exact ⟨[], rest, by rw [shape, List.append_nil]⟩
        · rw [if_neg quote] at ended
          by_cases escape : c = '\\'
          · rw [if_pos escape] at ended
            exact (ih item).2.1 ended
          · rw [if_neg escape] at ended
            exact longer ((ih (item ++ [c])).1 ended)
      · exact longer ((ih (item ++ [c])).1 ended)
      · rw [List.foldl_cons, step] at ended
        dsimp only at ended
        have kept (state : State)
            (after : s.foldl step (items ++ [some item], state) = (result, .closed)) :
            ∃ rest, result = items ++ some item :: rest := by
          obtain ⟨rest, shape⟩ := foldl_items s (items ++ [some item], state)
          rw [after] at shape
          exact ⟨rest,
            by rw [← show _ = result from shape, List.append_assoc, List.singleton_append]⟩
        by_cases space : isSpace c = true
        · rw [if_pos space] at ended
          exact (ih item).2.2 ended
        · rw [if_neg space] at ended
          by_cases comma : c = ','
          · rw [if_pos comma] at ended
            exact kept _ ended
          · rw [if_neg comma] at ended
            by_cases brace : c = '}'
            · rw [if_pos brace] at ended
              exact kept _ ended
            · rw [if_neg brace] at ended
              rw [foldl_bad] at ended
              cases congrArg Prod.snd ended

/-- A character that occurs in no item. -/
def Free (q : Char) (st : List (Option Str) × State) : Prop :=
  (∀ item ∈ st.1, ∀ s ∈ item, q ∉ s) ∧
    match st.2 with
    | .quoted item | .quotedEscape item | .bareEscape item => q ∉ item
    | .read item => ∀ s ∈ item, q ∉ s
    | .bare item blank _ => q ∉ item ∧ q ∉ blank
    | _ => True

theorem free_bareItem (q : Char) (item : Str) (escaped : Bool) (free : q ∉ item) :
    ∀ s ∈ bareItem item escaped, q ∉ s := by
  intro s member
  unfold bareItem at member
  split at member
  · cases member
  · rwa [← Option.some.inj member]

theorem Free.item {q : Char} {items : List (Option Str)} {item : Option Str}
    (free : ∀ i ∈ items, ∀ s ∈ i, q ∉ s) (last : ∀ s ∈ item, q ∉ s) : ∀ i ∈ items ++ [item],
    ∀ s ∈ i, q ∉ s := by
  intro i member
  rcases List.mem_append.mp member with before | here
  · exact free i before
  · rw [List.mem_singleton.mp here]
    exact last

theorem free_start (q c : Char) (items : List (Option Str)) (free : ∀ i ∈ items, ∀ s ∈ i, q ∉ s)
    (other : q ≠ c) :
    Free q (items, start c) := by
  unfold start
  split_ifs
  · exact ⟨free, List.not_mem_nil⟩
  · exact ⟨free, List.not_mem_nil⟩
  · exact ⟨free, trivial⟩
  · exact ⟨free, by simpa using other, List.not_mem_nil⟩

theorem not_mem_concat {q c : Char} {s : Str} (free : q ∉ s) (other : q ≠ c) : q ∉ s ++ [c] := by
  rw [List.mem_append, not_or, List.mem_singleton]
  exact ⟨free, other⟩

theorem Free.step {q c : Char} {st : List (Option Str) × State} (free : Free q st) (other : q ≠ c) :
    Free q (step st c) := by
  obtain ⟨items, state⟩ := st
  obtain ⟨before, inside⟩ := free
  unfold PgArray.step
  cases state with
  | before =>
      dsimp only
      split_ifs <;> exact ⟨before, trivial⟩
  | opened =>
      dsimp only
      split_ifs
      · exact ⟨before, trivial⟩
      · exact ⟨before, trivial⟩
      · exact free_start q c items before other
  | next =>
      dsimp only
      split_ifs
      · exact ⟨before, trivial⟩
      · exact free_start q c items before other
  | quoted item =>
      dsimp only
      split_ifs
      · refine ⟨before, fun s member => ?_⟩
        rw [← Option.some.inj member]
        exact inside
      · exact ⟨before, inside⟩
      · exact ⟨before, not_mem_concat inside other⟩
  | quotedEscape item => exact ⟨before, not_mem_concat inside other⟩
  | read item =>
      dsimp only
      split_ifs
      · exact ⟨before, inside⟩
      · exact ⟨Free.item before inside, trivial⟩
      · exact ⟨Free.item before inside, trivial⟩
      · exact ⟨before, trivial⟩
  | bare item blank escaped =>
      obtain ⟨solid, white⟩ := inside
      have joined : q ∉ item ++ (blank ++ [c]) := by
        rw [List.mem_append, not_or]
        exact ⟨solid, not_mem_concat white other⟩
      dsimp only
      split_ifs
      · exact ⟨Free.item before (free_bareItem q item escaped solid), trivial⟩
      · exact ⟨Free.item before (free_bareItem q item escaped solid), trivial⟩
      · exact ⟨before, trivial⟩
      · refine ⟨before, ?_⟩
        show q ∉ item ++ blank
        rw [List.mem_append, not_or]
        exact ⟨solid, white⟩
      · exact ⟨before, solid, not_mem_concat white other⟩
      · exact ⟨before, joined, List.not_mem_nil⟩
  | bareEscape item => exact ⟨before, not_mem_concat inside other, List.not_mem_nil⟩
  | closed =>
      dsimp only
      split_ifs <;> exact ⟨before, trivial⟩
  | bad => exact ⟨before, trivial⟩

/-- Items are made of the characters of the literal. -/
theorem not_mem_item (q : Char) (s : Str) (items : List (Option Str))
    (found : readArray s = some items) (absent : q ∉ s) :
    ∀ i ∈ items, ∀ text ∈ i, q ∉ text := by
  have reads (s : Str) (st : List (Option Str) × State) (free : Free q st) (absent : q ∉ s) :
      Free q (s.foldl step st) := by
    induction s generalizing st with
    | nil => exact free
    | cons c s ih =>
        rw [List.mem_cons, not_or] at absent
        exact ih _ (free.step absent.1) absent.2
  have all := reads s ([], .before) ⟨fun i member => absurd member List.not_mem_nil, trivial⟩ absent
  rw [(readArray_eq_some s items).mp found] at all
  exact all.1

theorem not_mem_intercalate (q : Char) (sep : Str) (texts : List Str) (outside : q ∉ sep)
    (clean : ∀ text ∈ texts, q ∉ text) :
    q ∉ List.intercalate sep texts := by
  induction texts with
  | nil => exact List.not_mem_nil
  | cons text texts ih =>
      have here := clean text List.mem_cons_self
      have later := ih fun other member => clean other (List.mem_cons_of_mem text member)
      cases texts with
      | nil => simpa [List.intercalate] using here
      | cons next texts =>
          rw [List.intercalate_cons_cons, List.mem_append, List.mem_append, not_or, not_or]
          exact ⟨⟨here, outside⟩, later⟩

theorem not_mem_arrayToString (q : Char) (items : List (Option Str)) (sep : Str)
    (free : ∀ i ∈ items, ∀ text ∈ i, q ∉ text) (outside : q ∉ sep) :
    q ∉ arrayToString items sep := by
  apply not_mem_intercalate q sep _ outside
  intro text member
  obtain ⟨i, within, same⟩ := List.mem_filterMap.mp member
  exact free i within text same

/-- A first item stands in front. -/
theorem arrayToString_some (text : Str) (rest : List (Option Str)) (sep : Str) :
    arrayToString (some text :: rest) sep = text ∨
      ∃ more, arrayToString (some text :: rest) sep = text ++ (sep ++ more) := by
  have shape : (some text :: rest).filterMap id = text :: rest.filterMap id := rfl
  unfold arrayToString
  rw [shape]
  cases rest.filterMap id with
  | nil =>
      left
      simp [List.intercalate]
  | cons next texts =>
      right
      exact ⟨List.intercalate sep (next :: texts),
        by rw [List.intercalate_cons_cons, List.append_assoc]⟩

end EraOne.PgArray
