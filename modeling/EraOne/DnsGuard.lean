import EraOne.Dns
import EraOne.KeyedList
import EraOne.Utf8

set_option autoImplicit false

/- What the resolver decides on a name (`policy/store.go`, `atlas/pack.go`, `guard/engine.go`). -/
namespace EraOne.Dns

open BigEndian DomainName IpNet Utf8

structure Rule where
  id : Bytes
  domain : Bytes := []
  suffix : Bytes := []
  action : Action
  sinkholeIP : Bytes := []
  reason : Bytes := []
  deriving DecidableEq

/-- A domain of a pack. -/
structure Entry where
  domain : Bytes
  severity : Bytes

/-- The lists that are consulted, where there are any. -/
structure Engine where
  policy : Option (List Rule)
  atlas : Option (List Entry)
  defaultSinkhole : Bytes := utf8 "127.0.0.1".toList

def newStore : List Rule :=
  [{ id := utf8 "block-malware-lab".toList, suffix := utf8 ".malware.test".toList,
     action := .nxdomain,
     reason := utf8 "lab deny".toList },
   { id := utf8 "sinkhole-phish".toList, suffix := utf8 ".phish.test".toList, action := .sinkhole,
     sinkholeIP := utf8 "127.0.0.1".toList, reason := utf8 "lab sinkhole".toList }]

section Guard

/- `strings.ToLower` of `strings.TrimSpace`. -/
variable (fold : Bytes → Bytes)

def normalize (s : Bytes) : Bytes := trimDot (fold s)

/-- The suffix of a rule, behind a dot. -/
def suffixOf (r : Rule) : Bytes :=
  let suf := normalize fold r.suffix
  if [dot].isPrefixOf suf then suf else dot :: suf

def Rule.hits (r : Rule) (name : Bytes) : Bool :=
  (r.domain ≠ [] && normalize fold r.domain = name) ||
    (r.suffix ≠ [] && ((suffixOf fold r).isSuffixOf name || name = (suffixOf fold r).tail))

/-- `Match`. -/
def matchRule (rules : List Rule) (qname : Bytes) : Option Rule :=
  rules.find? fun r => r.hits fold (normalize fold qname)

/-- `Load`. -/
def loadPack (domains : List Entry) : Bytes → Option Entry :=
  domains.foldl
    (fun idx e =>
      if normalize fold e.domain ≠ [] then Function.update idx (normalize fold e.domain) (some e)
      else idx)
    fun _ => none

def lookupPack (domains : List Entry) (qname : Bytes) : Option Entry :=
  loadPack fold domains (normalize fold qname)

def Engine.decide (e : Engine) (qname : Bytes) (qtype : Str) : Verdict :=
  match e.atlas.bind (lookupPack fold · qname) with
  | some hit =>
      { qname := qname, qtype := qtype, action := .nxdomain,
        ruleID := utf8 "atlas:".toList ++ hit.domain,
        reason := utf8 "atlas hit severity=".toList ++ hit.severity, source := "atlas".toList }
  | none =>
      match e.policy.bind (matchRule fold · qname) with
      | some rule =>
          { qname := qname, qtype := qtype, action := rule.action, ruleID := rule.id,
            reason := rule.reason,
            sinkhole :=
              if rule.action = .sinkhole then
                if rule.sinkholeIP = [] then e.defaultSinkhole else rule.sinkholeIP
              else [],
            source := "policy".toList }
      | none => { qname := qname, qtype := qtype }

/-! ### What is covered -/

/-- The rule is for the name, or for a name that it lies under. -/
def Rule.Covers (r : Rule) (name : Bytes) : Prop :=
  (r.domain ≠ [] ∧ normalize fold r.domain = name) ∨
    (r.suffix ≠ [] ∧ (suffixOf fold r).tail.splitOn dot <:+ name.splitOn dot)

theorem suffixOf_eq (r : Rule) : suffixOf fold r = dot :: (suffixOf fold r).tail := by
  unfold suffixOf
  dsimp only
  split
  · rename_i starts
    obtain ⟨rest, whole⟩ := List.isPrefixOf_iff_prefix.mp starts
    rw [← whole]
    rfl
  · rfl

/-- No rule covers a name that merely ends in the letters of its suffix. -/
theorem hits_iff (r : Rule) (name : Bytes) : r.hits fold name = true ↔ r.Covers fold name := by
  unfold Rule.hits Rule.Covers
  rw [← suffix_iff_labels, ← suffixOf_eq]
  simp

/-- The first rule that covers the name. -/
def Governs (rules : List Rule) (name : Bytes) (r : Rule) : Prop :=
  ∃ front back, rules = front ++ r :: back ∧ r.Covers fold name ∧
    ∀ earlier ∈ front, ¬ earlier.Covers fold name

theorem matchRule_eq_some_iff (rules : List Rule) (qname : Bytes) (r : Rule) :
    matchRule fold rules qname = some r ↔ Governs fold rules (normalize fold qname) r := by
  unfold matchRule Governs
  rw [List.find?_eq_some_iff_append]
  simp only [hits_iff, Bool.not_eq_true', ← Bool.not_eq_true]
  constructor
  · rintro ⟨covers, front, back, whole, none_⟩
    exact ⟨front, back, whole, covers, none_⟩
  · rintro ⟨front, back, whole, covers, none_⟩
    exact ⟨covers, front, back, whole, none_⟩

def Listed (domains : List Entry) (name : Bytes) : Prop :=
  name ≠ [] ∧ ∃ e ∈ domains, normalize fold e.domain = name

theorem isSome_loadPack (domains : List Entry) (name : Bytes) :
    (loadPack fold domains name).isSome ↔ Listed fold domains name := by
  unfold loadPack Listed
  induction domains using List.reverseRecOn with
  | nil => simp
  | append_singleton front e ih =>
      rw [List.foldl_append, List.foldl_cons, List.foldl_nil]
      by_cases here : normalize fold e.domain = name
      · by_cases some_ : name = []
        · rw [if_neg (by simp [here, some_]), ih]
          simp [some_]
        · rw [if_pos (by rw [here]; exact some_), here, Function.update_self]
          simp [some_, here]
      · have same : name ≠ normalize fold e.domain := fun back => here back.symm
        split
        · rw [Function.update_of_ne same, ih]
          simp [here]
        · rw [ih]
          simp [here]

section Answers

variable (parseIP : Bytes → Option IP)

def Engine.Known (e : Engine) (name : Bytes) : Prop := ∃ domains ∈ e.atlas, Listed fold domains name

def Engine.Governed (e : Engine) (name : Bytes) (r : Rule) : Prop :=
  ∃ rules ∈ e.policy, Governs fold rules name r

/-- The pack knows the name, or else the first rule that covers it blocks it. -/
def Engine.Blocks (e : Engine) (name : Bytes) : Prop :=
  e.Known fold name ∨ ∃ r, e.Governed fold name r ∧ r.action = .nxdomain

/-- The first rule that covers the name sends it to the address, and the pack does not know it. -/
def Engine.Redirects (e : Engine) (name address : Bytes) : Prop :=
  ¬ e.Known fold name ∧ ∃ r, e.Governed fold name r ∧ r.action = .sinkhole ∧
    address = if r.sinkholeIP = [] then e.defaultSinkhole else r.sinkholeIP

theorem known_iff (e : Engine) (qname : Bytes) :
    (e.atlas.bind (lookupPack fold · qname)).isSome ↔ e.Known fold (normalize fold qname) := by
  unfold lookupPack Engine.Known
  cases e.atlas with
  | none => simp
  | some domains => simp [isSome_loadPack]

theorem governed_iff (e : Engine) (qname : Bytes) (r : Rule) :
    e.policy.bind (matchRule fold · qname) = some r ↔ e.Governed fold (normalize fold qname) r := by
  rw [Option.bind_eq_some_iff]
  simp only [matchRule_eq_some_iff]
  rfl

theorem decide_spec (e : Engine) (qname : Bytes) (qtype : Str) :
    ((e.decide fold qname qtype).action = .nxdomain ↔ e.Blocks fold (normalize fold qname)) ∧
      ∀ address, (e.decide fold qname qtype).action = .sinkhole ∧
        (e.decide fold qname qtype).sinkhole = address ↔
        e.Redirects fold (normalize fold qname) address := by
  unfold Engine.decide Engine.Blocks Engine.Redirects
  simp only [← known_iff, ← governed_iff]
  cases e.atlas.bind (lookupPack fold · qname) with
  | some hit => simp
  | none =>
      cases e.policy.bind (matchRule fold · qname) with
      | none => simp
      | some rule =>
          constructor
          · simp
          · intro address
            by_cases sends : rule.action = .sinkhole
            · simp [sends, eq_comm]
            · simp [sends]

/-- What a client of the resolver is told, from the bytes of its query on. -/
theorem resolver_answers_iff (e : Engine) (msg resp : Bytes)
    (handled : handleMessage parseIP (e.decide fold) msg = .ok resp) :
    ∃ (labels : List Label) (kind rest : Bytes),
      readLabels msg.length (msg.drop 12) = .ok (labels, kind ++ rest) ∧ kind.length = 4 ∧
      (rcode resp = 3 ↔ e.Blocks fold (normalize fold (dotted labels))) ∧
      (hasAnswerA resp = true ↔ uint16 (kind.take 2) = 1 ∧
        ∃ address ip, e.Redirects fold (normalize fold (dotted labels)) address ∧ address ≠ [] ∧
          (parseIP address).bind to4 = some ip) := by
  obtain ⟨labels, kind, rest, v, read, four, verdict, code, address⟩ :=
    response_fields parseIP _ msg resp handled
  obtain ⟨blocks, redirects⟩ :=
    decide_spec fold e (dotted labels) (qtypeName (uint16 (kind.take 2)))
  rw [← verdict] at blocks redirects
  refine ⟨labels, kind, rest, read, four, ?_, ?_⟩
  · rw [code, ← blocks]
    unfold responseCode
    split
    · rename_i blocked
      exact iff_of_true rfl blocked
    · rename_i free
      exact iff_of_false (by decide) free
  · rw [address]
    simp only [← redirects]
    unfold sinkholeA
    split
    · rename_i all
      rw [Option.isSome_iff_exists]
      constructor
      · rintro ⟨ip, found⟩
        exact ⟨all.2.1, v.sinkhole, ip, ⟨all.1, rfl⟩, all.2.2, found⟩
      · rintro ⟨-, text, ip, ⟨-, same⟩, -, found⟩
        exact ⟨ip, by rw [same]; exact found⟩
    · rename_i other
      apply iff_of_false
      · simp
      · rintro ⟨one, text, ip, ⟨sends, same⟩, some_, -⟩
        exact other ⟨sends, one, by rw [same]; exact some_⟩

/-- A query for the address of `a.malware.test`. -/
def labQuery : Bytes :=
  [0, 7, 1, 0, 0, 1, 0, 0, 0, 0, 0, 0, 1, 97, 7, 109, 97, 108, 119, 97, 114, 101, 4, 116, 101, 115,
    116, 0, 0, 1, 0, 1]

/-- A store that nobody has touched covers the name. -/
theorem labName_blocked :
    ∃ (labels : List Label) (tail : Bytes),
      readLabels labQuery.length (labQuery.drop 12) = .ok (labels, tail) ∧
      Engine.Blocks id { policy := some newStore, atlas := none }
        (normalize id (dotted labels)) := by
  have handled : ∃ resp, handleMessage (fun _ => none)
      (Engine.decide id { policy := some newStore, atlas := none })
      labQuery = .ok resp ∧ rcode resp = 3 := ⟨_, rfl, rfl⟩
  obtain ⟨resp, answer, code⟩ := handled
  obtain ⟨labels, kind, rest, read, -, blocked, -⟩ :=
    resolver_answers_iff id (fun _ => none) _ labQuery resp answer
  exact ⟨labels, kind ++ rest, read, blocked.mp code⟩

end Answers

end Guard

/-! ### The policy store -/

/-- A write of the store. -/
inductive StoreCall where
  | replace (rules : List Rule)
  | add (rule : Rule)
  | delete (id : Bytes)

open KeyedList in
def StoreCall.apply (rules : List Rule) : StoreCall → List Rule
  | .replace loaded => loaded
  | .add rule => if rule.id ≠ [] then upsert Rule.id rule rules else rules ++ [rule]
  | .delete id => (remove Rule.id id rules).getD rules

/-- What a write makes of the rules by their ids. -/
def StoreCall.applyTable (table : Bytes → Option Rule) : StoreCall → Bytes → Option Rule
  | .replace loaded => fun id => loaded.find? fun r => r.id = id
  | .add rule => Function.update table rule.id (some rule)
  | .delete id => Function.update table id none

/-- No two rules have one id, where they have ids. -/
def OneEach (rules : List Rule) : Prop := rules.Pairwise fun a b => a.id ≠ [] → a.id ≠ b.id

def StoreCall.write : StoreCall → KeyedList.Write Rule Bytes
  | .replace loaded => .load loaded
  | .add rule => .put rule
  | .delete id => .drop id

theorem apply_eq_write (rules : List Rule) (c : StoreCall) :
    c.apply rules = KeyedList.write Rule.id (· ≠ []) rules c.write := by
  cases c <;> rfl

theorem applyTable_eq_writeTable (table : Bytes → Option Rule) (c : StoreCall) :
    c.applyTable table = KeyedList.writeTable Rule.id table c.write := by
  cases c <;> rfl

/-- Whatever is written to the store: a rule with an id is consulted exactly if the last write to
its id was to add it, so long as no list with an id twice is installed. -/
theorem store_run (rules : List Rule) (calls : List StoreCall) (start : OneEach rules)
    (loads : ∀ loaded, .replace loaded ∈ calls → OneEach loaded) (r : Rule) (named : r.id ≠ []) :
    r ∈ calls.foldl StoreCall.apply rules ↔
      calls.foldl StoreCall.applyTable (fun id => rules.find? fun r => r.id = id) r.id = some
        r := by
  have writes : ∀ w ∈ calls.map StoreCall.write, w.Loads Rule.id (· ≠ []) := by
    intro w member
    obtain ⟨c, inside, rfl⟩ := List.mem_map.mp member
    cases c with
    | replace loaded => exact loads loaded inside
    | add rule => trivial
    | delete id => trivial
  have same := KeyedList.mem_run (calls.map StoreCall.write) rules writes start r named
  rw [List.foldl_map, List.foldl_map] at same
  simp only [← apply_eq_write, ← applyTable_eq_writeTable] at same
  exact same

theorem oneEach_newStore : OneEach newStore := by
  unfold OneEach newStore
  decide

/-- A rule that is put in the place of another is consulted for it. -/
theorem replaced_rule :
    { id := utf8 "sinkhole-phish".toList, action := .allow } ∈
      [.delete (utf8 "block-malware-lab".toList),
        .add { id := utf8 "sinkhole-phish".toList, action := .allow }].foldl StoreCall.apply
          newStore := by
  apply (store_run newStore _ oneEach_newStore (by simp) _ (by decide)).mpr
  simp [StoreCall.applyTable]

end EraOne.Dns
