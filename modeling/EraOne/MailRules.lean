import EraOne.MailPolicy
import EraOne.StableSort

set_option autoImplicit false

/- Rules kept in Postgres (`rules/store.go`). A document is written row by row and read back in the
order of priority and id, while `Evaluate` takes rules of one priority in the order of the
document. -/
namespace EraOne.Mail

open StableSort

section Store

/-- YAML of a list of rules. -/
structure Yaml where
  encode : List Rule → Str
  decode : Str → Option (List Rule)

/-- Each rule is read back as it was written. -/
def Yaml.Invertible (yaml : Yaml) (rules : List Rule) : Prop :=
  ∀ r ∈ rules, yaml.decode (yaml.encode [r]) = some [r]

structure RuleRow where
  id : Str
  priority : Int
  yamlBody : Str
  deriving DecidableEq

inductive RulesErr where
  | document (err : DocumentErr)
  | yaml
  | database
  deriving DecidableEq

variable (yaml : Yaml)

def marshalDocument (rules : List Rule) : Except RulesErr Str :=
  match validateDocument rules with
  | .error e => .error (.document e)
  | .ok () => .ok (yaml.encode rules)

def parseDocument (body : Str) : Except RulesErr (List Rule) :=
  match yaml.decode body with
  | none => .error .yaml
  | some rules =>
      match validateDocument rules with
      | .error e => .error (.document e)
      | .ok () => .ok rules

/-- The loop of `INSERT`s: `priority` is an `INT` and `id` the primary key. -/
def insertRows : List Rule → List RuleRow → Except RulesErr (List RuleRow)
  | [], table => .ok table
  | r :: rest, table =>
      match marshalDocument yaml [r] with
      | .error e => .error e
      | .ok body =>
          if r.priority < -2 ^ 31 ∨ 2 ^ 31 ≤ r.priority ∨
            r.id ∈ table.map RuleRow.id then .error .database
          else insertRows rest (table ++ [⟨r.id, r.priority, body⟩])

/-- `SaveDocument`: the table after the transaction, which starts by emptying it. -/
def saveDocument (rules : List Rule) : Except RulesErr (List RuleRow) :=
  match marshalDocument yaml rules with
  | .error e => .error e
  | .ok _ => insertRows yaml rules []

/-- `ORDER BY priority, id`; `collate` is the order of the column's collation. -/
def rowOrder (collate : Str → Str → Bool) (a b : RuleRow) : Bool :=
  a.priority < b.priority || (a.priority = b.priority && collate a.id b.id)

def loadDocument (collate : Str → Str → Bool) (table : List RuleRow) :
    Except RulesErr (List Rule) :=
  ((table.mergeSort (rowOrder collate)).mapM fun row => parseDocument yaml row.yamlBody).map
    List.flatten

end Store

section Reload

/-- A deterministic collation is a total order of the strings. -/
structure Collation (collate : Str → Str → Bool) : Prop where
  total : ∀ a b, (collate a b || collate b a) = true
  trans : ∀ a b c, collate a b = true → collate b c = true → collate a c = true
  antisymm : ∀ a b, collate a b = true → collate b a = true → a = b

theorem validateLoop_ok (rules : List Rule) (seen : List Str) :
    validateLoop rules seen = .ok () ↔
      (∀ r ∈ rules, r.id ≠ [] ∧ r.id ∉ seen) ∧ (rules.map Rule.id).Nodup := by
  induction rules generalizing seen with
  | nil => simp [validateLoop]
  | cons r rest ih =>
      rw [validateLoop, List.map_cons, List.nodup_cons, List.forall_mem_cons]
      by_cases empty : r.id = []
      · simp [empty]
      · by_cases known : r.id ∈ seen
        · simp [empty, known]
        · rw [if_neg empty, if_neg known, ih]
          simp only [List.mem_cons, not_or, List.mem_map]
          constructor
          · rintro ⟨rest_ok, distinct⟩
            refine ⟨⟨⟨empty, known⟩, fun q member =>
              ⟨(rest_ok q member).1, (rest_ok q member).2.2⟩⟩, ?_,
              distinct⟩
            rintro ⟨q, member, same⟩
            exact (rest_ok q member).2.1 same
          · rintro ⟨⟨-, rest_ok⟩, fresh, distinct⟩
            refine ⟨fun q member => ⟨(rest_ok q member).1, ?_, (rest_ok q member).2⟩, distinct⟩
            intro same
            exact fresh ⟨q, member, same⟩

theorem validateDocument_ok (rules : List Rule) :
    validateDocument rules = .ok () ↔ (∀ r ∈ rules, r.id ≠ []) ∧ (rules.map Rule.id).Nodup := by
  rw [validateDocument, validateLoop_ok]
  simp

def rowOf (yaml : Yaml) (r : Rule) : RuleRow := ⟨r.id, r.priority, yaml.encode [r]⟩

theorem insertRows_ok (yaml : Yaml) (rules : List Rule) (table rows : List RuleRow)
    (inserted : insertRows yaml rules table = .ok rows) :
    rows = table ++ rules.map (rowOf yaml) := by
  induction rules generalizing table with
  | nil =>
      cases inserted
      simp
  | cons r rest ih =>
      rw [insertRows] at inserted
      split at inserted
      · cases inserted
      · rename_i body marshalled
        split at inserted
        · cases inserted
        · rw [ih _ inserted, List.append_assoc]
          rw [marshalDocument] at marshalled
          split at marshalled
          · cases marshalled
          · cases marshalled
            rfl

/-- A saved document has distinct ids, and a row for each rule. -/
theorem saveDocument_ok (yaml : Yaml) (rules : List Rule) (table : List RuleRow)
    (saved : saveDocument yaml rules = .ok table) :
    table = rules.map (rowOf yaml) ∧ (∀ r ∈ rules, r.id ≠ []) ∧ (rules.map Rule.id).Nodup := by
  rw [saveDocument] at saved
  split at saved
  · cases saved
  · rename_i body marshalled
    rw [marshalDocument] at marshalled
    split at marshalled
    · cases marshalled
    · rename_i valid
      exact ⟨insertRows_ok yaml rules [] table saved, (validateDocument_ok rules).mp valid⟩

theorem parseDocument_rowOf (yaml : Yaml) (r : Rule)
    (inverts : yaml.decode (yaml.encode [r]) = some [r]) (named : r.id ≠ []) :
    parseDocument yaml (rowOf yaml r).yamlBody = .ok [r] := by
  have valid : validateDocument [r] = .ok () :=
    (validateDocument_ok [r]).mpr ⟨by simpa using named, by simp⟩
  rw [parseDocument]
  change (match yaml.decode (yaml.encode [r]) with
    | none => _
    | some rules => _) = _
  rw [inverts]
  dsimp only
  rw [valid]

theorem mapM_parse (yaml : Yaml) (rules : List Rule) (inverts : yaml.Invertible rules)
    (named : ∀ r ∈ rules, r.id ≠ []) :
    (rules.map (rowOf yaml)).mapM (fun row => parseDocument yaml row.yamlBody) =
      .ok (rules.map fun r => [r]) := by
  induction rules with
  | nil => rfl
  | cons r rest ih =>
      rw [List.map_cons, List.mapM_cons, parseDocument_rowOf yaml r (inverts r List.mem_cons_self)
        (named r List.mem_cons_self), ih]
      · rfl
      · intro q member
        exact inverts q (List.mem_cons_of_mem r member)
      · intro q member
        exact named q (List.mem_cons_of_mem r member)

def ruleOrder (collate : Str → Str → Bool) (a b : Rule) : Bool :=
  a.priority < b.priority || (a.priority = b.priority && collate a.id b.id)

/-- The reloaded document is the saved one in the order of priority and id. -/
theorem loadDocument_saved (yaml : Yaml) (collate : Str → Str → Bool) (rules : List Rule)
    (inverts : yaml.Invertible rules) (named : ∀ r ∈ rules, r.id ≠ []) :
    loadDocument yaml collate (rules.map (rowOf yaml)) = .ok
      (rules.mergeSort (ruleOrder collate)) := by
  have sorted : (rules.map (rowOf yaml)).mergeSort (rowOrder collate) =
      (rules.mergeSort (ruleOrder collate)).map (rowOf yaml) := by
    rw [List.map_mergeSort]
    intro a _ b _
    rfl
  rw [loadDocument, sorted, mapM_parse yaml]
  · change Except.ok ((rules.mergeSort (ruleOrder collate)).map fun r => [r]).flatten = _
    rw [← List.flatMap_def, List.flatMap_singleton']
  · intro r member
    exact inverts r (List.mem_mergeSort.mp member)
  · intro r member
    exact named r (List.mem_mergeSort.mp member)

end Reload

section Decisions

variable (rt : Runtime) (msg : Message) (localDomains : List Str)

/-- The rule ends the loop of `Evaluate`. -/
def decides (r : Rule) : Bool :=
  if matchBypass rt r.conditions msg then r.stopProcessing
  else matchConditions rt r.conditions msg localDomains

def decisionOf (r : Rule) : Result :=
  { decision := if matchBypass rt r.conditions msg then .bypass else .hold, ruleID := r.id,
    rule := some r }

theorem evaluateLoop_eq (rules : List Rule) :
    evaluateLoop rt msg localDomains rules =
      ((rules.find? (decides rt msg localDomains)).map (decisionOf rt msg)).getD
        { decision := .pass } := by
  induction rules with
  | nil => rfl
  | cons r rest ih =>
      rw [evaluateLoop, List.find?_cons, decides]
      by_cases bypass : matchBypass rt r.conditions msg = true
      · rw [if_pos bypass, if_pos bypass]
        cases stop : r.stopProcessing with
        | true => simp [decisionOf, bypass]
        | false => exact ih
      · rw [if_neg bypass, if_neg bypass]
        cases matched : matchConditions rt r.conditions msg localDomains with
        | true => simp [decisionOf, bypass]
        | false => exact ih

def byPriority (a b : Rule) : Bool := a.priority ≤ b.priority

/-- The deciding rules of the least priority, in the order of the list. -/
def leading (rules : List Rule) : List Rule :=
  least byPriority (rules.filter (decides rt msg localDomains))

/-- The first of them in the list is the first by id. -/
def FirstByID (collate : Str → Str → Bool) (rules : List Rule) : Prop :=
  ∀ first, (leading rt msg localDomains rules).head? = some first →
    ∀ r ∈ leading rt msg localDomains rules, collate first.id r.id = true

theorem evaluate_eq (rules : List Rule) (distinct : rules.Nodup) :
    evaluate rt rules msg localDomains =
      ((leading rt msg localDomains rules).head?.map (decisionOf rt msg)).getD
        { decision := .pass } := by
  rw [evaluate, evaluateLoop_eq]
  change ((List.find? _ (rules.mergeSort byPriority)).map _).getD _ = _
  rw [find?_mergeSort byPriority _ _ _ rules distinct, leading]
  · intro a b
    simp only [byPriority, Bool.or_eq_true, decide_eq_true_eq]
    omega
  · intro a b c
    simp only [byPriority, decide_eq_true_eq]
    omega

variable (collate : Str → Str → Bool) (collation : Collation collate)
include collation

theorem ruleOrder_total (a b : Rule) : (ruleOrder collate a b || ruleOrder collate b a) = true := by
  have ids := collation.total a.id b.id
  simp only [ruleOrder, Bool.or_eq_true, Bool.and_eq_true, decide_eq_true_eq] at ids ⊢
  rcases Int.lt_trichotomy a.priority b.priority with less | same | more
  · exact Or.inl (Or.inl less)
  · rcases ids with forward | backward
    · exact Or.inl (Or.inr ⟨same, forward⟩)
    · exact Or.inr (Or.inr ⟨same.symm, backward⟩)
  · exact Or.inr (Or.inl more)

theorem ruleOrder_trans (a b c : Rule) (first : ruleOrder collate a b = true)
    (second : ruleOrder collate b c = true) : ruleOrder collate a c = true := by
  simp only [ruleOrder, Bool.or_eq_true, Bool.and_eq_true, decide_eq_true_eq] at first second ⊢
  rcases first with less | ⟨same, ids⟩ <;> rcases second with less' | ⟨same', ids'⟩
  · exact Or.inl (less.trans less')
  · exact Or.inl (same' ▸ less)
  · exact Or.inl (same ▸ less')
  · exact Or.inr ⟨same.trans same', collation.trans _ _ _ ids ids'⟩

/-- `Evaluate` keeps the order of a reloaded document. -/
theorem evaluate_reloaded (rules : List Rule) (distinct : rules.Nodup) :
    evaluate rt (rules.mergeSort (ruleOrder collate)) msg localDomains =
      ((least (ruleOrder collate) (rules.filter (decides rt msg localDomains))).head?.map
        (decisionOf rt msg)).getD { decision := .pass } := by
  have sorted := List.pairwise_mergeSort (ruleOrder_trans collate collation)
    (ruleOrder_total collate collation) rules
  have kept : (rules.mergeSort (ruleOrder collate)).mergeSort byPriority =
      rules.mergeSort (ruleOrder collate) := by
    apply List.mergeSort_of_pairwise
    apply sorted.imp
    intro a b order
    simp only [ruleOrder, Bool.or_eq_true, Bool.and_eq_true, decide_eq_true_eq] at order
    simp only [byPriority, decide_eq_true_eq]
    omega
  rw [evaluate, evaluateLoop_eq]
  change ((List.find? _ (List.mergeSort _ byPriority)).map _).getD _ = _
  rw [kept, find?_mergeSort (ruleOrder collate) (ruleOrder_total collate collation)
    (ruleOrder_trans collate collation) _ rules distinct]

omit collation in
/-- The first of a priority by id is among the first by priority. -/
theorem least_ruleOrder (rules : List Rule) (r : Rule) :
    r ∈ least (ruleOrder collate) rules ↔
      r ∈ least byPriority rules ∧ ∀ q ∈ least byPriority rules, collate r.id q.id = true := by
  rw [mem_least, mem_least]
  simp only [ruleOrder, byPriority, Bool.or_eq_true, Bool.and_eq_true, decide_eq_true_eq]
  constructor
  · rintro ⟨member, below⟩
    refine ⟨⟨member, fun q inside => ?_⟩, ?_⟩
    · rcases below q inside with less | ⟨same, -⟩ <;> omega
    · intro q inside
      obtain ⟨inside, lowest⟩ := (mem_least byPriority rules q).mp inside
      have order := lowest r member
      simp only [byPriority, decide_eq_true_eq] at order
      rcases below q inside with less | ⟨-, ids⟩
      · omega
      · exact ids
  · rintro ⟨⟨member, lowest⟩, first⟩
    refine ⟨member, fun q inside => ?_⟩
    rcases Int.lt_or_eq_of_le (lowest q inside) with less | same
    · exact Or.inl less
    · refine Or.inr ⟨same, first q ((mem_least byPriority rules q).mpr ⟨inside, fun p there => ?_⟩)⟩
      simp only [byPriority, decide_eq_true_eq]
      rw [← same]
      exact lowest p there

/-- The reloaded rules decide the message alike exactly when the first deciding rule of the least
priority is also the first by id. -/
theorem same_decision_iff (rules : List Rule) (distinct : (rules.map Rule.id).Nodup) :
    ((evaluate rt (rules.mergeSort (ruleOrder collate)) msg localDomains).decision =
        (evaluate rt rules msg localDomains).decision ∧
      (evaluate rt (rules.mergeSort (ruleOrder collate)) msg localDomains).ruleID =
        (evaluate rt rules msg localDomains).ruleID) ↔
          FirstByID rt msg localDomains collate rules := by
  have apart := List.Nodup.of_map _ distinct
  rw [evaluate_reloaded rt msg localDomains collate collation rules apart,
    evaluate_eq rt msg localDomains rules apart, FirstByID]
  have inside : ∀ r ∈ leading rt msg localDomains rules, r ∈ rules := fun r member =>
    (List.mem_filter.mp ((mem_least byPriority _ r).mp member).1).1
  have fewest := least_ruleOrder collate (rules.filter (decides rt msg localDomains))
  cases first : (leading rt msg localDomains rules).head? with
  | none =>
      have empty : leading rt msg localDomains rules = [] := List.head?_eq_none_iff.mp first
      have none_ : least (ruleOrder collate) (rules.filter (decides rt msg localDomains)) = [] := by
        apply List.eq_nil_iff_forall_not_mem.mpr
        intro r member
        have listed := ((fewest r).mp member).1
        change r ∈ leading rt msg localDomains rules at listed
        rw [empty] at listed
        cases listed
      rw [none_]
      exact iff_of_true ⟨rfl, rfl⟩ (fun r equal => by cases equal)
  | some a =>
      have member_a := List.mem_of_head? first
      obtain ⟨b, found⟩ := exists_least (ruleOrder collate) (ruleOrder_total collate collation)
        (ruleOrder_trans collate collation) (rules.filter (decides rt msg localDomains)) a
        ((mem_least byPriority _ a).mp member_a).1
      have member_b := (fewest b).mp (List.mem_of_head? found)
      rw [found]
      constructor
      · rintro ⟨-, same⟩
        have equal : b = a :=
          List.inj_on_of_nodup_map distinct (inside b member_b.1) (inside a member_a) same
        intro r equal' q member
        rw [← Option.some_inj.mp equal', ← equal]
        exact member_b.2 q member
      · intro lowest
        have same : b.id = a.id :=
          collation.antisymm _ _ (member_b.2 a member_a) (lowest a rfl b member_b.1)
        have equal : b = a :=
          List.inj_on_of_nodup_map distinct (inside b member_b.1) (inside a member_a) same
        rw [equal]
        exact ⟨rfl, rfl⟩

/-- A saved document can be loaded, and then decides a message as before exactly when, among the
deciding rules of the least priority, the first of the document is the first by id. -/
theorem reload_decides_iff (yaml : Yaml) (rules : List Rule) (table : List RuleRow)
    (inverts : yaml.Invertible rules) (saved : saveDocument yaml rules = .ok table) :
    ∃ reloaded, loadDocument yaml collate table = .ok reloaded ∧
      ((evaluate rt reloaded msg localDomains).decision =
        (evaluate rt rules msg localDomains).decision ∧
          (evaluate rt reloaded msg localDomains).ruleID =
            (evaluate rt rules msg localDomains).ruleID ↔
        FirstByID rt msg localDomains collate rules) := by
  obtain ⟨rfl, named, distinct⟩ := saveDocument_ok yaml rules table saved
  exact ⟨_, loadDocument_saved yaml collate rules inverts named,
    same_decision_iff rt msg localDomains collate collation rules distinct⟩

end Decisions

section Example

/-- A runtime for plain lower-case addresses. -/
def plainRuntime : Runtime where
  lower := id
  equalFold := fun a b => a = b
  parseAddress := fun _ => none
  readMessage := fun _ => none
  regexMatch := fun _ _ => none

def byScalar (a b : Str) : Bool := a ≤ b

theorem byScalar_collation : Collation byScalar := by
  constructor
  · intro a b
    simpa [byScalar] using le_total a b
  · intro a b c
    simpa [byScalar] using fun first second => le_trans first second
  · intro a b
    simpa [byScalar] using fun first second => le_antisymm first second

/-- The head of the company is let through, by a rule before the one that holds all mail. -/
def bossRule : Rule :=
  { id := "vip".toList, priority := 1, stopProcessing := true
    conditions := { bypassSenders := ["boss@c".toList] }, moderator := { mode := .static } }

def holdRule : Rule := { id := "all".toList, priority := 1, moderator := { mode := .static } }

/-- YAML of these two rules. -/
def twoRuleYaml : Yaml where
  encode := fun rules => (rules.head?.map Rule.id).getD []
  decode := fun body => ([bossRule, holdRule].find? fun r => r.id = body).map fun r => [r]

def bossMail : Message :=
  { sender := "boss@c".toList, recipients := ["x@out".toList], subject := [], body := [] }

theorem twoRuleYaml_invertible (rules : List Rule) (known : rules ⊆ [bossRule, holdRule]) :
    twoRuleYaml.Invertible rules := by
  intro r member
  have listed := known member
  simp only [List.mem_cons, List.not_mem_nil, or_false] at listed
  rcases listed with rfl | rfl <;> rfl

def rowsOf (rules : List Rule) : List RuleRow := rules.map (rowOf twoRuleYaml)

/-- In the order of their ids the two rules mean the same after a restart. -/
theorem reload_keeps_hold :
    ∃ reloaded, loadDocument twoRuleYaml byScalar (rowsOf [holdRule, bossRule]) = .ok reloaded ∧
      (evaluate plainRuntime reloaded bossMail []).ruleID = "all".toList := by
  obtain ⟨reloaded, loaded, same⟩ :=
    reload_decides_iff plainRuntime bossMail [] byScalar byScalar_collation
      twoRuleYaml [holdRule, bossRule] (rowsOf [holdRule, bossRule])
      (twoRuleYaml_invertible _ (by decide)) rfl
  have first : FirstByID plainRuntime bossMail [] byScalar [holdRule, bossRule] := by
    intro r found q member
    cases found
    revert q
    decide
  refine ⟨reloaded, loaded, ?_⟩
  rw [(same.mpr first).2, evaluate_eq _ _ _ _ (by decide)]
  rfl

/-- A mail that passed before a restart is held after it. -/
theorem reload_holds_boss :
    ¬ ∀ (rt : Runtime) (yaml : Yaml) (collate : Str → Str → Bool) (rules reloaded : List Rule)
      (table : List RuleRow) (msg : Message) (localDomains : List Str), Collation collate →
        yaml.Invertible rules → saveDocument yaml rules = .ok table →
        loadDocument yaml collate table = .ok reloaded →
        (evaluate rt reloaded msg localDomains).decision =
          (evaluate rt rules msg localDomains).decision ∧
          (evaluate rt reloaded msg localDomains).ruleID =
            (evaluate rt rules msg localDomains).ruleID := by
  intro same
  have inverts := twoRuleYaml_invertible [bossRule, holdRule] (by decide)
  have alike :=
    (same plainRuntime twoRuleYaml byScalar [bossRule, holdRule] _ (rowsOf [bossRule, holdRule])
      bossMail [] byScalar_collation inverts rfl
      (loadDocument_saved twoRuleYaml byScalar [bossRule, holdRule] inverts (by decide))).1
  rw [evaluate_reloaded _ _ _ _ byScalar_collation _ (by decide),
    evaluate_eq _ _ _ _ (by decide)] at alike
  exact absurd alike (by decide)

end Example

end EraOne.Mail
