import EraOne.KeyedList
import EraOne.Search

set_option autoImplicit false

/- The rules of the web application firewall (`rules/engine.go`). Regular expressions, and the lower
case of a text, are those of the standard library. -/
namespace EraOne.Waf

open KeyedList

structure RuleDef where
  id : Str
  category : Str
  severity : Str
  pattern : Str := []
  xxeHint : Bool := false
  deriving DecidableEq

/-- A rule that fired. -/
structure Match where
  ruleID : Str
  category : Str
  severity : Str
  deriving DecidableEq

section Engine

variable {R : Type} (compile : Str → Except Str R) (matchString : R → Str → Bool)
  (toLower : Str → Str)

/-- The expression is the one of the pattern. -/
def Made (d : RuleDef) (re : Option R) : Prop :=
  if d.pattern = [] then re = none else ∃ r, re = some r ∧ compile d.pattern = .ok r

/-- A rule with its expression. -/
structure Compiled where
  rule : RuleDef
  re : Option R
  made : Made compile rule re

variable {compile} in
def Compiled.id (c : Compiled compile) : Str := c.rule.id

theorem made_none (d : RuleDef) (empty : d.pattern = []) : Made compile d none := by
  unfold Made
  rw [if_pos empty]

theorem made_some (d : RuleDef) (r : R) (some_ : d.pattern ≠ [])
    (made : compile d.pattern = .ok r) :
    Made compile d (some r) := by
  unfold Made
  rw [if_neg some_]
  exact ⟨r, rfl, made⟩

def compileRule (d : RuleDef) : Except Str (Compiled compile) :=
  if empty : d.pattern = [] then .ok ⟨d, none, made_none compile d empty⟩
  else
    match made : compile d.pattern with
    | .ok r => .ok ⟨d, some r, made_some compile d r empty made⟩
    | .error err => .error ("rule ".toList ++ d.id ++ ": ".toList ++ err)

def loadDefs (defs : List RuleDef) : Except Str (List (Compiled compile)) :=
  defs.mapM (compileRule compile)

def addRule (rules : List (Compiled compile)) (d : RuleDef) :
    Except Str (List (Compiled compile)) :=
  if d.id = [] then .error "rule id required".toList
  else
    match compileRule compile d with
    | .error err => .error err
    | .ok c => .ok (upsert Compiled.id c rules)

def updateRule (rules : List (Compiled compile)) (id : Str) (d : RuleDef) :
    Except Str (List (Compiled compile)) :=
  if id = [] then .error "rule id required".toList
  else
    match compileRule compile { d with id := id } with
    | .error err => .error err
    | .ok c => (replace Compiled.id id c rules).elim (.error "not found".toList) .ok

def deleteRule (rules : List (Compiled compile)) (id : Str) : Option (List (Compiled compile)) :=
  remove Compiled.id id rules

variable {compile} in
def Compiled.hits (c : Compiled compile) (target : Str) : Bool :=
  c.re.any (matchString · target) ||
    (c.rule.xxeHint && Scan.contains "ENTITY".toList target &&
      Scan.contains "xml".toList (toLower target))

def matchOf (d : RuleDef) : Match := ⟨d.id, d.category, d.severity⟩

def evaluateTarget (rules : List (Compiled compile)) (target : Str) : Option Match :=
  (rules.find? fun c => c.hits matchString toLower target).map fun c => matchOf c.rule

/-! ### Calls -/

/-- A change of the rules; one that fails changes nothing. -/
inductive Call where
  | load (defs : List RuleDef)
  | add (d : RuleDef)
  | update (id : Str) (d : RuleDef)
  | delete (id : Str)

def Call.apply (rules : List (Compiled compile)) : Call → List (Compiled compile)
  | .load defs => (loadDefs compile defs).toOption.getD rules
  | .add d => (addRule compile rules d).toOption.getD rules
  | .update id d => (updateRule compile rules id d).toOption.getD rules
  | .delete id => (deleteRule compile rules id).getD rules

/-- The pattern is an expression. -/
def compiles (d : RuleDef) : Bool := d.pattern = [] || (compile d.pattern).isOk

/-- What a change makes of the rules by their ids. -/
def Call.applyTable (table : Str → Option RuleDef) : Call → Str → Option RuleDef
  | .load defs =>
      if defs.all (compiles compile) then fun id => defs.find? fun d => d.id = id else table
  | .add d => if d.id ≠ [] ∧ compiles compile d then Function.update table d.id (some d) else table
  | .update id d =>
      if id ≠ [] ∧ compiles compile d ∧ (table id).isSome then
        Function.update table id (some { d with id := id })
      else table
  | .delete id => Function.update table id none

def Fires (d : RuleDef) (target : Str) : Prop :=
  (d.pattern ≠ [] ∧ ∃ r, compile d.pattern = .ok r ∧ matchString r target = true) ∨
    (d.xxeHint = true ∧ Scan.contains "ENTITY".toList target = true ∧
      Scan.contains "xml".toList (toLower target) = true)

variable {compile} in
theorem hits_iff (c : Compiled compile) (target : Str) :
    c.hits matchString toLower target = true ↔ Fires compile matchString toLower c.rule target := by
  have made := c.made
  unfold Made at made
  unfold Compiled.hits Fires
  rw [Bool.or_eq_true, Bool.and_eq_true, Bool.and_eq_true, and_assoc]
  apply or_congr_left
  split at made
  · rename_i empty
    simp [made, empty]
  · rename_i some_
    obtain ⟨r, re, ok⟩ := made
    simp [re, ok, some_]

theorem compileRule_spec (d : RuleDef) :
    (compiles compile d = true ∧ ∃ c, compileRule compile d = .ok c ∧ c.rule = d) ∨
      (compiles compile d = false ∧ ∃ err, compileRule compile d = .error err) := by
  unfold compiles compileRule
  by_cases empty : d.pattern = []
  · left
    rw [dif_pos empty]
    exact ⟨by simp [empty], _, rfl, rfl⟩
  · rw [dif_neg empty]
    split
    · rename_i r made
      left
      exact ⟨by simp [made, Except.isOk, Except.toBool], _, rfl, rfl⟩
    · rename_i err made
      right
      exact ⟨by simp [made, empty, Except.isOk, Except.toBool], _, rfl⟩

/-- The rules are what the table says. -/
def Holds (rules : List (Compiled compile)) (table : Str → Option RuleDef) : Prop :=
  Distinct Compiled.id (fun _ => True) rules ∧
    ∀ id, (lookup Compiled.id id rules).map Compiled.rule = table id

/-- No two of the rules have one id. -/
def Call.Loads : Call → Prop
  | .load defs => (defs.map RuleDef.id).Nodup
  | _ => True

theorem loadDefs_spec (defs : List RuleDef) :
    (defs.all (compiles compile) = true ∧ ∃ rules, loadDefs compile defs = .ok rules ∧
      rules.map Compiled.rule = defs) ∨
      (defs.all (compiles compile) = false ∧ ∃ err, loadDefs compile defs = .error err) := by
  unfold loadDefs
  induction defs with
  | nil => exact Or.inl ⟨rfl, [], rfl, rfl⟩
  | cons d defs ih =>
      rw [List.all_cons, List.mapM_cons]
      rcases compileRule_spec compile d with ⟨yes, c, ok, own⟩ | ⟨no, err, failed⟩
      · rw [yes, ok, Bool.true_and]
        rcases ih with ⟨all, rules, oks, whole⟩ | ⟨some_, err, failed⟩
        · left
          refine ⟨all, c :: rules, ?_, by rw [List.map_cons, own, whole]⟩
          rw [oks]
          rfl
        · right
          refine ⟨some_, err, ?_⟩
          rw [failed]
          rfl
      · right
        refine ⟨by rw [no, Bool.false_and], err, ?_⟩
        rw [failed]
        rfl

variable {compile} in
theorem lookup_map (rules : List (Compiled compile)) (id : Str) :
    (lookup Compiled.id id rules).map Compiled.rule = (rules.map Compiled.rule).find? fun d =>
    d.id = id := by
  unfold lookup
  rw [List.find?_map]
  rfl

variable {compile} in
theorem distinct_map (rules : List (Compiled compile)) :
    Distinct Compiled.id (fun _ => True) rules ↔
      ((rules.map Compiled.rule).map RuleDef.id).Nodup := by
  unfold Distinct
  rw [List.map_map, List.nodup_iff_pairwise_ne, List.pairwise_map]
  simp
  rfl

theorem holds_upsert (rules : List (Compiled compile)) (table : Str → Option RuleDef)
    (c : Compiled compile) (holds : Holds compile rules table) :
    Holds compile (upsert Compiled.id c rules) (Function.update table c.rule.id (some c.rule)) := by
  refine ⟨distinct_upsert _ c rules holds.1, ?_⟩
  intro id
  have own : c.id = c.rule.id := rfl
  rw [lookup_upsert, Function.update_apply, ← holds.2 id, own]
  by_cases here : id = c.rule.id
  · rw [if_pos here, if_pos here]
    rfl
  · rw [if_neg here, if_neg here]

theorem holds_remove (rules rules' : List (Compiled compile)) (table : Str → Option RuleDef)
    (id : Str) (removed : remove Compiled.id id rules = some rules')
    (holds : Holds compile rules table) :
    Holds compile rules' (Function.update table id none) := by
  refine ⟨distinct_remove _ id rules rules' removed holds.1, ?_⟩
  intro other
  rw [Function.update_apply, ← holds.2 other]
  by_cases here : other = id
  · rw [if_pos here, here, lookup_remove_self _ id rules rules' trivial holds.1 removed]
    rfl
  · rw [if_neg here, lookup_remove_of_ne id other rules rules' here removed]

theorem table_eq_none (rules : List (Compiled compile)) (table : Str → Option RuleDef) (id : Str)
    (absent : ∀ c ∈ rules, Compiled.id c ≠ id) (holds : Holds compile rules table) :
    table id = none := by
  rw [← holds.2 id, lookup_eq_none id rules absent]
  rfl

/-- One change. -/
theorem holds_apply (rules : List (Compiled compile)) (table : Str → Option RuleDef) (call : Call)
    (loads : call.Loads) (holds : Holds compile rules table) :
    Holds compile (call.apply compile rules) (call.applyTable compile table) := by
  cases call with
  | load defs =>
      rw [Call.apply, Call.applyTable]
      rcases loadDefs_spec compile defs with ⟨all, rules', ok, whole⟩ | ⟨some_, err, failed⟩
      · rw [ok, if_pos all]
        refine ⟨(distinct_map rules').mpr ?_, ?_⟩
        · rw [whole]
          exact loads
        · intro id
          rw [← whole]
          exact lookup_map rules' id
      · rw [failed, if_neg (by simp [some_])]
        exact holds
  | add d =>
      rw [Call.apply, Call.applyTable, addRule]
      by_cases empty : d.id = []
      · rw [if_pos empty, if_neg (by simp [empty])]
        exact holds
      · rw [if_neg empty]
        rcases compileRule_spec compile d with ⟨yes, c, ok, own⟩ | ⟨no, err, failed⟩
        · rw [ok, if_pos ⟨empty, yes⟩, ← own]
          exact holds_upsert compile rules table c holds
        · rw [failed, if_neg (by simp [no])]
          exact holds
  | update id d =>
      rw [Call.apply, Call.applyTable, updateRule]
      by_cases empty : id = []
      · rw [if_pos empty, if_neg (by simp [empty])]
        exact holds
      · rw [if_neg empty]
        have same : compiles compile { d with id := id } = compiles compile d := rfl
        rcases compileRule_spec compile
            { d with id := id } with ⟨yes, c, ok, own⟩ | ⟨no, err, failed⟩
        · have named : Compiled.id c = id := congrArg RuleDef.id own
          rw [ok]
          dsimp only
          cases replaced : replace Compiled.id id c rules with
          | none =>
              have absent := table_eq_none compile rules table id
                ((replace_eq_none_iff id c rules).mp replaced) holds
              rw [if_neg (by simp [absent])]
              exact holds
          | some rules' =>
              have present : (table id).isSome := by
                rw [← holds.2 id, Option.isSome_map, lookup_isSome_iff]
                by_contra absent
                push Not at absent
                rw [(replace_eq_none_iff id c rules).mpr absent] at replaced
                cases replaced
              have whole : upsert Compiled.id c rules = rules' := by
                unfold upsert
                rw [named, replaced]
                rfl
              have next := holds_upsert compile rules table c holds
              rw [whole, own] at next
              rw [if_pos ⟨empty, same ▸ yes, present⟩]
              exact next
        · rw [failed, if_neg (by rw [← same, no]; simp)]
          exact holds
  | delete id =>
      rw [Call.apply, Call.applyTable, deleteRule]
      cases removed : remove Compiled.id id rules with
      | none =>
          have absent :=
            table_eq_none compile rules table id ((remove_eq_none_iff id rules).mp removed) holds
          have same : Function.update table id none = table := by
            rw [← absent]
            exact Function.update_eq_self id table
          rw [same]
          exact holds
      | some rules' => exact holds_remove compile rules rules' table id removed holds

theorem holds_run (calls : List Call) (rules : List (Compiled compile))
    (table : Str → Option RuleDef) (loads : ∀ call ∈ calls, call.Loads)
    (holds : Holds compile rules table) :
    Holds compile (calls.foldl (Call.apply compile) rules)
      (calls.foldl (Call.applyTable compile) table) := by
  induction calls generalizing rules table with
  | nil => exact holds
  | cons call rest ih =>
      rw [List.forall_mem_cons] at loads
      exact ih _ _ loads.2 (holds_apply compile rules table call loads.1 holds)

theorem evaluateTarget_spec (rules : List (Compiled compile)) (table : Str → Option RuleDef)
    (target : Str) (holds : Holds compile rules table) :
    (∀ m, evaluateTarget compile matchString toLower rules target = some m →
        ∃ d, table m.ruleID = some d ∧ Fires compile matchString toLower d target ∧ m = matchOf d) ∧
      (evaluateTarget compile matchString toLower rules target = none ↔
        ∀ id d, table id = some d → ¬ Fires compile matchString toLower d target) := by
  have listed (id : Str) (d : RuleDef) :
      table id = some d ↔ ∃ c ∈ rules, c.rule = d ∧ d.id = id := by
    rw [← holds.2 id, Option.map_eq_some_iff]
    constructor
    · rintro ⟨c, found, own⟩
      have named := List.find?_some found
      exact ⟨c, List.mem_of_find?_eq_some found, own, by rw [← own]; exact of_decide_eq_true named⟩
    · rintro ⟨c, member, own, named⟩
      rw [← own] at named
      refine ⟨c, ?_, own⟩
      rw [← named]
      exact (lookup_eq_some_iff (fun _ => True) c rules trivial holds.1).mpr member
  unfold evaluateTarget
  constructor
  · intro m found
    obtain ⟨c, first, own⟩ := Option.map_eq_some_iff.mp found
    have hits := List.find?_some first
    have fires := (hits_iff matchString toLower c target).mp hits
    refine ⟨c.rule, (listed _ _).mpr ⟨c, List.mem_of_find?_eq_some first, rfl, ?_⟩, fires, own.symm⟩
    rw [← own]
    rfl
  · rw [Option.map_eq_none_iff, List.find?_eq_none]
    simp only [hits_iff]
    constructor
    · intro quiet id d inside
      obtain ⟨c, member, own, -⟩ := (listed id d).mp inside
      rw [← own]
      exact quiet c member
    · intro quiet c member
      exact quiet c.rule.id c.rule ((listed _ _).mpr ⟨c, member, rfl, rfl⟩)

/-- Whatever is done to the rules, in whatever order: a request is blocked exactly if a rule fires
that was the last to be written under its id and is an expression, and it is such a rule that is
reported. -/
theorem blocked_iff (calls : List Call) (rules : List (Compiled compile)) (target : Str)
    (loads : ∀ call ∈ calls, call.Loads)
    (start : ((rules.map Compiled.rule).map RuleDef.id).Nodup) :
    (∀ m, evaluateTarget compile matchString toLower
      (calls.foldl (Call.apply compile) rules) target = some m →
        ∃ d, calls.foldl (Call.applyTable compile)
          (fun id => (rules.map Compiled.rule).find? fun d => d.id = id)
            m.ruleID = some d ∧ Fires compile matchString toLower d target ∧ m = matchOf d) ∧
      (evaluateTarget compile matchString toLower
        (calls.foldl (Call.apply compile) rules) target = none ↔
        ∀ id d, calls.foldl (Call.applyTable compile)
          (fun id => (rules.map Compiled.rule).find? fun d => d.id = id)
            id = some d → ¬ Fires compile matchString toLower d target) := by
  apply evaluateTarget_spec
  apply holds_run compile calls rules _ loads
  exact ⟨(distinct_map rules).mpr start, lookup_map rules⟩

end Engine

/-- A rule that is put in the place of another fires for its own pattern. -/
theorem replaced_fires :
    evaluateTarget Except.ok (fun r target => r = target) id
      ([.add { id := ['a'], category := [], severity := [], pattern := ['x'] },
        .update ['a'] { id := [], category := [], severity := [], pattern := ['y'] }].foldl
          (Call.apply Except.ok) []) ['y'] ≠ none := by
  intro quiet
  have none_ :=
    (blocked_iff Except.ok (fun r target => r = target) id _ [] ['y'] (by simp [Call.Loads])
      List.nodup_nil).2.mp quiet
  apply none_ ['a'] { id := ['a'], category := [], severity := [], pattern := ['y'] } rfl
  left
  exact ⟨by simp, ['y'], rfl, rfl⟩

end EraOne.Waf
