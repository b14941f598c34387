import EraOne.Maps
import EraOne.Search

set_option autoImplicit false

/- Suppression of repeated alerts (`risk/score.go`). A call of `ShouldEmit` holds the lock from its
first line to its return, so whatever the topics' readers do, their calls come one after another. -/
namespace EraOne.Detection

structure Scorer where
  window : Int
  dedup : StrMap Int := ∅

def alertKey (ruleID nodeID : Str) : Str := ruleID ++ '|' :: nodeID

/-- The entries of other rules and nodes are pruned along with those of the key. -/
def Scorer.shouldEmit (s : Scorer) (ruleID nodeID : Str) (observed : Int) : Bool × Scorer :=
  let key := alertKey ruleID nodeID
  let cutoff := observed - s.window
  let kept := s.dedup.filter fun _ ts => cutoff ≤ ts
  if kept[key]?.any fun last => cutoff < last then (false, { s with dedup := kept })
  else (true, { s with dedup := kept.insert key observed })

/-! ### Deduplication -/

/-- A call of `ShouldEmit`. -/
structure Call where
  ruleID : Str
  nodeID : Str
  observed : Int

def Call.key (c : Call) : Str := alertKey c.ruleID c.nodeID

def Scorer.call (s : Scorer) (c : Call) : Bool × Scorer := s.shouldEmit c.ruleID c.nodeID c.observed

/-- The answers to a run of calls, and the scorer after it. -/
def Scorer.run (s : Scorer) : List Call → List (Call × Bool) × Scorer
  | [] => ([], s)
  | c :: rest =>
      let answered := s.call c
      let later := answered.2.run rest
      ((c, answered.1) :: later.1, later.2)

/-- The call is the last one of its key that was answered with true, and no later one has pruned
it. -/
def Standing (window : Int) (answers : List (Call × Bool)) (key : Str) (at_ : Int) : Prop :=
  ∃ front c back, answers = front ++ (c, true) :: back ∧ c.key = key ∧ c.observed = at_ ∧
    ∀ later ∈ back, (later.2 = true → later.1.key ≠ key) ∧ later.1.observed - window ≤ at_

theorem standing_nil (window : Int) (key : Str) (at_ : Int) : ¬ Standing window [] key at_ := by
  rintro ⟨front, c, back, whole, _⟩
  simp at whole

/-- What one more answer changes. -/
theorem standing_append (window : Int) (answers : List (Call × Bool)) (c : Call) (answer : Bool)
    (key : Str) (at_ : Int) :
    Standing window (answers ++ [(c, answer)]) key at_ ↔
      (answer = true ∧ c.key = key ∧ c.observed = at_) ∨
        (¬ (answer = true ∧ c.key = key) ∧ c.observed - window ≤ at_ ∧
          Standing window answers key at_) := by
  constructor
  · rintro ⟨front, first, back, whole, same, time, none_⟩
    rcases List.eq_nil_or_concat back with rfl | ⟨older, last, rfl⟩
    · have end_ := List.append_inj' whole rfl
      cases end_.2
      exact Or.inl ⟨rfl, same, time⟩
    · rw [List.concat_eq_append, ← List.cons_append, ← List.append_assoc] at whole
      obtain ⟨before, end_⟩ := List.append_inj' whole rfl
      cases end_
      have here := none_ (c, answer) (by simp)
      refine Or.inr ⟨fun both => here.1 both.1 both.2, here.2, front, first, older, before, same,
        time, ?_⟩
      intro later member
      exact none_ later (by simp [member])
  · intro either
    rcases either with ⟨yes, same, time⟩ | ⟨other, fresh, front, first, back, whole, same, time,
        none_⟩
    · rw [yes]
      exact ⟨answers, c, [], rfl, same, time, by simp⟩
    · refine ⟨front, first, back ++ [(c, answer)], ?_, same, time, ?_⟩
      · rw [whole, List.append_assoc, List.cons_append]
      · intro later member
        rcases List.mem_append.mp member with before | last
        · exact none_ later before
        · rw [List.mem_singleton.mp last]
          exact ⟨fun yes key => other ⟨yes, key⟩, fresh⟩

/-- The map has the standing answers. -/
def Remembers (s : Scorer) (answers : List (Call × Bool)) : Prop :=
  ∀ key at_, s.dedup[key]? = some at_ ↔ Standing s.window answers key at_

/-- A call is suppressed exactly if an answer for its key stands and is younger than the window. -/
theorem call_spec (s : Scorer) (answers : List (Call × Bool)) (c : Call)
    (remembers : Remembers s answers) :
    ((s.call c).1 = false ↔ ∃ at_, Standing s.window answers c.key at_ ∧
      c.observed - s.window < at_) ∧
      Remembers (s.call c).2 (answers ++ [(c, (s.call c).1)]) ∧ (s.call c).2.window = s.window := by
  have kept (key : Str) (at_ : Int) :
      (s.dedup.filter fun _ ts => decide (c.observed - s.window ≤ ts))[key]? = some at_ ↔
        c.observed - s.window ≤ at_ ∧ Standing s.window answers key at_ := by
    rw [Std.ExtTreeMap.getElem?_filter', Option.filter_eq_some_iff, remembers, decide_eq_true_iff]
    exact and_comm
  have shape : s.call c =
      if (s.dedup.filter fun _ ts => decide (c.observed - s.window ≤ ts))[c.key]?.any
          fun last => decide (c.observed - s.window < last) then
        (false, { s with dedup := s.dedup.filter fun _ ts => decide (c.observed - s.window ≤ ts) })
      else
        (true, { s with
          dedup := (s.dedup.filter fun _ ts => decide (c.observed - s.window ≤ ts)).insert c.key
            c.observed }) := rfl
  rw [shape]
  generalize s.dedup.filter (fun _ ts => decide (c.observed - s.window ≤ ts)) = pruned at kept
  have fresh_iff : pruned[c.key]?.any (fun last => decide (c.observed - s.window < last)) = true ↔
      ∃ at_, Standing s.window answers c.key at_ ∧ c.observed - s.window < at_ := by
    rw [Option.any_eq_true]
    constructor
    · rintro ⟨last, found, young⟩
      exact ⟨last, ((kept c.key last).mp found).2, of_decide_eq_true young⟩
    · rintro ⟨last, standing, young⟩
      exact ⟨last, (kept c.key last).mpr ⟨by omega, standing⟩, decide_eq_true young⟩
  by_cases fresh : pruned[c.key]?.any (fun last => decide (c.observed - s.window < last)) = true
  · rw [if_pos fresh]
    refine ⟨iff_of_true rfl (fresh_iff.mp fresh), ?_, rfl⟩
    intro key at_
    rw [standing_append]
    simpa using kept key at_
  · rw [if_neg fresh]
    refine ⟨iff_of_false (by simp) fun standing => fresh (fresh_iff.mpr standing), ?_, rfl⟩
    intro key at_
    rw [standing_append, Maps.getElem?_insert_eq]
    by_cases mine : key = c.key
    · simp [mine]
    · have other : c.key ≠ key := fun same => mine same.symm
      rw [if_neg mine, kept]
      simp [other]

theorem run_spec (s : Scorer) (answers : List (Call × Bool)) (calls : List Call)
    (remembers : Remembers s answers) :
    Remembers (s.run calls).2 (answers ++ (s.run calls).1) ∧ (s.run calls).2.window = s.window := by
  induction calls generalizing s answers with
  | nil =>
      rw [Scorer.run, List.append_nil]
      exact ⟨remembers, rfl⟩
  | cons c rest ih =>
      obtain ⟨-, next, window⟩ := call_spec s answers c remembers
      obtain ⟨all, last⟩ := ih _ _ next
      rw [Scorer.run]
      dsimp only
      rw [List.append_cons]
      exact ⟨all, last.trans window⟩

theorem remembers_start (window : Int) : Remembers { window := window } [] := by
  intro key at_
  apply iff_of_false
  · simp
  · exact standing_nil window key at_

theorem map_fst_run (s : Scorer) (calls : List Call) : (s.run calls).1.map Prod.fst = calls := by
  induction calls generalizing s with
  | nil => rfl
  | cons c rest ih =>
      rw [Scorer.run, List.map_cons, ih]

/-- After every run of calls, whatever their rules, nodes and times: a call is suppressed exactly if
the last alert of its key is younger than the window, and no call since, of any key, was so much
later as to prune it. -/
theorem shouldEmit_iff (window : Int) (calls : List Call) (c : Call) :
    (((Scorer.run { window := window } calls).2).call c).1 = false ↔
      ∃ at_, Standing window (Scorer.run { window := window } calls).1 c.key at_ ∧
        c.observed - window < at_ := by
  obtain ⟨remembers, same⟩ := run_spec { window := window } [] calls (remembers_start window)
  have last := (call_spec _ _ c remembers).1
  rw [same] at last
  exact last

theorem alertKey_inj (ruleA ruleB nodeA nodeB : Str) (plainA : '|' ∉ ruleA) (plainB : '|' ∉ ruleB)
    (same : alertKey ruleA nodeA = alertKey ruleB nodeB) : ruleA = ruleB ∧ nodeA = nodeB := by
  have rules : ruleA = ruleB :=
    Scan.eq_of_append_delimiter ruleA ruleB nodeA nodeB '|' plainA plainB same
  unfold alertKey at same
  rw [rules] at same
  exact ⟨rules, (List.cons.inj (List.append_cancel_left same)).2⟩

/-- Of the entries that have a property, one is the last. -/
theorem exists_last {α : Type} (p : α → Prop) (xs : List α) (x : α) (member : x ∈ xs) (good : p x) :
    ∃ front last back, xs = front ++ last :: back ∧ p last ∧ (∀ y ∈ back, ¬ p y) ∧
      (x = last ∨ x ∈ front) := by
  induction xs using List.reverseRecOn with
  | nil => cases member
  | append_singleton xs y ih =>
      by_cases here : p y
      · refine ⟨xs, y, [], rfl, here, by simp, ?_⟩
        rcases List.mem_append.mp member with before | last
        · exact Or.inr before
        · exact Or.inl (List.mem_singleton.mp last)
      · rcases List.mem_append.mp member with before | last
        · obtain ⟨front, found, back, whole, holds, none_, place⟩ := ih before
          refine ⟨front, found, back ++ [y], by rw [whole]; simp, holds, ?_, place⟩
          intro z inside
          rcases List.mem_append.mp inside with old | new
          · exact none_ z old
          · rw [List.mem_singleton.mp new]
            exact here
        · rw [← List.mem_singleton.mp last] at here
          exact absurd good here

/-- In the order of the observed times, and for rules without a bar in their ids, suppression is a
sliding window: a call is suppressed exactly if the same rule emitted for the same node less than
the window before. -/
theorem sliding_window (window : Int) (calls : List Call) (c : Call)
    (inOrder : (calls ++ [c]).Pairwise fun a b => a.observed ≤ b.observed)
    (plain : ∀ call ∈ calls ++ [c], '|' ∉ call.ruleID) :
    (((Scorer.run { window := window } calls).2).call c).1 = false ↔
      ∃ e ∈ (Scorer.run { window := window } calls).1, e.2 = true ∧ e.1.ruleID = c.ruleID ∧
        e.1.nodeID = c.nodeID ∧ c.observed - window < e.1.observed := by
  have made := map_fst_run { window := window } calls
  rw [shouldEmit_iff]
  generalize (Scorer.run { window := window } calls).1 = answers at made
  rw [← made, List.pairwise_append] at inOrder
  have before (e : Call × Bool) (member : e ∈ answers) : e.1.observed ≤ c.observed :=
    inOrder.2.2 e.1 (List.mem_map_of_mem member) c (List.mem_singleton_self c)
  have fine (e : Call × Bool) (member : e ∈ answers) : '|' ∉ e.1.ruleID := by
    apply plain e.1
    rw [← made]
    exact List.mem_append_left _ (List.mem_map_of_mem member)
  have mine : '|' ∉ c.ruleID := plain c (List.mem_append_right _ (List.mem_singleton_self c))
  constructor
  · rintro ⟨at_, ⟨front, first, back, whole, same, time, _⟩, young⟩
    have member : (first, true) ∈ answers := by
      rw [whole]
      simp
    obtain ⟨rule, node⟩ := alertKey_inj _ _ _ _ (fine _ member) mine same
    exact ⟨(first, true), member, rfl, rule, node, by rw [time]; exact young⟩
  · rintro ⟨e, member, yes, rule, node, young⟩
    obtain ⟨front, last, back, whole, ⟨answered, same⟩, none_, place⟩ :=
      exists_last (fun x : Call × Bool => x.2 = true ∧ x.1.key = c.key) answers e member
        ⟨yes, by unfold Call.key; rw [rule, node]⟩
    have later : e.1.observed ≤ last.1.observed := by
      rcases place with here | there
      · rw [here]
      · have pairs := inOrder.1
        rw [whole, List.map_append, List.map_cons, List.pairwise_append] at pairs
        exact pairs.2.2 e.1 (List.mem_map_of_mem there) last.1 List.mem_cons_self
    refine ⟨last.1.observed, ⟨front, last.1, back, ?_, same, rfl, ?_⟩, by omega⟩
    · rw [whole, ← answered]
    · intro y inside
      have early := before y (by rw [whole]; simp [inside])
      exact ⟨fun yesY key => none_ y inside ⟨yesY, key⟩, by omega⟩

theorem repeated_suppressed :
    (((Scorer.run { window := 15 } [⟨['r'], ['n'], 0⟩]).2).call ⟨['r'], ['n'], 10⟩).1 = false := by
  apply (sliding_window 15 [⟨['r'], ['n'], 0⟩] ⟨['r'], ['n'], 10⟩ (by simp) (by decide)).mpr
  refine ⟨(⟨['r'], ['n'], 0⟩, true), ?_, rfl, rfl, rfl, by decide⟩
  simp [Scorer.run, Scorer.call, Scorer.shouldEmit]

end EraOne.Detection
