import EraOne.MailAction

set_option autoImplicit false

/- The line of holds that the approvals of one message run through. It comes to a delivery exactly
if the rules lead from one `escalate_to` to the next and at last to a rule without one. -/
namespace EraOne.Mail

open Runs

section Model

/-- From the rule with this id the approvals lead through so many more rules and then end. -/
inductive ChainLength (rules : List Rule) : Str → Nat → Prop
  | stop (id : Str) (last : escalates rules id = false) : ChainLength rules id 0
  | next (id : Str) (rule target : Rule) (n : Nat) (named : ruleByID rules id = some rule)
      (more : escalates rules id = true) (there : ruleByID rules rule.escalateTo = some target)
      (rest : ChainLength rules target.id n) : ChainLength rules id (n + 1)

def ChainEnds (rules : List Rule) (id : Str) : Prop := ∃ n, ChainLength rules id n

/-- The engine, the last hold of the line, and how many holds of it were approved. -/
structure LineWalk where
  engine : Engine
  holdID : Str
  approvals : Nat := 0

variable (site : Site)

/-- A moderator approves the last hold of the line. -/
def walkStep (s : LineWalk) (visit : Call × Str) : LineWalk :=
  let after := (applyApprove site visit.1 s.holdID visit.2 s.engine).2
  { engine := after
    holdID := if after.holds[visit.1.id]?.isSome then visit.1.id else s.holdID
    approvals :=
      if after.holds[s.holdID]?.any fun r => r.status = .approved then s.approvals + 1
        else s.approvals }

/-- The hold waits for this moderator, the moderators of every rule can be found, and the upstream
takes what it is sent. -/
structure MayVisit (sender : Str) (s : LineWalk) (visit : Call × Str) : Prop where
  fresh : s.engine.holds[visit.1.id]? = none
  waits : ∃ r, OpenTo site.rt s.engine.holds s.holdID visit.2 r
  resolves : ∀ rule ∈ s.engine.rules, ∃ mods,
    resolveModerators site.rt visit.1.dir (engineAddr site.rt sender) rule.moderator = .ok mods
  delivers : visit.1.deliver = .ok ()

def HoldRecord.mail (r : HoldRecord) : Delivery := ⟨r.sender, r.recipients, r.raw⟩

/-- The mail is delivered, or less than `n` holds were approved and another one waits. -/
def DeliveredBy (n : Nat) (before : List Delivery) (mail : Delivery) (s : LineWalk) : Prop :=
  s.engine.delivered = before ++ [mail] ∨
    s.approvals < n ∧ ∃ r, s.engine.holds[s.holdID]? = some r ∧ r.status = .pending

/-- There is a number of approvals after which the mail is delivered, and until then a hold
waits. -/
def EscalationEnds (e : Engine) (holdID : Str) (r : HoldRecord) : Prop :=
  ∃ n, ∀ visits, Guarded (walkStep site) (MayVisit site r.sender) ⟨e, holdID, 0⟩ visits →
    DeliveredBy n e.delivered r.mail (visits.foldl (walkStep site) ⟨e, holdID, 0⟩)

end Model

section Steps

variable (site : Site) (s : LineWalk) (call : Call) (who : Str) (q : HoldRecord)

/-- Approval keeps the mail of the hold, and its rule. -/
theorem approvedRecord_mail (rt : Runtime) (now : Time) :
    (approvedRecord rt now who q).mail = q.mail ∧
    (approvedRecord rt now who q).ruleID = q.ruleID := by
  rw [approvedRecord_eq]
  exact ⟨rfl, rfl⟩

/-- The walk after an approval that leaves no new hold. -/
theorem walkStep_stays (next : HoldRecord) (after : Engine)
    (gives : (applyApprove site call s.holdID who s.engine).2 = after)
    (stored : after.holds = s.engine.holds.insert s.holdID next) (apart : s.holdID ≠ call.id)
    (fresh : s.engine.holds[call.id]? = none) :
    walkStep site s (call, who) =
      ⟨after, s.holdID, if next.status = .approved then s.approvals + 1 else s.approvals⟩ := by
  have here : after.holds[s.holdID]? = some next := by
    rw [stored, getElem?_insert_hold, if_pos rfl]
  have unseen : after.holds[call.id]? = none := by
    rw [stored, getElem?_insert_hold, if_neg apart, fresh]
  rw [walkStep]
  dsimp only
  rw [gives, here, unseen]
  simp only [Option.isSome_none, Bool.false_eq_true, if_false, Option.any_some, decide_eq_true_eq]

/-- The new hold of an escalation, or none where the rule to escalate to is missing. -/
theorem escalate_eq (e : Engine) (holdID : Str) (r : HoldRecord) (rule : Rule)
    (found : e.holds[holdID]? = some r) (named : ruleByID e.rules r.ruleID = some rule)
    (goes : escalates e.rules r.ruleID = true) :
    (ruleByID e.rules rule.escalateTo = none → (e.escalate site call holdID).2 = e) ∧
    ∀ target mods, ruleByID e.rules rule.escalateTo = some target →
      resolveModerators site.rt call.dir (engineAddr site.rt r.sender) target.moderator = .ok mods →
      ∃ new : HoldRecord, new.ruleID = target.id ∧ new.status = .pending ∧ new.mail = r.mail ∧
        (e.escalate site call holdID).2 = { e with holds := e.holds.insert call.id new } := by
  have more : ¬ Scan.trim rule.escalateTo = [] := by
    rw [escalates, named] at goes
    simpa using goes
  rw [Engine.escalate, found]
  dsimp only
  rw [named]
  dsimp only
  rw [if_neg more]
  constructor
  · intro missing
    rw [missing]
  · intro target mods there resolved
    rw [there]
    dsimp only
    rw [resolved]
    exact ⟨(e.holds.put call.id call.now
      (heldRecord call target r.sender r.recipients r.subject r.raw mods
      (nextLevel target r))).1, rfl, rfl, rfl, rfl⟩

variable (open_ : OpenTo site.rt s.engine.holds s.holdID who q)
  (fresh : s.engine.holds[call.id]? = none)

include open_ fresh

theorem holdID_ne : s.holdID ≠ call.id := by
  intro same
  rw [← same, open_.1] at fresh
  cases fresh

omit fresh in
theorem applyApprove_done (enough : ¬ PartialApproval site.rt q who) :
    (applyApprove site call s.holdID who s.engine).2 =
      (({ s.engine with
          holds := s.engine.holds.insert s.holdID (approvedRecord site.rt call.now who q) } :
        Engine).release site call s.holdID (approvedRecord site.rt call.now who q)).2 := by
  have done := (approvedRecord_approved_iff site.rt call.now who q open_.2.1).mpr enough
  rw [applyApprove, approve_openTo site.rt s.engine.holds call.now s.holdID who q open_]
  dsimp only
  rw [if_neg (not_not.mpr done)]

theorem walkStep_partial (few : PartialApproval site.rt q who) :
    ∃ next : HoldRecord, next.status = .pending ∧ next.mail = q.mail ∧ next.ruleID = q.ruleID ∧
      walkStep site s (call, who) =
        ⟨{ s.engine with holds := s.engine.holds.insert s.holdID next }, s.holdID,
          s.approvals⟩ := by
  obtain ⟨mail, ruleID⟩ := approvedRecord_mail who q site.rt call.now
  have unfinished : (approvedRecord site.rt call.now who q).status ≠ .approved :=
    mt (approvedRecord_approved_iff site.rt call.now who q open_.2.1).mp (not_not.mpr few)
  have pending := (approvedRecord_status site.rt call.now who q open_.2.1).resolve_right unfinished
  refine ⟨_, pending, mail, ruleID, ?_⟩
  have gives : (applyApprove site call s.holdID who s.engine).2 =
      { s.engine with
        holds := s.engine.holds.insert s.holdID (approvedRecord site.rt call.now who q) } := by
    rw [applyApprove, approve_openTo site.rt s.engine.holds call.now s.holdID who q open_]
    dsimp only
    rw [if_pos unfinished]
  rw [walkStep_stays site s call who _ _ gives rfl (holdID_ne site s call who q open_ fresh) fresh,
    if_neg unfinished]

theorem walkStep_deliver (enough : ¬ PartialApproval site.rt q who)
    (upstream : site.upstream = true) (delivers : call.deliver = .ok ())
    (last : escalates s.engine.rules q.ruleID = false) :
    ∃ next : HoldRecord, next.status = .approved ∧ walkStep site s (call, who) =
      ⟨{ s.engine with
          holds := s.engine.holds.insert s.holdID next,
            delivered := s.engine.delivered ++ [q.mail] },
        s.holdID, s.approvals + 1⟩ := by
  obtain ⟨mail, ruleID⟩ := approvedRecord_mail who q site.rt call.now
  have done := (approvedRecord_approved_iff site.rt call.now who q open_.2.1).mpr enough
  refine ⟨approvedRecord site.rt call.now who q, done, ?_⟩
  have gives : (applyApprove site call s.holdID who s.engine).2 =
      { s.engine with
        holds := s.engine.holds.insert s.holdID (approvedRecord site.rt call.now who q)
        delivered := s.engine.delivered ++ [q.mail] } := by
    rw [applyApprove_done site s call who q open_ enough, Engine.release, ruleID,
      if_neg (by rw [last]; decide)]
    change (Engine.deliver site call (approvedRecord site.rt call.now who q).mail _).2 = _
    rw [mail, Engine.deliver, upstream, delivers]
    rfl
  rw [walkStep_stays site s call who _ _ gives rfl (holdID_ne site s call who q open_ fresh) fresh,
    if_pos done]

omit fresh in
/-- An approval that ends the hold, where its rule escalates. -/
theorem applyApprove_escalates (enough : ¬ PartialApproval site.rt q who) (rule : Rule)
    (goes : escalates s.engine.rules q.ruleID = true)
    (named : ruleByID s.engine.rules q.ruleID = some rule) :
    ∃ next : HoldRecord, next.status = .approved ∧
      (ruleByID s.engine.rules rule.escalateTo = none →
        (applyApprove site call s.holdID who s.engine).2 =
          { s.engine with holds := s.engine.holds.insert s.holdID next }) ∧
      ∀ target mods, ruleByID s.engine.rules rule.escalateTo = some target →
        resolveModerators site.rt call.dir
          (engineAddr site.rt q.sender) target.moderator = .ok mods →
        ∃ new : HoldRecord, new.ruleID = target.id ∧ new.status = .pending ∧ new.mail = q.mail ∧
          (applyApprove site call s.holdID who s.engine).2 =
            { s.engine with
              holds := (s.engine.holds.insert s.holdID next).insert call.id new } := by
  obtain ⟨mail, ruleID⟩ := approvedRecord_mail who q site.rt call.now
  have sender : (approvedRecord site.rt call.now who q).sender = q.sender :=
    congrArg Delivery.sender mail
  have done := (approvedRecord_approved_iff site.rt call.now who q open_.2.1).mpr enough
  rw [applyApprove_done site s call who q open_ enough, Engine.release, ruleID, if_pos goes]
  have spec := escalate_eq site call
    { s.engine with
      holds := s.engine.holds.insert s.holdID (approvedRecord site.rt call.now who q) } s.holdID
    (approvedRecord site.rt call.now who q) rule (by rw [getElem?_insert_hold, if_pos rfl])
    (by rw [ruleID]; exact named) (by rw [ruleID]; exact goes)
  rw [mail, sender] at spec
  exact ⟨_, done, spec⟩

theorem walkStep_missing (enough : ¬ PartialApproval site.rt q who) (rule : Rule)
    (goes : escalates s.engine.rules q.ruleID = true)
    (named : ruleByID s.engine.rules q.ruleID = some rule)
    (missing : ruleByID s.engine.rules rule.escalateTo = none) :
    ∃ next : HoldRecord, next.status = .approved ∧ walkStep site s (call, who) =
      ⟨{ s.engine with holds := s.engine.holds.insert s.holdID next }, s.holdID,
        s.approvals + 1⟩ := by
  obtain ⟨next, done, stops, -⟩ :=
    applyApprove_escalates site s call who q open_ enough rule goes named
  refine ⟨next, done, ?_⟩
  rw [walkStep_stays site s call who next _ (stops missing) rfl
    (holdID_ne site s call who q open_ fresh) fresh, if_pos done]

theorem walkStep_escalate (enough : ¬ PartialApproval site.rt q who) (rule target : Rule)
    (mods : List Str) (goes : escalates s.engine.rules q.ruleID = true)
    (named : ruleByID s.engine.rules q.ruleID = some rule)
    (there : ruleByID s.engine.rules rule.escalateTo = some target)
    (resolved : resolveModerators site.rt call.dir
      (engineAddr site.rt q.sender) target.moderator = .ok mods) :
    ∃ next new : HoldRecord, new.ruleID = target.id ∧ new.status = .pending ∧ new.mail = q.mail ∧
      walkStep site s (call, who) =
        ⟨{ s.engine with holds := (s.engine.holds.insert s.holdID next).insert call.id new },
          call.id, s.approvals + 1⟩ := by
  obtain ⟨next, done, -, goes_on⟩ :=
    applyApprove_escalates site s call who q open_ enough rule goes named
  obtain ⟨new, ruleID, pending, mail, after⟩ := goes_on target mods there resolved
  have apart := holdID_ne site s call who q open_ fresh
  refine ⟨next, new, ruleID, pending, mail, ?_⟩
  rw [walkStep]
  dsimp only
  rw [after]
  dsimp only
  rw [getElem?_insert_hold, if_pos rfl, getElem?_insert_hold, if_neg apart.symm,
    getElem?_insert_hold, if_pos rfl]
  simp only [Option.isSome_some, if_true, Option.any_some, done, decide_true]

end Steps

section Walks

variable (site : Site) (dir : Directory) (rules : List Rule) (before : List Delivery)
  (mail : Delivery)

/-- The last hold of the line waits, and nothing was delivered. -/
structure Waiting (s : LineWalk) (q : HoldRecord) : Prop where
  rules : s.engine.rules = rules
  before : s.engine.delivered = before
  found : s.engine.holds[s.holdID]? = some q
  pending : q.status = .pending
  mail : q.mail = mail

/-- The mail is delivered and no hold waits, or one waits so many rules before the end. -/
def ComesTo (n : Nat) (s : LineWalk) : Prop :=
  (s.engine.delivered = before ++ [mail] ∧
    ∀ q : HoldRecord, s.engine.holds[s.holdID]? = some q → q.status ≠ .pending) ∨
  ∃ q k, Waiting rules before mail s q ∧ ChainLength rules q.ruleID k ∧ s.approvals + k = n

theorem comesTo_walkStep (upstream : site.upstream = true) (n : Nat) (s : LineWalk)
    (visit : Call × Str) (comes : ComesTo rules before mail n s)
    (may : MayVisit site mail.sender s visit) :
    ComesTo rules before mail n (walkStep site s visit) := by
  obtain ⟨call, who⟩ := visit
  obtain ⟨fresh, ⟨r, open_⟩, resolves, delivers⟩ := may
  rcases comes with ⟨-, over_⟩ | ⟨q, k, ⟨same_rules, same_before, found, pending, same_mail⟩, chain,
      count⟩
  · exact absurd open_.2.1 (over_ r open_.1)
  · have same : q = r := Option.some.inj (found.symm.trans open_.1)
    subst same same_rules same_before
    by_cases few : PartialApproval site.rt q who
    · obtain ⟨next, waits, kept, ruleID, step⟩ := walkStep_partial site s call who q open_ fresh few
      rw [step]
      refine Or.inr ⟨next, k, ⟨rfl, rfl, ?_, waits, kept.trans same_mail⟩, ?_, count⟩
      · dsimp only
        rw [getElem?_insert_hold, if_pos rfl]
      · rw [ruleID]
        exact chain
    · cases chain with
      | stop _ last =>
          obtain ⟨next, approved, step⟩ :=
            walkStep_deliver site s call who q open_ fresh few upstream delivers last
          rw [step]
          refine Or.inl ⟨by rw [same_mail], ?_⟩
          intro other at_
          dsimp only at at_
          rw [getElem?_insert_hold, if_pos rfl] at at_
          cases at_
          rw [approved]
          exact nofun
      | next _ rule target k named more there rest =>
          obtain ⟨mods, resolved⟩ := resolves target (List.mem_of_find?_eq_some there)
          rw [← same_mail] at resolved
          obtain ⟨next, new, ruleID, waits, kept, step⟩ :=
            walkStep_escalate site s call who q open_ fresh few rule target mods more named there
              resolved
          rw [step]
          refine Or.inr ⟨new, k, ⟨rfl, rfl, ?_, waits, kept.trans same_mail⟩, ?_, ?_⟩
          · dsimp only
            rw [getElem?_insert_hold, if_pos rfl]
          · rw [ruleID]
            exact rest
          · change s.approvals + 1 + k = n
            omega

theorem exists_fresh (holds : Holds) : ∃ id : Str, holds[id]? = none := by
  obtain ⟨id, absent⟩ := Infinite.exists_notMem_finset holds.keys.toFinset
  refine ⟨id, ?_⟩
  rw [List.mem_toFinset, Std.ExtTreeMap.mem_keys] at absent
  exact Std.ExtTreeMap.getElem?_eq_none absent

/-- The administrator approves the hold that waits. -/
theorem may_visit_admin (s : LineWalk) (q : HoldRecord) (waiting : Waiting rules before mail s q)
    (resolves : ∀ rule ∈ rules, ∃ mods,
      resolveModerators site.rt dir (engineAddr site.rt mail.sender) rule.moderator = .ok mods) :
    ∃ call : Call, call.dir = dir ∧ MayVisit site mail.sender s (call, adminName) ∧
      OpenTo site.rt s.engine.holds s.holdID adminName q ∧
        ¬ PartialApproval site.rt q adminName := by
  obtain ⟨id, fresh⟩ := exists_fresh s.engine.holds
  have open_ : OpenTo site.rt s.engine.holds s.holdID adminName q :=
    ⟨waiting.found, waiting.pending, by simp [mayAct]⟩
  refine ⟨{ id := id, now := 0, dir := dir }, rfl, ⟨fresh, ⟨q, open_⟩, ?_, rfl⟩, open_, fun few =>
    few.1.2 rfl⟩
  rw [waiting.rules]
  exact resolves

/-- Where the chain of the rules does not end, approval leads to a hold that waits again, or gets
stuck. -/
theorem walk_on (s : LineWalk) (q : HoldRecord) (waiting : Waiting rules before mail s q)
    (endless : ¬ ChainEnds rules q.ruleID)
    (resolves : ∀ rule ∈ rules, ∃ mods,
      resolveModerators site.rt dir (engineAddr site.rt mail.sender) rule.moderator = .ok mods) :
    ∃ visit, MayVisit site mail.sender s visit ∧
      (walkStep site s visit).approvals = s.approvals + 1 ∧
      ((walkStep site s visit).engine.delivered = before ∧
          (∀ r : HoldRecord,
            (walkStep site s visit).engine.holds[(walkStep site s visit).holdID]? = some r →
            r.status ≠ .pending) ∨
        ∃ next, Waiting rules before mail (walkStep site s visit) next ∧
          ¬ ChainEnds rules next.ruleID) := by
  obtain ⟨call, same_dir, may, open_, enough⟩ :=
    may_visit_admin site dir rules before mail s q waiting resolves
  obtain ⟨same_rules, same_before, -, -, same_mail⟩ := waiting
  subst same_rules same_before
  have goes : escalates s.engine.rules q.ruleID = true := by
    by_contra last
    exact endless ⟨0, .stop q.ruleID (Bool.eq_false_of_not_eq_true last)⟩
  have named : ∃ rule, ruleByID s.engine.rules q.ruleID = some rule := by
    rw [escalates, Option.any_eq_true] at goes
    obtain ⟨rule, named, -⟩ := goes
    exact ⟨rule, named⟩
  obtain ⟨rule, named⟩ := named
  refine ⟨(call, adminName), may, ?_⟩
  cases there : ruleByID s.engine.rules rule.escalateTo with
  | none =>
      obtain ⟨next, approved, step⟩ :=
        walkStep_missing site s call adminName q open_ may.fresh enough rule goes named there
      rw [step]
      refine ⟨rfl, Or.inl ⟨rfl, ?_⟩⟩
      intro r at_
      dsimp only at at_
      rw [getElem?_insert_hold, if_pos rfl] at at_
      cases at_
      rw [approved]
      decide
  | some target =>
      obtain ⟨mods, resolved⟩ := resolves target (List.mem_of_find?_eq_some there)
      rw [← same_dir, ← same_mail] at resolved
      obtain ⟨next, new, ruleID, waits, kept, step⟩ :=
        walkStep_escalate site s call adminName q open_ may.fresh enough rule target mods goes named
          there resolved
      rw [step]
      refine ⟨rfl, Or.inr ⟨new, ⟨rfl, rfl, ?_, waits, kept.trans same_mail⟩, ?_⟩⟩
      · dsimp only
        rw [getElem?_insert_hold, if_pos rfl]
      · rw [ruleID]
        rintro ⟨n, rest⟩
        exact endless ⟨n + 1, .next q.ruleID rule target n named goes there rest⟩

/-- Where the chain does not end, no number of approvals is enough, or the line gets stuck. -/
theorem walk_endless (start : LineWalk) (q : HoldRecord)
    (waiting : Waiting rules before mail start q) (endless : ¬ ChainEnds rules q.ruleID)
    (resolves : ∀ rule ∈ rules, ∃ mods,
      resolveModerators site.rt dir (engineAddr site.rt mail.sender) rule.moderator = .ok mods)
        (n : Nat) :
    ∃ visits, Guarded (walkStep site) (MayVisit site mail.sender) start visits ∧
      ((visits.foldl (walkStep site) start).engine.delivered = before ∧
          (∀ r : HoldRecord, (visits.foldl (walkStep site) start).engine.holds[
            (visits.foldl (walkStep site) start).holdID]? = some r → r.status ≠ .pending) ∨
        (visits.foldl (walkStep site) start).approvals = start.approvals + n ∧
          ∃ next, Waiting rules before mail (visits.foldl (walkStep site) start) next ∧
            ¬ ChainEnds rules next.ruleID) := by
  induction n with
  | zero => exact ⟨[], guarded_nil _ _ _, Or.inr ⟨rfl, q, waiting, endless⟩⟩
  | succ n ih =>
      obtain ⟨visits, guarded, stuck | ⟨count, next, waits, goes_on⟩⟩ := ih
      · exact ⟨visits, guarded, Or.inl stuck⟩
      · obtain ⟨visit, may, one, after⟩ :=
          walk_on site dir rules before mail _ next waits goes_on resolves
        refine ⟨visits ++ [visit], ?_, ?_⟩
        · rw [guarded_append, guarded_cons]
          exact ⟨guarded, may, guarded_nil _ _ _⟩
        · rw [List.foldl_append, List.foldl_cons, List.foldl_nil]
          refine after.imp id fun waits_again => ⟨?_, waits_again⟩
          rw [one, count]
          omega

/-- A line that comes to a delivery follows a chain that ends. -/
theorem chainEnds_of_escalationEnds (e : Engine) (holdID : Str) (r : HoldRecord)
    (found : e.holds[holdID]? = some r) (pending : r.status = .pending)
    (resolves : ∀ rule ∈ e.rules, ∃ mods,
      resolveModerators site.rt dir (engineAddr site.rt r.sender) rule.moderator = .ok mods)
    (ends : EscalationEnds site e holdID r) : ChainEnds e.rules r.ruleID := by
  obtain ⟨n, ends⟩ := ends
  by_contra endless
  obtain ⟨visits, guarded, outcome⟩ :=
    walk_endless site dir e.rules e.delivered r.mail ⟨e, holdID, 0⟩ r
      ⟨rfl, rfl, found, pending, rfl⟩
      endless resolves n
  have comes := ends visits guarded
  have unsent : ∀ s : LineWalk, s.engine.delivered = e.delivered →
      s.engine.delivered ≠ e.delivered ++ [r.mail] := by
    intro s same sent
    rw [same] at sent
    exact absurd sent (by simp)
  rcases outcome with ⟨same, closed⟩ | ⟨count, next, waits, -⟩
  · rcases comes with sent | ⟨-, q, at_, still⟩
    · exact unsent _ same sent
    · exact closed q at_ still
  · rcases comes with sent | ⟨fewer, -⟩
    · exact unsent _ waits.before sent
    · rw [count] at fewer
      omega

/-- A chain that ends brings the line to a delivery, after as many approved holds as it has
rules. -/
theorem escalationEnds_of_chainEnds (e : Engine) (holdID : Str) (r : HoldRecord)
    (upstream : site.upstream = true) (found : e.holds[holdID]? = some r)
    (pending : r.status = .pending) (ends : ChainEnds e.rules r.ruleID) :
    EscalationEnds site e holdID r := by
  obtain ⟨n, chain⟩ := ends
  refine ⟨n + 1, fun visits guarded => ?_⟩
  have start : ComesTo e.rules e.delivered r.mail n ⟨e, holdID, 0⟩ :=
    Or.inr ⟨r, n, ⟨rfl, rfl, found, pending, rfl⟩, chain, Nat.zero_add n⟩
  have always := always_of_guarded (walkStep site) (ComesTo e.rules e.delivered r.mail n)
    (MayVisit site r.sender)
    (fun s visit comes may =>
      comesTo_walkStep site e.rules e.delivered r.mail upstream n s visit comes may)
    ⟨e, holdID, 0⟩ visits start guarded
  rcases always.last with ⟨sent, -⟩ | ⟨q, k, waits, -, count⟩
  · exact Or.inl sent
  · exact Or.inr ⟨by omega, q, waits.found, waits.pending⟩

/-- The approvals of a held message come to its delivery exactly if the chain of `escalate_to` from
its rule ends at a rule without one: it runs into no cycle and meets no rule that is missing. -/
theorem escalation_ends_iff (e : Engine) (holdID : Str) (r : HoldRecord)
    (upstream : site.upstream = true) (found : e.holds[holdID]? = some r)
    (pending : r.status = .pending) (resolves : ∀ rule ∈ e.rules, ∃ mods,
      resolveModerators site.rt dir (engineAddr site.rt r.sender) rule.moderator = .ok mods) :
    EscalationEnds site e holdID r ↔ ChainEnds e.rules r.ruleID := by
  constructor
  · exact chainEnds_of_escalationEnds site dir e holdID r found pending resolves
  · exact escalationEnds_of_chainEnds site e holdID r upstream found pending

end Walks

section Example

def holdsNote (rules : List Rule) : Engine :=
  { rules := rules, holds := (∅ : Holds).insert "h1".toList heldNote }

/-- Two levels come to a delivery. -/
theorem two_levels_end :
    EscalationEnds noteSite (holdsNote [level1, level2]) "h1".toList heldNote := by
  refine (escalation_ends_iff noteSite noDirectory
    (holdsNote [level1, level2]) "h1".toList heldNote rfl rfl rfl
    ?_).mpr ⟨1, ?_⟩
  · intro rule member
    simp only [holdsNote, List.mem_cons, List.not_mem_nil, or_false] at member
    rcases member with rfl | rfl
    · exact ⟨["m1@c.local".toList], rfl⟩
    · exact ⟨["m2@c.local".toList], rfl⟩
  · exact .next _ level1 level2 0 rfl rfl rfl (.stop _ rfl)

/-- A rule that escalates to itself. -/
def selfRule : Rule := { level1 with escalateTo := "l1".toList }

theorem selfRule_endless : ¬ ChainEnds [selfRule] "l1".toList := by
  rintro ⟨n, chain⟩
  induction n with
  | zero =>
      cases chain with
      | stop _ last => cases last
  | succ n ih =>
      cases chain with
      | next _ rule target _ named more there rest =>
          cases named
          cases there
          exact ih rest

/-- A rule that escalates to itself, and one that escalates to a rule that is missing, are valid
documents; under neither is a held message ever delivered. -/
theorem self_and_missing_rules_never_end :
    validateDocument [selfRule] = .ok () ∧ validateDocument [level1] = .ok () ∧
      ¬ EscalationEnds noteSite (holdsNote [selfRule]) "h1".toList heldNote ∧
      ¬ EscalationEnds noteSite (holdsNote [level1]) "h1".toList heldNote := by
  refine ⟨rfl, rfl, fun ends => ?_, fun ends => ?_⟩
  · refine selfRule_endless
      (chainEnds_of_escalationEnds noteSite noDirectory (holdsNote [selfRule]) "h1".toList
      heldNote rfl rfl ?_ ends)
    intro rule member
    simp only [holdsNote, List.mem_cons, List.not_mem_nil, or_false] at member
    subst member
    exact ⟨["m1@c.local".toList], rfl⟩
  · have chain := chainEnds_of_escalationEnds noteSite noDirectory
      (holdsNote [level1]) "h1".toList heldNote rfl rfl
      (fun rule member => by
        simp only [holdsNote, List.mem_cons, List.not_mem_nil, or_false] at member
        subst member
        exact ⟨["m1@c.local".toList], rfl⟩) ends
    obtain ⟨n, chain⟩ := chain
    cases chain with
    | stop _ last => cases last
    | next _ rule target _ named more there rest =>
        cases named
        cases there

end Example

end EraOne.Mail
