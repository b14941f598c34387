import EraOne.MailHistory
import EraOne.MailRules

set_option autoImplicit false

/- Held mail is delivered at most once, and only when every hold of its line was approved by those
who may. -/
namespace EraOne.Mail

open Runs

section Lines

/-- The hold belongs to the line that begins with `root`. -/
inductive Line (history : List MailEntry) (root : Str) : Str → Prop
  | held (begins : .held root ∈ history) : Line history root root
  | escalated (old new : Str) (line : Line history root old) (next : .escalated old new ∈ history) :
      Line history root new

theorem line_mono (history more : List MailEntry) (root id : Str) (line : Line history root id) :
    Line (history ++ more) root id := by
  induction line with
  | held begins => exact .held (List.mem_append_left more begins)
  | escalated old new _ next ih => exact .escalated old new ih (List.mem_append_left more next)

/-- Entries that begin or continue no line leave the lines as they are. -/
theorem line_append_iff (history more : List MailEntry) (root id : Str)
    (unlinked : (∀ id, .held id ∉ more) ∧ ∀ old new, .escalated old new ∉ more) :
    Line (history ++ more) root id ↔ Line history root id := by
  constructor
  · intro line
    induction line with
    | held begins =>
        rcases List.mem_append.mp begins with old | new
        · exact .held old
        · exact absurd new (unlinked.1 root)
    | escalated old new _ next ih =>
        rcases List.mem_append.mp next with before | after
        · exact .escalated old new ih before
        · exact absurd after (unlinked.2 old new)
  · exact line_mono history more root id

theorem named_of_line (history : List MailEntry) (root id : Str) (line : Line history root id) :
    ∃ entry ∈ history, id ∈ entry.names := by
  cases line with
  | held begins => exact ⟨_, begins, List.mem_singleton_self root⟩
  | escalated old new line next => exact ⟨_, next, by simp [MailEntry.names]⟩

theorem named_root_of_line (history : List MailEntry) (root id : Str)
    (line : Line history root id) :
    ∃ entry ∈ history, root ∈ entry.names := by
  induction line with
  | held begins => exact ⟨_, begins, List.mem_singleton_self root⟩
  | escalated _ _ _ _ ih => exact ih

/-- A new first hold is a line of its own. -/
theorem line_held_iff (history : List MailEntry) (new : Str) (parcel : Delivery)
    (moderators : List Str) (requireAll : Bool)
    (unknown : ∀ entry ∈ history, new ∉ entry.names) (root id : Str) :
    Line (history ++ [.created new parcel moderators requireAll, .held new]) root id ↔
      Line history root id ∨ root = new ∧ id = new := by
  constructor
  · intro line
    induction line with
    | held begins =>
        rcases List.mem_append.mp begins with old | after
        · exact Or.inl (.held old)
        · simp at after
          exact Or.inr ⟨after, after⟩
    | escalated old next _ link ih =>
        rcases List.mem_append.mp link with before | after
        · rcases ih with line | ⟨-, rfl⟩
          · exact Or.inl (.escalated old next line before)
          · exact absurd (by simp [MailEntry.names]) (unknown _ before)
        · simp at after
  · rintro (line | ⟨rfl, rfl⟩)
    · exact line_mono history _ root id line
    · exact .held (by simp)

/-- A new hold that another escalated to continues the lines of that one. -/
theorem line_escalated_iff (history : List MailEntry) (old new who : Str) (parcel : Delivery)
    (moderators : List Str)
    (requireAll : Bool) (unknown : ∀ entry ∈ history, new ∉ entry.names) (apart : old ≠ new)
    (root id : Str) :
    Line (history ++ [MailEntry.approved old who,
      MailEntry.created new parcel moderators requireAll,
        MailEntry.escalated old new]) root id ↔
      Line history root id ∨ id = new ∧ Line history root old := by
  constructor
  · intro line
    induction line with
    | held begins =>
        rcases List.mem_append.mp begins with before | after
        · exact Or.inl (.held before)
        · simp at after
    | escalated first next _ link ih =>
        rcases List.mem_append.mp link with before | after
        · rcases ih with line | ⟨rfl, -⟩
          · exact Or.inl (.escalated first next line before)
          · exact absurd (by simp [MailEntry.names]) (unknown _ before)
        · simp at after
          obtain ⟨rfl, rfl⟩ := after
          rcases ih with line | ⟨same, -⟩
          · exact Or.inr ⟨rfl, line⟩
          · exact absurd same apart
  · rintro (line | ⟨rfl, line⟩)
    · exact line_mono history _ root id line
    · exact .escalated old id (line_mono history _ root old line) (by simp)

end Lines

section Approvals

variable (rt : Runtime)

/-- The hold was approved by the administrator, by a moderator, or by every one where all must. -/
def Authorised (history : List MailEntry) (id : Str) (moderators : List Str) (requireAll : Bool) :
    Prop :=
  .approved id adminName ∈ history ∨
    (requireAll = false ∧ ∃ who, .approved id who ∈ history ∧
      ∃ m ∈ moderators, rt.equalFold m who = true) ∨
    (requireAll = true ∧ moderators ≠ [] ∧
      ∀ m ∈ moderators, ∃ who, .approved id who ∈ history ∧ rt.equalFold who m = true)

theorem authorised_mono (history more : List MailEntry) (id : Str) (moderators : List Str)
    (requireAll : Bool) (authorised : Authorised rt history id moderators requireAll) :
    Authorised rt (history ++ more) id moderators requireAll := by
  rcases authorised with admin | ⟨any, who, approved, m, member, same⟩ | ⟨all, nonempty, each⟩
  · exact Or.inl (List.mem_append_left more admin)
  · exact Or.inr (Or.inl ⟨any, who, List.mem_append_left more approved, m, member, same⟩)
  · refine Or.inr (Or.inr ⟨all, nonempty, fun m member => ?_⟩)
    obtain ⟨who, approved, same⟩ := each m member
    exact ⟨who, List.mem_append_left more approved, same⟩

/-- What a delivery may follow: every hold of its line has the message that is delivered, each was
approved, none was rejected or expired, and nothing of the line was delivered. Nothing goes
astray. -/
def ReleasedAsApproved (before : List MailEntry) : MailEntry → Prop
  | .delivered id parcel =>
      (∃ root, Line before root id) ∧ ∀ root, Line before root id →
        ∀ other, Line before root other →
        (∃ moderators requireAll, .created other parcel moderators requireAll ∈ before) ∧
        (∀ kept moderators requireAll, .created other kept moderators requireAll ∈ before →
          kept = parcel ∧ Authorised rt before other moderators requireAll) ∧
        .rejected other ∉ before ∧ .expired other ∉ before ∧ ∀ sent, .delivered other sent ∉ before
  | .stray _ => False
  | _ => True

/-- What the history says of a hold that is not there, or is. -/
def HoldFollows (history : List MailEntry) (id : Str) : Option HoldRecord → Prop
  | none => ∀ entry ∈ history, id ∉ entry.names
  | some r =>
      r.id = id ∧ .created id r.parcel r.moderators r.requireAll ∈ history ∧
        (∀ parcel moderators requireAll, .created id parcel moderators requireAll ∈ history →
          parcel = r.parcel ∧ moderators = r.moderators ∧ requireAll = r.requireAll) ∧
        (∀ who ∈ r.approvedBy, .approved id who ∈ history) ∧
        (r.status = .pending ∨ r.status = .approved → .rejected id ∉ history ∧
          .expired id ∉ history) ∧
        (r.status = .approved → Authorised rt history id r.moderators r.requireAll) ∧
        ∃ root, Line history root id

/-- A pending hold is the last of its line: the others are approved and have its message, and
nothing was delivered. -/
def LastOpen (b : MailBook) : Prop :=
  ∀ (root id : Str) (r : HoldRecord), Line b.history root id → b.holds[id]? = some r →
    r.status = .pending →
    ∀ other, Line b.history root other → (∀ sent, .delivered other sent ∉ b.history) ∧
      (other = id ∨ ∃ q, b.holds[other]? = some q ∧ q.status = .approved ∧ q.parcel = r.parcel)

structure MailTracks (b : MailBook) : Prop where
  follows : ∀ id, HoldFollows rt b.history id b.holds[id]?
  last : LastOpen b
  legal : Legal (ReleasedAsApproved rt) b.history

/-- An accepted approval is one of many, the last of many, or enough alone. -/
theorem approvedRecord_cases (now : Time) (who : Str) (r : HoldRecord) :
    (∃ got, (∀ m ∈ got, m ∈ r.approvedBy ∨ m = who) ∧ r.requireAll = true ∧
      (approvedRecord rt now who r = { r with approvedBy := got, updatedAt := now } ∨
        allApproved rt r.moderators got = true ∧ approvedRecord rt now who r =
          { r with approvedBy := got, updatedAt := now, status := .approved, consumedBy := who })) ∨
    ((r.requireAll = false ∨ who = adminName) ∧
      approvedRecord rt now who r =
        { r with status := .approved, consumedBy := who, updatedAt := now }) := by
  rw [approvedRecord]
  by_cases many : r.requireAll = true ∧ who ≠ adminName
  · rw [if_pos many]
    left
    refine ⟨if containsFold rt r.approvedBy who then r.approvedBy
      else r.approvedBy ++ [who], ?_, many.1, ?_⟩
    · intro m member
      split at member
      · exact Or.inl member
      · rwa [List.mem_append, List.mem_singleton] at member
    · generalize (if containsFold rt r.approvedBy who then r.approvedBy
        else r.approvedBy ++ [who]) = got
      dsimp only
      by_cases enough : allApproved rt r.moderators got = true
      · rw [enough]
        exact Or.inr ⟨rfl, rfl⟩
      · rw [Bool.eq_false_of_not_eq_true enough]
        exact Or.inl rfl
  · rw [if_neg many]
    right
    refine ⟨?_, rfl⟩
    by_cases all : r.requireAll = true
    · exact Or.inr (not_not.mp fun other => many ⟨all, other⟩)
    · exact Or.inl (Bool.eq_false_of_not_eq_true all)

theorem approvedRecord_same (now : Time) (who : Str) (r : HoldRecord) :
    (approvedRecord rt now who r).id = r.id ∧
    (approvedRecord rt now who r).moderators = r.moderators ∧
      (approvedRecord rt now who r).requireAll = r.requireAll := by
  rcases approvedRecord_cases rt now who r with ⟨got, -, -, part | ⟨-, whole⟩⟩ | ⟨-, alone⟩
  · rw [part]
    exact ⟨rfl, rfl, rfl⟩
  · rw [whole]
    exact ⟨rfl, rfl, rfl⟩
  · rw [alone]
    exact ⟨rfl, rfl, rfl⟩

theorem approvedRecord_approvedBy (now : Time) (who : Str) (r : HoldRecord) :
    ∀ m ∈ (approvedRecord rt now who r).approvedBy, m ∈ r.approvedBy ∨ m = who := by
  rcases approvedRecord_cases rt now who r with ⟨got, listed, -, part | ⟨-, whole⟩⟩ | ⟨-, alone⟩
  · rw [part]
    exact listed
  · rw [whole]
    exact listed
  · rw [alone]
    exact fun m member => Or.inl member

theorem approvedRecord_status (now : Time) (who : Str) (r : HoldRecord)
    (pending : r.status = .pending) :
    (approvedRecord rt now who r).status = .pending ∨
    (approvedRecord rt now who r).status = .approved := by
  rcases approvedRecord_cases rt now who r with ⟨got, -, -, part | ⟨-, whole⟩⟩ | ⟨-, alone⟩
  · rw [part]
    exact Or.inl pending
  · rw [whole]
    exact Or.inr rfl
  · rw [alone]
    exact Or.inr rfl

/-- An approval that ends the hold was enough. -/
theorem authorised_of_approved (history : List MailEntry) (id who : Str) (now : Time)
    (r : HoldRecord) (pending : r.status = .pending) (may : mayAct rt r who = true)
    (noted : ∀ m ∈ r.approvedBy, .approved id m ∈ history)
    (done : (approvedRecord rt now who r).status = .approved) :
    Authorised rt (history ++ [.approved id who]) id r.moderators r.requireAll := by
  have here : .approved id who ∈ history ++ [MailEntry.approved id who] := by simp
  rcases approvedRecord_cases rt now who r with ⟨got, listed, all, part | ⟨enough, -⟩⟩ | ⟨single, -⟩
  · rw [part, pending] at done
    cases done
  · rw [allApproved, Bool.and_eq_true, List.all_eq_true] at enough
    refine Or.inr (Or.inr ⟨all, by simpa using enough.2, fun m member => ?_⟩)
    have found := enough.1 m member
    rw [containsFold, List.any_eq_true] at found
    obtain ⟨one, counted, same⟩ := found
    refine ⟨one, ?_, same⟩
    rcases listed one counted with old | rfl
    · exact List.mem_append_left _ (noted one old)
    · exact here
  · by_cases admin : who = adminName
    · subst admin
      exact Or.inl here
    · rw [or_iff_left admin] at single
      rw [mayAct, Bool.or_eq_true, decide_eq_true_eq, or_iff_left admin, containsFold,
        List.any_eq_true] at may
      obtain ⟨m, member, same⟩ := may
      exact Or.inr (Or.inl ⟨single, who, here, m, member, same⟩)

end Approvals

section Tracking

variable (rt : Runtime) (history more : List MailEntry)

/-- Entries that do not name a hold say nothing new of it. -/
theorem holdFollows_append (id : Str) (record : Option HoldRecord)
    (unnamed : ∀ entry ∈ more, id ∉ entry.names) (follows : HoldFollows rt history id record) :
    HoldFollows rt (history ++ more) id record := by
  cases record with
  | none =>
      intro entry member
      rcases List.mem_append.mp member with old | new
      · exact follows entry old
      · exact unnamed entry new
  | some r =>
      obtain ⟨keyed, created, only, noted, open_, enough, root, line⟩ := follows
      have absent : ∀ entry : MailEntry, id ∈ entry.names → entry ∉ history →
          entry ∉ history ++ more := by
        intro entry named missing member
        rcases List.mem_append.mp member with old | new
        · exact missing old
        · exact unnamed entry new named
      refine ⟨keyed, List.mem_append_left more created, ?_, ?_, ?_, ?_, root,
        line_mono history more root id line⟩
      · intro parcel moderators requireAll member
        rcases List.mem_append.mp member with old | new
        · exact only parcel moderators requireAll old
        · exact absurd (List.mem_singleton_self id) (unnamed _ new)
      · exact fun who member => List.mem_append_left more (noted who member)
      · intro either
        exact ⟨absent _ (List.mem_singleton_self id) (open_ either).1,
          absent _ (List.mem_singleton_self id) (open_ either).2⟩
      · exact fun approved => authorised_mono rt history more id _ _ (enough approved)

theorem holdFollows_new (r : HoldRecord) (link : MailEntry) (before : List MailEntry)
    (unknown : ∀ entry ∈ history, r.id ∉ entry.names) (pending : r.status = .pending)
    (none_ : r.approvedBy = []) (apart : ∀ entry ∈ before, r.id ∉ entry.names)
    (links : link = .held r.id ∨ ∃ old, link = .escalated old r.id)
    (line : ∃ root, Line
      (history ++ (before ++ [.created r.id r.parcel r.moderators r.requireAll, link])) root r.id) :
    HoldFollows rt (history ++ (before ++ [.created r.id r.parcel r.moderators r.requireAll, link]))
      r.id (some r) := by
  have last :
      ∀ entry ∈ history ++ (before ++ [.created r.id r.parcel r.moderators r.requireAll, link]),
      r.id ∈ entry.names → entry = .created r.id r.parcel r.moderators r.requireAll ∨
        entry = link := by
    intro entry member named
    rcases List.mem_append.mp member with old | new
    · exact absurd named (unknown entry old)
    · rcases List.mem_append.mp new with first | second
      · exact absurd named (apart entry first)
      · simpa using second
  refine ⟨rfl, by simp, ?_, ?_, ?_, ?_, line⟩
  · intro parcel moderators requireAll member
    rcases last _ member (List.mem_singleton_self r.id) with same | same
    · cases same
      exact ⟨rfl, rfl, rfl⟩
    · rcases links with rfl | ⟨old, rfl⟩ <;> cases same
  · intro who member
    rw [none_] at member
    cases member
  · intro either
    constructor
    all_goals
      intro member
      rcases last _ member (List.mem_singleton_self r.id) with same | same
      · cases same
      · rcases links with rfl | ⟨old, rfl⟩ <;> cases same
  · intro approved
    rw [pending] at approved
    cases approved

theorem holdFollows_approve (id who : Str) (now : Time) (r : HoldRecord)
    (pending : r.status = .pending) (may : mayAct rt r who = true)
    (quiet : ∀ entry ∈ more, id ∈ entry.names →
      (∃ parcel, entry = .delivered id parcel) ∨ ∃ new, entry = .escalated id new)
    (follows : HoldFollows rt history id (some r)) :
    HoldFollows rt (history ++ (.approved id who :: more)) id
      (some (approvedRecord rt now who r)) := by
  obtain ⟨keyed, created, only, noted, open_, enough, root, line⟩ := follows
  obtain ⟨same_id, same_moderators, same_all⟩ := approvedRecord_same rt now who r
  have absent : ∀ entry : MailEntry, id ∈ entry.names → entry ∉ history →
      (entry ≠ .approved id who ∧ (∀ parcel, entry ≠ .delivered id parcel) ∧
        ∀ new, entry ≠ .escalated id new) →
      entry ∉ history ++ (.approved id who :: more) := by
    intro entry named missing ⟨other, unsent, unlinked⟩ member
    rcases List.mem_append.mp member with old | new
    · exact missing old
    · rcases List.mem_cons.mp new with first | later
      · exact other first
      · rcases quiet entry later named with ⟨parcel, sent⟩ | ⟨new, linked⟩
        · exact unsent parcel sent
        · exact unlinked new linked
  have here : .approved id who ∈ history ++ (MailEntry.approved id who :: more) := by simp
  rw [HoldFollows, same_id, approvedRecord_parcel, same_moderators, same_all]
  refine ⟨keyed, List.mem_append_left _ created, ?_, ?_, ?_, ?_, root,
    line_mono history _ root id line⟩
  · intro parcel moderators requireAll member
    apply only
    by_contra missing
    exact absent (.created id parcel moderators requireAll) (List.mem_singleton_self id) missing
      ⟨nofun, nofun, nofun⟩ member
  · intro m member
    rcases approvedRecord_approvedBy rt now who r m member with old | rfl
    · exact List.mem_append_left _ (noted m old)
    · exact here
  · intro _
    exact ⟨absent _ (List.mem_singleton_self id) (open_ (Or.inl pending)).1 ⟨nofun, nofun, nofun⟩,
      absent _ (List.mem_singleton_self id) (open_ (Or.inl pending)).2 ⟨nofun, nofun, nofun⟩⟩
  · intro done
    rw [← List.singleton_append, ← List.append_assoc]
    exact authorised_mono rt _ more id _ _
      (authorised_of_approved rt history id who now r pending may noted done)

theorem holdFollows_close (id : Str) (r next : HoldRecord) (entry : MailEntry)
    (closes : Closes id r next entry) (follows : HoldFollows rt history id (some r)) :
    HoldFollows rt (history ++ [entry]) id (some next) := by
  obtain ⟨keyed, created, only, noted, open_, enough, root, line⟩ := follows
  obtain ⟨same_id, same_parcel, same_moderators, same_all, same_by, ended⟩ := closes
  have closed : next.status ≠ .pending ∧ next.status ≠ .approved := by
    rcases ended with ⟨status, -⟩ | ⟨status, -⟩
    · rw [status]
      exact ⟨nofun, nofun⟩
    · rw [status]
      exact ⟨nofun, nofun⟩
  rw [HoldFollows, same_id, same_parcel, same_moderators, same_all, same_by]
  refine ⟨keyed, List.mem_append_left _ created, ?_, ?_, ?_, ?_, root,
    line_mono history _ root id line⟩
  · intro parcel moderators requireAll member
    rcases List.mem_append.mp member with old | new
    · exact only parcel moderators requireAll old
    · rcases ended with ⟨-, rfl⟩ | ⟨-, rfl⟩ <;> simp at new
  · exact fun who member => List.mem_append_left _ (noted who member)
  · rintro (still | done)
    · exact absurd still closed.1
    · exact absurd done closed.2
  · intro done
    exact absurd done closed.2

/-- Changing a pending hold leaves the open holds the last of their lines. -/
theorem lastOpen_insert (holds : Holds) (id : Str) (r next : HoldRecord)
    (last : LastOpen ⟨holds, history⟩) (found : holds[id]? = some r) (pending : r.status = .pending)
    (kept : next.parcel = r.parcel)
    (unlinked : (∀ id, .held id ∉ more) ∧ ∀ old new, .escalated old new ∉ more)
    (sent : ∀ other parcel, .delivered other parcel ∈ more → other = id ∧ next.status ≠ .pending) :
    LastOpen ⟨holds.insert id next, history ++ more⟩ := by
  intro root x record line at_ waits other joined
  rw [line_append_iff history more root _ unlinked] at line joined
  dsimp only at at_ ⊢
  rw [getElem?_insert_hold] at at_
  have was : ∃ old, holds[x]? = some old ∧ old.status = .pending ∧ record.parcel = old.parcel := by
    by_cases same : id = x
    · subst same
      rw [if_pos rfl, Option.some.injEq] at at_
      exact ⟨r, found, pending, at_ ▸ kept⟩
    · rw [if_neg same] at at_
      exact ⟨record, at_, waits, rfl⟩
  obtain ⟨old, there, waiting, alike⟩ := was
  obtain ⟨unsent, rest⟩ := last root x old line there waiting other joined
  -- the changed hold is pending, so it is `x` or not of this line
  have placed : other = id → other = x := by
    rintro rfl
    rcases rest with same | ⟨q, listed, approved, -⟩
    · exact same
    · cases found.symm.trans listed
      rw [pending] at approved
      cases approved
  constructor
  · intro parcel member
    rcases List.mem_append.mp member with before | after
    · exact unsent parcel before
    · obtain ⟨same, ended⟩ := sent other parcel after
      have whole : id = x := same.symm.trans (placed same)
      rw [if_pos whole] at at_
      cases at_
      exact ended waits
  · rcases rest with same | ⟨q, listed, approved⟩
    · exact Or.inl same
    · by_cases same : id = other
      · exact Or.inl (placed same.symm)
      · right
        rw [getElem?_insert_hold, if_neg same, alike]
        exact ⟨q, listed, approved⟩

theorem lastOpen_hold (holds : Holds) (r : HoldRecord) (last : LastOpen ⟨holds, history⟩)
    (fresh : holds[r.id]? = none) (unknown : ∀ entry ∈ history, r.id ∉ entry.names) :
    LastOpen ⟨holds.insert r.id r,
      history ++ [.created r.id r.parcel r.moderators r.requireAll, .held r.id]⟩ := by
  have unrooted : ∀ id, ¬ Line history r.id id := by
    intro id line
    obtain ⟨entry, member, named⟩ := named_root_of_line history _ id line
    exact unknown entry member named
  intro root x record line at_ waits other joined
  rw [line_held_iff history r.id _ _ _ unknown] at line joined
  dsimp only at at_ ⊢
  have unsent (missing : ∀ sent, MailEntry.delivered other sent ∉ history) (sent : Delivery) :
      MailEntry.delivered other sent ∉ history ++
        [MailEntry.created r.id r.parcel r.moderators r.requireAll, MailEntry.held r.id] := by
    intro member
    simp at member
    exact missing sent member
  rcases line with line | ⟨rfl, rfl⟩
  · have joined : Line history root other := by
      rcases joined with joined | ⟨rfl, -⟩
      · exact joined
      · exact absurd line (unrooted x)
    have apart : r.id ≠ x := by
      rintro rfl
      obtain ⟨entry, member, named⟩ := named_of_line history root _ line
      exact unknown entry member named
    rw [getElem?_insert_hold, if_neg apart] at at_
    obtain ⟨missing, rest⟩ := last root x record line at_ waits other joined
    refine ⟨unsent missing, rest.imp id ?_⟩
    rintro ⟨q, listed, approved⟩
    refine ⟨q, ?_, approved⟩
    rw [getElem?_insert_hold, if_neg, listed]
    rintro rfl
    rw [fresh] at listed
    cases listed
  · rcases joined with joined | ⟨-, rfl⟩
    · exact absurd joined (unrooted other)
    · refine ⟨unsent fun sent member => ?_, Or.inl rfl⟩
      exact unknown _ member (List.mem_singleton_self _)

theorem lastOpen_escalate (holds : Holds) (id who : Str) (r next new : HoldRecord)
    (last : LastOpen ⟨holds, history⟩) (found : holds[id]? = some r) (pending : r.status = .pending)
    (done : next.status = .approved) (fresh : holds[new.id]? = none)
    (unknown : ∀ entry ∈ history, new.id ∉ entry.names) (kept : next.parcel = r.parcel)
    (same : new.parcel = r.parcel) : LastOpen ⟨(holds.insert id next).insert new.id new,
      history ++ [MailEntry.approved id who,
        MailEntry.created new.id new.parcel new.moderators new.requireAll,
        MailEntry.escalated id new.id]⟩ := by
  have apart : id ≠ new.id := by
    rintro same
    rw [same, fresh] at found
    cases found
  have other_new : ∀ (y : Str) (q : HoldRecord), holds[y]? = some q → new.id ≠ y := by
    rintro y q listed rfl
    rw [fresh] at listed
    cases listed
  intro root x record line at_ waits other joined
  rw [line_escalated_iff history id new.id who _ _ _ unknown apart] at line joined
  dsimp only at at_ ⊢
  have unsent (missing : ∀ sent, MailEntry.delivered other sent ∉ history) (sent : Delivery) :
      MailEntry.delivered other sent ∉ history ++ [MailEntry.approved id who,
        MailEntry.created new.id new.parcel new.moderators new.requireAll,
        MailEntry.escalated id new.id] := by
    intro member
    simp at member
    exact missing sent member
  -- an approved hold of the line, seen in the store after the escalation
  have still (parcel : Delivery) : ∀ y, (y = id ∧ r.parcel = parcel ∨
      ∃ q, holds[y]? = some q ∧ q.status = .approved ∧ q.parcel = parcel) →
      ∃ q, ((holds.insert id next).insert new.id new)[y]? = some q ∧ q.status = .approved ∧
        q.parcel = parcel := by
    rintro y (⟨rfl, whole⟩ | ⟨q, listed, approved⟩)
    · refine ⟨next, ?_, done, kept.trans whole⟩
      rw [getElem?_insert_hold, if_neg apart.symm, getElem?_insert_hold, if_pos rfl]
    · refine ⟨q, ?_, approved⟩
      rw [getElem?_insert_hold, if_neg (other_new y q listed), getElem?_insert_hold, if_neg, listed]
      rintro rfl
      cases found.symm.trans listed
      rw [pending] at approved
      cases approved.1
  rw [getElem?_insert_hold] at at_
  by_cases fresh_one : new.id = x
  · subst fresh_one
    have line : Line history root id := by
      rcases line with line | ⟨-, line⟩
      · obtain ⟨entry, member, named⟩ := named_of_line history root _ line
        exact absurd named (unknown entry member)
      · exact line
    rw [if_pos rfl, Option.some.injEq] at at_
    rcases joined with joined | ⟨here, -⟩
    · obtain ⟨missing, rest⟩ := last root id r line found pending other joined
      refine ⟨unsent missing, Or.inr (still record.parcel other ?_)⟩
      rw [← at_, same]
      exact rest.imp_left fun own => ⟨own, rfl⟩
    · refine ⟨unsent fun sent member => ?_, Or.inl here⟩
      rw [here] at member
      exact unknown _ member (List.mem_singleton_self _)
  · rw [if_neg fresh_one, getElem?_insert_hold] at at_
    have line : Line history root x := line.resolve_right fun same => fresh_one same.1.symm
    have moved : id ≠ x := by
      rintro rfl
      rw [if_pos rfl] at at_
      cases at_
      rw [done] at waits
      cases waits
    rw [if_neg moved] at at_
    rcases joined with joined | ⟨-, parent⟩
    · obtain ⟨missing, rest⟩ := last root x record line at_ waits other joined
      exact ⟨unsent missing, rest.imp_right fun approved =>
        still record.parcel other (Or.inr approved)⟩
    · obtain ⟨-, here | ⟨q, listed, approved, -⟩⟩ := last root x record line at_ waits id parent
      · exact absurd here moved
      · cases found.symm.trans listed
        rw [pending] at approved
        cases approved

/-- What the history says of an approved hold. -/
theorem approved_facts (id : Str) (q : HoldRecord) (follows : HoldFollows rt history id (some q))
    (approved : q.status = .approved) :
    (∃ moderators requireAll, MailEntry.created id q.parcel moderators requireAll ∈ history) ∧
      (∀ kept moderators requireAll, MailEntry.created id kept moderators requireAll ∈ history →
        kept = q.parcel ∧ Authorised rt history id moderators requireAll) ∧
      MailEntry.rejected id ∉ history ∧ MailEntry.expired id ∉ history := by
  obtain ⟨-, created, only, -, open_, enough, -⟩ := follows
  refine ⟨⟨_, _, created⟩, ?_, open_ (Or.inr approved)⟩
  intro kept moderators requireAll member
  obtain ⟨same, rfl, rfl⟩ := only kept moderators requireAll member
  exact ⟨same, enough approved⟩

/-- The hold that an approval ended may be delivered. -/
theorem released_of_approved (holds : Holds) (id who : Str) (now : Time) (r : HoldRecord)
    (follows : ∀ id, HoldFollows rt history id holds[id]?) (last : LastOpen ⟨holds, history⟩)
    (found : holds[id]? = some r) (pending : r.status = .pending) (may : mayAct rt r who = true)
    (done : (approvedRecord rt now who r).status = .approved) :
    ReleasedAsApproved rt (history ++ [MailEntry.approved id who]) (.delivered id r.parcel) := by
  have unlinked : (∀ first, MailEntry.held first ∉ [MailEntry.approved id who]) ∧
      ∀ old new, MailEntry.escalated old new ∉ [MailEntry.approved id who] := by simp
  have own := follows id
  rw [found] at own
  have after := holdFollows_approve rt history [] id who now r pending may (by simp) own
  obtain ⟨-, -, -, -, -, -, root, line⟩ := own
  refine ⟨⟨root, line_mono history _ root id line⟩, ?_⟩
  intro root line other joined
  rw [line_append_iff history _ root _ unlinked] at line joined
  obtain ⟨unsent, rest⟩ := last root id r line found pending other joined
  have facts : ∃ q, HoldFollows rt (history ++ [MailEntry.approved id who]) other (some q) ∧
      q.status = .approved ∧ q.parcel = r.parcel := by
    by_cases same : other = id
    · subst same
      exact ⟨_, after, done, approvedRecord_parcel rt now who r⟩
    · obtain ⟨q, listed, approved⟩ := rest.resolve_left same
      have tracked := follows other
      rw [listed] at tracked
      refine ⟨q, holdFollows_append rt history _ other (some q) ?_ tracked, approved⟩
      simpa [MailEntry.names] using same
  obtain ⟨q, tracked, approved, whole⟩ := facts
  obtain ⟨created, authorised, unrejected, unexpired⟩ :=
    approved_facts rt _ other q tracked approved
  rw [whole] at created authorised
  refine ⟨created, authorised, unrejected, unexpired, ?_⟩
  intro sent member
  simp at member
  exact unsent sent member

end Tracking

section Moves

variable (rt : Runtime)

/-- What changes one hold keeps the others as the history says. -/
theorem follows_insert (holds : Holds) (history more : List MailEntry) (id : Str) (r : HoldRecord)
    (follows : ∀ id, HoldFollows rt history id holds[id]?)
    (named : ∀ entry ∈ more, entry.names = [id])
    (own : HoldFollows rt (history ++ more) id (some r)) (other : Str) :
    HoldFollows rt (history ++ more) other (holds.insert id r)[other]? := by
  rw [getElem?_insert_hold]
  split
  · rename_i same
    exact same ▸ own
  · rename_i different
    apply holdFollows_append rt history more other _ _ (follows other)
    intro entry member inside
    rw [named entry member, List.mem_singleton] at inside
    exact different inside.symm

theorem unknown_of_fresh (b : MailBook) (tracks : MailTracks rt b) (id : Str)
    (fresh : b.holds[id]? = none) :
    ∀ entry ∈ b.history, id ∉ entry.names := by
  have follows := tracks.follows id
  rwa [fresh] at follows

theorem tracks_hold (b : MailBook) (tracks : MailTracks rt b) (r : HoldRecord)
    (fresh : b.holds[r.id]? = none) (pending : r.status = .pending) (none_ : r.approvedBy = []) :
    MailTracks rt ⟨b.holds.insert r.id r,
      b.history ++ [.created r.id r.parcel r.moderators r.requireAll, .held r.id]⟩ := by
  have unknown := unknown_of_fresh rt b tracks r.id fresh
  constructor
  · apply follows_insert rt b.holds b.history _ r.id r tracks.follows
    · simp [MailEntry.names]
    · apply holdFollows_new rt b.history r (.held r.id) [] unknown pending none_ (by simp)
        (Or.inl rfl)
      exact ⟨r.id, .held (by simp)⟩
  · exact lastOpen_hold b.history b.holds r tracks.last fresh unknown
  · apply legal_append_of_free _ _ _ tracks.legal
    simp [ReleasedAsApproved]

theorem tracks_pass (b : MailBook) (tracks : MailTracks rt b) (parcel : Delivery) :
    MailTracks rt ⟨b.holds, b.history ++ [.passed parcel]⟩ := by
  constructor
  · intro id
    exact holdFollows_append rt b.history _ id _ (by simp [MailEntry.names]) (tracks.follows id)
  · intro root id r line found pending other joined
    have unlinked : (∀ id, .held id ∉ [MailEntry.passed parcel]) ∧
        ∀ old new, .escalated old new ∉ [MailEntry.passed parcel] := by simp
    rw [line_append_iff b.history _ root _ unlinked] at line joined
    have rest := tracks.last root id r line found pending other joined
    simpa using rest
  · apply legal_append_of_free _ _ _ tracks.legal
    simp [ReleasedAsApproved]

theorem tracks_approve (b : MailBook) (tracks : MailTracks rt b) (id who : Str) (now : Time)
    (r : HoldRecord) (found : b.holds[id]? = some r) (pending : r.status = .pending)
    (may : mayAct rt r who = true) :
    MailTracks rt ⟨b.holds.insert id (approvedRecord rt now who r),
      b.history ++ [.approved id who]⟩ := by
  constructor
  · apply follows_insert rt b.holds b.history _ id _ tracks.follows
    · simp [MailEntry.names]
    · exact holdFollows_approve rt b.history [] id who now r pending may (by simp)
        (found ▸ tracks.follows id)
  · apply lastOpen_insert b.history _ b.holds id r _ tracks.last found pending
      (approvedRecord_parcel rt now who r)
    · simp
    · simp
  · apply legal_append_of_free _ _ _ tracks.legal
    simp [ReleasedAsApproved]

theorem tracks_deliver (b : MailBook) (tracks : MailTracks rt b) (id who : Str) (now : Time)
    (r : HoldRecord) (found : b.holds[id]? = some r) (pending : r.status = .pending)
    (may : mayAct rt r who = true) (done : (approvedRecord rt now who r).status = .approved) :
    MailTracks rt ⟨b.holds.insert id (approvedRecord rt now who r),
      b.history ++ [.approved id who, .delivered id r.parcel]⟩ := by
  constructor
  · apply follows_insert rt b.holds b.history _ id _ tracks.follows
    · simp [MailEntry.names]
    · apply holdFollows_approve rt b.history [.delivered id r.parcel] id who now r pending may _
        (found ▸ tracks.follows id)
      simp
  · apply lastOpen_insert b.history _ b.holds id r _ tracks.last found pending
      (approvedRecord_parcel rt now who r)
    · simp
    · simp [done]
  · have approved := (tracks_approve rt b tracks id who now r found pending may).legal
    have released :=
      released_of_approved rt b.history b.holds id who now r tracks.follows tracks.last found
        pending may done
    have both := (legal_append_singleton _ _ _).mpr ⟨approved, released⟩
    rwa [List.append_assoc] at both

theorem tracks_escalate (b : MailBook) (tracks : MailTracks rt b) (id who : Str) (now : Time)
    (r new : HoldRecord) (found : b.holds[id]? = some r) (pending : r.status = .pending)
    (may : mayAct rt r who = true) (done : (approvedRecord rt now who r).status = .approved)
    (fresh : b.holds[new.id]? = none) (begins : new.status = .pending) (none_ : new.approvedBy = [])
    (same : new.parcel = r.parcel) :
    MailTracks rt ⟨(b.holds.insert id (approvedRecord rt now who r)).insert new.id new,
      b.history ++ [.approved id who, .created new.id new.parcel new.moderators new.requireAll,
        .escalated id new.id]⟩ := by
  have unknown := unknown_of_fresh rt b tracks new.id fresh
  have apart : new.id ≠ id := by
    rintro same
    rw [← same, fresh] at found
    cases found
  have own : HoldFollows rt b.history id (some r) := found ▸ tracks.follows id
  constructor
  · intro other
    dsimp only
    rw [getElem?_insert_hold]
    split
    · rename_i same
      subst same
      apply holdFollows_new rt b.history new _ [.approved id who] unknown begins none_
      · simpa [MailEntry.names] using apart
      · exact Or.inr ⟨id, rfl⟩
      · obtain ⟨-, -, -, -, -, -, root, line⟩ := own
        exact ⟨root, .escalated id new.id (line_mono b.history _ root id line) (by simp)⟩
    · rename_i different
      rw [getElem?_insert_hold]
      split
      · rename_i same
        subst same
        apply holdFollows_approve rt b.history _ id who now r pending may _ own
        simpa [MailEntry.names] using fun same => absurd same.symm apart
      · rename_i elsewhere
        apply holdFollows_append rt b.history _ other _ _ (tracks.follows other)
        simp [MailEntry.names, Ne.symm different, Ne.symm elsewhere]
  · exact lastOpen_escalate b.history b.holds id who r _ new tracks.last found pending done fresh
      unknown
      (approvedRecord_parcel rt now who r) same
  · apply legal_append_of_free _ _ _ tracks.legal
    simp [ReleasedAsApproved]

theorem tracks_close (b : MailBook) (tracks : MailTracks rt b) (id : Str) (r next : HoldRecord)
    (entry : MailEntry) (found : b.holds[id]? = some r) (pending : r.status = .pending)
    (closes : Closes id r next entry) :
    MailTracks rt ⟨b.holds.insert id next, b.history ++ [entry]⟩ := by
  have own := holdFollows_close rt b.history id r next entry closes (found ▸ tracks.follows id)
  obtain ⟨-, kept, -, -, -, ended⟩ := closes
  constructor
  · apply follows_insert rt b.holds b.history _ id _ tracks.follows _ own
    rcases ended with ⟨-, rfl⟩ | ⟨-, rfl⟩ <;> simp [MailEntry.names]
  · apply lastOpen_insert b.history _ b.holds id r _ tracks.last found pending kept
    · rcases ended with ⟨-, rfl⟩ | ⟨-, rfl⟩ <;> simp
    · rcases ended with ⟨-, rfl⟩ | ⟨-, rfl⟩ <;> simp
  · apply legal_append_of_free _ _ _ tracks.legal
    rcases ended with ⟨-, rfl⟩ | ⟨-, rfl⟩ <;> simp [ReleasedAsApproved]

theorem tracks_moves (b b' : MailBook) (moves : MailMoves rt b b') (tracks : MailTracks rt b) :
    MailTracks rt b' := by
  induction moves with
  | refl => exact tracks
  | tail _ move ih =>
      cases move with
      | hold r fresh pending none_ => exact tracks_hold rt _ ih r fresh pending none_
      | pass parcel => exact tracks_pass rt _ ih parcel
      | approve id who now r found pending may =>
          exact tracks_approve rt _ ih id who now r found pending may
      | deliver id who now r found pending may done =>
          exact tracks_deliver rt _ ih id who now r found pending may done
      | escalate id who now r new found pending may done fresh begins none_ same =>
          exact tracks_escalate rt _ ih id who now r new found pending may done fresh begins none_
            same
      | close id r next entry found pending closes =>
          exact tracks_close rt _ ih id r next entry found pending closes

end Moves

section Release

variable (site : Site)

theorem tracks_mailStep (s : MailRun) (event : Call × MailEvent)
    (tracks : MailTracks site.rt s.book) (fresh : FreshHold s event) :
    MailTracks site.rt (mailStep site s event).book := by
  apply tracks_moves site.rt _ _ (moves_mailStep site s event fresh _) tracks
  intro id r found
  have follows := tracks.follows id
  change HoldFollows site.rt s.history id s.engine.holds[id]? at follows
  rw [found] at follows
  exact follows.1

/-- A message that the rules hold is not sent when it comes in, and a new hold has it. When another
message comes in, the upstream gets that message or nothing. -/
def HeldBack (s : MailRun) : Call × MailEvent → Prop
  | (call, .process raw envFrom envTo) =>
      let msg := incoming site call raw envFrom envTo
      let after := (processRaw site call raw envFrom envTo s.engine).2
      if (evaluate site.rt s.engine.rules msg site.localDomains).decision = .hold then
        after.delivered = s.engine.delivered ∧ ∀ r, s.engine.holds[call.id]? = none →
          after.holds[call.id]? = some r → r.parcel = keptParcel site call raw envFrom envTo
      else
        after.delivered = s.engine.delivered ∨
          after.delivered = s.engine.delivered ++ [⟨msg.sender, msg.recipients, raw⟩]
  | _ => True

theorem evaluateLoop_hold (rt : Runtime) (msg : Message) (localDomains : List Str)
    (rules : List Rule) (held : (evaluateLoop rt msg localDomains rules).decision = .hold) :
    ∃ rule, (evaluateLoop rt msg localDomains rules).rule = some rule := by
  induction rules with
  | nil => cases held
  | cons r rest ih =>
      rw [evaluateLoop] at held ⊢
      split
      · rename_i bypass
        rw [if_pos bypass] at held
        split
        · exact ⟨r, rfl⟩
        · rename_i goes
          rw [if_neg goes] at held
          exact ih held
      · rename_i stays
        rw [if_neg stays] at held
        split
        · rename_i goes
          rw [if_pos goes] at held
          exact ih held
        · exact ⟨r, rfl⟩

theorem heldBack (s : MailRun) (event : Call × MailEvent) : HeldBack site s event := by
  obtain ⟨call, event⟩ := event
  cases event with
  | process raw envFrom envTo =>
      show if _ then _ else _
      split
      · rename_i held
        obtain ⟨rule, named⟩ := evaluateLoop_hold _ _ _ _ held
        have quiet :
            (processRaw site call raw envFrom envTo s.engine).2.delivered = s.engine.delivered := by
          rw [processRaw]
          dsimp only
          split
          · split <;> rfl
          · rename_i other
            exact absurd named (other rule held)
        refine ⟨quiet, fun r fresh found => ?_⟩
        rcases processRaw_cases site call s.engine raw envFrom envTo with same | ⟨d, sent⟩ |
          ⟨new, keyed, -, -, kept, put⟩
        · rw [same, fresh] at found
          cases found
        · rw [sent] at found
          dsimp only at found
          rw [fresh] at found
          cases found
        · rw [put] at found
          dsimp only at found
          rw [getElem?_insert_hold, if_pos keyed, Option.some.injEq] at found
          rw [← found, kept]
      · rename_i free
        rw [processRaw]
        dsimp only
        split
        · rename_i held _
          exact absurd held free
        · rcases deliver_cases site call s.engine ⟨_, _, raw⟩ with same | sent
          · left
            rw [same]
          · right
            rw [sent]
  | action => trivial
  | ttl => trivial
  | setRules => trivial

/-- In every run a message that the rules hold is not sent when it comes in, and in place of another
nothing else is sent. Whatever the upstream took is in the history, and there nothing went astray: a
hold is delivered only after every hold of its line was approved, none rejected or expired, and
nothing of it delivered. -/
theorem held_mail_released_as_approved (rules : List Rule) (events : List (Call × MailEvent))
    (fresh : Guarded (mailStep site) FreshHold ⟨{ rules := rules }, []⟩ events) :
    Guarded (mailStep site) (HeldBack site) ⟨{ rules := rules }, []⟩ events ∧
      Always (mailStep site) (fun s => s.history.filterMap MailEntry.taken = s.engine.delivered ∧
        Legal (ReleasedAsApproved site.rt) s.history) ⟨{ rules := rules }, []⟩ events := by
  refine ⟨fun front event _ => heldBack site _ event, ?_⟩
  have start : MailTracks site.rt (⟨{ rules := rules }, []⟩ : MailRun).book := by
    constructor
    · intro id entry member
      cases member
    · intro root id r line
      obtain ⟨entry, member, -⟩ := named_of_line _ root id line
      cases member
    · exact legal_nil _
  have always := always_of_guarded (mailStep site)
    (fun s => s.history.filterMap MailEntry.taken = s.engine.delivered ∧ MailTracks site.rt s.book)
      FreshHold
    (fun s event told fresh =>
      ⟨taken_mailStep site s event told.1, tracks_mailStep site s event told.2 fresh⟩)
    _ events ⟨rfl, start⟩ fresh
  intro front within
  obtain ⟨told, tracks⟩ := always front within
  exact ⟨told, tracks.legal⟩

end Release

section Example

def level1 : Rule :=
  { id := "l1".toList, priority := 1, escalateTo := "l2".toList, level := 1
    conditions := { externalOnly := true }
    moderator := { mode := .static, static := ["m1@c.local".toList] } }

def level2 : Rule :=
  { id := "l2".toList, priority := 2, level := 2, conditions := { externalOnly := true }
    moderator := { mode := .static, static := ["m2@c.local".toList] } }

def noteToOut : Str := "Subject: x\r\n\r\nbody".toList

/-- A runtime that reads this note. -/
def noteRuntime : Runtime :=
  { plainRuntime with
    parseAddress := some
    readMessage := fun raw => if raw = noteToOut then some ([], "x".toList, []) else none }

def noteSite : Site := { rt := noteRuntime, localDomains := ["c.local".toList] }

def noDirectory : Directory := ⟨fun _ => .ok [], fun _ _ => .ok [], fun _ => .ok []⟩

def callAt (id : Str) (now : Time) : Call := { id := id, now := now, dir := noDirectory }

def sendNote : Call × MailEvent :=
  (callAt "h1".toList 0, .process noteToOut "a@c.local".toList ["b@out.com".toList])

def approveHold (fresh holdID moderator : Str) : Call × MailEvent :=
  (callAt fresh 1, .action holdID moderator "approve".toList [])

def twoLevels : MailRun := ⟨{ rules := [level1, level2] }, []⟩

def heldNote : HoldRecord :=
  { id := "h1".toList, ruleID := "l1".toList, sender := "a@c.local".toList
    recipients := ["b@out.com".toList], subject := "x".toList, moderators := ["m1@c.local".toList]
    raw := noteToOut, expiresAt := 72 * 3600000000000, requireAll := false, level := 1 }

def note : Delivery := ⟨"a@c.local".toList, ["b@out.com".toList], noteToOut⟩

theorem sendNote_holds :
    mailStep noteSite twoLevels sendNote =
      ⟨{ rules := [level1, level2], holds := (∅ : Holds).insert "h1".toList heldNote },
        [.created "h1".toList note ["m1@c.local".toList] false, .held "h1".toList]⟩ := by
  rw [mailStep, sendNote]
  dsimp only [mailHandle]
  rw [processRaw]
  dsimp only [twoLevels]
  rw [evaluate_eq _ _ _ _ (by decide)]
  rfl

def noteEvents : List (Call × MailEvent) :=
  [sendNote, approveHold "h2".toList "h1".toList "m1@c.local".toList,
    approveHold "h3".toList "h2".toList "m2@c.local".toList]

/-- The note waits for both levels, and is then delivered. -/
theorem note_released_after_both :
    (noteEvents.foldl (mailStep noteSite) twoLevels).history =
        [.created "h1".toList note ["m1@c.local".toList] false, .held "h1".toList,
          .approved "h1".toList "m1@c.local".toList,
          .created "h2".toList note ["m2@c.local".toList] false, .escalated "h1".toList "h2".toList,
          .approved "h2".toList "m2@c.local".toList, .delivered "h2".toList note] ∧
      (noteEvents.foldl (mailStep noteSite) twoLevels).engine.delivered = [note] ∧
      Always (mailStep noteSite)
        (fun s => s.history.filterMap MailEntry.taken = s.engine.delivered ∧
        Legal (ReleasedAsApproved noteSite.rt) s.history) twoLevels noteEvents := by
  refine ⟨?_, ?_, ?_⟩
  · rw [noteEvents, List.foldl_cons, sendNote_holds]
    rfl
  · rw [noteEvents, List.foldl_cons, sendNote_holds]
    rfl
  · refine (held_mail_released_as_approved noteSite [level1, level2] noteEvents ?_).2
    simp only [noteEvents, guarded_cons]
    refine ⟨rfl, ?_⟩
    change FreshHold (mailStep noteSite twoLevels sendNote) _ ∧
      FreshHold (mailStep noteSite (mailStep noteSite twoLevels sendNote) _) _ ∧ _
    rw [sendNote_holds]
    exact ⟨rfl, rfl, guarded_nil _ _ _⟩

end Example

end EraOne.Mail
