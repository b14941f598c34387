import EraOne.MailRelease

set_option autoImplicit false

/- The links that moderators are sent (`handleAction` of the admin API, `Tokens` of `notify.go`): a
request takes its token, then acts on the hold. It changes something without an answer of success
exactly if the token is good and the action cannot be carried out to its end. -/
namespace EraOne.Mail

open Scan

section Model

structure Claims where
  holdID : Str
  moderator : Str
  action : Str
  exp : Int
  deriving DecidableEq

/-- The signature of a payload under the secret, and the readers of base64 and of the claims. -/
structure TokenCodec where
  sign : Str → Str
  decode : Str → Except Failure Str
  unmarshal : Str → Except Failure Claims

inductive TokenErr where
  | malformed
  | badSignature
  | badPayload (text : Failure)
  | expired
  | alreadyUsed
  deriving DecidableEq

def TokenErr.text : TokenErr → Str
  | .malformed => "malformed token".toList
  | .badSignature => "bad signature".toList
  | .badPayload text => text
  | .expired => "token expired".toList
  | .alreadyUsed => "token already used".toList

/-- `%q` is given. -/
def ActionErr.text (quote : Str → Str) : ActionErr → Str
  | .hold err => err.text
  | .badAction action => "bad action ".toList ++ quote action
  | .noEscalateTo id => "hold ".toList ++ id ++ " has no escalate_to".toList
  | .missingRule id => "escalate_to rule ".toList ++ quote id ++ " missing".toList
  | .failed text => text

/-- `Unix()`. -/
def unixSeconds (now : Time) : Int := now / 1000000000

/-- The checks of `Consume` before the token is looked up. -/
def readToken (codec : TokenCodec) (now : Time) (token : Str) : Except TokenErr Claims :=
  match splitAll ['.'] token with
  | [payload, sig] =>
      if codec.sign payload ≠ sig then .error .badSignature
      else
        match codec.decode payload with
        | .error text => .error (.badPayload text)
        | .ok raw =>
            match codec.unmarshal raw with
            | .error text => .error (.badPayload text)
            | .ok claims => if unixSeconds now > claims.exp then .error .expired else .ok claims
  | _ => .error .malformed

def consume (codec : TokenCodec) (now : Time) (token : Str) (used : List Str) :
    Except TokenErr Claims × List Str :=
  match readToken codec now token with
  | .error e => (.error e, used)
  | .ok claims => if token ∈ used then (.error .alreadyUsed, used) else (.ok claims, token :: used)

/-- The engine and the tokens that were used. -/
structure Desk where
  engine : Engine
  used : List Str := []

/-- The query values, and the form value that stands in for an empty comment. -/
structure ActionRequest where
  token : Str
  comment : Str := []
  form : Str := []

inductive Answer where
  | tokenRequired
  | forbidden (err : TokenErr)
  | failed (err : ActionErr)
  | done (action : Str)
  deriving DecidableEq

def Answer.code : Answer → Nat
  | .tokenRequired => 400
  | .forbidden _ => 403
  | .failed _ => 400
  | .done _ => 200

def Answer.body (quote : Str → Str) : Answer → Str
  | .tokenRequired => "token required\n".toList
  | .forbidden err => err.text ++ ['\n']
  | .failed err => err.text quote ++ ['\n']
  | .done action => action ++ " ok".toList

def Answer.isError (answer : Answer) : Prop := answer.code ≠ 200

/-- The comment of a request. -/
def ActionRequest.reason (req : ActionRequest) (action : Str) : Str :=
  if action = "reject".toList ∧ req.comment = [] then req.form else req.comment

def handleAction (codec : TokenCodec) (site : Site) (call : Call) (req : ActionRequest) (s : Desk) :
    Answer × Desk :=
  if req.token = [] then (.tokenRequired, s)
  else
    let consumed := consume codec call.now req.token s.used
    let s := { s with used := consumed.2 }
    match consumed.1 with
    | .error err => (.forbidden err, s)
    | .ok claims =>
        let acted := applyAction site call claims.holdID claims.moderator claims.action
          (req.reason claims.action) s.engine
        let s := { s with engine := acted.2 }
        match acted.1 with
        | .error err => (.failed err, s)
        | .ok () => (.done claims.action, s)

end Model

section Conditions

variable (site : Site) (call : Call)

/-- The approvals of a hold with one more. -/
def withApproval (rt : Runtime) (r : HoldRecord) (moderator : Str) : List Str :=
  if containsFold rt r.approvedBy moderator then r.approvedBy else r.approvedBy ++ [moderator]

/-- The approval is one of many and more are needed. -/
def PartialApproval (rt : Runtime) (r : HoldRecord) (moderator : Str) : Prop :=
  (r.requireAll = true ∧ moderator ≠ adminName) ∧
    allApproved rt r.moderators (withApproval rt r moderator) = false

/-- The rule that the hold's rule escalates to is there and its moderators can be found. -/
def EscalationResolves (rules : List Rule) (r : HoldRecord) : Prop :=
  ∃ rule next mods, ruleByID rules r.ruleID = some rule ∧
    ruleByID rules rule.escalateTo = some next ∧
    resolveModerators site.rt call.dir (engineAddr site.rt r.sender) next.moderator = .ok mods

/-- The message of an approved hold can go on: to the next hold, or to the upstream. -/
def CanRelease (rules : List Rule) (r : HoldRecord) : Prop :=
  if escalates rules r.ruleID then EscalationResolves site call rules r
  else site.upstream = true → call.deliver = .ok ()

/-- The hold waits, and the moderator may act on it. -/
def OpenTo (rt : Runtime) (holds : Holds) (holdID moderator : Str) (r : HoldRecord) : Prop :=
  holds[holdID]? = some r ∧ r.status = .pending ∧ mayAct rt r moderator = true

/-- What an action needs to be carried out. -/
def CanAct (holdID moderator action comment : Str) (e : Engine) : Prop :=
  (site.rt.lower action = "approve".toList ∧ ∃ r, OpenTo site.rt e.holds holdID moderator r ∧
    (PartialApproval site.rt r moderator ∨ CanRelease site call e.rules r)) ∨
  (site.rt.lower action = "reject".toList ∧ comment ≠ [] ∧
    (∃ r, OpenTo site.rt e.holds holdID moderator r) ∧
    (site.notify = true → call.mailer = .ok ()))

end Conditions

section Actions

variable (site : Site) (call : Call) (e : Engine)

theorem approvedRecord_eq (rt : Runtime) (now : Time) (who : Str) (r : HoldRecord) :
    approvedRecord rt now who r =
      { r with
        status := (approvedRecord rt now who r).status,
          approvedBy := (approvedRecord rt now who r).approvedBy
        consumedBy := (approvedRecord rt now who r).consumedBy, updatedAt := now } := by
  rcases approvedRecord_cases rt now who r with ⟨got, -, -, part | ⟨-, whole⟩⟩ | ⟨-, alone⟩
  · rw [part]
  · rw [whole]
  · rw [alone]

theorem approvedRecord_approved_iff (rt : Runtime) (now : Time) (who : Str) (r : HoldRecord)
    (pending : r.status = .pending) :
    (approvedRecord rt now who r).status = .approved ↔ ¬ PartialApproval rt r who := by
  rw [approvedRecord, PartialApproval]
  by_cases many : r.requireAll = true ∧ who ≠ adminName
  · rw [if_pos many, and_iff_right many]
    change (if !allApproved rt r.moderators (withApproval rt r who) then
      ({ r with approvedBy := withApproval rt r who, updatedAt := now } : HoldRecord)
      else _).status = .approved ↔ _
    cases allApproved rt r.moderators (withApproval rt r who) with
    | false =>
        rw [if_pos (by decide), pending]
        simp
    | true =>
        rw [if_neg (by decide)]
        simp
  · rw [if_neg many]
    simp [many]

theorem deliver_isOk_iff (d : Delivery) :
    (e.deliver site call d).1.isOk = true ↔ (site.upstream = true → call.deliver = .ok ()) := by
  rw [Engine.deliver]
  cases site.upstream with
  | false => simp [Except.isOk, Except.toBool]
  | true =>
      rw [if_neg (by decide)]
      split
      · rename_i sent
        simp [sent, Except.isOk, Except.toBool]
      · rename_i refused
        simp [refused, Except.isOk, Except.toBool]

theorem escalate_isOk_iff (holdID : Str) (r : HoldRecord) (found : e.holds[holdID]? = some r)
    (goes : escalates e.rules r.ruleID = true) :
    (e.escalate site call holdID).1.isOk = true ↔ EscalationResolves site call e.rules r := by
  rw [escalates, Option.any_eq_true] at goes
  obtain ⟨rule, named, more⟩ := goes
  rw [decide_eq_true_eq] at more
  rw [Engine.escalate, found]
  dsimp only
  rw [named]
  dsimp only
  rw [if_neg more]
  constructor
  · intro ok
    split at ok
    · cases ok
    · rename_i next target
      split at ok
      · cases ok
      · rename_i mods resolved
        exact ⟨rule, next, mods, named, target, resolved⟩
  · rintro ⟨other, next, mods, same, target, resolved⟩
    cases named.symm.trans same
    rw [target]
    dsimp only
    rw [resolved]
    rfl

theorem isOk_map {ε α β : Type} (f : α → β) (result : Except ε α) :
    (result.map f).isOk = result.isOk := by
  cases result <;> rfl

theorem release_isOk_iff (holdID : Str) (r : HoldRecord) (found : e.holds[holdID]? = some r) :
    (e.release site call holdID r).1.isOk = true ↔ CanRelease site call e.rules r := by
  rw [Engine.release, CanRelease]
  by_cases goes : escalates e.rules r.ruleID = true
  · rw [if_pos goes, if_pos goes, isOk_map]
    exact escalate_isOk_iff site call e holdID r found goes
  · rw [if_neg goes, if_neg goes]
    exact deliver_isOk_iff site call e _

/-- The checks that come before an approval or a rejection. -/
theorem openTo_of_accepted (rt : Runtime) (holds : Holds) (holdID who : Str) (r : HoldRecord)
    (found : holds[holdID]? = some r) (pending : ¬ r.status ≠ .pending)
    (may : ¬ (!mayAct rt r who) = true) :
    OpenTo rt holds holdID who r :=
  ⟨found, not_not.mp pending, by simpa using may⟩

theorem approve_openTo (rt : Runtime) (holds : Holds) (now : Time) (holdID who : Str)
    (r : HoldRecord) (open_ : OpenTo rt holds holdID who r) :
    holds.approve rt now holdID who =
      (.ok (approvedRecord rt now who r), holds.insert holdID (approvedRecord rt now who r)) := by
  obtain ⟨found, pending, may⟩ := open_
  rw [Holds.approve, found]
  dsimp only
  rw [if_neg (not_not.mpr pending), may]
  rfl

theorem applyApprove_isOk_iff (holdID who : Str) :
    (applyApprove site call holdID who e).1.isOk = true ↔
      ∃ r, OpenTo site.rt e.holds holdID who r ∧
        (PartialApproval site.rt r who ∨ CanRelease site call e.rules r) := by
  rcases approve_cases site.rt e.holds call.now holdID
      who with ⟨refused, -⟩ | ⟨r, found, pending, may, given⟩
  · constructor
    · intro ok
      rw [applyApprove] at ok
      split at ok
      · cases ok
      · rename_i r accepted
        rw [accepted] at refused
        cases refused
    · rintro ⟨r, open_, -⟩
      rw [approve_openTo site.rt e.holds call.now holdID who r open_] at refused
      cases refused
  · have only : (∃ q, OpenTo site.rt e.holds holdID who q ∧
        (PartialApproval site.rt q who ∨ CanRelease site call e.rules q)) ↔
        PartialApproval site.rt r who ∨ CanRelease site call e.rules r := by
      constructor
      · rintro ⟨q, ⟨same, -⟩, goes⟩
        cases found.symm.trans same
        exact goes
      · exact fun goes => ⟨r, ⟨found, pending, may⟩, goes⟩
    rw [only, applyApprove, given]
    dsimp only
    by_cases done : (approvedRecord site.rt call.now who r).status = .approved
    · rw [if_neg (not_not.mpr done),
        or_iff_right ((approvedRecord_approved_iff site.rt call.now who r pending).mp done),
        release_isOk_iff site call _ holdID _ (by rw [getElem?_insert_hold, if_pos rfl]),
        approvedRecord_eq]
      rfl
    · rw [if_pos done]
      have few :=
        not_not.mp (mt (approvedRecord_approved_iff site.rt call.now who r pending).mpr done)
      exact iff_of_true rfl (Or.inl few)

theorem act_isOk_iff (rt : Runtime) (holds : Holds) (now : Time) (holdID who : Str)
    (status : HoldStatus) (comment : Str) :
    (holds.act rt now holdID who status comment).1.isOk = true ↔
    ∃ r, OpenTo rt holds holdID who r := by
  rw [Holds.act]
  constructor
  · intro ok
    split at ok
    · cases ok
    · rename_i r found
      split at ok
      · cases ok
      · rename_i pending
        split at ok
        · cases ok
        · rename_i may
          exact ⟨r, openTo_of_accepted rt holds holdID who r found pending may⟩
  · rintro ⟨r, found, pending, may⟩
    rw [found]
    dsimp only
    rw [if_neg (not_not.mpr pending), may]
    rfl

theorem applyReject_isOk_iff (holdID who comment : Str) :
    (applyReject site call holdID who comment e).1.isOk = true ↔
      comment ≠ [] ∧ (∃ r, OpenTo site.rt e.holds holdID who r) ∧
        (site.notify = true → call.mailer = .ok ()) := by
  have rejects : (e.holds.reject site.rt call.now holdID who comment).1.isOk = true ↔
      comment ≠ [] ∧ ∃ r, OpenTo site.rt e.holds holdID who r := by
    rw [Holds.reject]
    by_cases blank : comment = []
    · rw [if_pos blank]
      exact iff_of_false (by simp [Except.isOk, Except.toBool]) (fun both => both.1 blank)
    · rw [if_neg blank, act_isOk_iff, and_iff_right blank]
  rw [← and_assoc, ← rejects, applyReject]
  split
  · rename_i err refused
    rw [refused]
    exact iff_of_false (by simp [Except.isOk, Except.toBool]) (fun both => by cases both.1)
  · rename_i r accepted
    rw [accepted,
      and_iff_right (show (Except.ok r : Except HoldErr HoldRecord).isOk = true from rfl)]
    cases site.notify with
    | false => simp [Except.isOk, Except.toBool]
    | true =>
        rw [if_neg (by decide)]
        split
        · rename_i sent
          simp [sent, Except.isOk, Except.toBool]
        · rename_i failed
          simp [failed, Except.isOk, Except.toBool]

theorem applyAction_isOk_iff (holdID who action comment : Str) :
    (applyAction site call holdID who action comment e).1.isOk = true ↔
      CanAct site call holdID who action comment e := by
  rw [applyAction, CanAct]
  by_cases approve : site.rt.lower action = "approve".toList
  · have other : site.rt.lower action ≠ "reject".toList := by
      rw [approve]
      decide
    rw [if_pos approve, applyApprove_isOk_iff, or_iff_left fun both => other both.1,
      and_iff_right approve]
  · rw [if_neg approve, or_iff_right fun both => approve both.1]
    by_cases reject : site.rt.lower action = "reject".toList
    · rw [if_pos reject, applyReject_isOk_iff, and_iff_right reject]
    · rw [if_neg reject]
      exact iff_of_false Bool.false_ne_true fun both => reject both.1

end Actions

section Atomicity

variable (codec : TokenCodec) (site : Site) (call : Call) (req : ActionRequest) (s : Desk)

/-- A request with an error for an answer changes neither the holds nor the used tokens. -/
def FailsClean : Prop :=
  (handleAction codec site call req s).1.isError →
    (handleAction codec site call req s).2.engine.holds = s.engine.holds ∧
      (handleAction codec site call req s).2.used = s.used

/-- The request has a good token that was not used, and what the token says cannot be carried
out. -/
def Misfires : Prop :=
  ∃ claims, readToken codec call.now req.token = .ok claims ∧ req.token ∉ s.used ∧
    ¬ CanAct site call claims.holdID claims.moderator claims.action
      (req.reason claims.action) s.engine

theorem readToken_nonempty (now : Time) (token : Str) (claims : Claims)
    (reads : readToken codec now token = .ok claims) : token ≠ [] := by
  rintro rfl
  cases reads

/-- A request that fails leaves the holds and the tokens as they were, except exactly when its token
is good and its action cannot be carried out: the token is then used up, and an approved hold may
stay undelivered. -/
theorem failed_action_clean_iff :
    FailsClean codec site call req s ↔ ¬ Misfires codec site call req s := by
  rw [FailsClean, Misfires, handleAction]
  by_cases blank : req.token = []
  · rw [if_pos blank]
    refine iff_of_true (fun _ => ⟨rfl, rfl⟩) ?_
    rintro ⟨claims, reads, -⟩
    exact readToken_nonempty codec call.now req.token claims reads blank
  · rw [if_neg blank, consume]
    cases reads : readToken codec call.now req.token with
    | error err =>
        refine iff_of_true (fun _ => ⟨rfl, rfl⟩) ?_
        rintro ⟨claims, read, -⟩
        cases read
    | ok claims =>
        dsimp only
        by_cases used : req.token ∈ s.used
        · rw [if_pos used]
          refine iff_of_true (fun _ => ⟨rfl, rfl⟩) ?_
          rintro ⟨_, -, unused, -⟩
          exact unused used
        · rw [if_neg used]
          dsimp only
          have acts :=
            applyAction_isOk_iff site call s.engine claims.holdID claims.moderator claims.action
              (req.reason claims.action)
          generalize applyAction site call claims.holdID claims.moderator claims.action
            (req.reason claims.action) s.engine = acted at acts ⊢
          obtain ⟨result, after⟩ := acted
          cases result with
          | ok _ =>
              refine iff_of_true (fun error => absurd rfl error) ?_
              rintro ⟨other, read, -, cannot⟩
              cases read
              exact cannot (acts.mp rfl)
          | error err =>
              -- the token was added, so that the state is not the one before
              refine iff_of_false (fun clean => ?_) (not_not.mpr ⟨claims, rfl, used, fun can => ?_⟩)
              · have same := (clean (show (400 : Nat) ≠ 200 by decide)).2
                exact List.cons_ne_self req.token s.used same
              · cases acts.mpr can

end Atomicity

section Example

def approvePayload : Str :=
  "eyJoIjoiaDEiLCJtIjoibTJAYy5sb2NhbCIsImEiOiJhcHByb3ZlIiwiZSI6ODY0MDB9".toList

def approveSignature : Str := "erBbMVd1izh1NfEC7MPm8MBKox0x_4CWe0VkxT_dXdQ".toList

def approveClaims : Claims := ⟨"h1".toList, "m2@c.local".toList, "approve".toList, 86400⟩

/-- The secret is `x`, and only this payload is read. -/
def oneTokenCodec : TokenCodec where
  sign := fun payload => if payload = approvePayload then approveSignature else []
  decode := fun payload => if payload = approvePayload then
    .ok "\x7b\"h\":\"h1\",\"m\":\"m2@c.local\",\"a\":\"approve\",\"e\":86400\x7d".toList
      else .error []
  unmarshal := fun _ => .ok approveClaims

def approveRequest : ActionRequest := { token := approvePayload ++ ['.'] ++ approveSignature }

/-- A hold that waits for its last approval. -/
def lastLevel : Desk where
  engine :=
    { rules := [level2]
      holds := (∅ : Holds).insert "h1".toList
        { heldNote with ruleID := "l2".toList, moderators := ["m2@c.local".toList] } }

def upstreamDown : Call :=
  { callAt "h2".toList 1 with deliver := .error "connection refused".toList }

/-- The upstream is down for one request: the hold stays approved, the mail is not delivered, and
the same request is refused afterwards. -/
theorem upstream_down_strands_mail :
    (handleAction oneTokenCodec noteSite upstreamDown approveRequest
      lastLevel).2.engine.holds["h1".toList]?.map
        HoldRecord.status = some .approved ∧
      (handleAction oneTokenCodec noteSite upstreamDown approveRequest
        lastLevel).2.engine.delivered = [] ∧
      (handleAction oneTokenCodec noteSite (callAt "h2".toList 2) approveRequest
        (handleAction oneTokenCodec noteSite upstreamDown approveRequest lastLevel).2).1 =
          .forbidden .alreadyUsed ∧
      ¬ ∀ (codec : TokenCodec) (site : Site) (call : Call) (req : ActionRequest) (s : Desk),
        FailsClean codec site call req s := by
  refine ⟨rfl, rfl, rfl, fun clean => ?_⟩
  have failed :
      (handleAction oneTokenCodec noteSite upstreamDown approveRequest lastLevel).1.isError :=
    show (400 : Nat) ≠ 200 by decide
  have same := (clean oneTokenCodec noteSite upstreamDown approveRequest lastLevel failed).2
  cases same

end Example

end EraOne.Mail
