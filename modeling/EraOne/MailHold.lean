import EraOne.MailPolicy

set_option autoImplicit false

/- Mail that waits for its moderators (`hold.go`), and the engine that holds, releases, escalates
and expires it (`engine.go`). Audit records and the mails to moderators are left out: their failures
are ignored. -/
namespace EraOne.Mail

open Scan

/-- Nanoseconds. -/
abbrev Time := Int

section Store

inductive HoldStatus where
  | pending | approved | rejected | expired
  deriving DecidableEq, Repr

def HoldStatus.text : HoldStatus → Str
  | .pending => "pending".toList
  | .approved => "approved".toList
  | .rejected => "rejected".toList
  | .expired => "expired".toList

structure HoldRecord where
  id : Str := []
  status : HoldStatus := .pending
  ruleID : Str
  sender : Str
  recipients : List Str
  subject : Str
  moderators : List Str
  raw : Str
  comment : Str := []
  expiresAt : Time
  createdAt : Time := 0
  updatedAt : Time := 0
  consumedBy : Str := []
  approvedBy : List Str := []
  requireAll : Bool
  level : Int
  deriving DecidableEq

inductive HoldErr where
  | notFound (id : Str)
  | notPending (id : Str) (status : HoldStatus)
  | notAllowed (moderator : Str)
  | commentRequired
  deriving DecidableEq

def HoldErr.text : HoldErr → Str
  | .notFound id => "hold ".toList ++ id ++ " not found".toList
  | .notPending id status => "hold ".toList ++ id ++ " status ".toList ++ status.text
  | .notAllowed moderator => "moderator ".toList ++ moderator ++ " not allowed".toList
  | .commentRequired => "reject comment required".toList

abbrev Holds := StrMap HoldRecord

variable (rt : Runtime)

def containsFold (list : List Str) (who : Str) : Bool := list.any fun m => rt.equalFold m who

def allApproved (need got : List Str) : Bool :=
  (need.all fun m => containsFold rt got m) && !need.isEmpty

def adminName : Str := "admin".toList

/-- `isModerator(...) || moderator == "admin"`. -/
def mayAct (r : HoldRecord) (moderator : Str) : Bool :=
  containsFold rt r.moderators moderator || moderator = adminName

/-- What an accepted approval makes of the record. -/
def approvedRecord (now : Time) (moderator : Str) (r : HoldRecord) : HoldRecord :=
  if r.requireAll ∧ moderator ≠ adminName then
    let approvedBy :=
      if containsFold rt r.approvedBy moderator then r.approvedBy else r.approvedBy ++ [moderator]
    let r := { r with approvedBy := approvedBy, updatedAt := now }
    if !allApproved rt r.moderators r.approvedBy then r
    else { r with status := .approved, consumedBy := moderator }
  else { r with status := .approved, consumedBy := moderator, updatedAt := now }

namespace Holds

/-- `Put` of a record without an id. -/
def put (id : Str) (now : Time) (r : HoldRecord) (holds : Holds) : HoldRecord × Holds :=
  let r := { r with id := id, status := .pending, createdAt := now, updatedAt := now }
  (r, holds.insert id r)

def approve (now : Time) (id moderator : Str) (holds : Holds) : Except HoldErr HoldRecord × Holds :=
  match holds[id]? with
  | none => (.error (.notFound id), holds)
  | some r =>
      if r.status ≠ .pending then (.error (.notPending id r.status), holds)
      else if !mayAct rt r moderator then (.error (.notAllowed moderator), holds)
      else
        let r := approvedRecord rt now moderator r
        (.ok r, holds.insert id r)

def act (now : Time) (id moderator : Str) (status : HoldStatus) (comment : Str) (holds : Holds) :
    Except HoldErr HoldRecord × Holds :=
  match holds[id]? with
  | none => (.error (.notFound id), holds)
  | some r =>
      if r.status ≠ .pending then (.error (.notPending id r.status), holds)
      else if !mayAct rt r moderator then (.error (.notAllowed moderator), holds)
      else
        let r :=
          { r with status := status, comment := comment, consumedBy := moderator, updatedAt := now }
        (.ok r, holds.insert id r)

def reject (now : Time) (id moderator comment : Str) (holds : Holds) :
    Except HoldErr HoldRecord × Holds :=
  if comment = [] then (.error .commentRequired, holds)
  else act rt now id moderator .rejected comment holds

/-- What the pass over the holds makes of a record. -/
def expireRecord (now : Time) (autoApprove : Bool) (r : HoldRecord) : HoldRecord :=
  if autoApprove then { r with status := .approved, updatedAt := now }
  else { r with status := .expired, comment := "ttl expired".toList, updatedAt := now }

/-- `ExpirePending`, in key order: the records it changed, and the store. -/
def expirePending (now : Time) (autoApprove : Bool) (holds : Holds) : List HoldRecord × Holds :=
  holds.toList.foldl (fun done entry =>
    if entry.2.status ≠ .pending ∨ ¬ now > entry.2.expiresAt then done
    else
      let r := expireRecord now autoApprove entry.2
      (done.1 ++ [r], done.2.insert entry.1 r)) ([], holds)

end Holds

end Store

section Engine

/-- What the engine is built with, and whether the upstream and the mailer are set. -/
structure Site where
  rt : Runtime
  localDomains : List Str := []
  upstream : Bool := true
  notify : Bool := true

structure Delivery where
  sender : Str
  recipients : List Str
  raw : Str
  deriving DecidableEq

/-- The rules, the holds, and what the upstream has taken. -/
structure Engine where
  rules : List Rule := []
  holds : Holds := ∅
  delivered : List Delivery := []

/-- The readings of a call: a new id, the clock, the directory and the sender's groups at that time,
and what the upstream and the mailer answer. -/
structure Call where
  id : Str
  now : Time
  dir : Directory
  groups : Str → List Str := fun _ => []
  deliver : Except Failure Unit := .ok ()
  mailer : Except Failure Unit := .ok ()

inductive ActionErr where
  | hold (err : HoldErr)
  | badAction (action : Str)
  | noEscalateTo (id : Str)
  | missingRule (id : Str)
  | failed (text : Failure)
  deriving DecidableEq

/-- `extractAddr` of the engine. -/
def engineAddr (rt : Runtime) (s : Str) : Str := rt.lower (extractAddr rt s)

def firstNonEmpty (a b : Str) : Str := if trim a ≠ [] then a else b

def subjectPrefix : Str := "subject:".toList

/-- The first line that begins with `subject:`. -/
def crudeSubject (rt : Runtime) (text : Str) : Str :=
  match (splitAll ['\n'] text).find? fun line => subjectPrefix.isPrefixOf (rt.lower line) with
  | some line => trim (dropBytes line 8)
  | none => []

def parseMessage (rt : Runtime) (raw envFrom : Str) (envTo : List Str) : Message :=
  let system := fun sender => contains "mailer-daemon".toList (rt.lower sender)
  match rt.readMessage raw with
  | some (headerFrom, subject, headerTo) =>
      let sender := firstNonEmpty headerFrom envFrom
      { sender := sender, subject := subject, body := raw, isSystem := system sender
        recipients := if envTo = [] ∧ headerTo ≠ [] then [headerTo] else envTo }
  | none =>
      { sender := envFrom, recipients := envTo, subject := crudeSubject rt raw, body := raw
        isSystem := system envFrom }

def ruleByID (rules : List Rule) (id : Str) : Option Rule := rules.find? fun r => r.id = id

variable (site : Site) (call : Call)

/-- `Upstream.Deliver`, if there is an upstream. -/
def Engine.deliver (d : Delivery) (e : Engine) : Except ActionErr Unit × Engine :=
  if !site.upstream then (.ok (), e)
  else
    match call.deliver with
    | .ok () => (.ok (), { e with delivered := e.delivered ++ [d] })
    | .error text => (.error (.failed text), e)

/-- The record that a message is held with under a rule. -/
def heldRecord (rule : Rule) (sender : Str) (recipients : List Str) (subject raw : Str)
    (moderators : List Str) (level : Int) : HoldRecord where
  ruleID := rule.id
  sender := sender
  recipients := recipients
  subject := subject
  moderators := moderators
  requireAll := rule.moderator.mode = .allOf
  level := level
  raw := raw
  expiresAt := call.now + effectiveTTL rule

/-- The message that `ProcessRaw` evaluates. -/
def incoming (raw envFrom : Str) (envTo : List Str) : Message :=
  let msg := parseMessage site.rt raw envFrom envTo
  { msg with senderGroups := call.groups msg.sender }

/-- `ProcessRaw`: the decision and the id of the hold, empty if there is none. -/
def processRaw (raw envFrom : Str) (envTo : List Str) (e : Engine) :
    (Decision × Except ActionErr Str) × Engine :=
  let msg := incoming site call raw envFrom envTo
  let res := evaluate site.rt e.rules msg site.localDomains
  match res.decision, res.rule with
  | .hold, some rule =>
      match resolveModerators site.rt call.dir (engineAddr site.rt msg.sender) rule.moderator with
      | .error text => ((.hold, .error (.failed text)), e)
      | .ok mods =>
          let put :=
            e.holds.put call.id call.now (heldRecord call rule (engineAddr site.rt msg.sender)
            msg.recipients msg.subject raw mods rule.level)
          ((.hold, .ok put.1.id), { e with holds := put.2 })
  | decision, _ =>
      let sent := e.deliver site call ⟨msg.sender, msg.recipients, raw⟩
      ((decision, sent.1.map fun _ => []), sent.2)

/-- The level of an escalated hold. -/
def nextLevel (next : Rule) (r : HoldRecord) : Int :=
  if next.level = 0 ∨ next.level ≤ r.level then r.level + 1 else next.level

/-- `Escalate`: the id of the new hold. -/
def Engine.escalate (holdID : Str) (e : Engine) : Except ActionErr Str × Engine :=
  match e.holds[holdID]? with
  | none => (.error (.hold (.notFound holdID)), e)
  | some r =>
      match ruleByID e.rules r.ruleID with
      | none => (.error (.noEscalateTo holdID), e)
      | some rule =>
          if trim rule.escalateTo = [] then (.error (.noEscalateTo holdID), e)
          else
            match ruleByID e.rules rule.escalateTo with
            | none => (.error (.missingRule rule.escalateTo), e)
            | some next =>
                match resolveModerators site.rt call.dir
                  (engineAddr site.rt r.sender) next.moderator with
                | .error text => (.error (.failed text), e)
                | .ok mods =>
                    let put :=
                      e.holds.put call.id call.now (heldRecord call next r.sender r.recipients
                      r.subject r.raw mods (nextLevel next r))
                    (.ok put.1.id, { e with holds := put.2 })

/-- The rule of the hold names another one to escalate to. -/
def escalates (rules : List Rule) (ruleID : Str) : Bool :=
  (ruleByID rules ruleID).any fun rule => trim rule.escalateTo ≠ []

/-- `approve` of `ApplyAction` once the hold is approved. -/
def Engine.release (holdID : Str) (r : HoldRecord) (e : Engine) : Except ActionErr Unit × Engine :=
  if escalates e.rules r.ruleID then
    let escalated := e.escalate site call holdID
    (escalated.1.map fun _ => (), escalated.2)
  else e.deliver site call ⟨r.sender, r.recipients, r.raw⟩

def applyApprove (holdID moderator : Str) (e : Engine) : Except ActionErr Unit × Engine :=
  let approved := e.holds.approve site.rt call.now holdID moderator
  let e := { e with holds := approved.2 }
  match approved.1 with
  | .error err => (.error (.hold err), e)
  | .ok r => if r.status ≠ .approved then (.ok (), e) else e.release site call holdID r

def applyReject (holdID moderator comment : Str) (e : Engine) : Except ActionErr Unit × Engine :=
  let rejected := e.holds.reject site.rt call.now holdID moderator comment
  let e := { e with holds := rejected.2 }
  match rejected.1 with
  | .error err => (.error (.hold err), e)
  | .ok _ =>
      if !site.notify then (.ok (), e)
      else
        match call.mailer with
        | .ok () => (.ok (), e)
        | .error text => (.error (.failed text), e)

def applyAction (holdID moderator action comment : Str) (e : Engine) :
    Except ActionErr Unit × Engine :=
  let action := site.rt.lower action
  if action = "approve".toList then applyApprove site call holdID moderator e
  else if action = "reject".toList then applyReject site call holdID moderator comment e
  else (.error (.badAction action), e)

/-- `RunTTL`: the holds that expired. -/
def runTTL (e : Engine) : List HoldRecord × Engine :=
  let expired := e.holds.expirePending call.now false
  (expired.1, { e with holds := expired.2 })

end Engine

end EraOne.Mail
