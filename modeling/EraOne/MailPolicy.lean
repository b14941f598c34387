import EraOne.Search

set_option autoImplicit false

/- The rules of `mail-moderation` (`policy.go`, `resolve.go`): which rule decides a message, and who
moderates it. Case tables, mail headers and regular expressions are those of the runtime. -/
namespace EraOne.Mail

open Scan

/-- `strings.ToLower`, `strings.EqualFold`, the address of `mail.ParseAddress`, the headers `From`,
`Subject` and `To` of `mail.ReadMessage`, and a case-insensitive match, none if the expression does
not compile. -/
structure Runtime where
  lower : Str → Str
  equalFold : Str → Str → Bool
  parseAddress : Str → Option Str
  readMessage : Str → Option (Str × Str × Str)
  regexMatch : Str → Str → Option Bool

section Policy

inductive Decision where
  | pass | hold | bypass
  deriving DecidableEq, Repr

inductive ModeratorMode where
  | manager | static | ldapAttr | curatorMap | allOf
  | other (text : Str)
  deriving DecidableEq

structure Conditions where
  senderGroups : List Str := []
  externalOnly : Bool := false
  internalAlso : Bool := false
  keywords : List Str := []
  keywordRegex : List Str := []
  recipientAddrs : List Str := []
  recipientDomains : List Str := []
  hasAttachment : Option Bool := none
  maxAttachmentKB : Int := 0
  attachmentExtAllow : List Str := []
  attachmentExtDeny : List Str := []
  bypassSenders : List Str := []
  bypassGroups : List Str := []
  excludeSystem : Bool := false
  moderatedRecipients : List Str := []
  dlpTrigger : List Str := []
  nlpSuspicious : Option Bool := none
  deriving DecidableEq

structure ModeratorSpec where
  mode : ModeratorMode
  static : List Str := []
  ldapAttr : Str := []
  fallback : List Str := []
  deriving DecidableEq

structure Rule where
  id : Str
  priority : Int
  stopProcessing : Bool := false
  conditions : Conditions := {}
  moderator : ModeratorSpec
  ttlHours : Int := 0
  notifyOnHold : Option Bool := none
  level : Int := 0
  escalateTo : Str := []
  deriving DecidableEq

structure Message where
  sender : Str
  recipients : List Str
  subject : Str
  body : Str
  hasAttachment : Bool := false
  attachmentExts : List Str := []
  attachmentSizeKB : Int := 0
  senderGroups : List Str := []
  isSystem : Bool := false
  authenticated : Bool := true
  deriving DecidableEq

structure Result where
  decision : Decision
  ruleID : Str := []
  rule : Option Rule := none
  deriving DecidableEq

variable (rt : Runtime)

/-- `policy.extractAddr`. -/
def extractAddr (s : Str) : Str := (rt.parseAddress (trim s)).getD (trim s)

def intersectsFold (a b : List Str) : Bool := a.any fun x => b.any fun y => rt.equalFold x y

/-- The part after the first `@`, if there is one. -/
def domainOf (address : Str) : Option Str := (splitOnce ['@'] address).map Prod.snd

def matchBypass (c : Conditions) (msg : Message) : Bool :=
  let sender := rt.lower (extractAddr rt msg.sender)
  (c.bypassSenders.any fun s => rt.equalFold (extractAddr rt s) sender) ||
    intersectsFold rt c.bypassGroups msg.senderGroups

def matchKeywords (blob : Str) (kws regs : List Str) : Bool :=
  let lower := rt.lower blob
  (kws.any fun k => k ≠ [] && contains (rt.lower k) lower) ||
    (regs.any fun r => (rt.regexMatch r blob).getD false) || (kws.isEmpty && regs.isEmpty)

def matchRecipients (recipients addrs domains : List Str) : Bool :=
  recipients.any fun t =>
    let a := rt.lower (extractAddr rt t)
    (addrs.any fun want => a = rt.lower (extractAddr rt want)) ||
      domains.any fun d => rt.equalFold ((domainOf a).getD []) d

def isExternal (recipients localDomains : List Str) : Bool :=
  recipients.any fun t =>
    match domainOf (rt.lower (extractAddr rt t)) with
    | none => false
    | some domain => !localDomains.any fun ld => rt.equalFold domain ld

def suspiciousPhrases : List Str :=
  ["urgent wire", "gift card", "password reset", "click here now", "bitcoin"].map String.toList

def defaultSuspicious (blob : Str) : Bool :=
  suspiciousPhrases.any fun k => contains k (rt.lower blob)

/-- `matchConditions` after the checks of the attachment's size: a denied extension matches at
once. -/
def matchExtensions (c : Conditions) (msg : Message) : Bool :=
  if c.attachmentExtDeny ≠ [] ∧ intersectsFold rt msg.attachmentExts c.attachmentExtDeny then true
  else !(c.attachmentExtAllow ≠ [] ∧ msg.hasAttachment) ||
    intersectsFold rt msg.attachmentExts c.attachmentExtAllow

def matchConditions (c : Conditions) (msg : Message) (localDomains : List Str) : Bool :=
  let external := isExternal rt msg.recipients localDomains
  let blob := msg.subject ++ ['\n'] ++ msg.body
  if c.excludeSystem ∧ msg.isSystem then false
  else if c.senderGroups ≠ [] ∧ !intersectsFold rt c.senderGroups msg.senderGroups then false
  else if c.externalOnly ∧ !c.internalAlso ∧ !external then false
  else if (c.keywords ≠ [] ∨ c.keywordRegex ≠ []) ∧
    !matchKeywords rt blob c.keywords c.keywordRegex then false
  else if (c.recipientAddrs ≠ [] ∨ c.recipientDomains ≠ []) ∧
      !matchRecipients rt msg.recipients c.recipientAddrs c.recipientDomains then false
  else if c.moderatedRecipients ≠ [] ∧
      !matchRecipients rt msg.recipients c.moderatedRecipients [] then false
  else if c.dlpTrigger ≠ [] ∧ !matchKeywords rt blob c.dlpTrigger [] then false
  else if c.nlpSuspicious = some true ∧ !defaultSuspicious rt blob then false
  else if c.hasAttachment.any fun wanted => msg.hasAttachment ≠ wanted then false
  else if c.maxAttachmentKB > 0 ∧ msg.attachmentSizeKB > c.maxAttachmentKB then false
  else matchExtensions rt c msg

/-- The loop of `Evaluate` over the sorted rules. -/
def evaluateLoop (msg : Message) (localDomains : List Str) : List Rule → Result
  | [] => { decision := .pass }
  | r :: rest =>
      if matchBypass rt r.conditions msg then
        if r.stopProcessing then { decision := .bypass, ruleID := r.id, rule := some r }
        else evaluateLoop msg localDomains rest
      else if !matchConditions rt r.conditions msg localDomains then
        evaluateLoop msg localDomains rest
      else { decision := .hold, ruleID := r.id, rule := some r }

/-- `Evaluate`; `sort.SliceStable` is the stable merge sort. -/
def evaluate (rules : List Rule) (msg : Message) (localDomains : List Str) : Result :=
  evaluateLoop rt msg localDomains (rules.mergeSort fun a b => a.priority ≤ b.priority)

inductive DocumentErr where
  | missingID
  | duplicateID (id : Str)
  deriving DecidableEq

def validateLoop : List Rule → List Str → Except DocumentErr Unit
  | [], _ => .ok ()
  | r :: rest, seen =>
      if r.id = [] then .error .missingID
      else if r.id ∈ seen then .error (.duplicateID r.id)
      else validateLoop rest (r.id :: seen)

def validateDocument (rules : List Rule) : Except DocumentErr Unit := validateLoop rules []

/-- Nanoseconds; a `time.Duration` wraps at 64 bits. -/
def effectiveTTL (r : Rule) : Int :=
  if r.ttlHours ≤ 0 then 72 * 3600000000000 else (r.ttlHours * 3600000000000).bmod (2 ^ 64)

def notifyOnHoldDefault (r : Rule) : Bool := r.notifyOnHold.getD true

end Policy

section Resolver

/-- What a failed call says, where it only passes the message on. -/
abbrev Failure := Str

/-- `Directory`: a lookup fails or finds an address, empty if there is none. -/
structure Directory where
  manager : Str → Except Failure Str
  attr : Str → Str → Except Failure Str
  curator : Str → Except Failure Str

def found (lookup : Except Failure Str) : Except Failure (List Str) :=
  lookup.map fun address => if address ≠ [] then [address] else []

def ModeratorMode.text : ModeratorMode → Str
  | .manager => "manager".toList
  | .static => "static".toList
  | .ldapAttr => "ldap_attr".toList
  | .curatorMap => "curator_map".toList
  | .allOf => "all_of".toList
  | .other text => text

/-- `Resolve`: the moderators of the sender, one or more. -/
def resolveModerators (rt : Runtime) (dir : Directory) (sender : Str) (spec : ModeratorSpec) :
    Except Failure (List Str) := do
  let sender := rt.lower (trim sender)
  let out ← match spec.mode with
    | .static | .allOf => pure spec.static
    | .manager => found (dir.manager sender)
    | .ldapAttr =>
        if spec.ldapAttr = [] then throw "ldap_attr empty".toList
        else found (dir.attr sender spec.ldapAttr)
    | .curatorMap => found (dir.curator sender)
    | .other text => throw ("unknown moderator mode \"".toList ++ text ++ "\"".toList)
  let out := if out = [] then spec.fallback else out
  let cleaned := (out.map trim).filter (· ≠ [])
  if cleaned = [] then
    throw ("no moderator for ".toList ++ sender ++ " (mode=".toList ++ spec.mode.text ++ ")".toList)
  else pure cleaned

end Resolver

end EraOne.Mail
