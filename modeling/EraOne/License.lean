import EraOne.GoTime
import EraOne.Search

set_option autoImplicit false

/- Offline licences (`services/license`, `license.go` and `revocation.go`): the signed claims, the
token that carries them, and the evaluation of their term. The float count of days, the date format,
Ed25519, base64 and JSON are given. -/
namespace EraOne.License

open GoTime Scan

abbrev Bytes := List UInt8

abbrev Module := Str

def moduleControlAI : Module := "control-ai".toList

def moduleAILegacy : Module := "ai".toList

/-- A nil slice of modules is `none`. -/
structure Claims where
  version : Int64
  licenseID : Str
  customer : Str
  tenantID : Str
  edition : Str
  modules : Option (List Module)
  maxNodes : Int64
  deployment : Str
  issuedAt : Int64
  notBefore : Int64
  expiresAt : Int64
  graceDays : Int64
  deriving DecidableEq

def claimsVersion : Int64 := 1

def Claims.hasModule (c : Claims) (m : Module) : Bool :=
  (c.modules.getD []).any fun x => x = m || (m = moduleControlAI && x = moduleAILegacy)

/-- What a JSON text of claims says of one field. -/
inductive Value where
  | null
  | num (n : Int)
  | str (s : Str)
  | strs (items : List Str)
  deriving DecidableEq

abbrev Object := List (Str × Value)

/-- `json.Marshal`: the fields in order, a nil slice as null, an empty deployment left out. -/
def Claims.marshal (c : Claims) : Object :=
  [("v".toList, Value.num c.version.toInt), ("lid".toList, Value.str c.licenseID),
    ("cust".toList, Value.str c.customer), ("tenant".toList, Value.str c.tenantID),
    ("edition".toList, Value.str c.edition),
    ("modules".toList, c.modules.elim Value.null Value.strs),
    ("max_nodes".toList, Value.num c.maxNodes.toInt)] ++
  (if c.deployment = [] then [] else [("deployment".toList, Value.str c.deployment)]) ++
  [("iat".toList, Value.num c.issuedAt.toInt), ("nbf".toList, Value.num c.notBefore.toInt),
    ("exp".toList, Value.num c.expiresAt.toInt), ("grace_days".toList, Value.num c.graceDays.toInt)]

/-- Ed25519, base64 (raw, URL alphabet), JSON and the formats, as both verifiers use them. -/
structure Libs where
  sign : Bytes → Bytes → Bytes
  verify : Bytes → Bytes → Bytes → Bool
  encode : Bytes → Str
  decode : Str → Except Str Bytes
  print : Object → Bytes
  unmarshal : Bytes → Except Str Claims
  daysLeft : Time → Time → Int
  day : Time → Str

def format : Str := "ERA1".toList

/-- The claims as `Sign` leaves them. -/
def Claims.signed (c : Claims) : Claims :=
  if c.version = 0 then { c with version := claimsVersion } else c

def sign (libs : Libs) (c : Claims) (priv : Bytes) : Except Str Str :=
  if priv.length ≠ 64 then .error "license: некорректный размер приватного ключа".toList
  else
    let payload := libs.print c.signed.marshal
    .ok (List.intercalate ['.'] [format, libs.encode payload, libs.encode (libs.sign priv payload)])

def verify (libs : Libs) (token : Str) (pub : Bytes) : Except Str Claims :=
  if pub.length ≠ 32 then .error "license: некорректный размер публичного ключа".toList
  else
    match splitAll ['.'] token with
    | [head, body, tail] =>
        if head ≠ format then .error "license: неверный формат токена".toList
        else
          match libs.decode body with
          | .error err => .error ("license: decode payload: ".toList ++ err)
          | .ok payload =>
              match libs.decode tail with
              | .error err => .error ("license: decode signature: ".toList ++ err)
              | .ok sig =>
                  if !libs.verify pub payload sig then
                    .error "license: подпись недействительна".toList
                  else
                    match libs.unmarshal payload with
                    | .error err => .error ("license: unmarshal claims: ".toList ++ err)
                    | .ok c =>
                        if c.version ≠ claimsVersion then
                          .error ("license: неподдерживаемая версия claims: ".toList ++
                            (toString c.version.toInt).toList)
                        else .ok c
    | _ => .error "license: неверный формат токена".toList

inductive Status where
  | valid
  | grace
  | expired
  | notYetValid
  | nodeLimitExceeded
  deriving DecidableEq

def Status.text : Status → Str
  | .valid => "VALID".toList
  | .grace => "GRACE".toList
  | .expired => "EXPIRED".toList
  | .notYetValid => "NOT_YET_VALID".toList
  | .nodeLimitExceeded => "NODE_LIMIT_EXCEEDED".toList

structure Evaluation where
  status : Status
  message : Str
  daysLeft : Int := 0
  degraded : Bool := false
  allowNewOnboarding : Bool := false
  deriving DecidableEq

/-- `time.Duration(days) * 24 * time.Hour`, which wraps. -/
def days (n : Int64) : Duration := n * 24 * hour

/-- The end of the grace period. -/
def graceEnd (expiresAt graceDays : Int64) : Time := (unix expiresAt).add (days graceDays)

/- The texts of the evaluations. -/
namespace Text

@[irreducible]
def boundElsewhere : Str := "лицензия привязана к другому развёртыванию".toList

@[irreducible]
def notYetActive : Str := "лицензия ещё не активна".toList

@[irreducible]
def termOver : Str := "срок лицензии истёк (включая grace); режим деградации".toList

@[irreducible]
def inGrace : Str := "лицензия в grace-периоде, перевыпустите (grace до ".toList

@[irreducible]
def nodesOver : Str := "превышен лимит узлов: ".toList

@[irreducible]
def active : Str := "лицензия действительна".toList

end Text

def Claims.evaluate (libs : Libs) (c : Claims) (now : Time) (deployment : Str)
    (activeNodes : Int64) :
    Evaluation :=
  if c.deployment ≠ [] ∧ deployment ≠ [] ∧ c.deployment ≠ deployment then
    { status := .expired, message := Text.boundElsewhere, degraded := true }
  else
    let exp := unix c.expiresAt
    let end_ := graceEnd c.expiresAt c.graceDays
    let daysLeft := libs.daysLeft exp now
    if now.before (unix c.notBefore) then
      { status := .notYetValid, message := Text.notYetActive, daysLeft := daysLeft }
    else if now.after end_ then
      { status := .expired, message := Text.termOver,
        daysLeft := daysLeft, degraded := true }
    else if now.after exp then
      { status := .grace,
        message := Text.inGrace ++ libs.day end_ ++ [')'],
        daysLeft := daysLeft, allowNewOnboarding := true }
    else if 0 < c.maxNodes ∧ c.maxNodes < activeNodes then
      { status := .nodeLimitExceeded,
        message := Text.nodesOver ++ (toString activeNodes.toInt).toList ++ " > ".toList ++
          (toString c.maxNodes.toInt).toList,
        daysLeft := daysLeft }
    else
      { status := .valid, message := Text.active, daysLeft := daysLeft,
        allowNewOnboarding := true }

structure CRL where
  version : Int64
  issuedAt : Int64
  revoked : List Str

def CRL.isRevoked (crl : CRL) (lid : Str) : Bool := crl.revoked.any (· = lid)

/-- Past its grace end a licence is expired, unless its first day is still to come. -/
theorem evaluate_past (libs : Libs) (c : Claims) (now : Time) (deployment : Str)
    (activeNodes : Int64) (past : (graceEnd c.expiresAt c.graceDays).nanos < now.nanos) :
    (c.evaluate libs now deployment activeNodes).status = .expired ∨
      (c.evaluate libs now deployment activeNodes).status = .notYetValid ∧
        now.nanos < (unix c.notBefore).nanos := by
  have after := (after_iff now (graceEnd c.expiresAt c.graceDays)).mpr past
  by_cases bound : c.deployment ≠ [] ∧ deployment ≠ [] ∧ c.deployment ≠ deployment
  · left
    rw [Claims.evaluate, if_pos bound]
  · by_cases early : now.before (unix c.notBefore) = true
    · right
      refine ⟨?_, (before_iff now (unix c.notBefore)).mp early⟩
      simp only [Claims.evaluate, if_neg bound, early, if_true]
    · left
      simp only [Claims.evaluate, if_neg bound, early, after, if_false, if_true, Bool.false_eq_true]

theorem split_token (head body tail : Str) (first : '.' ∉ head) (second : '.' ∉ body)
    (third : '.' ∉ tail) :
    splitAll ['.'] (List.intercalate ['.'] [head, body, tail]) = [head, body, tail] := by
  apply splitAll_intercalate '.' head [body, tail]
  simp only [List.forall_mem_cons, List.not_mem_nil, false_implies, implies_true, and_true]
  exact ⟨first, second, third⟩

theorem dot_not_mem_format : '.' ∉ format := by
  unfold format
  decide

/-- A token whose parts are good gives the claims of its payload. -/
theorem verify_token (libs : Libs) (pub : Bytes) (body tail : Str) (payload sig : Bytes)
    (c : Claims) (key : pub.length = 32) (second : '.' ∉ body) (third : '.' ∉ tail)
    (decoded : libs.decode body = .ok payload) (signature : libs.decode tail = .ok sig)
    (good : libs.verify pub payload sig = true) (read : libs.unmarshal payload = .ok c)
    (known : c.version = claimsVersion) :
    verify libs (List.intercalate ['.'] [format, body, tail]) pub = .ok c := by
  unfold verify
  rw [if_neg (by simpa using key), split_token _ _ _ dot_not_mem_format second third]
  simp only [ne_eq, not_true_eq_false, if_false, decoded, signature, good, read, known,
    Bool.not_true, Bool.false_eq_true]

end EraOne.License
