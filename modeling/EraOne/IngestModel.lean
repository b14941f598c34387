import EraOne.GoTime
import EraOne.Maps
import EraOne.Strings

set_option autoImplicit false

/- The envelope of an event (`envelope.proto`) and its validation by the gateway (`validate.go`).
Bodies are kept as the JSON that they are stored as; the numbers of a `Struct` by their integral
part. -/
namespace EraOne.Ingest

open GoTime

abbrev Bytes := List UInt8

inductive Platform where
  | unspecified
  | windows
  | linux
  | macos
  | other (n : Int)
  deriving DecidableEq

inductive Severity where
  | unspecified
  | info
  | low
  | medium
  | high
  | critical
  | other (n : Int)
  deriving DecidableEq

inductive EventCategory where
  | unspecified
  | process
  | network
  | file
  | registry
  | auth
  | dns
  | module
  | other (n : Int)
  deriving DecidableEq

structure Source where
  tenantID : Str
  environment : Str := []
  clusterID : Str := []
  nodeID : Str
  hostname : Str := []
  agentID : Str := []
  agentVersion : Str := []
  platform : Platform := .unspecified
  ip : List Str := []

structure OcsfMeta where
  classUID : UInt32
  categoryUID : UInt32
  activityID : UInt32

structure MitreMeta where
  tacticIDs : List Str
  techniqueIDs : List Str

/-- The confidence is a float; it is only passed on. -/
structure Detection where
  ruleID : Str
  engine : Str
  confidence : Str

/-- A field of a `Struct`. -/
inductive Value where
  | text (s : Str)
  | number (n : Int)
  | other

inductive Payload where
  | process (json : Str)
  | network (json : Str)
  | file (json : Str)
  | registry
  | auth (json : Str)
  | dns
  | module
  | raw (sourceType : Str) (fields : StrMap Value) (json : Str)

structure Envelope where
  schemaVersion : Str
  eventID : Bytes
  correlationID : Bytes := []
  observedAt : Option Time := none
  ingestedAt : Option Time := none
  source : Option Source
  severity : Severity := .unspecified
  category : EventCategory := .unspecified
  ocsf : Option OcsfMeta := none
  mitre : Option MitreMeta := none
  detection : Option Detection := none
  payload : Option Payload := none
  piiSanitized : Bool

def supportedSchemaVersion : Str := "1.0.0".toList

structure EnrichResult where
  envelope : Envelope
  topic : Str
  key : Str

def topicForCategory : EventCategory → Str
  | .process => "xdr.process".toList
  | .network => "xdr.network".toList
  | .file => "xdr.file".toList
  | .registry => "xdr.registry".toList
  | .auth => "xdr.auth".toList
  | .dns => "xdr.dns".toList
  | .module => "xdr.module".toList
  | _ => "xdr.raw".toList

/-- Both the gateway and the writer look for inventory in this way. -/
def isInventory (env : Envelope) : Bool :=
  match env.payload with
  | some (.raw sourceType _ _) => "era.inventory".toList.isPrefixOf sourceType
  | _ => false

def topicForEnvelope (env : Envelope) : Str :=
  if isInventory env then "xdr.inventory".toList else topicForCategory env.category

/-- `quoted` stands for the verb `%q`. -/
def validateAndEnrich (quoted : Str → Str) (env : Option Envelope) (now : Time) :
    Except Str EnrichResult :=
  match env with
  | none => .error "envelope is nil".toList
  | some env =>
    if env.schemaVersion ≠ supportedSchemaVersion then
      .error ("unsupported schema_version ".toList ++ quoted env.schemaVersion)
    else if env.eventID = [] then .error "event_id is required".toList
    else if ¬ env.piiSanitized then .error "pii_sanitized must be true before ingest".toList
    else
      match env.source with
      | none => .error "source.tenant_id and source.node_id are required".toList
      | some src =>
        if src.tenantID = [] ∨ src.nodeID = [] then
          .error "source.tenant_id and source.node_id are required".toList
        else
          let env := { env with ingestedAt := some now }
          .ok
            { envelope := env
              topic := topicForEnvelope env
              key := src.tenantID ++ '|' :: src.nodeID }

end EraOne.Ingest
