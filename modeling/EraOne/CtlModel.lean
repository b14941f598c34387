import EraOne.GoTime
import EraOne.KeyedTable
import EraOne.Strings
import EraOne.Visits

set_option autoImplicit false

/- The inventory of the control plane in its memory store (`cmdb_types.go`, `memory_cmdb.go`):
assets by node id and the software installed on each. Every call reads the clock once. -/
namespace EraOne.Ctl

open GoTime

/-- What a host or a network device is recorded with. -/
structure Asset where
  nodeID : Str := []
  tenantID : Str := []
  hostname : Str := []
  platform : Str := []
  agentID : Str := []
  lastSeen : Time := zeroTime
  agentVersion : Str := []
  fqdn : Str := []
  osName : Str := []
  osVersion : Str := []
  kernel : Str := []
  cpuModel : Str := []
  cpuCores : UInt32 := 0
  ramMB : UInt64 := 0
  diskTotalGB : UInt64 := 0
  serialNumber : Str := []
  boardSerial : Str := []
  manufacturer : Str := []
  model : Str := []
  macAddrs : List Str := []
  ipAddrs : List Str := []
  inventoryUpdatedAt : Time := zeroTime
  assetKind : Str := []
  managed : Bool := false
  deriving DecidableEq

structure AssetSoftware where
  nodeID : Str := []
  tenantID : Str := []
  name : Str
  version : Str
  vendor : Str := []
  source : Str := []
  installDate : Time := zeroTime
  firstSeen : Time := zeroTime
  lastSeen : Time := zeroTime
  deriving DecidableEq

/-- Assets by node id. -/
abbrev AssetTable := KeyedTable compare Asset.nodeID

/-- An order in which a loop visits the assets. -/
abbrev MapOrder := Visits.Order Asset

/-- The assets and the software of each node. -/
structure Cmdb where
  assets : AssetTable := KeyedTable.empty
  software : StrMap (List AssetSoftware) := ∅

def Asset.stamped (now : Time) (a : Asset) : Asset :=
  if a.inventoryUpdatedAt.isZero then { a with lastSeen := now, inventoryUpdatedAt := now }
  else { a with lastSeen := now }

def Cmdb.upsertAssetFull (now : Time) (a : Asset) (s : Cmdb) : Cmdb :=
  { s with assets := s.assets.insert (a.stamped now) }

def AssetSoftware.stamped (now : Time) (nodeID tenantID : Str) (it : AssetSoftware) :
    AssetSoftware :=
  { it with
    nodeID := nodeID
    tenantID := tenantID
    firstSeen := if it.firstSeen.isZero then now else it.firstSeen
    lastSeen := now }

/-- A nil item is skipped. -/
def Cmdb.replaceAssetSoftware (now : Time) (nodeID tenantID : Str)
    (items : List (Option AssetSoftware)) (s : Cmdb) : Cmdb :=
  let filtered := items.filterMap fun item => item.map (AssetSoftware.stamped now nodeID tenantID)
  { s with software := s.software.insert nodeID filtered }

@[simp]
theorem Asset.stamped_nodeID (now : Time) (a : Asset) : (a.stamped now).nodeID = a.nodeID := by
  unfold stamped
  split <;> rfl

theorem Cmdb.get_upsertAssetFull (now : Time) (a : Asset) (s : Cmdb) (m : Str) :
    (s.upsertAssetFull now a).assets.get m =
      if m = a.nodeID then some (a.stamped now) else s.assets.get m := by
  rw [← a.stamped_nodeID now]
  exact KeyedTable.get_insert s.assets _ m

def Cmdb.findAssetByAgentID (order : MapOrder) (agentID : Str) (s : Cmdb) : Option Asset :=
  if agentID = [] then none else (order.visit s.assets.list).find? (·.agentID = agentID)

def Cmdb.findAssetBySerial (order : MapOrder) (serial : Str) (s : Cmdb) : Option Asset :=
  if serial = [] then none
  else (order.visit s.assets.list).find? fun a => a.serialNumber = serial ∨ a.boardSerial = serial

end EraOne.Ctl
