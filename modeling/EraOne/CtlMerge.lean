import EraOne.CtlModel
import EraOne.Runs

set_option autoImplicit false

/- Merging of inventory snapshots into the control plane's assets (`merge.go`). `lower` stands for
`strings.ToLower`. -/
namespace EraOne.Ctl

open GoTime

structure SoftwareItem where
  name : Str
  version : Str := []
  vendor : Str := []
  source : Str := []
  deriving DecidableEq

structure Snapshot where
  nodeID : Str := []
  tenantID : Str := []
  agentID : Str := []
  agentVersion : Str := []
  hostname : Str := []
  platform : Str := []
  fqdn : Str := []
  osName : Str := []
  osVersion : Str := []
  kernel : Str := []
  cpuModel : Str := []
  cpuCores : UInt32 := 0
  ramMB : UInt64 := 0
  diskTotalGB : UInt64 := 0
  serialNumber : Str := []
  boardSerial : Str := []
  manufacturer : Str := []
  model : Str := []
  macAddrs : List Str := []
  ipAddrs : List Str := []
  software : List SoftwareItem := []
  observedAt : Time := zeroTime
  deriving DecidableEq

inductive Rule where
  | agentID
  | serial
  | mac
  | hostname
  | new
  deriving DecidableEq

/-- What one call is given besides its snapshot: an order for each of its loops and a reading of the
clock for each place that takes one. -/
structure Call where
  agents : MapOrder
  serials : MapOrder
  macs : MapOrder
  hostnames : MapOrder
  now : Time
  upsert : Time
  replace : Time

def macOverlap (lower : Str → Str) (a b : List Str) : Bool :=
  if a.length = 0 ∨ b.length = 0 then false
  else
    let set := a.map lower
    b.any fun m => set.contains (lower m)

section

variable (lower : Str → Str)

def Snapshot.serial (snap : Snapshot) : Str :=
  if snap.serialNumber = [] then snap.boardSerial else snap.serialNumber

def resolveNodeID (call : Call) (snap : Snapshot) (s : Cmdb) : Str × Rule :=
  match s.findAssetByAgentID call.agents snap.agentID with
  | some a => (a.nodeID, .agentID)
  | none =>
  match s.findAssetBySerial call.serials snap.serial with
  | some a => (a.nodeID, .serial)
  | none =>
  match if snap.macAddrs.length > 0 then
      (call.macs.visit s.assets.list).find? fun a => macOverlap lower a.macAddrs snap.macAddrs
    else none with
  | some a => (a.nodeID, .mac)
  | none =>
  match if snap.hostname ≠ [] ∧ snap.tenantID ≠ [] then
      (call.hostnames.visit s.assets.list).find? fun a =>
        a.hostname = snap.hostname ∧ a.tenantID = snap.tenantID
    else none with
  | some a => (a.nodeID, .hostname)
  | none => (snap.nodeID, .new)

/-- The record a snapshot is stored as. -/
def Snapshot.asset (snap : Snapshot) (nodeID : Str) (now : Time) : Asset where
  nodeID := nodeID
  tenantID := snap.tenantID
  hostname := snap.hostname
  platform := snap.platform
  agentID := snap.agentID
  agentVersion := snap.agentVersion
  lastSeen := now
  fqdn := snap.fqdn
  osName := snap.osName
  osVersion := snap.osVersion
  kernel := snap.kernel
  cpuModel := snap.cpuModel
  cpuCores := snap.cpuCores
  ramMB := snap.ramMB
  diskTotalGB := snap.diskTotalGB
  serialNumber := snap.serialNumber
  boardSerial := snap.boardSerial
  manufacturer := snap.manufacturer
  model := snap.model
  macAddrs := snap.macAddrs
  ipAddrs := snap.ipAddrs
  inventoryUpdatedAt := now

structure Applied where
  store : Cmdb
  nodeID : Str
  rule : Rule
  audit : Str := []

def applySnapshot (call : Call) (snap : Snapshot) (s : Cmdb) : Applied :=
  let resolved := resolveNodeID lower call snap s
  let nodeID := if resolved.1 = [] then snap.nodeID else resolved.1
  if nodeID = [] then ⟨s, [], resolved.2, "missing node_id".toList⟩
  else
    let audit := match s.assets.get nodeID with
      | some existing =>
          if snap.hostname ≠ [] ∧ existing.hostname ≠ [] ∧ existing.hostname ≠ snap.hostname then
            "cmdb.merge_conflict hostname ".toList ++ existing.hostname ++ " -> ".toList ++
              snap.hostname
          else []
      | none => []
    let now := if snap.observedAt.isZero then call.now else snap.observedAt
    let s := s.upsertAssetFull call.upsert (snap.asset nodeID now)
    let sw := snap.software.map fun item => some
      { name := item.name, version := item.version, vendor := item.vendor, source := item.source }
    ⟨s.replaceAssetSoftware call.replace nodeID snap.tenantID sw, nodeID, resolved.2, audit⟩

end

/-! ### What one application does -/

/-- The assets a rule finds for a snapshot. -/
def Snapshot.hits (lower : Str → Str) (snap : Snapshot) (a : Asset) : Rule → Bool
  | .agentID => snap.agentID ≠ [] ∧ a.agentID = snap.agentID
  | .serial => snap.serial ≠ [] ∧ (a.serialNumber = snap.serial ∨ a.boardSerial = snap.serial)
  | .mac => macOverlap lower a.macAddrs snap.macAddrs
  | .hostname => snap.hostname ≠ [] ∧ snap.tenantID ≠ [] ∧ a.hostname = snap.hostname ∧
      a.tenantID = snap.tenantID
  | .new => false

/-- The order a rule's loop runs in. -/
def Call.order (call : Call) : Rule → MapOrder
  | .agentID => call.agents
  | .serial => call.serials
  | .mac => call.macs
  | .hostname => call.hostnames
  | .new => call.hostnames

def Call.find (call : Call) (lower : Str → Str) (snap : Snapshot) (s : Cmdb) (rule : Rule) :
    Option Asset :=
  ((call.order rule).visit s.assets.list).find? fun a => snap.hits lower a rule

theorem Call.find_of_idle (lower : Str → Str) (call : Call) (snap : Snapshot) (s : Cmdb)
    (rule : Rule) (idle : ∀ a, snap.hits lower a rule = false) : call.find lower snap s rule =
      none :=
  (Visits.Order.find_eq_none _ _ _).mpr fun a _ => idle a

theorem macOverlap_nil (lower : Str → Str) (a : List Str) : macOverlap lower a [] = false := by
  simp [macOverlap]

def Rule.inOrder : List Rule := [.agentID, .serial, .mac, .hostname]

/-- The assets found by the first of the rules that finds any. -/
def Snapshot.matched (lower : Str → Str) (snap : Snapshot) (s : Cmdb) : List Rule → List Asset
  | [] => []
  | rule :: rest =>
      if (s.assets.list.filter fun a => snap.hits lower a rule) = [] then snap.matched lower s rest
      else s.assets.list.filter fun a => snap.hits lower a rule

def Call.search (call : Call) (lower : Str → Str) (snap : Snapshot) (s : Cmdb) (rules : List Rule) :
    Option (Str × Rule) :=
  rules.findSome? fun rule => (call.find lower snap s rule).map fun a => (a.nodeID, rule)

theorem Call.find_eq_none_iff (call : Call) (lower : Str → Str) (snap : Snapshot) (s : Cmdb)
    (rule : Rule) :
    call.find lower snap s rule = none ↔
      (s.assets.list.filter fun a => snap.hits lower a rule) = [] := by
  unfold Call.find
  rw [Visits.Order.find_eq_none, List.filter_eq_nil_iff]
  simp only [Bool.not_eq_true]

theorem Call.search_cons (call : Call) (lower : Str → Str) (snap : Snapshot) (s : Cmdb)
    (rule : Rule) (rest : List Rule) : call.search lower snap s (rule :: rest) =
      match call.find lower snap s rule with
      | some a => some (a.nodeID, rule)
      | none => call.search lower snap s rest := by
  unfold search
  rw [List.findSome?_cons]
  cases call.find lower snap s rule <;> rfl

/-- In whatever order the loops run, the search fails alike. -/
theorem Call.search_eq_none_iff (call : Call) (lower : Str → Str) (snap : Snapshot) (s : Cmdb)
    (rules : List Rule) : call.search lower snap s rules = none ↔
    snap.matched lower s rules = [] := by
  induction rules with
  | nil => exact iff_of_true rfl rfl
  | cons rule rest ih =>
      rw [search_cons]
      unfold Snapshot.matched
      cases found : call.find lower snap s rule with
      | none =>
          rw [call.find_eq_none_iff] at found
          simp only [found, if_pos, ih]
      | some a =>
          have some_ : (s.assets.list.filter fun a => snap.hits lower a rule) ≠ [] := by
            rw [Ne, ← call.find_eq_none_iff, found]
            exact Option.some_ne_none a
          rw [if_neg some_]
          exact iff_of_false (Option.some_ne_none _) some_

theorem Call.mem_of_search (call : Call) (lower : Str → Str) (snap : Snapshot) (s : Cmdb)
    (rules : List Rule) (r : Str × Rule) (found : call.search lower snap s rules = some r) :
    ∃ a ∈ snap.matched lower s rules, a.nodeID = r.1 := by
  induction rules with
  | nil => cases found
  | cons rule rest ih =>
      rw [search_cons] at found
      unfold Snapshot.matched
      cases here : call.find lower snap s rule with
      | none =>
          rw [here] at found
          rw [call.find_eq_none_iff] at here
          simp only [here, if_pos]
          exact ih found
      | some a =>
          rw [here] at found
          have hit := Visits.Order.of_find _ _ _ _ here
          have member : a ∈ s.assets.list.filter fun a => snap.hits lower a rule :=
            List.mem_filter.mpr hit
          rw [if_neg (List.ne_nil_of_mem member)]
          exact ⟨a, member, congrArg Prod.fst (Option.some.inj found)⟩

/-- Some order of the loops leads to each of the assets that can be found. -/
theorem Call.exists_search (call : Call) (lower : Str → Str) (snap : Snapshot) (s : Cmdb)
    (rules : List Rule) (a : Asset) (member : a ∈ snap.matched lower s rules) :
    ∃ order rule,
      Call.search { call with agents := order, serials := order, macs := order, hostnames := order }
      lower snap s rules = some (a.nodeID, rule) := by
  induction rules with
  | nil => cases member
  | cons rule rest ih =>
      unfold Snapshot.matched at member
      by_cases idle : (s.assets.list.filter fun a => snap.hits lower a rule) = []
      · rw [if_pos idle] at member
        obtain ⟨order, by_, found⟩ := ih member
        refine ⟨order, by_, ?_⟩
        rw [search_cons, (Call.find_eq_none_iff _ _ _ _ _).mpr idle]
        exact found
      · rw [if_neg idle, List.mem_filter] at member
        obtain ⟨order, found⟩ :=
          Visits.Order.exists_find (fun a => snap.hits lower a rule) s.assets.list a
            member.1 member.2
        refine ⟨order, rule, ?_⟩
        rw [search_cons]
        have same :
            Call.find
              { call with agents := order, serials := order, macs := order, hostnames := order }
            lower snap s rule = some a := by
          unfold Call.find Call.order
          cases rule <;> exact found
        rw [same]

/-- Every rule is one search; the first that finds an asset decides. -/
theorem resolveNodeID_eq (lower : Str → Str) (call : Call) (snap : Snapshot) (s : Cmdb) :
    resolveNodeID lower call snap s =
      (call.search lower snap s Rule.inOrder).getD (snap.nodeID, .new) := by
  have agent : s.findAssetByAgentID call.agents snap.agentID = call.find lower snap s .agentID := by
    unfold Cmdb.findAssetByAgentID
    split
    · rename_i empty
      exact (call.find_of_idle lower snap s _ fun a => by simp [Snapshot.hits, empty]).symm
    · rename_i named
      simp [Call.find, Snapshot.hits, named, Call.order]
  have serial : s.findAssetBySerial call.serials snap.serial = call.find lower snap s .serial := by
    unfold Cmdb.findAssetBySerial
    split
    · rename_i empty
      exact (call.find_of_idle lower snap s _ fun a => by simp [Snapshot.hits, empty]).symm
    · rename_i named
      simp [Call.find, Snapshot.hits, named, Call.order]
  have mac : (if snap.macAddrs.length > 0 then
      (call.macs.visit s.assets.list).find? fun a => macOverlap lower a.macAddrs snap.macAddrs
    else none) = call.find lower snap s .mac := by
    split
    · rfl
    · rename_i empty
      have nil : snap.macAddrs = [] := List.length_eq_zero_iff.mp (by omega)
      exact (call.find_of_idle lower snap s _ fun a => by
        simp [Snapshot.hits, nil, macOverlap_nil]).symm
  have hostname : (if snap.hostname ≠ [] ∧ snap.tenantID ≠ [] then
      (call.hostnames.visit s.assets.list).find? fun a =>
        a.hostname = snap.hostname ∧ a.tenantID = snap.tenantID
    else none) = call.find lower snap s .hostname := by
    split
    · rename_i named
      simp [Call.find, Snapshot.hits, named, Call.order]
    · rename_i unnamed
      refine (call.find_of_idle lower snap s _ fun a => ?_).symm
      simp only [Snapshot.hits, decide_eq_false_iff_not]
      exact fun all => unnamed ⟨all.1, all.2.1⟩
  unfold resolveNodeID
  rw [agent, serial, mac, hostname]
  simp only [Rule.inOrder, Call.search_cons]
  cases call.find lower snap s .agentID <;> cases call.find lower snap s .serial <;>
    cases call.find lower snap s .mac <;> cases call.find lower snap s .hostname <;> rfl

/-- The node a snapshot is applied to; none if it is empty. -/
def Snapshot.target (lower : Str → Str) (call : Call) (snap : Snapshot) (s : Cmdb) : Str :=
  let resolved := resolveNodeID lower call snap s
  if resolved.1 = [] then snap.nodeID else resolved.1

/-- The node an asset that was found leads to. -/
def Snapshot.at_ (snap : Snapshot) (nodeID : Str) : Str :=
  if nodeID = [] then snap.nodeID else nodeID

theorem target_of_matched_nil (lower : Str → Str) (call : Call) (snap : Snapshot) (s : Cmdb)
    (nothing : snap.matched lower s Rule.inOrder = []) :
    snap.target lower call s = snap.nodeID := by
  unfold Snapshot.target
  rw [resolveNodeID_eq, (call.search_eq_none_iff lower snap s _).mpr nothing, Option.getD_none,
    ite_self]

theorem target_of_matched (lower : Str → Str) (call : Call) (snap : Snapshot) (s : Cmdb)
    (something : snap.matched lower s Rule.inOrder ≠ []) :
    ∃ a ∈ snap.matched lower s Rule.inOrder, snap.target lower call s = snap.at_ a.nodeID := by
  rw [Ne, ← call.search_eq_none_iff] at something
  obtain ⟨r, found⟩ := Option.ne_none_iff_exists'.mp something
  obtain ⟨a, member, node⟩ := call.mem_of_search lower snap s _ r found
  refine ⟨a, member, ?_⟩
  unfold Snapshot.target Snapshot.at_
  rw [resolveNodeID_eq, found, Option.getD_some, node]

theorem exists_target (lower : Str → Str) (call : Call) (snap : Snapshot) (s : Cmdb) (a : Asset)
    (member : a ∈ snap.matched lower s Rule.inOrder) :
    ∃ order, snap.target lower
      { call with agents := order, serials := order, macs := order, hostnames := order } s =
        snap.at_ a.nodeID := by
  obtain ⟨order, rule, found⟩ := call.exists_search lower snap s _ a member
  refine ⟨order, ?_⟩
  unfold Snapshot.target Snapshot.at_
  rw [resolveNodeID_eq, found, Option.getD_some]

theorem mem_list_of_matched (lower : Str → Str) (snap : Snapshot) (s : Cmdb) (rules : List Rule)
    (a : Asset) (member : a ∈ snap.matched lower s rules) : a ∈ s.assets.list := by
  induction rules with
  | nil => cases member
  | cons rule rest ih =>
      unfold Snapshot.matched at member
      split at member
      · exact ih member
      · exact (List.mem_filter.mp member).1

def Asset.timeless (a : Asset) : Asset :=
  { a with lastSeen := zeroTime, inventoryUpdatedAt := zeroTime }

def AssetSoftware.timeless (row : AssetSoftware) : AssetSoftware :=
  { row with installDate := zeroTime, firstSeen := zeroTime, lastSeen := zeroTime }

/-- The software rows a snapshot leaves, timestamps aside. -/
def Snapshot.rows (snap : Snapshot) (nodeID : Str) : List AssetSoftware :=
  snap.software.map fun item =>
    { nodeID := nodeID, tenantID := snap.tenantID, name := item.name, version := item.version,
      vendor := item.vendor, source := item.source }

theorem applySnapshot_of_missing (lower : Str → Str) (call : Call) (snap : Snapshot) (s : Cmdb)
    (missing : snap.target lower call s = []) :
    (applySnapshot lower call snap s).store = s ∧
    (applySnapshot lower call snap s).nodeID = [] := by
  unfold applySnapshot
  unfold Snapshot.target at missing
  simp only [missing, if_pos, and_self]

/-- An asset and software rows that were written for a snapshot. -/
structure Written (snap : Snapshot) (nodeID : Str) (a : Asset) (rows : List AssetSoftware) :
    Prop where
  asset : a.timeless = (snap.asset nodeID zeroTime).timeless
  rows : rows.map AssetSoftware.timeless = snap.rows nodeID

theorem Asset.timeless_stamped (now : Time) (a : Asset) :
    (a.stamped now).timeless = a.timeless := by
  unfold stamped
  split <;> rfl

/-- Otherwise the asset and the software of one node are replaced, and nothing else. -/
theorem applySnapshot_of_target (lower : Str → Str) (call : Call) (snap : Snapshot) (s : Cmdb)
    (nodeID : Str) (target : snap.target lower call s = nodeID) (named : nodeID ≠ []) :
    (applySnapshot lower call snap s).nodeID = nodeID ∧
    ∃ a rows, Written snap nodeID a rows ∧
      (applySnapshot lower call snap s).store =
        ⟨s.assets.insert a, s.software.insert nodeID rows⟩ := by
  unfold Snapshot.target at target
  simp only [applySnapshot, target, if_neg named]
  refine ⟨trivial, _, _, ⟨?_, ?_⟩, rfl⟩
  · rw [Asset.timeless_stamped]
    rfl
  · rw [List.filterMap_map, List.map_filterMap]
    exact congrFun List.filterMap_eq_map' snap.software

/-! ### Agents stay unique, and a second application changes nothing -/

def AgentsUnique (s : Cmdb) : Prop :=
  Maps.OnePerSlot (fun a : Asset => a.agentID ≠ []) (fun a => a.agentID) s.assets.rows

/-- No asset stands under the empty node id, and no two carry one agent. -/
structure Merged (s : Cmdb) : Prop where
  agents : AgentsUnique s
  named : s.assets.get [] = none

theorem Call.find_agent_of_none (lower : Str → Str) (call : Call) (snap : Snapshot) (s : Cmdb)
    (a : Asset) (found : call.find lower snap s .agentID = some a) :
    resolveNodeID lower call snap s = (a.nodeID, .agentID) := by
  rw [resolveNodeID_eq, Rule.inOrder, Call.search_cons, found]
  rfl

/-- An agent that is known leads back to its node, in whatever order the loops run. -/
theorem target_of_known (lower : Str → Str) (call : Call) (snap : Snapshot) (s : Cmdb)
    (merged : Merged s) (named : snap.agentID ≠ []) (m : Str) (b : Asset)
    (known : s.assets.get m = some b) (same : b.agentID = snap.agentID) :
    snap.target lower call s = m := by
  have listed : b ∈ s.assets.list := by
    rw [KeyedTable.mem_list, KeyedTable.key_of_get _ _ _ known]
    exact known
  cases found : call.find lower snap s .agentID with
  | none =>
      have all := (Visits.Order.find_eq_none _ _ _).mp found b listed
      simp [Snapshot.hits, same, named] at all
  | some a =>
      have hit := Visits.Order.of_find _ _ _ _ found
      have agent : a.agentID = snap.agentID := by
        have := hit.2
        simp only [Snapshot.hits, decide_eq_true_eq] at this
        exact this.2
      have stored := (KeyedTable.mem_list _ _).mp hit.1
      have node : a.nodeID = m := by
        apply merged.agents a.nodeID m a b stored known
        · exact fun empty => named (agent ▸ empty)
        · exact fun empty => named (same ▸ empty)
        · exact agent.trans same.symm
      have there : m ≠ [] := by
        intro empty
        rw [empty, merged.named] at known
        cases known
      unfold Snapshot.target
      rw [Call.find_agent_of_none lower call snap s a found]
      simp only [node, if_neg there]

/-- Whether there is a node to apply a snapshot to does not hang on the order of the loops. -/
theorem target_eq_nil (lower : Str → Str) (first second : Call) (snap : Snapshot) (s : Cmdb)
    (merged : Merged s) (missing : snap.target lower first s = []) :
    snap.target lower second s = [] := by
  by_cases nothing : snap.matched lower s Rule.inOrder = []
  · rw [target_of_matched_nil lower first snap s nothing] at missing
    rw [target_of_matched_nil lower second snap s nothing, missing]
  · obtain ⟨a, member, node⟩ := target_of_matched lower first snap s nothing
    rw [missing] at node
    have stored := (KeyedTable.mem_list _ _).mp (mem_list_of_matched lower snap s _ a member)
    have named : a.nodeID ≠ [] := by
      intro empty
      rw [empty, merged.named] at stored
      cases stored
    rw [Snapshot.at_, if_neg named] at node
    exact absurd node.symm named

theorem Written.nodeID {snap : Snapshot} {nodeID : Str} {a : Asset} {rows : List AssetSoftware}
    (written : Written snap nodeID a rows) : a.nodeID = nodeID :=
  congrArg Asset.nodeID written.asset

theorem Written.agentID {snap : Snapshot} {nodeID : Str} {a : Asset} {rows : List AssetSoftware}
    (written : Written snap nodeID a rows) : a.agentID = snap.agentID :=
  congrArg Asset.agentID written.asset

theorem merged_applySnapshot (lower : Str → Str) (call : Call) (snap : Snapshot) (s : Cmdb)
    (merged : Merged s) : Merged (applySnapshot lower call snap s).store := by
  by_cases missing : snap.target lower call s = []
  · rw [(applySnapshot_of_missing lower call snap s missing).1]
    exact merged
  · obtain ⟨-, a, rows, written, whole⟩ := applySnapshot_of_target lower call snap s _ rfl missing
    rw [whole]
    constructor
    · apply Maps.onePerSlot_insert _ _ _ merged.agents
      intro named m b other known _ same
      rw [written.agentID] at named same
      apply other
      rw [written.nodeID]
      exact (target_of_known lower call snap s merged named m b known same).symm
    · rw [KeyedTable.get_insert, written.nodeID, if_neg (Ne.symm missing)]
      exact merged.named

theorem merged_empty : Merged {} := by
  constructor
  · intro i j a b found
    simp [KeyedTable.empty] at found
  · exact KeyedTable.get_empty []

/-- Snapshots applied one after another, each in its own circumstances. -/
def applySnapshots (lower : Str → Str) (snaps : List (Call × Snapshot)) : Cmdb :=
  snaps.foldl (fun s next => (applySnapshot lower next.1 next.2 s).store) {}

theorem merged_applySnapshots (lower : Str → Str) (snaps : List (Call × Snapshot)) :
    Merged (applySnapshots lower snaps) := by
  unfold applySnapshots
  generalize start : ({} : Cmdb) = s
  have merged : Merged s := start ▸ merged_empty
  clear start
  induction snaps generalizing s with
  | nil => exact merged
  | cons next rest ih => exact ih _ (merged_applySnapshot lower next.1 next.2 s merged)

/-- One store holds what the other does, timestamps aside. -/
structure SameApartFromTimes (s t : Cmdb) : Prop where
  assets : ∀ nodeID,
    (s.assets.get nodeID).map Asset.timeless = (t.assets.get nodeID).map Asset.timeless
  software : ∀ nodeID : Str, s.software[nodeID]?.map (List.map AssetSoftware.timeless) =
    t.software[nodeID]?.map (List.map AssetSoftware.timeless)

/-- What is written for a snapshot twice over is written once. -/
theorem sameApartFromTimes_insert (s : Cmdb) (snap : Snapshot) (nodeID : Str) (a b : Asset)
    (rows again : List AssetSoftware) (first : Written snap nodeID a rows)
    (second : Written snap nodeID b again) :
    SameApartFromTimes
      ⟨(s.assets.insert a).insert b, (s.software.insert nodeID rows).insert nodeID again⟩
      ⟨s.assets.insert a, s.software.insert nodeID rows⟩ := by
  constructor
  · intro m
    simp only [KeyedTable.get_insert, first.nodeID, second.nodeID]
    split
    · simp only [Option.map_some, first.asset, second.asset]
    · rfl
  · intro m
    simp only [Maps.getElem?_insert_eq]
    split
    · simp only [Option.map_some, first.rows, second.rows]
    · rfl

theorem snapshots_merge_idempotently (lower : Str → Str) (snaps : List (Call × Snapshot)) :
    AgentsUnique (applySnapshots lower snaps) ∧
    ∀ snap, snap.agentID ≠ [] → ∀ first second : Call,
      let once := applySnapshot lower first snap (applySnapshots lower snaps)
      let twice := applySnapshot lower second snap once.store
      twice.nodeID = once.nodeID ∧ SameApartFromTimes twice.store once.store := by
  have merged := merged_applySnapshots lower snaps
  refine ⟨merged.agents, ?_⟩
  generalize applySnapshots lower snaps = s at merged ⊢
  intro snap named first second
  by_cases missing : snap.target lower first s = []
  · have untouched := applySnapshot_of_missing lower first snap s missing
    have again := applySnapshot_of_missing lower second snap s
      (target_eq_nil lower first second snap s merged missing)
    dsimp only
    rw [untouched.1, untouched.2, again.1, again.2]
    exact ⟨rfl, fun _ => rfl, fun _ => rfl⟩
  · obtain ⟨node, a, rows, written, whole⟩ :=
      applySnapshot_of_target lower first snap s _ rfl missing
    have known : (applySnapshot lower first snap s).store.assets.get
        (snap.target lower first s) = some a := by
      rw [whole, KeyedTable.get_insert, if_pos written.nodeID.symm]
    have again :=
      target_of_known lower second snap _ (merged_applySnapshot lower first snap s merged)
        named _ a known written.agentID
    obtain ⟨node', b, rows', written', whole'⟩ :=
      applySnapshot_of_target lower second snap _ _ again missing
    refine ⟨node'.trans node.symm, ?_⟩
    rw [whole', whole]
    exact sameApartFromTimes_insert s snap _ a b rows rows' written written'

def Call.plain : Call where
  agents := .asListed
  serials := .asListed
  macs := .asListed
  hostnames := .asListed
  now := zeroTime
  upsert := zeroTime
  replace := zeroTime

def reportedBefore : List (Call × Snapshot) :=
  [(Call.plain,
      { nodeID := "n1".toList, agentID := "agent-1".toList, serialNumber := "SN-7".toList
        macAddrs := ["aa:bb:cc:dd:ee:ff".toList]
        software := [{ name := "vim".toList, version := "9.0".toList }] }),
    (Call.plain, { nodeID := "n2".toList, hostname := "desk".toList,
                   software := [{ name := "curl".toList }] })]

/-- An agent that reports again, under another node and with other software. -/
def agentSnapshot : Snapshot where
  nodeID := "n3".toList
  agentID := "agent-1".toList
  serialNumber := "SN-7".toList
  software := [{ name := "vim".toList, version := "9.1".toList }, { name := "git".toList }]

theorem agentSnapshot_merges_idempotently :
    agentSnapshot.agentID ≠ [] ∧
    let once := applySnapshot id Call.plain agentSnapshot (applySnapshots id reportedBefore)
    let twice := applySnapshot id Call.plain agentSnapshot once.store
    twice.nodeID = once.nodeID ∧ SameApartFromTimes twice.store once.store :=
  ⟨by decide, (snapshots_merge_idempotently id reportedBefore).2 agentSnapshot
    (by decide) Call.plain Call.plain⟩

end EraOne.Ctl
