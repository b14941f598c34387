import EraOne.CtlMerge

set_option autoImplicit false

/- What snapshots and registrations do to records they were not meant for: those of other tenants,
and the inventory of a node that reports in. -/
namespace EraOne.Ctl

open GoTime

/-! ### Other tenants -/

/-- The assets and software rows of all tenants but one are the same in two stores. -/
structure ForeignKept (tenantID : Str) (s t : Cmdb) : Prop where
  assets : ∀ nodeID, (t.assets.get nodeID).filter (·.tenantID ≠ tenantID) =
    (s.assets.get nodeID).filter (·.tenantID ≠ tenantID)
  software : ∀ nodeID : Str, (t.software[nodeID]?.getD []).filter (·.tenantID ≠ tenantID) =
    (s.software[nodeID]?.getD []).filter (·.tenantID ≠ tenantID)

/-- What is recorded of a node, if anything, is the tenant's. -/
def OwnNode (tenantID : Str) (s : Cmdb) (nodeID : Str) : Prop :=
  (∀ a, s.assets.get nodeID = some a → a.tenantID = tenantID) ∧
  ∀ row ∈ s.software[nodeID]?.getD [], row.tenantID = tenantID

/-- The nodes that some order of the loops leads to. -/
def Snapshot.candidates (lower : Str → Str) (snap : Snapshot) (s : Cmdb) : List Str :=
  if snap.matched lower s Rule.inOrder = [] then [snap.nodeID]
  else (snap.matched lower s Rule.inOrder).map fun a => snap.at_ a.nodeID

theorem Written.tenantID {snap : Snapshot} {nodeID : Str} {a : Asset} {rows : List AssetSoftware}
    (written : Written snap nodeID a rows) : a.tenantID = snap.tenantID :=
  congrArg Asset.tenantID written.asset

theorem Written.tenantID_row {snap : Snapshot} {nodeID : Str} {a : Asset}
    {rows : List AssetSoftware} (written : Written snap nodeID a rows) (row : AssetSoftware)
    (member : row ∈ rows) :
    row.tenantID = snap.tenantID := by
  have inside : row.timeless ∈ snap.rows nodeID := by
    rw [← written.rows]
    exact List.mem_map_of_mem member
  obtain ⟨item, -, same⟩ := List.mem_map.mp inside
  exact (congrArg AssetSoftware.tenantID same).symm

/-- Records of the tenant written at a node leave the others' as they were exactly if the node had
none. -/
theorem foreignKept_insert_iff (snap : Snapshot) (s : Cmdb) (nodeID : Str) (a : Asset)
    (rows : List AssetSoftware) (written : Written snap nodeID a rows) :
    ForeignKept snap.tenantID s ⟨s.assets.insert a, s.software.insert nodeID rows⟩ ↔
      OwnNode snap.tenantID s nodeID := by
  have own : rows.filter (·.tenantID ≠ snap.tenantID) = [] := by
    rw [List.filter_eq_nil_iff]
    intro row member
    simpa using written.tenantID_row row member
  have ownAsset : (some a).filter (·.tenantID ≠ snap.tenantID) = none := by
    simp [written.tenantID]
  constructor
  · intro kept
    constructor
    · intro old found
      have same := kept.assets nodeID
      rw [KeyedTable.get_insert, if_pos written.nodeID.symm, ownAsset, found,
        Option.filter_some] at same
      by_contra foreign
      rw [if_pos (by simpa using foreign)] at same
      cases same
    · have same := kept.software nodeID
      rw [Maps.getElem?_insert_eq, if_pos rfl, Option.getD_some, own] at same
      simpa using same.symm
  · intro mine
    constructor
    · intro m
      rw [KeyedTable.get_insert, written.nodeID]
      split
      · rename_i here
        rw [ownAsset, here]
        cases found : s.assets.get nodeID with
        | none => rfl
        | some old => rw [Option.filter_some, if_neg (by simp [mine.1 old found])]
      · rfl
    · intro m
      rw [Maps.getElem?_insert_eq]
      split
      · rename_i here
        rw [Option.getD_some, own, here, eq_comm, List.filter_eq_nil_iff]
        intro row member
        simpa using mine.2 row member
      · rfl

theorem foreignKept_refl (tenantID : Str) (s : Cmdb) : ForeignKept tenantID s s :=
  ⟨fun _ => rfl, fun _ => rfl⟩

theorem foreignKept_applySnapshot_iff (lower : Str → Str) (call : Call) (snap : Snapshot)
    (s : Cmdb) :
    ForeignKept snap.tenantID s (applySnapshot lower call snap s).store ↔
      (snap.target lower call s ≠ [] → OwnNode snap.tenantID s (snap.target lower call s)) := by
  by_cases missing : snap.target lower call s = []
  · rw [(applySnapshot_of_missing lower call snap s missing).1]
    exact iff_of_true (foreignKept_refl _ s) (fun named => absurd missing named)
  · obtain ⟨-, a, rows, written, whole⟩ := applySnapshot_of_target lower call snap s _ rfl missing
    rw [whole, foreignKept_insert_iff snap s _ a rows written]
    exact ⟨fun mine _ => mine, fun mine => mine missing⟩

theorem target_mem_candidates (lower : Str → Str) (call : Call) (snap : Snapshot) (s : Cmdb) :
    snap.target lower call s ∈ snap.candidates lower s := by
  unfold Snapshot.candidates
  split
  · rename_i nothing
    exact List.mem_singleton.mpr (target_of_matched_nil lower call snap s nothing)
  · rename_i something
    obtain ⟨a, member, node⟩ := target_of_matched lower call snap s something
    exact List.mem_map.mpr ⟨a, member, node.symm⟩

theorem exists_target_of_mem (lower : Str → Str) (snap : Snapshot) (s : Cmdb) (nodeID : Str)
    (member : nodeID ∈ snap.candidates lower s) : ∃ call, snap.target lower call s = nodeID := by
  unfold Snapshot.candidates at member
  split at member
  · rename_i nothing
    rw [List.mem_singleton.mp member]
    exact ⟨Call.plain, target_of_matched_nil lower _ snap s nothing⟩
  · obtain ⟨a, matched, node⟩ := List.mem_map.mp member
    obtain ⟨order, there⟩ := exists_target lower Call.plain snap s a matched
    exact ⟨_, there.trans node⟩

/-- A snapshot leaves other tenants' records alone in every order of its loops exactly if no node it
can be applied to has one. -/
theorem snapshot_keeps_foreign_iff (lower : Str → Str) (snap : Snapshot) (s : Cmdb) :
    (∀ call, ForeignKept snap.tenantID s (applySnapshot lower call snap s).store) ↔
      ∀ nodeID ∈ snap.candidates lower s, nodeID ≠ [] → OwnNode snap.tenantID s nodeID := by
  simp only [foreignKept_applySnapshot_iff]
  constructor
  · intro all nodeID member named
    obtain ⟨call, there⟩ := exists_target_of_mem lower snap s nodeID member
    have mine := all call
    rw [there] at mine
    exact mine named
  · intro all call
    exact all _ (target_mem_candidates lower call snap s)

/-- A virtual machine of one tenant. -/
def acmeSnapshot : Snapshot where
  nodeID := "n1".toList
  tenantID := "acme".toList
  serialNumber := "VMware-42".toList
  software := [{ name := "nginx".toList }]

/-- One of another tenant with the same board serial. -/
def globexSnapshot : Snapshot where
  nodeID := "n2".toList
  tenantID := "globex".toList
  serialNumber := "VMware-42".toList

theorem snapshot_takes_foreign_node :
    ¬ ForeignKept globexSnapshot.tenantID (applySnapshots id [(Call.plain, acmeSnapshot)])
      (applySnapshot id Call.plain globexSnapshot
        (applySnapshots id [(Call.plain, acmeSnapshot)])).store := by
  intro kept
  have gone := kept.assets "n1".toList
  revert gone
  decide

/-! ### Registrations -/

structure RegisterReq where
  agentID : Str := []
  tenantID : Str := []
  nodeID : Str := []
  hostname : Str := []
  platform : Str := []
  agentVersion : Str := []
  deriving DecidableEq

def RegisterReq.asset (req : RegisterReq) : Asset where
  nodeID := req.nodeID
  tenantID := req.tenantID
  hostname := req.hostname
  platform := req.platform
  agentID := req.agentID
  agentVersion := req.agentVersion

/-- What a registration that can be decoded does to the store. -/
def handleRegister (now : Time) (req : RegisterReq) (s : Cmdb) : Cmdb :=
  s.upsertAssetFull now req.asset

/-- Serial numbers, addresses, operating system and hardware. -/
structure Inventory where
  serialNumber : Str := []
  boardSerial : Str := []
  macAddrs : List Str := []
  ipAddrs : List Str := []
  osName : Str := []
  osVersion : Str := []
  kernel : Str := []
  cpuModel : Str := []
  cpuCores : UInt32 := 0
  ramMB : UInt64 := 0
  diskTotalGB : UInt64 := 0
  manufacturer : Str := []
  model : Str := []
  deriving DecidableEq

def Asset.inventory (a : Asset) : Inventory where
  serialNumber := a.serialNumber
  boardSerial := a.boardSerial
  macAddrs := a.macAddrs
  ipAddrs := a.ipAddrs
  osName := a.osName
  osVersion := a.osVersion
  kernel := a.kernel
  cpuModel := a.cpuModel
  cpuCores := a.cpuCores
  ramMB := a.ramMB
  diskTotalGB := a.diskTotalGB
  manufacturer := a.manufacturer
  model := a.model

def Snapshot.inventory (snap : Snapshot) : Inventory := (snap.asset [] zeroTime).inventory

theorem Written.inventory {snap : Snapshot} {nodeID : Str} {a : Asset} {rows : List AssetSoftware}
    (written : Written snap nodeID a rows) : a.inventory = snap.inventory := by
  have same := congrArg Asset.inventory written.asset
  exact same

theorem inventory_register (now : Time) (req : RegisterReq) :
    (req.asset.stamped now).inventory = {} := by
  unfold Asset.stamped
  split <;> rfl

inductive Request where
  | snapshot (call : Call) (snap : Snapshot)
  | register (now : Time) (req : RegisterReq)

/-- The store, and the last snapshot that was applied to each node. -/
structure Tracked where
  store : Cmdb
  last : StrMap Snapshot := ∅

def Tracked.step (lower : Str → Str) (t : Tracked) : Request → Tracked
  | .snapshot call snap =>
      let applied := applySnapshot lower call snap t.store
      ⟨applied.store, if applied.nodeID = [] then t.last else t.last.insert applied.nodeID snap⟩
  | .register now req => { t with store := handleRegister now req t.store }

/-- Every node has the inventory of its last snapshot, and is found by the serial number and the
addresses of it. -/
structure Survives (lower : Str → Str) (t : Tracked) : Prop where
  inventory : ∀ (nodeID : Str) (snap : Snapshot), t.last[nodeID]? = some snap →
    ∃ a, t.store.assets.get nodeID = some a ∧ a.inventory = snap.inventory
  serial : ∀ (nodeID : Str) (snap : Snapshot), t.last[nodeID]? = some snap → snap.serial ≠ [] →
    ∀ order, (t.store.findAssetBySerial order snap.serial).isSome
  mac : ∀ (nodeID : Str) (snap : Snapshot), t.last[nodeID]? = some snap → snap.macAddrs ≠ [] →
    ∀ order : MapOrder, ((order.visit t.store.assets.list).find? fun a =>
      macOverlap lower a.macAddrs snap.macAddrs).isSome

theorem macOverlap_self (lower : Str → Str) (macs : List Str) (some_ : macs ≠ []) :
    macOverlap lower macs macs = true := by
  cases macs with
  | nil => exact absurd rfl some_
  | cons mac rest => simp [macOverlap]

/-- Deduplication lives off the inventory alone. -/
theorem survives_iff (lower : Str → Str) (t : Tracked) :
    Survives lower t ↔ ∀ (nodeID : Str) (snap : Snapshot), t.last[nodeID]? = some snap →
      ∃ a, t.store.assets.get nodeID = some a ∧ a.inventory = snap.inventory := by
  constructor
  · intro survives
    exact survives.inventory
  · intro all
    have listed : ∀ (nodeID : Str) (snap : Snapshot), t.last[nodeID]? = some snap →
        ∃ a ∈ t.store.assets.list, a.inventory = snap.inventory := by
      intro nodeID snap last
      obtain ⟨a, found, same⟩ := all nodeID snap last
      refine ⟨a, ?_, same⟩
      rw [KeyedTable.mem_list, KeyedTable.key_of_get _ _ _ found]
      exact found
    refine ⟨all, ?_, ?_⟩
    · intro nodeID snap last named order
      obtain ⟨a, member, same⟩ := listed nodeID snap last
      unfold Cmdb.findAssetBySerial
      rw [if_neg named]
      apply order.isSome_find_of_mem _ _ a member
      have serialNumber : a.serialNumber = snap.serialNumber := congrArg Inventory.serialNumber same
      have boardSerial : a.boardSerial = snap.boardSerial := congrArg Inventory.boardSerial same
      rw [decide_eq_true_eq, serialNumber, boardSerial, Snapshot.serial]
      split
      · exact Or.inr rfl
      · exact Or.inl rfl
    · intro nodeID snap last some_ order
      obtain ⟨a, member, same⟩ := listed nodeID snap last
      apply order.isSome_find_of_mem _ _ a member
      have macs : a.macAddrs = snap.macAddrs := congrArg Inventory.macAddrs same
      rw [macs]
      exact macOverlap_self lower _ some_

/-- A registration is for a node that no snapshot was applied to, or whose last one said nothing. -/
def Fresh (t : Tracked) : Request → Prop
  | .snapshot _ _ => True
  | .register _ req => ∀ snap, t.last[req.nodeID]? = some snap → snap.inventory = {}

theorem survives_snapshot (lower : Str → Str) (call : Call) (snap : Snapshot) (t : Tracked)
    (survives : Survives lower t) : Survives lower (t.step lower (.snapshot call snap)) := by
  by_cases missing : snap.target lower call t.store = []
  · have untouched := applySnapshot_of_missing lower call snap t.store missing
    simp only [Tracked.step, untouched.1, untouched.2, if_pos]
    exact survives
  · obtain ⟨node, a, rows, written, whole⟩ :=
      applySnapshot_of_target lower call snap t.store _ rfl missing
    rw [survives_iff]
    intro nodeID last
    simp only [Tracked.step, node, if_neg missing, whole, Maps.getElem?_insert_eq,
      KeyedTable.get_insert, written.nodeID]
    split
    · intro same
      rw [← Option.some.inj same]
      exact ⟨a, rfl, written.inventory⟩
    · exact survives.inventory nodeID last

theorem survives_register_iff (lower : Str → Str) (now : Time) (req : RegisterReq) (t : Tracked)
    (survives : Survives lower t) :
    Survives lower (t.step lower (.register now req)) ↔ Fresh t (.register now req) := by
  rw [survives_iff]
  simp only [Tracked.step, handleRegister, Cmdb.get_upsertAssetFull, Fresh]
  constructor
  · intro all snap last
    obtain ⟨a, found, same⟩ := all req.nodeID snap last
    rw [if_pos (show req.nodeID = req.asset.nodeID from rfl)] at found
    rw [← same, ← Option.some.inj found, inventory_register]
  · intro fresh nodeID snap last
    split
    · rename_i here
      rw [here] at last
      exact ⟨_, rfl, (inventory_register now req).trans (fresh snap last).symm⟩
    · exact survives.inventory nodeID snap last

/-- The inventory survives a run exactly if no registration meets a node with one. -/
theorem inventory_survives_iff (lower : Str → Str) (s : Cmdb) (requests : List Request) :
    Runs.Always (Tracked.step lower) (Survives lower) ⟨s, ∅⟩ requests ↔
      Runs.Guarded (Tracked.step lower) Fresh ⟨s, ∅⟩ requests := by
  apply Runs.always_iff_guarded
  · intro t request survives
    cases request with
    | snapshot call snap => exact iff_of_true (survives_snapshot lower call snap t survives) trivial
    | register now req => exact survives_register_iff lower now req t survives
  · rw [survives_iff]
    intro nodeID snap last
    simp at last

/-- A node that reports in after its first snapshot. -/
def snapshotThenRegister : List Request :=
  [.snapshot Call.plain acmeSnapshot,
    .register zeroTime
      { nodeID := "n1".toList, tenantID := "acme".toList, hostname := "web".toList }]

theorem inventory_erased :
    ¬ Runs.Always (Tracked.step id) (Survives id) ⟨{}, ∅⟩ snapshotThenRegister := by
  intro always
  have found := always.last.serial "n1".toList acmeSnapshot (by decide) (by decide) .asListed
  revert found
  decide

end EraOne.Ctl
