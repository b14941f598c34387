import EraOne.CtlInventory
import EraOne.Scan

set_option autoImplicit false

/- Network devices without an agent (`reconcile.go`): an observed device is merged into the one it
is recognised as. `lower` and `equalFold` stand for `strings.ToLower` and `strings.EqualFold`. -/
namespace EraOne.Ctl

open GoTime

/-- `strings.TrimSpace`. -/
def trimSpace (s : Str) : Str := Scan.trim s

theorem trimSpace_trimSpace (s : Str) : trimSpace (trimSpace s) = trimSpace s := Scan.trim_trim s

structure NetworkInput where
  nodeID : Str := []
  tenantID : Str := []
  hostname : Str := []
  kind : Str := []
  ipAddrs : List Str := []
  macAddrs : List Str := []
  deriving DecidableEq

structure NetworkResult where
  asset : Option Asset := none
  conflict : Bool := false
  audit : Str := []

/-- The tenant filter of the view a call is made through, an order for each of its loops over the
assets and its reading of the clock. -/
structure NetworkCall where
  tenantFilter : Str
  conflicts : MapOrder
  devices : MapOrder
  now : Time

def Cmdb.listAssets (order : MapOrder) (tenantFilter : Str) (s : Cmdb) : List Asset :=
  (order.visit s.assets.list).filter fun a => ¬ (tenantFilter ≠ [] ∧ a.tenantID ≠ tenantFilter)

def hasIP (a : Asset) (ip : Str) : Bool := a.ipAddrs.any fun x => x = ip

def hasMAC (lower : Str → Str) (a : Asset) (mac : Str) : Bool :=
  a.macAddrs.any fun x => lower x = lower mac

def firstNonEmpty (vals : List Str) : Str := (vals.find? fun v => trimSpace v ≠ []).getD []

/-- The trimmed entries of both lists, each once. -/
def unionStrings (a b : List Str) : List Str :=
  (a ++ b).foldl (fun out s => if trimSpace s = [] ∨ trimSpace s ∈ out then out
    else out ++ [trimSpace s]) []

def managedIPConflict (call : NetworkCall) (input : NetworkInput) (s : Cmdb) : Option Str :=
  (s.listAssets call.conflicts call.tenantFilter).findSome? fun a =>
    if a.agentID = [] then none
    else (input.ipAddrs.find? fun ip => ip ≠ [] && hasIP a ip).map fun ip =>
      "cmdb.observe_conflict managed endpoint ".toList ++ a.nodeID ++ " owns ".toList ++ ip

section

variable (lower : Str → Str) (equalFold : Str → Str → Bool)

/-- The test of `findNetwork` for one asset. -/
def NetworkInput.finds (input : NetworkInput) (a : Asset) : Bool :=
  if a.platform ≠ "network".toList ∨ a.agentID ≠ [] then false
  else a.nodeID = input.nodeID || (input.hostname ≠ [] && equalFold a.hostname input.hostname) ||
    (input.macAddrs.any fun mac => mac ≠ [] && hasMAC lower a mac) ||
    input.ipAddrs.any fun ip => ip ≠ [] && hasIP a ip

def findNetwork (call : NetworkCall) (input : NetworkInput) (s : Cmdb) : Option Asset :=
  (s.listAssets call.devices call.tenantFilter).find? fun a => input.finds lower equalFold a

def mergeNetwork (a : Asset) (input : NetworkInput) : Asset :=
  { a with
    hostname := if input.hostname ≠ [] then input.hostname else a.hostname
    model := if input.kind ≠ [] then input.kind else a.model
    assetKind := if input.kind ≠ [] then input.kind else a.assetKind
    managed := false
    ipAddrs := unionStrings a.ipAddrs input.ipAddrs
    macAddrs := unionStrings a.macAddrs input.macAddrs }

def NetworkInput.asset (input : NetworkInput) : Asset where
  nodeID := input.nodeID
  tenantID := input.tenantID
  hostname := firstNonEmpty [input.hostname, input.nodeID]
  platform := "network".toList
  model := input.kind
  assetKind := firstNonEmpty [input.kind, "unknown".toList]
  managed := false
  ipAddrs := input.ipAddrs
  macAddrs := input.macAddrs

def networkUpsert (call : NetworkCall) (input : NetworkInput) (s : Cmdb) : Cmdb × NetworkResult :=
  if input.nodeID = [] ∨ input.tenantID = [] then
    (s, { audit := "missing node_id or tenant_id".toList })
  else
    match managedIPConflict call input s with
    | some audit => (s, { conflict := true, audit := audit })
    | none =>
        let a := match findNetwork lower equalFold call input s with
          | some existing => mergeNetwork existing input
          | none => input.asset
        (s.upsertAssetFull call.now a, { asset := some (a.stamped call.now) })

end

/-! ### Identities -/

/-- What a device is recognised by. -/
structure Identity where
  hostname : Str
  ipAddrs : List Str
  macAddrs : List Str

def Asset.identity (a : Asset) : Identity := ⟨a.hostname, a.ipAddrs, a.macAddrs⟩

def NetworkInput.identity (input : NetworkInput) : Identity :=
  ⟨input.hostname, input.ipAddrs, input.macAddrs⟩

def Identity.HasName (x : Identity) (name : Str) : Prop := x.hostname = name ∧ trimSpace name ≠ []

def Identity.HasIP (x : Identity) (ip : Str) : Prop :=
  ip ≠ [] ∧ ∃ entry ∈ x.ipAddrs, trimSpace entry = ip

def Identity.HasMAC (lower : Str → Str) (x : Identity) (mac : Str) : Prop :=
  ∃ entry ∈ x.macAddrs, trimSpace entry ≠ [] ∧ lower (trimSpace entry) = mac

/-- Two identities have a hostname, an IP address or a MAC address in common; spaces around
addresses, the case of MAC addresses and blank entries do not count. -/
def Identity.Shares (lower : Str → Str) (x y : Identity) : Prop :=
  (∃ name, x.HasName name ∧ y.HasName name) ∨ (∃ ip, x.HasIP ip ∧ y.HasIP ip) ∨
    ∃ mac, x.HasMAC lower mac ∧ y.HasMAC lower mac

theorem mem_unionStrings (a b : List Str) (x : Str) :
    x ∈ unionStrings a b ↔ x ≠ [] ∧ ∃ entry ∈ a ++ b, trimSpace entry = x := by
  unfold unionStrings
  induction a ++ b using List.reverseRecOn with
  | nil => simp
  | append_singleton front last ih =>
      have grown : (∃ entry ∈ front ++ [last], trimSpace entry = x) ↔
          (∃ entry ∈ front, trimSpace entry = x) ∨ trimSpace last = x := by
        simp [or_and_right, exists_or]
      rw [List.foldl_concat, grown, and_or_left]
      split
      · rename_i skip
        rw [ih]
        refine ⟨Or.inl, ?_⟩
        rintro (old | ⟨nonempty, here⟩)
        · exact old
        · rw [here] at skip
          exact ih.mp (skip.resolve_left nonempty)
      · rename_i fresh
        rw [List.mem_append, List.mem_singleton, ih, eq_comm (a := x)]
        refine or_congr_right ⟨fun here => ⟨?_, here⟩, And.right⟩
        exact fun empty => fresh (Or.inl (here.trans empty))

/-- Trimming an entry that a union left changes nothing. -/
theorem trimSpace_of_mem_unionStrings (a b : List Str) (x : Str) (member : x ∈ unionStrings a b) :
    trimSpace x = x := by
  obtain ⟨-, entry, -, same⟩ := (mem_unionStrings a b x).mp member
  rw [← same, trimSpace_trimSpace]

theorem hasIP_mergeNetwork (a : Asset) (input : NetworkInput) (ip : Str) :
    (mergeNetwork a input).identity.HasIP ip ↔ a.identity.HasIP ip ∨ input.identity.HasIP ip := by
  have mem : (∃ entry ∈ unionStrings a.ipAddrs input.ipAddrs, trimSpace entry = ip) ↔
      ip ∈ unionStrings a.ipAddrs input.ipAddrs := by
    constructor
    · intro ⟨entry, member, same⟩
      rwa [← same, trimSpace_of_mem_unionStrings _ _ _ member]
    · intro member
      exact ⟨ip, member, trimSpace_of_mem_unionStrings _ _ _ member⟩
  simp only [Identity.HasIP, Asset.identity, NetworkInput.identity, mergeNetwork]
  rw [mem, mem_unionStrings, ← and_assoc, and_self, ← and_or_left, ← exists_or]
  simp only [← or_and_right, ← List.mem_append]

theorem hasMAC_mergeNetwork (lower : Str → Str) (a : Asset) (input : NetworkInput) (mac : Str) :
    (mergeNetwork a input).identity.HasMAC lower mac ↔
      a.identity.HasMAC lower mac ∨ input.identity.HasMAC lower mac := by
  simp only [Identity.HasMAC, Asset.identity, NetworkInput.identity, mergeNetwork, ← exists_or,
    ← or_and_right, ← List.mem_append]
  constructor
  · intro ⟨entry, member, nonempty, same⟩
    rw [trimSpace_of_mem_unionStrings _ _ _ member] at same
    obtain ⟨some_, old, inside, trimmed⟩ := (mem_unionStrings _ _ _).mp member
    exact ⟨old, inside, trimmed ▸ some_, trimmed ▸ same⟩
  · intro ⟨entry, inside, nonempty, same⟩
    have member := (mem_unionStrings a.macAddrs input.macAddrs _).mpr ⟨nonempty, entry, inside, rfl⟩
    refine ⟨trimSpace entry, member, ?_, ?_⟩
    · rwa [trimSpace_trimSpace]
    · rwa [trimSpace_trimSpace]

theorem Identity.Shares.symm {lower : Str → Str} {x y : Identity} (shares : x.Shares lower y) :
    y.Shares lower x := by
  rcases shares with ⟨name, here, there⟩ | ⟨ip, here, there⟩ | ⟨mac, here, there⟩
  · exact Or.inl ⟨name, there, here⟩
  · exact Or.inr (Or.inl ⟨ip, there, here⟩)
  · exact Or.inr (Or.inr ⟨mac, there, here⟩)

/-- What a merged device is recognised by comes from the device or from the input. -/
theorem shares_of_mergeNetwork (lower : Str → Str) (a : Asset) (input : NetworkInput) (x : Identity)
    (shares : (mergeNetwork a input).identity.Shares lower x) :
    a.identity.Shares lower x ∨ input.identity.Shares lower x := by
  rcases shares with ⟨name, ⟨here, some_⟩, there⟩ | ⟨ip, here, there⟩ | ⟨mac, here, there⟩
  · have named : (if input.hostname ≠ [] then input.hostname else a.hostname) = name := here
    split at named
    · exact Or.inr (Or.inl ⟨name, ⟨named, some_⟩, there⟩)
    · exact Or.inl (Or.inl ⟨name, ⟨named, some_⟩, there⟩)
  · rw [hasIP_mergeNetwork] at here
    exact here.imp (fun old => Or.inr (Or.inl ⟨ip, old, there⟩)) fun new =>
      Or.inr (Or.inl ⟨ip, new, there⟩)
  · rw [hasMAC_mergeNetwork] at here
    exact here.imp (fun old => Or.inr (Or.inr ⟨mac, old, there⟩)) fun new =>
      Or.inr (Or.inr ⟨mac, new, there⟩)

/-! ### Devices stay apart, and endpoints untouched -/

/-- A network asset without an agent. -/
def Asset.IsDevice (a : Asset) : Prop := a.platform = "network".toList ∧ a.agentID = []

def DevicesUnique (lower : Str → Str) (s : Cmdb) : Prop :=
  ∀ i j a b, s.assets.get i = some a → s.assets.get j = some b → a.IsDevice → b.IsDevice →
    a.tenantID = b.tenantID → a.identity.Shares lower b.identity → i = j

/-- No device of the tenant at another node shares anything with an identity. -/
def Clear (lower : Str → Str) (s : Cmdb) (tenantID nodeID : Str) (x : Identity) : Prop :=
  ∀ j b, s.assets.get j = some b → b.IsDevice → b.tenantID = tenantID → j ≠ nodeID →
    ¬ x.Shares lower b.identity

theorem devicesUnique_insert (lower : Str → Str) (s : Cmdb) (a : Asset)
    (unique : DevicesUnique lower s)
    (clear : a.IsDevice → Clear lower s a.tenantID a.nodeID a.identity) (now : Time) :
    DevicesUnique lower (s.upsertAssetFull now a) := by
  have stamped : ∀ b, some (a.stamped now) = some b →
      b.identity = a.identity ∧ b.tenantID = a.tenantID ∧ (b.IsDevice ↔ a.IsDevice) := by
    intro b same
    rw [← Option.some.inj same]
    unfold Asset.stamped
    split <;> exact ⟨rfl, rfl, Iff.rfl⟩
  intro i j x y foundX foundY deviceX deviceY tenant shares
  rw [Cmdb.get_upsertAssetFull] at foundX foundY
  split at foundX
  · rename_i hereX
    have atX := stamped x foundX
    split at foundY
    · rename_i hereY
      rw [hereX, hereY]
    · rename_i otherY
      rw [atX.1] at shares
      exact absurd shares
        (clear (atX.2.2.mp deviceX) j y foundY deviceY (tenant.symm.trans atX.2.1) otherY)
  · rename_i otherX
    split at foundY
    · have atY := stamped y foundY
      rw [atY.1] at shares
      exact absurd shares.symm
        (clear (atY.2.2.mp deviceY) i x foundX deviceX (tenant.trans atY.2.1) otherX)
    · exact unique i j x y foundX foundY deviceX deviceY tenant shares

/-- The assets that a view shows. -/
def Cmdb.Sees (s : Cmdb) (tenantFilter : Str) (a : Asset) : Prop :=
  s.assets.get a.nodeID = some a ∧ (tenantFilter = [] ∨ a.tenantID = tenantFilter)

theorem mem_listAssets (order : MapOrder) (tenantFilter : Str) (s : Cmdb) (a : Asset) :
    a ∈ s.listAssets order tenantFilter ↔ s.Sees tenantFilter a := by
  unfold Cmdb.listAssets Cmdb.Sees
  rw [List.mem_filter, order.mem_visit, KeyedTable.mem_list, decide_eq_true_eq, not_and_or, not_not,
    not_not]

inductive NetworkStep where
  | upsert (call : NetworkCall) (input : NetworkInput)
  | register (now : Time) (req : RegisterReq)

section

variable (lower : Str → Str) (equalFold : Str → Str → Bool)

def NetworkStep.apply (s : Cmdb) : NetworkStep → Cmdb
  | .upsert call input => (networkUpsert lower equalFold call input s).1
  | .register now req => handleRegister now req s

/-- What is asked of a step: an observed device changes no endpoint and nothing of another tenant,
and devices stay apart. -/
def NetworkStep.Keeps (s : Cmdb) (step : NetworkStep) : Prop :=
  (∀ call input, step = .upsert call input → ∀ nodeID a, s.assets.get nodeID = some a →
    a.agentID ≠ [] ∨ a.tenantID ≠ input.tenantID →
    (step.apply lower equalFold s).assets.get nodeID = some a) ∧
  DevicesUnique lower (step.apply lower equalFold s)

/-- An input that is turned away: it lacks an id, or a managed endpoint in view owns one of its
addresses. -/
def NetworkInput.Refused (tenantFilter : Str) (input : NetworkInput) (s : Cmdb) : Prop :=
  input.nodeID = [] ∨ input.tenantID = [] ∨
    ∃ a, s.Sees tenantFilter a ∧ a.agentID ≠ [] ∧ ∃ ip ∈ input.ipAddrs, ip ≠ [] ∧ hasIP a ip

/-- The devices in view that the input is recognised as are the tenant's, and no other device of the
tenant has anything of it. -/
def NetworkInput.Recognised (tenantFilter : Str) (input : NetworkInput) (s : Cmdb) : Prop :=
  (∃ e, s.Sees tenantFilter e ∧ input.finds lower equalFold e = true) ∧
  ∀ e, s.Sees tenantFilter e → input.finds lower equalFold e = true →
    e.tenantID = input.tenantID ∧ Clear lower s input.tenantID e.nodeID input.identity

/-- The input is recognised as none of the devices in view, its node is free for it, and no other
device of the tenant has anything of it or the name it is given. -/
def NetworkInput.Unknown (tenantFilter : Str) (input : NetworkInput) (s : Cmdb) : Prop :=
  (∀ e, s.Sees tenantFilter e → input.finds lower equalFold e = false) ∧
  (∀ a, s.assets.get input.nodeID = some a → a.agentID = [] ∧ a.tenantID = input.tenantID) ∧
  Clear lower s input.tenantID input.nodeID
    { input.identity with hostname := firstNonEmpty [input.hostname, input.nodeID] }

/-- A step that is refused or tells its device apart from all others of the tenant. -/
def NetworkStep.Distinct (s : Cmdb) : NetworkStep → Prop
  | .upsert call input =>
      input.Refused call.tenantFilter s ∨ input.Recognised lower equalFold call.tenantFilter s ∨
        input.Unknown lower equalFold call.tenantFilter s
  | .register _ req =>
      req.agentID ≠ [] ∨ req.platform ≠ "network".toList ∨
        Clear lower s req.tenantID req.nodeID ⟨req.hostname, [], []⟩

end

theorem managedIPConflict_of_refused (call : NetworkCall) (input : NetworkInput) (s : Cmdb)
    (named : input.nodeID ≠ []) (tenant : input.tenantID ≠ [])
    (refused : input.Refused call.tenantFilter s) : managedIPConflict call input s ≠ none := by
  obtain ⟨a, sees, managed, ip, member, some_, owns⟩ :=
    (refused.resolve_left named).resolve_left tenant
  unfold managedIPConflict
  rw [Ne, List.findSome?_eq_none_iff]
  intro all
  have none_ := all a ((mem_listAssets call.conflicts call.tenantFilter s a).mpr sees)
  rw [if_neg managed, Option.map_eq_none_iff, List.find?_eq_none] at none_
  have not_ := none_ ip member
  simp [some_, owns] at not_

/-- An input either changes nothing or is written as one asset. -/
theorem networkUpsert_cases (lower : Str → Str) (equalFold : Str → Str → Bool) (call : NetworkCall)
    (input : NetworkInput) (s : Cmdb) :
    (networkUpsert lower equalFold call input s).1 = s ∨
    ¬ input.Refused call.tenantFilter s ∧
      ((∃ e, s.Sees call.tenantFilter e ∧ input.finds lower equalFold e = true ∧
        (networkUpsert lower equalFold call input s).1 =
          s.upsertAssetFull call.now (mergeNetwork e input)) ∨
      (∀ e, s.Sees call.tenantFilter e → input.finds lower equalFold e = false) ∧
        (networkUpsert lower equalFold call input s).1 = s.upsertAssetFull call.now
          input.asset) := by
  unfold networkUpsert
  split
  · exact Or.inl rfl
  · rename_i named
    rw [not_or] at named
    split
    · exact Or.inl rfl
    · rename_i free
      refine Or.inr
        ⟨fun refused => managedIPConflict_of_refused call input s named.1 named.2 refused free, ?_⟩
      cases found : findNetwork lower equalFold call input s with
      | some e =>
          have member := (mem_listAssets _ _ _ _).mp (List.mem_of_find?_eq_some found)
          exact Or.inl ⟨e, member, List.find?_some found, rfl⟩
      | none =>
          refine Or.inr ⟨fun e sees => ?_, rfl⟩
          have all := List.find?_eq_none.mp found e ((mem_listAssets _ _ _ _).mpr sees)
          exact Bool.eq_false_iff.mpr all

section

variable {lower : Str → Str} {equalFold : Str → Str → Bool}

theorem isDevice_of_finds (input : NetworkInput) (a : Asset)
    (finds : input.finds lower equalFold a = true) : a.IsDevice := by
  unfold NetworkInput.finds at finds
  split at finds
  · cases finds
  · rename_i device
    rw [not_or, not_not, not_not] at device
    exact device

/-- Writing at a node that held nothing of an endpoint or of another tenant. -/
theorem get_upsert_of_free (now : Time) (a : Asset) (tenantID : Str) (s : Cmdb)
    (free : ∀ c, s.assets.get a.nodeID = some c → c.agentID = [] ∧ c.tenantID = tenantID)
    (nodeID : Str) (c : Asset) (found : s.assets.get nodeID = some c)
    (kept : c.agentID ≠ [] ∨ c.tenantID ≠ tenantID) :
    (s.upsertAssetFull now a).assets.get nodeID = some c := by
  rw [Cmdb.get_upsertAssetFull, if_neg, found]
  intro here
  rw [here] at found
  obtain ⟨agentless, own⟩ := free c found
  exact kept.elim (fun managed => managed agentless) (fun foreign => foreign own)

theorem keeps_of_same (s : Cmdb) (call : NetworkCall) (input : NetworkInput)
    (unique : DevicesUnique lower s) (same : (networkUpsert lower equalFold call input s).1 = s) :
    (NetworkStep.upsert call input).Keeps lower equalFold s := by
  unfold NetworkStep.Keeps NetworkStep.apply
  simp only [same]
  exact ⟨fun _ _ _ _ _ found _ => found, unique⟩

theorem keeps_of_written (s : Cmdb) (call : NetworkCall) (input : NetworkInput) (a : Asset)
    (unique : DevicesUnique lower s)
    (whole : (networkUpsert lower equalFold call input s).1 = s.upsertAssetFull call.now a)
    (free : ∀ c, s.assets.get a.nodeID = some c → c.agentID = [] ∧ c.tenantID = input.tenantID)
    (clear : Clear lower s a.tenantID a.nodeID a.identity) :
    (NetworkStep.upsert call input).Keeps lower equalFold s := by
  unfold NetworkStep.Keeps NetworkStep.apply
  simp only [whole]
  constructor
  · intro _ given same nodeID c found kept
    have own : given = input := (NetworkStep.upsert.inj same).2.symm
    rw [own] at kept
    exact get_upsert_of_free call.now a input.tenantID s free nodeID c found kept
  · exact devicesUnique_insert lower s a unique (fun _ => clear) call.now

/-- One step that tells its device apart. -/
theorem keeps_of_distinct (s : Cmdb) (step : NetworkStep) (unique : DevicesUnique lower s)
    (distinct : step.Distinct lower equalFold s) : step.Keeps lower equalFold s := by
  cases step with
  | register now req =>
      constructor
      · intro _ _ same
        cases same
      apply devicesUnique_insert lower s req.asset unique
      intro device
      rcases distinct with managed | other | clear
      · exact absurd device.2 managed
      · exact absurd device.1 other
      · exact clear
  | upsert call input =>
      rcases networkUpsert_cases lower equalFold call input s with
        same | ⟨accepted, ⟨e, sees, finds, whole⟩ | ⟨nothing, whole⟩⟩
      · exact keeps_of_same s call input unique same
      · rcases distinct with refused | recognised | unknown
        · exact absurd refused accepted
        · have device := isDevice_of_finds input e finds
          obtain ⟨tenant, clear⟩ := recognised.2 e sees finds
          apply keeps_of_written s call input _ unique whole
          · intro c found
            rw [show (mergeNetwork e input).nodeID = e.nodeID from rfl, sees.1] at found
            rw [← Option.some.inj found]
            exact ⟨device.2, tenant⟩
          · intro j b found other own apart shares
            rcases shares_of_mergeNetwork lower e input _ shares with old | new
            · exact apart (unique e.nodeID j e b sees.1 found device other own.symm old).symm
            · exact clear j b found other (own.trans tenant) apart new
        · rw [unknown.1 e sees] at finds
          cases finds
      · rcases distinct with refused | recognised | unknown
        · exact absurd refused accepted
        · obtain ⟨e, sees, finds⟩ := recognised.1
          rw [nothing e sees] at finds
          cases finds
        · exact keeps_of_written s call input _ unique whole unknown.2.1 unknown.2.2

end

/-- In a run of distinct steps every step keeps endpoints, other tenants and the devices apart. -/
theorem network_steps_keep (lower : Str → Str) (equalFold : Str → Str → Bool)
    (steps : List NetworkStep) (distinct : Runs.Guarded (NetworkStep.apply lower equalFold)
      (NetworkStep.Distinct lower equalFold) {} steps) :
    Runs.Guarded (NetworkStep.apply lower equalFold)
      (fun s step => step.Keeps lower equalFold s) {} steps := by
  refine Runs.guarded_of_invariant _ (DevicesUnique lower) (NetworkStep.Distinct lower equalFold)
    (fun s step => step.Keeps lower equalFold s) ?_ {} steps ?_ distinct
  · intro s step unique holds
    have keeps := keeps_of_distinct s step unique holds
    exact ⟨keeps, keeps.2⟩
  · intro i j a b found
    rw [KeyedTable.get_empty] at found
    cases found

def NetworkCall.plain : NetworkCall where
  tenantFilter := []
  conflicts := .asListed
  devices := .asListed
  now := zeroTime

/-- A managed endpoint. -/
def endpoint : RegisterReq where
  agentID := "agent-1".toList
  tenantID := "t1".toList
  nodeID := "ep-1".toList
  hostname := "ws-1".toList

def switch : NetworkInput where
  nodeID := "net-10-0-0-1".toList
  tenantID := "t1".toList
  hostname := "switch-core".toList
  kind := "switch".toList
  ipAddrs := ["10.0.0.1".toList]

/-- An observed device that claims the endpoint's node. -/
def impostor : NetworkInput := { switch with nodeID := "ep-1".toList }

def endpointThen (input : NetworkInput) : List NetworkStep :=
  [.register zeroTime endpoint, .upsert NetworkCall.plain input]

theorem get_endpoint (nodeID : Str) (a : Asset)
    (found : (handleRegister zeroTime endpoint {}).assets.get nodeID = some a) :
    nodeID = endpoint.nodeID ∧ a = endpoint.asset.stamped zeroTime := by
  unfold handleRegister at found
  rw [Cmdb.get_upsertAssetFull] at found
  split at found
  · rename_i here
    exact ⟨here, (Option.some.inj found).symm⟩
  · rw [KeyedTable.get_empty] at found
    cases found

theorem endpoint_then_switch_keeps :
    Runs.Guarded (NetworkStep.apply id fun a b => a = b)
      (NetworkStep.Distinct id fun a b => a = b) {} (endpointThen switch) ∧
    Runs.Guarded (NetworkStep.apply id fun a b => a = b)
      (fun s step => step.Keeps id (fun a b => a = b) s) {} (endpointThen switch) := by
  have distinct : Runs.Guarded (NetworkStep.apply id fun a b => a = b)
      (NetworkStep.Distinct id fun a b => a = b) {} (endpointThen switch) := by
    unfold endpointThen
    rw [Runs.guarded_cons, Runs.guarded_cons]
    refine ⟨Or.inl (by decide), Or.inr (Or.inr ⟨?_, ?_, ?_⟩), Runs.guarded_nil _ _ _⟩
    · intro e sees
      rw [(get_endpoint _ e sees.1).2]
      decide
    · intro a found
      exact absurd (get_endpoint _ a found).1 (by decide)
    · intro j b found device
      rw [(get_endpoint j b found).2] at device
      exact absurd device.2 (by decide)
  exact ⟨distinct, network_steps_keep id (fun a b => a = b) (endpointThen switch) distinct⟩

theorem endpoint_overwritten :
    ¬ Runs.Guarded (NetworkStep.apply id fun a b => a = b)
      (fun s step => step.Keeps id (fun a b => a = b) s) {} (endpointThen impostor) := by
  intro guarded
  have keeps := (guarded [.register zeroTime endpoint] (.upsert NetworkCall.plain impostor)
    (List.prefix_refl _)).1
  have kept :=
    keeps NetworkCall.plain impostor rfl endpoint.nodeID (endpoint.asset.stamped zeroTime)
      (by decide) (Or.inl (by decide))
  revert kept
  decide

end EraOne.Ctl
