import EraOne.LowerCase
import EraOne.Maps
import EraOne.SlidingWindow

set_option autoImplicit false

/- What the detection engine remembers of a node or a source: the records of the correlator
(`correlator/engine.go`) and of the network engine (`ndr/engine.go`), pruned at each event. -/
namespace EraOne.Detection

open LowerCase SlidingWindow

/-! ### Histories by key -/

section Keyed

variable {ρ : Type} (key : ρ → Str) (time : ρ → Int) (window : Int)

def history (histories : StrMap (List ρ)) (k : Str) : List ρ := histories[k]?.getD []

/-- A record is appended to the history of its key, which is pruned relative to that record. -/
def observeIn (histories : StrMap (List ρ)) (record : ρ) : StrMap (List ρ) :=
  let cutoff := time record - window
  let kept := (history histories (key record)).filter fun r => cutoff < time r
  histories.insert (key record) (kept ++ [record])

theorem history_observeIn (histories : StrMap (List ρ)) (record : ρ) (k : Str) :
    history (observeIn key time window histories record) k =
      if k = key record then SlidingWindow.observe time window (history histories k) record
      else history histories k := by
  unfold observeIn history
  dsimp only
  rw [Maps.getElem?_insert_eq]
  split_ifs with same
  · rw [same]
    rfl
  · rfl

theorem history_empty (k : Str) : history (∅ : StrMap (List ρ)) k = [] := by
  rw [history, Std.ExtTreeMap.getElem?_empty, Option.getD_none]

/-- Every history is the recent records of its key exactly as long as no record comes a window or
more after the time of one that was observed before it under its key. -/
theorem histories_iff (positive : 0 < window) (records : List ρ) :
    (∀ front, front <+: records → ∀ k,
      history (front.foldl (observeIn key time window) ∅) k =
        recent time window (front.filter fun r => key r = k)) ↔
      ∀ front r, front ++ [r] <+: records → ∀ y ∈ front, key y = key r →
        time y - window < time r := by
  have step (front : List ρ) (r : ρ)
      (before : history (front.foldl (observeIn key time window) ∅) (key r) =
        recent time window (front.filter fun x => key x = key r)) :
      history ((front ++ [r]).foldl (observeIn key time window) ∅) (key r) =
          recent time window ((front ++ [r]).filter fun x => key x = key r) ↔
        ∀ y ∈ front, key y = key r → time y - window < time r := by
    rw [List.foldl_append, List.foldl_cons, List.foldl_nil, history_observeIn, if_pos rfl, before,
      List.filter_append, List.filter_cons, if_pos (decide_eq_true rfl), List.filter_nil,
      observe_recent_iff positive]
    simp only [List.mem_filter, decide_eq_true_iff, and_imp]
  constructor
  · intro all front r within
    have before := all front ((List.prefix_append front [r]).trans within) (key r)
    exact (step front r before).mp (all (front ++ [r]) within (key r))
  · intro inOrder front
    induction front using List.reverseRecOn with
    | nil => exact fun _ k => history_empty k
    | append_singleton front r ih =>
        intro within k
        have before := ih ((List.prefix_append front [r]).trans within)
        by_cases mine : key r = k
        · rw [← mine]
          exact (step front r (before (key r))).mpr (inOrder front r within)
        · rw [List.foldl_append, List.foldl_cons, List.foldl_nil, history_observeIn,
            if_neg fun same => mine same.symm, List.filter_append, List.filter_cons,
            if_neg (by simpa using mine), List.filter_nil, List.append_nil]
          exact before k

end Keyed

/-! ### The engines -/

structure EventRecord where
  nodeID : Str
  category : Str
  eventID : Str
  observed : Int
  payload : Str
  deriving DecidableEq

structure Correlator where
  window : Int
  byNode : StrMap (List EventRecord)

def newCorrelator (window : Int) : Correlator where
  window := window
  byNode := ∅

def Correlator.observe (e : Correlator) (record : EventRecord) : Correlator :=
  { e with byNode := observeIn EventRecord.nodeID EventRecord.observed e.window e.byNode record }

variable (table : Table)

def containsAny (s : Str) (subs : List String) : Bool :=
  subs.any fun sub => table.contains s sub.toList

/-- What the two chains look for in a record. -/
def isProcess (r : EventRecord) : Bool :=
  r.category = "process".toList ∧ containsAny table r.payload ["powershell", "cmd.exe", "wscript"]

def isNetwork (r : EventRecord) : Bool :=
  r.category = "network".toList ∧ containsAny table r.payload ["10.", "192.168.", "172.16."]

def isAuth (r : EventRecord) : Bool :=
  r.category = "auth".toList ∧ containsAny table r.payload ["failed", "false"]

def isNMS (r : EventRecord) : Bool :=
  r.category = "network".toList ∧
    containsAny table r.payload ["high egress", "prtg", "zabbix", "observe_snmp", "netflow"]

def isSuspiciousProcess (r : EventRecord) : Bool :=
  r.category = "process".toList ∧
    containsAny table r.payload ["suspicious", "malware", "powershell", "cmd.exe"]

/-- The loops over a node's records set a flag for each kind that occurs. -/
def aptChainOf (list : List EventRecord) : Bool × Str :=
  if list.any (isProcess table) && list.any (isNetwork table) && list.any (isAuth table) then
    (true, "era-apt-lateral-movement".toList)
  else (false, [])

def networkEndpointOf (list : List EventRecord) : Bool × Str :=
  if list.any (isNMS table) && list.any (isSuspiciousProcess table) then
    (true, "era-observe-network-endpoint".toList)
  else (false, [])

def Correlator.aptChain (e : Correlator) (nodeID : Str) : Bool × Str :=
  aptChainOf table (history e.byNode nodeID)

def Correlator.observeNetworkEndpoint (e : Correlator) (nodeID : Str) : Bool × Str :=
  networkEndpointOf table (history e.byNode nodeID)

structure FlowRecord where
  srcIP : Str
  dstIP : Str
  dstPort : UInt32
  observed : Int
  deriving DecidableEq

structure Ndr where
  window : Int
  bySrc : StrMap (List FlowRecord)

def newNdr (window : Int) : Ndr where
  window := window
  bySrc := ∅

def Ndr.observe (e : Ndr) (record : FlowRecord) : Ndr :=
  { e with bySrc := observeIn FlowRecord.srcIP FlowRecord.observed e.window e.bySrc record }

def isLateralPort (port : UInt32) : Bool := port = 445 ∨ port = 3389 ∨ port = 5985

/-- The hosts reached on a lateral port are counted once each. -/
def lateralMovementOf (list : List FlowRecord) : Bool × Str :=
  let targets := ((list.filter fun r => isLateralPort r.dstPort).map FlowRecord.dstIP).dedup
  if targets.length ≥ 2 then (true, "era-ndr-t1021-lateral-movement".toList) else (false, [])

def Ndr.lateralMovement (e : Ndr) (srcIP : Str) : Bool × Str :=
  lateralMovementOf (history e.bySrc srcIP)

theorem aptChain_fires (list : List EventRecord) :
    (aptChainOf table list).1 = true ↔
      (∃ r ∈ list, isProcess table r = true) ∧ (∃ r ∈ list, isNetwork table r = true) ∧
        ∃ r ∈ list, isAuth table r = true := by
  rw [aptChainOf, ← List.any_eq_true, ← List.any_eq_true, ← List.any_eq_true, ← Bool.and_eq_true,
    ← Bool.and_eq_true, ← Bool.and_assoc]
  split
  · rename_i all
    exact iff_of_true rfl all
  · rename_i all
    exact iff_of_false Bool.false_ne_true all

/-- Two hosts are enough, whatever the ports they are reached on. -/
theorem lateralMovement_fires (list : List FlowRecord) :
    (lateralMovementOf list).1 = true ↔
      ∃ a ∈ list, ∃ b ∈ list, isLateralPort a.dstPort = true ∧ isLateralPort b.dstPort = true ∧
        a.dstIP ≠ b.dstIP := by
  have two :
      ((list.filter fun r => isLateralPort r.dstPort).map FlowRecord.dstIP).dedup.length ≥ 2 ↔
      ∃ a ∈ list, ∃ b ∈ list, isLateralPort a.dstPort = true ∧ isLateralPort b.dstPort = true ∧
        a.dstIP ≠ b.dstIP := by
    rw [← List.card_toFinset, ge_iff_le, Nat.succ_le_iff, Finset.one_lt_card]
    simp only [List.mem_toFinset, List.mem_map, List.mem_filter]
    constructor
    · rintro ⟨x, ⟨a, ⟨memberA, portA⟩, rfl⟩, y, ⟨b, ⟨memberB, portB⟩, rfl⟩, different⟩
      exact ⟨a, memberA, b, memberB, portA, portB, different⟩
    · rintro ⟨a, memberA, b, memberB, portA, portB, different⟩
      exact ⟨_, ⟨a, ⟨memberA, portA⟩, rfl⟩, _, ⟨b, ⟨memberB, portB⟩, rfl⟩, different⟩
  rw [← two, lateralMovementOf]
  split
  · rename_i enough
    exact iff_of_true rfl enough
  · rename_i enough
    exact iff_of_false Bool.false_ne_true enough

theorem foldl_correlator (e : Correlator) (records : List EventRecord) :
    records.foldl Correlator.observe e =
      { e with
        byNode := records.foldl (observeIn EventRecord.nodeID EventRecord.observed e.window)
          e.byNode } := by
  induction records generalizing e with
  | nil => rfl
  | cons r records ih =>
      rw [List.foldl_cons, List.foldl_cons, ih]
      rfl

theorem foldl_ndr (e : Ndr) (records : List FlowRecord) :
    records.foldl Ndr.observe e =
      { e with
        bySrc :=
          records.foldl (observeIn FlowRecord.srcIP FlowRecord.observed e.window) e.bySrc } := by
  induction records generalizing e with
  | nil => rfl
  | cons r records ih =>
      rw [List.foldl_cons, List.foldl_cons, ih]
      rfl

/-! ### Arrival order -/

section Arrival

variable (window : Int)

/-- The records of a node, or of a source, that are younger than the window. -/
def recentOfNode (records : List EventRecord) (node : Str) : List EventRecord :=
  recent EventRecord.observed window (records.filter fun r => r.nodeID = node)

def recentOfSource (records : List FlowRecord) (source : Str) : List FlowRecord :=
  recent FlowRecord.observed window (records.filter fun r => r.srcIP = source)

/-- After any part of the run, the correlator has the recent records of every node. -/
def CorrelatorRecent (records : List EventRecord) : Prop :=
  ∀ front, front <+: records → ∀ node,
    history (front.foldl Correlator.observe (newCorrelator window)).byNode node =
      recentOfNode window front node

def NdrRecent (records : List FlowRecord) : Prop :=
  ∀ front, front <+: records → ∀ source,
    history (front.foldl Ndr.observe (newNdr window)).bySrc source =
      recentOfSource window front source

/-- The correlator has the records of one window in every state of a run exactly if no event is
observed a window or more before another that was handled earlier for its node; then a chain fires
exactly if its events lie in one window. -/
theorem correlator_windows_iff (positive : 0 < window) (events : List EventRecord) :
    (CorrelatorRecent window events ↔
      ∀ front r, front ++ [r] <+: events → ∀ y ∈ front, y.nodeID = r.nodeID →
        y.observed - window < r.observed) ∧
    (CorrelatorRecent window events → ∀ front, front <+: events → ∀ node,
      (((front.foldl Correlator.observe (newCorrelator window)).aptChain table node).1 = true ↔
        (∃ r ∈ recentOfNode window front node, isProcess table r = true) ∧
          (∃ r ∈ recentOfNode window front node, isNetwork table r = true) ∧
            ∃ r ∈ recentOfNode window front node, isAuth table r = true)) := by
  constructor
  · rw [← histories_iff EventRecord.nodeID EventRecord.observed window positive]
    unfold CorrelatorRecent
    simp only [foldl_correlator]
    rfl
  · intro inWindow front within node
    rw [Correlator.aptChain, inWindow front within node]
    exact aptChain_fires table _

/-- So has the network engine for the sources of flows; then lateral movement is found exactly if
two hosts are reached within one window. -/
theorem ndr_windows_iff (positive : 0 < window) (flows : List FlowRecord) :
    (NdrRecent window flows ↔
      ∀ front r, front ++ [r] <+: flows → ∀ y ∈ front, y.srcIP = r.srcIP →
        y.observed - window < r.observed) ∧
    (NdrRecent window flows → ∀ front, front <+: flows → ∀ source,
      (((front.foldl Ndr.observe (newNdr window)).lateralMovement source).1 = true ↔
        ∃ a ∈ recentOfSource window front source, ∃ b ∈ recentOfSource window front source,
          isLateralPort a.dstPort = true ∧ isLateralPort b.dstPort = true ∧
            a.dstIP ≠ b.dstIP)) := by
  constructor
  · rw [← histories_iff FlowRecord.srcIP FlowRecord.observed window positive]
    unfold NdrRecent
    simp only [foldl_ndr]
    rfl
  · intro inWindow front within source
    rw [Ndr.lateralMovement, inWindow front within source]
    exact lateralMovement_fires _

/-- A window of ten minutes, an event of the last minute and one that comes twenty minutes late. -/
def lateArrival : List EventRecord :=
  [⟨['n'], "auth".toList, [], 1200, "failed".toList⟩,
    ⟨['n'], "process".toList, [], 0, "cmd.exe".toList⟩]

theorem lateArrival_windows :
    (CorrelatorRecent 600 lateArrival ↔
      ∀ front r, front ++ [r] <+: lateArrival → ∀ y ∈ front, y.nodeID = r.nodeID →
        y.observed - 600 < r.observed) ∧
    (CorrelatorRecent 600 lateArrival → ∀ front, front <+: lateArrival → ∀ node,
      (((front.foldl Correlator.observe (newCorrelator 600)).aptChain asciiTable node).1 = true ↔
        (∃ r ∈ recentOfNode 600 front node, isProcess asciiTable r = true) ∧
          (∃ r ∈ recentOfNode 600 front node, isNetwork asciiTable r = true) ∧
            ∃ r ∈ recentOfNode 600 front node, isAuth asciiTable r = true)) :=
  correlator_windows_iff asciiTable 600 (by decide) lateArrival

/-- One source, two hosts, and a minute between them. -/
def twoHosts : List FlowRecord := [⟨['s'], ['a'], 445, 0⟩, ⟨['s'], ['b'], 3389, 60⟩]

theorem twoHosts_windows :
    (NdrRecent 900 twoHosts ↔
      ∀ front r, front ++ [r] <+: twoHosts → ∀ y ∈ front, y.srcIP = r.srcIP →
        y.observed - 900 < r.observed) ∧
    (NdrRecent 900 twoHosts → ∀ front, front <+: twoHosts → ∀ source,
      (((front.foldl Ndr.observe (newNdr 900)).lateralMovement source).1 = true ↔
        ∃ a ∈ recentOfSource 900 front source, ∃ b ∈ recentOfSource 900 front source,
          isLateralPort a.dstPort = true ∧ isLateralPort b.dstPort = true ∧ a.dstIP ≠ b.dstIP)) :=
  ndr_windows_iff 900 (by decide) twoHosts

end Arrival

end EraOne.Detection
