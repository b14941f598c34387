import EraOne.BigEndian
import EraOne.Strings

set_option autoImplicit false

/- NetFlow v5 packets (`netflow/v5.go`): the parser, and the layout that routers export. -/
namespace EraOne.Netflow

open BigEndian

def v5HeaderSize : Nat := 24

def v5RecordSize : Nat := 48

/-! ### The parser -/

structure V5Header where
  version : UInt16 := 0
  count : UInt16 := 0
  sysUptime : UInt32 := 0
  unixSecs : UInt32 := 0
  unixNsecs : UInt32 := 0
  flowSequence : UInt32 := 0
  engineType : UInt8 := 0
  engineID : UInt8 := 0
  samplingInterval : UInt16 := 0
  deriving DecidableEq

structure Record where
  srcIP : Str
  dstIP : Str
  srcPort : UInt32
  dstPort : UInt32
  proto : Str
  bytes : UInt64
  deriving DecidableEq

/-- `b[low:high]`. -/
def slice (b : List UInt8) (low high : Nat) : List UInt8 := (b.drop low).take (high - low)

/-- `net.IP.String` of four bytes. -/
def ipString (b : List UInt8) : Str :=
  List.intercalate ['.'] (b.map fun part => Nat.toDigits 10 part.toNat)

def protoName (n : UInt8) : Str :=
  if n = 6 then "tcp".toList
  else if n = 17 then "udp".toList
  else if n = 1 then "icmp".toList
  else "ip".toList

def parseV5Record (b : List UInt8) : Except Str Record :=
  if b.length < v5RecordSize then .error "record too short".toList
  else
    .ok {
      srcIP := ipString (slice b 0 4)
      dstIP := ipString (slice b 4 8)
      srcPort := (uint16 (slice b 32 34)).toUInt32
      dstPort := (uint16 (slice b 34 36)).toUInt32
      proto := protoName (b.getD 38 0)
      bytes := (uint32 (slice b 16 20)).toUInt64 }

/-- The loop over the records: how many are left, and what is left of the packet. -/
def parseRecords : Nat → List UInt8 → List Record × Option Str
  | 0, _ => ([], none)
  | left + 1, pkt =>
      match parseV5Record (slice pkt 0 v5RecordSize) with
      | .error e => ([], some e)
      | .ok rec =>
          (rec :: (parseRecords left (pkt.drop v5RecordSize)).1,
            (parseRecords left (pkt.drop v5RecordSize)).2)

def parseHeader (pkt : List UInt8) : V5Header where
  version := uint16 (slice pkt 0 2)
  count := uint16 (slice pkt 2 4)
  sysUptime := uint32 (slice pkt 4 8)
  unixSecs := uint32 (slice pkt 8 12)
  unixNsecs := uint32 (slice pkt 12 16)
  flowSequence := uint32 (slice pkt 16 20)
  engineType := pkt.getD 20 0
  engineID := pkt.getD 21 0
  samplingInterval := uint16 (slice pkt 22 24)

/-- `ParseV5` with the text of its error. -/
def parseV5 (pkt : List UInt8) : V5Header × List Record × Option Str :=
  if pkt.length < v5HeaderSize then ({}, [], some "packet too short for v5 header".toList)
  else
    let h := parseHeader pkt
    if h.version ≠ 5 then (h, [], some "not netflow v5".toList)
    else if pkt.length < v5HeaderSize + h.count.toNat * v5RecordSize then
      (h, [], some "truncated v5 records".toList)
    else (h, parseRecords h.count.toNat (pkt.drop v5HeaderSize))

/-! ### The export layout -/

/-- A flow as a router exports it. -/
structure Flow where
  srcAddr : UInt32
  dstAddr : UInt32
  nextHop : UInt32 := 0
  input : UInt16 := 0
  output : UInt16 := 0
  dPkts : UInt32
  dOctets : UInt32
  first : UInt32 := 0
  last : UInt32 := 0
  srcPort : UInt16
  dstPort : UInt16
  tcpFlags : UInt8 := 0
  prot : UInt8
  tos : UInt8 := 0
  srcAs : UInt16 := 0
  dstAs : UInt16 := 0
  srcMask : UInt8 := 0
  dstMask : UInt8 := 0
  deriving DecidableEq

/-- The 48 bytes of a flow; bytes 36, 46 and 47 are padding. -/
def Flow.encode (flow : Flow) : List UInt8 :=
  BigEndian.encode 4 flow.srcAddr.toNat ++ BigEndian.encode 4 flow.dstAddr.toNat ++
    BigEndian.encode 4 flow.nextHop.toNat ++ BigEndian.encode 2 flow.input.toNat ++
    BigEndian.encode 2 flow.output.toNat ++ BigEndian.encode 4 flow.dPkts.toNat ++
    BigEndian.encode 4 flow.dOctets.toNat ++ BigEndian.encode 4 flow.first.toNat ++
    BigEndian.encode 4 flow.last.toNat ++ BigEndian.encode 2 flow.srcPort.toNat ++
    BigEndian.encode 2 flow.dstPort.toNat ++ [0, flow.tcpFlags, flow.prot, flow.tos] ++
    BigEndian.encode 2 flow.srcAs.toNat ++ BigEndian.encode 2 flow.dstAs.toNat ++
    [flow.srcMask, flow.dstMask, 0, 0]

def V5Header.encode (h : V5Header) : List UInt8 :=
  BigEndian.encode 2 h.version.toNat ++ BigEndian.encode 2 h.count.toNat ++
    BigEndian.encode 4 h.sysUptime.toNat ++ BigEndian.encode 4 h.unixSecs.toNat ++
    BigEndian.encode 4 h.unixNsecs.toNat ++ BigEndian.encode 4 h.flowSequence.toNat ++
    [h.engineType, h.engineID] ++ BigEndian.encode 2 h.samplingInterval.toNat

/-- The header that goes with some flows. -/
def V5Header.announcing (h : V5Header) (flows : List Flow) : V5Header :=
  { h with version := 5, count := UInt16.ofNat flows.length }

def exportV5 (h : V5Header) (flows : List Flow) : List UInt8 :=
  (h.announcing flows).encode ++ flows.flatMap Flow.encode

/-- A dotted address. -/
def dotted (addr : UInt32) : Str := ipString (BigEndian.encode 4 addr.toNat)

/-- What a flow says. -/
def Flow.record (flow : Flow) : Record where
  srcIP := dotted flow.srcAddr
  dstIP := dotted flow.dstAddr
  srcPort := flow.srcPort.toUInt32
  dstPort := flow.dstPort.toUInt32
  proto := protoName flow.prot
  bytes := flow.dOctets.toUInt64

/-! ### Decoding -/

theorem length_flow (flow : Flow) : flow.encode.length = v5RecordSize := by
  simp [Flow.encode, v5RecordSize]

theorem length_header (h : V5Header) : h.encode.length = v5HeaderSize := by
  simp [V5Header.encode, v5HeaderSize]

/-- A record is read with the packet count for the octets. -/
theorem parseV5Record_flow (flow : Flow) :
    parseV5Record flow.encode = .ok { flow.record with bytes := flow.dPkts.toUInt64 } := by
  have srcAddr : slice flow.encode 0 4 = BigEndian.encode 4 flow.srcAddr.toNat := by
    simp [slice, Flow.encode, BigEndian.encode]
  have dstAddr : slice flow.encode 4 8 = BigEndian.encode 4 flow.dstAddr.toNat := by
    simp [slice, Flow.encode, BigEndian.encode]
  have prot : flow.encode.getD 38 0 = flow.prot := by simp [Flow.encode, BigEndian.encode]
  have srcPort : slice flow.encode 32 34 = BigEndian.encode 2 flow.srcPort.toNat := by
    simp [slice, Flow.encode, BigEndian.encode]
  have dstPort : slice flow.encode 34 36 = BigEndian.encode 2 flow.dstPort.toNat := by
    simp [slice, Flow.encode, BigEndian.encode]
  have packets : slice flow.encode 16 20 = BigEndian.encode 4 flow.dPkts.toNat := by
    simp [slice, Flow.encode, BigEndian.encode]
  have long : ¬ flow.encode.length < v5RecordSize := by
    rw [length_flow]
    exact lt_irrefl _
  rw [parseV5Record, if_neg long, srcAddr, dstAddr, srcPort, dstPort, prot, packets, uint16_encode,
    uint16_encode, uint32_encode]
  rfl

theorem parseRecords_flows (flows : List Flow) (back : List UInt8) :
    parseRecords flows.length (flows.flatMap Flow.encode ++ back) =
      (flows.map fun flow => { flow.record with bytes := flow.dPkts.toUInt64 }, none) := by
  induction flows with
  | nil => rfl
  | cons flow flows ih =>
      have size := length_flow flow
      have here :
          slice ((flow :: flows).flatMap Flow.encode ++ back) 0 v5RecordSize = flow.encode := by
        rw [slice, List.drop_zero, Nat.sub_zero, List.flatMap_cons, List.append_assoc, ← size,
          List.take_left]
      have behind : ((flow :: flows).flatMap Flow.encode ++ back).drop v5RecordSize =
          flows.flatMap Flow.encode ++ back := by
        rw [List.flatMap_cons, List.append_assoc, ← size, List.drop_left]
      rw [List.length_cons, parseRecords, here, parseV5Record_flow, behind]
      dsimp only
      rw [ih]
      rfl

theorem parseHeader_encode (h : V5Header) (back : List UInt8) :
    parseHeader (h.encode ++ back) = h := by
  have version : slice (h.encode ++ back) 0 2 = BigEndian.encode 2 h.version.toNat := rfl
  have count : slice (h.encode ++ back) 2 4 = BigEndian.encode 2 h.count.toNat := rfl
  have sysUptime : slice (h.encode ++ back) 4 8 = BigEndian.encode 4 h.sysUptime.toNat := rfl
  have unixSecs : slice (h.encode ++ back) 8 12 = BigEndian.encode 4 h.unixSecs.toNat := rfl
  have unixNsecs : slice (h.encode ++ back) 12 16 = BigEndian.encode 4 h.unixNsecs.toNat := rfl
  have flowSequence : slice (h.encode ++ back) 16 20 = BigEndian.encode 4 h.flowSequence.toNat :=
    rfl
  have samplingInterval :
      slice (h.encode ++ back) 22 24 = BigEndian.encode 2 h.samplingInterval.toNat := rfl
  rw [parseHeader, version, count, sysUptime, unixSecs, unixNsecs, flowSequence, samplingInterval,
    uint16_encode, uint16_encode, uint16_encode, uint32_encode, uint32_encode, uint32_encode,
    uint32_encode]
  rfl

/-- What is read of an exported packet. -/
theorem parseV5_export (h : V5Header) (flows : List Flow) (few : flows.length ≤ 65535) :
    parseV5 (exportV5 h flows) =
      (h.announcing flows, flows.map fun flow => { flow.record with bytes := flow.dPkts.toUInt64 },
        none) := by
  have announced : (h.announcing flows).count.toNat = flows.length := by
    show (UInt16.ofNat flows.length).toNat = flows.length
    rw [UInt16.toNat_ofNat']
    exact Nat.mod_eq_of_lt (by omega)
  have body : (flows.flatMap Flow.encode).length = flows.length * v5RecordSize := by
    rw [List.length_flatMap, List.map_congr_left fun flow _ => length_flow flow, List.map_const',
      List.sum_replicate, smul_eq_mul]
  have total : (exportV5 h flows).length = v5HeaderSize + flows.length * v5RecordSize := by
    rw [exportV5, List.length_append, length_header, body]
  have version : (h.announcing flows).version = 5 := rfl
  have front : (exportV5 h flows).drop v5HeaderSize = flows.flatMap Flow.encode ++ [] := by
    rw [exportV5, ← length_header (h.announcing flows), List.drop_left, List.append_nil]
  rw [parseV5, if_neg (by omega)]
  dsimp only
  rw [front, exportV5, parseHeader_encode, if_neg (not_not.mpr version), announced, ← exportV5,
    if_neg (by omega),
    parseRecords_flows]

theorem length_parseRecords (left : Nat) (pkt : List UInt8)
    (ok : (parseRecords left pkt).2 = none) :
    (parseRecords left pkt).1.length = left := by
  induction left generalizing pkt with
  | zero => rfl
  | succ left ih =>
      rw [parseRecords] at ok ⊢
      cases parsed : parseV5Record (slice pkt 0 v5RecordSize) with
      | error e =>
          rw [parsed] at ok
          cases ok
      | ok rec =>
          rw [parsed] at ok
          dsimp only at ok ⊢
          rw [List.length_cons, ih _ ok]

/-- An accepted packet is of version 5 and holds the announced records. -/
theorem of_parseV5_ok (pkt : List UInt8) (h : V5Header) (recs : List Record)
    (ok : parseV5 pkt = (h, recs, none)) :
    uint16 (slice pkt 0 2) = 5 ∧
      v5HeaderSize + (uint16 (slice pkt 2 4)).toNat * v5RecordSize ≤ pkt.length ∧
      recs.length = (uint16 (slice pkt 2 4)).toNat := by
  rw [parseV5] at ok
  split at ok
  · cases ok
  · dsimp only at ok
    split at ok
    · cases ok
    · rename_i version
      split at ok
      · cases ok
      · rename_i long
        have parts := (Prod.mk.inj ok).2
        have full := length_parseRecords _ _ (congrArg Prod.snd parts)
        rw [congrArg Prod.fst parts] at full
        exact ⟨not_not.mp version, not_lt.mp long, full⟩

/-- The flows of a packet are decoded exactly if each has as many packets as octets; no packet is
accepted that is not of version 5 or lacks announced records. -/
theorem parseV5_decodes_iff (h : V5Header) (flows : List Flow) (few : flows.length ≤ 65535) :
    (parseV5 (exportV5 h flows) = (h.announcing flows, flows.map Flow.record, none) ↔
        ∀ flow ∈ flows, flow.dPkts = flow.dOctets) ∧
      ∀ pkt header recs, parseV5 pkt = (header, recs, none) →
        uint16 (slice pkt 0 2) = 5 ∧
          v5HeaderSize + (uint16 (slice pkt 2 4)).toNat * v5RecordSize ≤ pkt.length ∧
          recs.length = (uint16 (slice pkt 2 4)).toNat := by
  refine ⟨?_, of_parseV5_ok⟩
  rw [parseV5_export h flows few, Prod.mk.injEq, Prod.mk.injEq, List.map_inj_left]
  constructor
  · rintro ⟨-, same, -⟩ flow member
    have bytes := congrArg Record.bytes (same flow member)
    have numbers := congrArg UInt64.toNat bytes
    exact UInt32.toNat_inj.mp (by simpa [Flow.record] using numbers)
  · intro same
    refine ⟨rfl, ?_, rfl⟩
    intro flow member
    rw [same flow member]
    rfl

def oneFlow : Flow :=
  { srcAddr := 0x0A00000A, dstAddr := 0x0A000014, dPkts := 10, dOctets := 9000, srcPort := 443,
    dstPort := 52000, prot := 6 }

theorem evenFlow_decoded :
    parseV5 (exportV5 {} [{ oneFlow with dOctets := 10 }]) =
      (V5Header.announcing {} [{ oneFlow with dOctets := 10 }],
        [Flow.record { oneFlow with dOctets := 10 }], none) :=
  (parseV5_decodes_iff {} [{ oneFlow with dOctets := 10 }] (by decide)).1.mpr (by decide)

/-- 9000 octets in ten packets are read as ten octets. -/
theorem oneFlow_misread :
    parseV5 (exportV5 {} [oneFlow]) ≠ (V5Header.announcing {} [oneFlow], [oneFlow.record],
      none) := by
  decide

end EraOne.Netflow
