import EraOne.DomainName
import EraOne.IpNet
import EraOne.Strings

set_option autoImplicit false

/- The messages of the resolver (`dnsx/server.go`). The text of an address is parsed by the standard
library, and the verdict on a name is whatever the guard decides. -/
namespace EraOne.Dns

open BigEndian DomainName IpNet

abbrev Bytes := List UInt8

inductive Action where
  | allow
  | nxdomain
  | sinkhole
  | other (name : Bytes)
  deriving DecidableEq

structure Verdict where
  qname : Bytes
  qtype : Str
  action : Action := .allow
  ruleID : Bytes := []
  reason : Bytes := []
  sinkhole : Bytes := []
  source : Str := "default".toList

structure Query where
  qname : Bytes
  qtype : UInt16
  id : UInt16
  deriving DecidableEq

/-- The loop over the labels of a name: the labels, and what follows the name. -/
def readLabels : Nat → Bytes → Except Str (List Label × Bytes)
  | 0, _ => .error "bad name".toList
  | _ + 1, [] => .error "bad name".toList
  | fuel + 1, l :: rest =>
      if l = 0 then .ok ([], rest)
      else if rest.length < l.toNat then .error "label overflow".toList
      else
        match readLabels fuel (rest.drop l.toNat) with
        | .error err => .error err
        | .ok (labels, tail) => .ok (rest.take l.toNat :: labels, tail)

def parseQuery (msg : Bytes) : Except Str Query :=
  if msg.length < 12 then .error "short".toList
  else
    match readLabels msg.length (msg.drop 12) with
    | .error err => .error err
    | .ok (labels, tail) =>
        if tail.length < 4 then .error "no qtype".toList
        else .ok
          { qname := dotted labels, qtype := uint16 (tail.take 2), id := uint16 (msg.take 2) }

def qtypeName (t : UInt16) : Str :=
  if t = 1 then "A".toList
  else if t = 28 then "AAAA".toList
  else if t = 16 then "TXT".toList
  else (toString t.toNat).toList

def encodeA (qname : Bytes) (ip : IP) : Bytes :=
  encodeLabels (parts qname) ++ [0] ++ encode 2 1 ++ encode 2 1 ++ encode 4 60 ++ encode 2 4 ++ ip

/-- The loop that looks for the end of the question. -/
def questionEnd : Nat → Bytes → Nat
  | 0, _ => 0
  | _ + 1, [] => 0
  | fuel + 1, l :: rest => if l = 0 then 5 else 1 + l.toNat + questionEnd fuel (rest.drop l.toNat)

section Server

variable (parseIP : Bytes → Option IP)

/-- The address of an A record, if there is to be one. -/
def sinkholeA (qtype : UInt16) (v : Verdict) : Option IP :=
  if v.action = .sinkhole ∧ qtype = 1 ∧ v.sinkhole ≠ [] then (parseIP v.sinkhole).bind to4 else none

def responseCode (v : Verdict) : UInt16 := if v.action = .nxdomain then 3 else 0

def buildResponse (req : Bytes) (id : UInt16) (qname : Bytes) (qtype : UInt16) (v : Verdict) :
    Except Str Bytes :=
  if req.length < 12 then .error "short".toList
  else
    let flags := uint16 ((req.drop 2).take 2) ||| 0x8000 ||| 0x0080
    let flags := flags &&& ~~~ 0x000F ||| responseCode v
    let answer := (sinkholeA parseIP qtype v).elim [] (encodeA qname)
    let ancount := if (sinkholeA parseIP qtype v).isSome then 1 else 0
    let question := (req.drop 12).take (questionEnd req.length (req.drop 12))
    .ok (encode 2 id.toNat ++ encode 2 flags.toNat ++ encode 2 1 ++ encode 2 ancount ++ encode 2
      0 ++ encode 2 0 ++
      question ++ answer)

/-- The guard is asked for the name and the text of the type. -/
def handleMessage (decide : Bytes → Str → Verdict) (msg : Bytes) : Except Str Bytes :=
  match parseQuery msg with
  | .error err => .error err
  | .ok q => buildResponse parseIP msg q.id q.qname q.qtype (decide q.qname (qtypeName q.qtype))

end Server

def rcode (msg : Bytes) : Int :=
  if msg.length < 4 then -1 else (uint16 ((msg.drop 2).take 2) &&& 0x000F).toNat

def hasAnswerA (msg : Bytes) : Bool :=
  if msg.length < 12 then false else 0 < uint16 ((msg.drop 6).take 2)

/-! ### What a response is to be -/

/-- An A record of class IN. -/
structure ARecord where
  owner : List Label
  ttl : UInt32
  address : IP

def ARecord.encode (r : ARecord) : Bytes :=
  encodeLabels r.owner ++ [0] ++ BigEndian.encode 2 1 ++ BigEndian.encode 2 1 ++ BigEndian.encode 4
    r.ttl.toNat ++
    BigEndian.encode 2 4 ++ r.address

/-- A response has the id and the question of the query, says that it is a response and how many
records follow, and these are A records of the name that was asked for. -/
def WellFormed (msg resp : Bytes) : Prop :=
  ∃ (labels : List Label) (kind rest : Bytes) (flags : UInt16) (answers : List ARecord),
    msg.drop 12 = encodeLabels labels ++ 0 :: (kind ++ rest) ∧ kind.length = 4 ∧
    (∀ label ∈ labels, label.Valid) ∧ flags &&& 0x8000 = 0x8000 ∧ answers.length < 65536 ∧
    (∀ a ∈ answers, a.owner = labels ∧ a.address.length = 4) ∧
    resp = msg.take 2 ++ encode 2 flags.toNat ++ encode 2 1 ++ encode 2 answers.length ++ encode 2
      0 ++ encode 2 0 ++
      (encodeLabels labels ++ 0 :: kind) ++ answers.flatMap ARecord.encode

/-! ### The two loops -/

/-- What the first loop reads is a name on the wire. -/
theorem readLabels_spec (fuel : Nat) (bytes tail : Bytes) (labels : List Label)
    (read : readLabels fuel bytes = .ok (labels, tail)) :
    bytes = encodeLabels labels ++ 0 :: tail ∧ ∀ label ∈ labels, label.Valid := by
  induction fuel generalizing bytes labels with
  | zero => cases read
  | succ fuel ih =>
      cases bytes with
      | nil => cases read
      | cons l rest =>
          unfold readLabels at read
          by_cases last : l = 0
          · rw [if_pos last] at read
            cases read
            exact ⟨by rw [last]; rfl, by simp⟩
          · rw [if_neg last] at read
            by_cases long : rest.length < l.toNat
            · rw [if_pos long] at read
              cases read
            · rw [if_neg long] at read
              cases inner : readLabels fuel (rest.drop l.toNat) with
              | error err =>
                  rw [inner] at read
                  cases read
              | ok pair =>
                  rw [inner] at read
                  cases read
                  obtain ⟨whole, valid⟩ := ih _ _ inner
                  have size : (rest.take l.toNat).length = l.toNat := by
                    rw [List.length_take]
                    omega
                  have positive : l.toNat ≠ 0 := by
                    intro zero
                    exact last (UInt8.toNat_inj.mp zero)
                  refine ⟨?_, ?_⟩
                  · rw [encodeLabels_cons, size, UInt8.ofNat_toNat, List.cons_append,
                      List.append_assoc, ← whole, List.take_append_drop]
                  · rw [List.forall_mem_cons]
                    refine ⟨⟨?_, ?_⟩, valid⟩
                    · intro empty
                      rw [empty, List.length_nil] at size
                      exact positive size.symm
                    · rw [size]
                      exact l.toNat_lt

theorem length_le_encodeLabels (labels : List Label) :
    labels.length ≤ (encodeLabels labels).length := by
  induction labels with
  | nil => exact Nat.le_refl _
  | cons label rest ih =>
      rw [encodeLabels_cons, List.length_cons, List.length_cons, List.length_append]
      omega

/-- The second loop ends where the first does. -/
theorem questionEnd_encode (fuel : Nat) (labels : List Label) (tail : Bytes)
    (enough : labels.length < fuel) (valid : ∀ label ∈ labels, label.Valid) :
    questionEnd fuel (encodeLabels labels ++ 0 :: tail) = (encodeLabels labels).length + 5 := by
  induction labels generalizing fuel with
  | nil =>
      cases fuel with
      | zero => simp at enough
      | succ fuel => rfl
  | cons label rest ih =>
      cases fuel with
      | zero => simp at enough
      | succ fuel =>
          rw [List.forall_mem_cons] at valid
          have size : (UInt8.ofNat label.length).toNat = label.length := by
            rw [UInt8.toNat_ofNat']
            exact Nat.mod_eq_of_lt valid.1.2
          rw [encodeLabels_cons, List.cons_append, questionEnd,
            if_neg (ofNat_length_ne_zero label valid.1), size, List.append_assoc, List.drop_left,
            ih fuel (Nat.lt_of_succ_lt_succ enough) valid.2, List.length_cons, List.length_append]
          omega

/-! ### Responses -/

theorem encode_uint16 (bytes : Bytes) (two : bytes.length = 2) :
    encode 2 (uint16 bytes).toNat = bytes := by
  apply value_inj _ _ (by rw [length_encode, two])
  have small := value_lt bytes
  rw [two] at small
  rw [value_encode, uint16, UInt16.toNat_ofNat']
  omega

/-- The bit that tells a response from a query. -/
theorem response_flag (x r : UInt16) :
    ((x ||| 0x8000 ||| 0x0080) &&& ~~~ 0x000F ||| r) &&& 0x8000 = 0x8000 := by
  apply UInt16.eq_of_toBitVec_eq
  apply BitVec.eq_of_getLsbD_eq
  intro i small
  interval_cases i <;> simp

/-- What a caller reads from the header. -/
theorem header_fields (id back : Bytes) (flags : UInt16) (count : Nat) (two : id.length = 2)
    (small : count < 65536) (behind : 4 ≤ back.length) :
    (hasAnswerA (id ++ encode 2 flags.toNat ++ encode 2 1 ++ encode 2 count ++ back) = true ↔
      0 < count) ∧
      rcode (id ++ encode 2 flags.toNat ++ encode 2 1 ++ encode 2 count ++ back) =
        (flags &&& 0x000F).toNat := by
  have size : (id ++ encode 2 flags.toNat ++ encode 2 1 ++ encode 2 count ++ back).length = 8 +
      back.length := by
    simp only [List.length_append, length_encode, two]
  constructor
  · have front : (id ++ encode 2 flags.toNat ++ encode 2 1).length = 6 := by
      simp only [List.length_append, length_encode, two]
    have field :
        ((id ++ encode 2 flags.toNat ++ encode 2 1 ++ encode 2 count ++ back).drop 6).take 2 =
          encode 2 count := by
      rw [List.append_assoc _ (encode 2 count), List.drop_left' front,
        List.take_left' (length_encode 2 count)]
    have same : (uint16 (encode 2 count)).toNat = count := by
      rw [uint16, value_encode, UInt16.toNat_ofNat']
      omega
    rw [hasAnswerA, if_neg (by omega), field, decide_eq_true_iff, UInt16.lt_iff_toNat_lt, same]
    rfl
  · have field : ((id ++ encode 2 flags.toNat ++ encode 2 1 ++ encode 2 count ++ back).drop 2).take
        2 =
          encode 2 flags.toNat := by
      simp only [List.append_assoc]
      rw [List.drop_left' two, List.take_left' (length_encode 2 _)]
    rw [rcode, if_neg (by omega), field, uint16_encode]

theorem response_header (msg resp : Bytes) (labels : List Label) (kind : Bytes) (flags : UInt16)
    (found : Option IP) (long : 12 ≤ msg.length)
    (shape : resp = msg.take 2 ++ encode 2 flags.toNat ++ encode 2 1 ++ encode 2
      (if found.isSome then 1 else 0) ++
        encode 2 0 ++ encode 2 0 ++ (encodeLabels labels ++ 0 :: kind) ++ found.elim []
          (encodeA (dotted labels))) :
    (hasAnswerA resp = true ↔ found.isSome) ∧ rcode resp = (flags &&& 0x000F).toNat := by
  have start : (msg.take 2).length = 2 := by
    rw [List.length_take]
    omega
  have small : (if found.isSome then 1 else 0) < 65536 := by split <;> omega
  have fields := header_fields (msg.take 2)
    (encode 2 0 ++ (encode 2 0 ++
      ((encodeLabels labels ++ 0 :: kind) ++ found.elim [] (encodeA (dotted labels)))))
    flags _ start small (by simp only [List.length_append, length_encode]; omega)
  simp only [List.append_assoc] at fields shape
  rw [shape]
  refine ⟨fields.1.trans ?_, fields.2⟩
  cases found <;> simp

section Response

variable (parseIP : Bytes → Option IP)

theorem length_to4 (ip four : IP) (converted : to4 ip = some four) : four.length = 4 := by
  unfold to4 at converted
  split at converted
  · rename_i short
    rw [← Option.some.inj converted]
    exact short
  · split at converted
    · rename_i long
      rw [← Option.some.inj converted, List.length_drop, long.1]
    · cases converted

theorem length_sinkholeA (qtype : UInt16) (v : Verdict) (ip : IP)
    (found : sinkholeA parseIP qtype v = some ip) :
    ip.length = 4 := by
  unfold sinkholeA at found
  split at found
  · obtain ⟨whole, -, converted⟩ := Option.bind_eq_some_iff.mp found
    exact length_to4 whole ip converted
  · cases found

theorem response_nibble (x : UInt16) (v : Verdict) :
    ((x ||| 0x8000 ||| 0x0080) &&& ~~~ 0x000F ||| responseCode v) &&& 0x000F = responseCode v := by
  unfold responseCode
  split
  all_goals
    apply UInt16.eq_of_toBitVec_eq
    apply BitVec.eq_of_getLsbD_eq
    intro i small
    interval_cases i <;> simp

/-- What a message is answered with, in terms of its labels. -/
theorem handleMessage_spec (decide : Bytes → Str → Verdict) (msg resp : Bytes)
    (handled : handleMessage parseIP decide msg = .ok resp) :
    ∃ (labels : List Label) (kind rest : Bytes) (flags : UInt16) (v : Verdict) (found : Option IP),
      readLabels msg.length (msg.drop 12) = .ok (labels, kind ++ rest) ∧ kind.length = 4 ∧
        12 ≤ msg.length ∧
      v = decide (dotted labels) (qtypeName (uint16 (kind.take 2))) ∧
      found = sinkholeA parseIP (uint16 (kind.take 2)) v ∧
      flags &&& 0x8000 = 0x8000 ∧ flags &&& 0x000F = responseCode v ∧
      resp = msg.take 2 ++ encode 2 flags.toNat ++ encode 2 1 ++ encode 2
        (if found.isSome then 1 else 0) ++
        encode 2 0 ++ encode 2 0 ++ (encodeLabels labels ++ 0 :: kind) ++ found.elim []
          (encodeA (dotted labels)) := by
  unfold handleMessage parseQuery at handled
  by_cases short : msg.length < 12
  · rw [if_pos short] at handled
    cases handled
  · rw [if_neg short] at handled
    cases read : readLabels msg.length (msg.drop 12) with
    | error err =>
        rw [read] at handled
        cases handled
    | ok pair =>
        obtain ⟨labels, tail⟩ := pair
        rw [read] at handled
        dsimp only at handled
        by_cases cut : tail.length < 4
        · rw [if_pos cut] at handled
          cases handled
        · rw [if_neg cut] at handled
          dsimp only at handled
          have asked : (tail.take 4).take 2 = tail.take 2 := by
            rw [List.take_take]
            rfl
          generalize verdict : decide (dotted labels)
            (qtypeName (uint16 (tail.take 2))) = v at handled
          obtain ⟨whole, valid⟩ := readLabels_spec _ _ _ _ read
          have enough : labels.length < msg.length := by
            have total := congrArg List.length whole
            rw [List.length_drop, List.length_append, List.length_cons] at total
            have least := length_le_encodeLabels labels
            omega
          have question : (msg.drop 12).take (questionEnd msg.length (msg.drop 12)) =
              encodeLabels labels ++ 0 :: tail.take 4 := by
            rw [whole, questionEnd_encode _ labels tail enough valid, List.take_length_add_append]
            rfl
          have id : encode 2 (uint16 (msg.take 2)).toNat = msg.take 2 := by
            apply encode_uint16
            rw [List.length_take]
            omega
          refine ⟨labels, tail.take 4, tail.drop 4,
            (uint16 ((msg.drop 2).take 2) ||| 0x8000 ||| 0x0080) &&& ~~~ 0x000F ||| responseCode v,
            v, _, ?_, ?_,
            Nat.le_of_not_lt short, ?_, rfl, response_flag _ _, response_nibble _ v, ?_⟩
          · rw [List.take_append_drop]
          · rw [List.length_take]
            omega
          · rw [asked, verdict]
          · rw [buildResponse, if_neg short] at handled
            dsimp only at handled
            rw [question, id, ← asked] at handled
            exact (Except.ok.inj handled).symm

/-- The code of a response, and whether it brings an address. -/
theorem response_fields (decide : Bytes → Str → Verdict) (msg resp : Bytes)
    (handled : handleMessage parseIP decide msg = .ok resp) :
    ∃ (labels : List Label) (kind rest : Bytes) (v : Verdict),
      readLabels msg.length (msg.drop 12) = .ok (labels, kind ++ rest) ∧ kind.length = 4 ∧
      v = decide (dotted labels) (qtypeName (uint16 (kind.take 2))) ∧
      rcode resp = (responseCode v).toNat ∧
      (hasAnswerA resp = true ↔ (sinkholeA parseIP (uint16 (kind.take 2)) v).isSome) := by
  obtain ⟨labels, kind, rest, flags, v, found, read, four, long, verdict, address, -, code,
      shape⟩ :=
    handleMessage_spec parseIP decide msg resp handled
  obtain ⟨answered, coded⟩ := response_header msg resp labels kind flags found long shape
  refine ⟨labels, kind, rest, v, read, four, verdict, ?_, ?_⟩
  · rw [coded, code]
  · rw [answered, address]

/-- An answer that is the bytes of an A record of the name. -/
theorem encodeA_iff (labels : List Label) (ip : IP) (r : ARecord)
    (valid : ∀ label ∈ labels, label.Valid) (owner : r.owner = labels) (size : r.address.length = 4)
    (four : ip.length = 4) (same : encodeA (dotted labels) ip = r.encode) :
    labels ≠ [] ∧ ∀ label ∈ labels, dot ∉ label := by
  apply (parts_dotted_iff labels valid).mp
  unfold encodeA ARecord.encode at same
  rw [owner] at same
  simp only [List.append_assoc] at same
  have names := (List.append_inj' same (by simp [size, four])).1
  apply encodeLabels_inj _ _ (length_parts_lt labels valid) _ names
  intro label member
  exact (valid label member).2

/-- Every message that is answered is answered well, except that an address is lost on the caller
where the name that was asked for is the root, or has a label with a dot in it. -/
theorem response_wellFormed_iff (decide : Bytes → Str → Verdict) (msg resp : Bytes)
    (handled : handleMessage parseIP decide msg = .ok resp) :
    ∃ (labels : List Label) (tail : Bytes),
      readLabels msg.length (msg.drop 12) = .ok (labels, tail) ∧
      (WellFormed msg resp ↔ hasAnswerA resp = false ∨ labels ≠ [] ∧
        ∀ label ∈ labels, dot ∉ label) := by
  obtain ⟨labels, kind, rest, flags, v, found, read, four, long, -, address, isResponse, -,
      shape⟩ :=
    handleMessage_spec parseIP decide msg resp handled
  refine ⟨labels, kind ++ rest, read, ?_⟩
  obtain ⟨whole, valid⟩ := readLabels_spec _ _ _ _ read
  have answered := (response_header msg resp labels kind flags found long shape).1
  constructor
  · rintro ⟨labels', kind', rest', flags', answers, whole', four', valid', -, few, records, shape'⟩
    obtain ⟨same, tails⟩ :=
      encodeLabels_end_inj labels labels' _ _ valid valid' (whole.symm.trans whole')
    have kinds := (List.append_inj tails (four.trans four'.symm)).1
    rw [shape, ← same, ← kinds] at shape'
    simp only [List.append_assoc] at shape'
    have afterId := (List.append_inj shape' rfl).2
    have afterFlags := (List.append_inj afterId (by simp)).2
    have afterOne := (List.append_inj afterFlags rfl).2
    obtain ⟨counts, afterCount⟩ := List.append_inj afterOne (by simp)
    have total : answers.length = if found.isSome then 1 else 0 := by
      have values := congrArg value counts
      rw [value_encode, value_encode] at values
      have one : (if found.isSome then 1 else 0) ≤ 1 := by split <;> omega
      omega
    cases found with
    | none =>
        left
        rw [← Bool.not_eq_true, answered]
        decide
    | some ip =>
        right
        obtain ⟨r, one⟩ := List.length_eq_one_iff.mp total
        have answer := List.append_cancel_left (List.append_cancel_left (List.append_cancel_left
          (List.append_cancel_left afterCount)))
        rw [one, List.flatMap_singleton] at answer
        obtain ⟨owner, size⟩ := records r (by rw [one]; exact List.mem_singleton_self r)
        exact encodeA_iff labels ip r valid (owner.trans same.symm) size
          (length_sinkholeA parseIP _ v ip address.symm) answer
  · intro either
    cases found with
    | none =>
        exact ⟨labels, kind, rest, flags, [], whole, four, valid, isResponse, by simp, by simp,
          shape⟩
    | some ip =>
        have plain : labels ≠ [] ∧ ∀ label ∈ labels, dot ∉ label := by
          rcases either with none_ | plain
          · rw [answered.mpr (by simp)] at none_
            cases none_
          · exact plain
        have name := (parts_dotted_iff labels valid).mpr plain
        refine ⟨labels, kind, rest, flags, [⟨labels, 60, ip⟩], whole, four, valid, isResponse,
          by simp, ?_, ?_⟩
        · simp [length_sinkholeA parseIP _ v ip address.symm]
        · rw [shape, Option.elim_some, encodeA, name, List.flatMap_singleton]
          rfl

/-- The text 127.0.0.1. -/
def loopbackText : Bytes := [49, 50, 55, 46, 48, 46, 48, 46, 49]

def parseLoopback (text : Bytes) : Option Bytes :=
  if text = loopbackText then some [127, 0, 0, 1] else none

/-- A name server for the root that is asked for its address. -/
theorem rootAnswer_lost :
    ∃ resp : Bytes,
      handleMessage parseLoopback
          (fun name kind =>
            { qname := name, qtype := kind, action := .sinkhole, sinkhole := loopbackText })
          [0, 7, 1, 0, 0, 1, 0, 0, 0, 0, 0, 0, 0, 0, 1, 0, 1] = .ok resp ∧
        ¬ WellFormed [0, 7, 1, 0, 0, 1, 0, 0, 0, 0, 0, 0, 0, 0, 1, 0, 1] resp := by
  refine ⟨_, rfl, ?_⟩
  intro good
  obtain ⟨labels, tail, read, fine⟩ := response_wellFormed_iff parseLoopback
    (fun name kind =>
      { qname := name, qtype := kind, action := .sinkhole, sinkhole := loopbackText })
    [0, 7, 1, 0, 0, 1, 0, 0, 0, 0, 0, 0, 0, 0, 1, 0, 1] _ rfl
  cases read
  rcases fine.mp good with none_ | ⟨some_, -⟩
  · cases none_
  · exact some_ rfl

end Response

end EraOne.Dns
