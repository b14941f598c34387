import EraOne.HashChain
import EraOne.ShamirSharing

set_option autoImplicit false

/- Chain of custody (`platform/custody`, and the hook of the event writer). Strings are their
bytes. -/
namespace EraOne.Custody

open HashChain
open Shamir (hexEncode hexEncode_injective length_hexEncode)

abbrev Bytes := List UInt8

/-- Sixty-four zeros. -/
def genesis : Bytes := List.replicate 64 48

structure Chain where
  lastHash : Bytes
  deriving DecidableEq

structure Entry where
  prevHash : Bytes
  hash : Bytes
  deriving DecidableEq

def newChain : Chain := ⟨genesis⟩

section Functions

variable (sha256 : Bytes → Vector UInt8 32)

/-- The text of a digest. -/
def hexSum (data : Bytes) : Bytes := hexEncode (sha256 data).toList

def Chain.seal (c : Chain) (payload : Bytes) : Chain × Entry :=
  let hash := hexSum sha256 (c.lastHash ++ payload)
  (⟨hash⟩, ⟨c.lastHash, hash⟩)

/-- What `Verify` puts before the payload. -/
def verifiedPrev (prevHash : Bytes) : Bytes := if prevHash = [] then genesis else prevHash

def verify (prevHash hash payload : Bytes) : Bool :=
  hash == hexSum sha256 (verifiedPrev prevHash ++ payload)

def Chain.head (c : Chain) : Bytes := c.lastHash

/-- `Seal` calls, one after the other. -/
def Chain.sealAll : Chain → List Bytes → Chain × List Entry
  | c, [] => (c, [])
  | c, payload :: rest =>
      let sealed := c.seal sha256 payload
      let others := sealed.1.sealAll rest
      (others.1, sealed.2 :: others.2)

/-- `SealEnvelope`: what cannot be marshalled gets an empty entry. -/
def sealEnvelope {Env : Type} (marshal : Env → Option Bytes) (chain : Chain) (env : Env) :
    Chain × Entry :=
  match marshal env with
  | none => (chain, ⟨[], []⟩)
  | some payload => chain.seal sha256 payload

def sealEnvelopes {Env : Type} (marshal : Env → Option Bytes) :
    Chain → List Env → Chain × List Entry
  | chain, [] => (chain, [])
  | chain, env :: rest =>
      let sealed := sealEnvelope sha256 marshal chain env
      let others := sealEnvelopes marshal sealed.1 rest
      (others.1, sealed.2 :: others.2)

end Functions

/-- An entry as a verifier is given it. -/
structure Link where
  prevHash : Bytes
  payload : Bytes
  hash : Bytes
  deriving DecidableEq

/-- A list of entries that a verifier accepts under a head. -/
structure Accepted (sha256 : Bytes → Vector UInt8 32) (head : Bytes) (history : List Link) :
    Prop where
  starts : ∀ first ∈ history.head?, first.prevHash = [] ∨ first.prevHash = genesis
  follows : history.IsChain fun before later => later.prevHash = before.hash
  verified : ∀ e ∈ history, verify sha256 e.prevHash e.hash e.payload = true
  ends : (history.getLast?.map Link.hash).getD genesis = head

/-- The texts hashed by sealing payloads and by verifying entries. -/
def hashed (sha256 : Bytes → Vector UInt8 32) (payloads : List Bytes) (history : List Link) :
    List Bytes :=
  ((newChain.sealAll sha256 payloads).2.zip payloads).map (fun e => e.1.prevHash ++ e.2) ++
    history.map fun e => verifiedPrev e.prevHash ++ e.payload

section Chains

variable (sha256 : Bytes → Vector UInt8 32)

/-- What `Seal` links. -/
def step (prev payload : Bytes) : Bytes := hexSum sha256 (prev ++ payload)

theorem length_hexSum (data : Bytes) : (hexSum sha256 data).length = 64 := by
  unfold hexSum
  rw [length_hexEncode, Vector.length_toList]

theorem hexSum_inj (data other : Bytes) :
    hexSum sha256 data = hexSum sha256 other ↔ sha256 data = sha256 other := by
  constructor
  · intro same
    exact Vector.toList_inj.mp (hexEncode_injective _ _ same)
  · intro same
    rw [hexSum, hexSum, same]

theorem hexSum_eq_genesis (data : Bytes) (zero : hexSum sha256 data = genesis) :
    sha256 data = Vector.replicate 32 0 := by
  have text : genesis = hexEncode (Vector.replicate 32 0).toList := by decide
  rw [text] at zero
  exact Vector.toList_inj.mp (hexEncode_injective _ _ zero)

theorem sealAll_head (payloads : List Bytes) (c : Chain) :
    (c.sealAll sha256 payloads).1.head = payloads.foldl (step sha256) c.lastHash := by
  induction payloads generalizing c with
  | nil => rfl
  | cons payload rest ih => exact ih _

theorem sealAll_hashed (payloads : List Bytes) (c : Chain) :
    ((c.sealAll sha256 payloads).2.zip payloads).map (fun e => e.1.prevHash ++ e.2) =
      (linked (step sha256) c.lastHash payloads).map fun pair => pair.1 ++ pair.2 := by
  induction payloads generalizing c with
  | nil => rfl
  | cons payload rest ih =>
      rw [Chain.sealAll, List.zip_cons_cons, List.map_cons, ih, linked, List.map_cons]
      rfl

theorem sealAll_hashes (payloads : List Bytes) (c : Chain) :
    (c.sealAll sha256 payloads).2.map Entry.hash = links (step sha256) c.lastHash payloads := by
  induction payloads generalizing c with
  | nil => rfl
  | cons payload rest ih =>
      rw [Chain.sealAll, List.map_cons, ih, links]
      rfl

/-- Entries that follow from a hash and verify are the chain of their payloads. -/
theorem links_of_verified (history : List Link) (first : Bytes) (full : first.length = 64)
    (starts : ∀ e ∈ history.head?, verifiedPrev e.prevHash = first)
    (follows : history.IsChain fun before later => later.prevHash = before.hash)
    (verified : ∀ e ∈ history, verify sha256 e.prevHash e.hash e.payload = true) :
    history.map Link.hash = links (step sha256) first (history.map Link.payload) ∧
      history.map (fun e => (verifiedPrev e.prevHash, e.payload)) =
        linked (step sha256) first (history.map Link.payload) := by
  induction history generalizing first with
  | nil => exact ⟨rfl, rfl⟩
  | cons e rest ih =>
      have prev : verifiedPrev e.prevHash = first := starts e rfl
      have hash : e.hash = step sha256 first e.payload := by
        have checked := verified e (by simp)
        rw [verify, prev, beq_iff_eq] at checked
        exact checked
      have next : ∀ e' ∈ rest.head?, verifiedPrev e'.prevHash = e.hash := by
        intro e' at_
        have link : e'.prevHash = e.hash := follows.rel_head? at_
        have some_ : e'.prevHash ≠ [] := by
          rw [link, hash]
          intro empty
          have size := length_hexSum sha256 (first ++ e.payload)
          rw [show hexSum sha256 (first ++ e.payload) = [] from empty] at size
          exact absurd size (by decide)
        rw [verifiedPrev, if_neg some_, link]
      have inner := ih e.hash (by rw [hash]; exact length_hexSum sha256 _) next follows.tail
        (fun e' inside => verified e' (by simp [inside]))
      constructor
      · rw [List.map_cons, List.map_cons, links, inner.1, ← hash]
      · rw [List.map_cons, List.map_cons, linked, inner.2, prev, ← hash]

theorem length_linked (items : List Bytes) (first : Bytes) (full : first.length = 64) :
    ∀ pair ∈ linked (step sha256) first items, pair.1.length = 64 := by
  induction items generalizing first with
  | nil => simp [linked]
  | cons p rest ih =>
      intro pair inside
      rw [linked, List.mem_cons] at inside
      cases inside with
      | inl here =>
          rw [here]
          exact full
      | inr later => exact ih _ (length_hexSum sha256 _) pair later

/-- Without collisions a link tells the hash and the payload it was made of: every hash but an empty
one is as long as every other. -/
theorem binding_of_distinct (pairs : List (Bytes × Bytes))
    (full : ∀ pair ∈ pairs, pair.1.length = 64)
    (collisionFree : ∀ x ∈ pairs.map (fun pair => pair.1 ++ pair.2),
      ∀ y ∈ pairs.map (fun pair => pair.1 ++ pair.2), sha256 x = sha256 y → x = y) :
    Binding (step sha256) pairs := by
  intro a inside b inside' same
  have text : a.1 ++ a.2 = b.1 ++ b.2 := by
    apply collisionFree _ (List.mem_map_of_mem inside) _ (List.mem_map_of_mem inside')
    exact (hexSum_inj sha256 _ _).mp same
  have halves := List.append_inj text ((full a inside).trans (full b inside').symm)
  exact Prod.ext halves.1 halves.2

/-- What a verifier accepts is a chain from the genesis hash. -/
theorem links_of_accepted (head : Bytes) (history : List Link)
    (accepted : Accepted sha256 head history) :
    history.map Link.hash = links (step sha256) genesis (history.map Link.payload) ∧
      history.map (fun e => (verifiedPrev e.prevHash, e.payload)) =
        linked (step sha256) genesis (history.map Link.payload) := by
  have start : ∀ e ∈ history.head?, verifiedPrev e.prevHash = genesis := by
    intro e first
    unfold verifiedPrev
    cases accepted.starts e first with
    | inl empty => rw [if_pos empty]
    | inr zero => rw [zero, if_neg (by decide)]
  exact links_of_verified sha256 history genesis
    (by decide) start accepted.follows accepted.verified

theorem payloads_of_accepted (payloads : List Bytes) (history : List Link)
    (collisionFree : ∀ x ∈ hashed sha256 payloads history, ∀ y ∈ hashed sha256 payloads history,
      sha256 x = sha256 y → x = y)
    (nonzero : ∀ x ∈ hashed sha256 payloads history, sha256 x ≠ Vector.replicate 32 0)
    (accepted : Accepted sha256 (newChain.sealAll sha256 payloads).1.head history) :
    payloads = history.map Link.payload := by
  have chain := links_of_accepted sha256 _ history accepted
  have pairs : hashed sha256 payloads history =
      (linked (step sha256) genesis payloads ++
        linked (step sha256) genesis (history.map Link.payload)).map fun pair =>
          pair.1 ++ pair.2 := by
    unfold hashed
    rw [sealAll_hashed, List.map_append, ← chain.2, List.map_map]
    rfl
  have full : ∀ pair ∈ linked (step sha256) genesis payloads ++
      linked (step sha256) genesis (history.map Link.payload), pair.1.length = 64 := by
    intro pair inside
    cases List.mem_append.mp inside with
    | inl sealed => exact length_linked sha256 _ genesis (by decide) pair sealed
    | inr given => exact length_linked sha256 _ genesis (by decide) pair given
  have same : payloads.foldl (step sha256) genesis = (history.map Link.payload).foldl
      (step sha256) genesis := by
    rw [← getLast?_links (step sha256) genesis (history.map Link.payload), ← chain.1,
      List.getLast?_map, accepted.ends, sealAll_head]
    rfl
  apply items_eq_of_foldl_eq (step sha256) genesis payloads (history.map Link.payload) _ _ same
  · apply binding_of_distinct sha256 _ full
    rwa [pairs] at collisionFree
  · intro pair inside zero
    refine nonzero (pair.1 ++ pair.2) ?_ (hexSum_eq_genesis sha256 _ zero)
    rw [pairs]
    exact List.mem_map_of_mem inside

/-- A history accepted under the head of the chain has exactly the payloads and hashes that were
sealed, in their order. -/
theorem accepted_history (payloads : List Bytes) (history : List Link)
    (collisionFree : ∀ x ∈ hashed sha256 payloads history, ∀ y ∈ hashed sha256 payloads history,
      sha256 x = sha256 y → x = y)
    (nonzero : ∀ x ∈ hashed sha256 payloads history, sha256 x ≠ Vector.replicate 32 0)
    (accepted : Accepted sha256 (newChain.sealAll sha256 payloads).1.head history) :
    history.map (fun e => (e.payload, e.hash)) =
      payloads.zip ((newChain.sealAll sha256 payloads).2.map Entry.hash) := by
  have chain := links_of_accepted sha256 _ history accepted
  have items := payloads_of_accepted sha256 payloads history collisionFree nonzero accepted
  rw [sealAll_hashes, show newChain.lastHash = genesis from rfl, items, ← chain.1, List.zip_map']

/-- The hook seals what can be marshalled, and gives the rest an empty entry. -/
theorem sealEnvelopes_eq {Env : Type} (marshal : Env → Option Bytes) (envs : List Env)
    (chain : Chain) :
    (sealEnvelopes sha256 marshal chain envs).1 =
      (chain.sealAll sha256 (envs.filterMap marshal)).1 ∧
        (((sealEnvelopes sha256 marshal chain envs).2.zip envs).filter fun e =>
          (marshal e.2).isSome).map Prod.fst =
          (chain.sealAll sha256 (envs.filterMap marshal)).2 := by
  induction envs generalizing chain with
  | nil => exact ⟨rfl, rfl⟩
  | cons env rest ih =>
      rw [sealEnvelopes, sealEnvelope]
      cases bytes : marshal env with
      | none =>
          rw [List.filterMap_cons_none bytes, List.zip_cons_cons,
            List.filter_cons_of_neg (by simp [bytes])]
          exact ih chain
      | some payload =>
          rw [List.filterMap_cons_some bytes, List.zip_cons_cons,
            List.filter_cons_of_pos (by simp [bytes]),
            List.map_cons, Chain.sealAll]
          have inner := ih (chain.seal sha256 payload).1
          exact ⟨inner.1, congrArg _ inner.2⟩

/-- A history accepted under the head of the hook's chain has exactly the events that could be
marshalled. -/
theorem accepted_envelopes {Env : Type} (marshal : Env → Option Bytes) (envs : List Env)
    (history : List Link) (collisionFree : ∀ x ∈ hashed sha256 (envs.filterMap marshal) history,
      ∀ y ∈ hashed sha256 (envs.filterMap marshal) history, sha256 x = sha256 y → x = y)
    (nonzero : ∀ x ∈ hashed sha256 (envs.filterMap marshal) history,
      sha256 x ≠ Vector.replicate 32 0)
    (accepted : Accepted sha256 (sealEnvelopes sha256 marshal newChain envs).1.head history) :
    envs.filterMap marshal = history.map Link.payload := by
  rw [(sealEnvelopes_eq sha256 marshal envs newChain).1] at accepted
  exact payloads_of_accepted sha256 _ history collisionFree nonzero accepted

end Chains

section Sample

/-- The digest of the first link of the sample. -/
def firstDigest : Vector UInt8 32 :=
  #v[121, 134, 129, 245, 6, 21, 17, 211, 79, 50, 244, 58, 177, 117, 163, 238, 112, 7, 254, 207, 220,
    132, 66, 149, 224, 84, 49, 91, 10, 242, 210, 61]

def secondDigest : Vector UInt8 32 :=
  #v[30, 237, 10, 253, 14, 115, 34, 56, 152, 154, 152, 110, 46, 211, 133, 216, 60, 137, 108, 39,
    174, 0, 135, 158, 105, 236, 246, 107, 109, 146, 199, 237]

/-- SHA-256 on the texts of the sample. -/
def sampleSha256 (data : Bytes) : Vector UInt8 32 :=
  if data = genesis ++ [97] then firstDigest
  else if data = hexEncode firstDigest.toList ++ [98, 99] then secondDigest
  else Vector.replicate 32 1

/-- The first entry names no hash before it. -/
def sampleHistory : List Link :=
  [⟨[], [97], hexEncode firstDigest.toList⟩,
    ⟨hexEncode firstDigest.toList, [98, 99], hexEncode secondDigest.toList⟩]

theorem sample_accepted :
    Accepted sampleSha256 (newChain.sealAll sampleSha256 [[97], [98, 99]]).1.head
      sampleHistory where
  starts := by decide
  follows := by decide
  verified := by decide
  ends := by decide

theorem sample_accepted_history :
    sampleHistory.map (fun e => (e.payload, e.hash)) =
      [[97], [98, 99]].zip ((newChain.sealAll sampleSha256 [[97], [98, 99]]).2.map Entry.hash) :=
  accepted_history sampleSha256 [[97], [98, 99]] sampleHistory (by decide)
    (by decide) sample_accepted

end Sample

end EraOne.Custody
