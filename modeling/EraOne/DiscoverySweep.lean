import EraOne.IpNet
import EraOne.Search

set_option autoImplicit false

/- The addresses that `services/observe/internal/discovery/sweep_real.go` probes. -/
namespace EraOne.DiscoverySweep

open IpNet

/-- The texts of addresses and networks, as the `net` package reads and writes them. -/
structure Net where
  parseCIDR : Str → Option IPNet
  parseIP : Str → Option IP
  ipString : IP → Str
  sizes : ∀ s n, parseCIDR s = some n → n.ip.length = n.mask.length ∧
    (n.ip.length = 4 ∨ n.ip.length = 16)
  ipString_inj : ∀ a b, a.length = b.length → a.length = 4 ∨ a.length = 16 →
    ipString a = ipString b → a = b

section

variable (net : Net)

def parseAllowlist (raw : Str) : List Str :=
  if raw = [] then [] else ((Scan.splitAll [','] raw).map Scan.trim).filter (· ≠ [])

/-- The loop over a block, which says whether it has reached the limit; the texts that were seen are
the ones that are listed. -/
def sweepBlock (network : IPNet) : Nat → IP → List Str → Option (List Str × Bool)
  | 0, _, _ => none
  | fuel + 1, ip, ips =>
      if network.contains ip then
        let s := net.ipString ip
        if s ∈ ips then sweepBlock network fuel (incIP ip) ips
        else if 64 ≤ (ips ++ [s]).length then some (ips ++ [s], true)
        else sweepBlock network fuel (incIP ip) (ips ++ [s])
      else some (ips, false)

def sweepBlocks (fuel : Nat) : List Str → List Str → Option (List Str)
  | [], ips => some ips
  | block :: rest, ips =>
      let block := Scan.trim block
      if block = [] then sweepBlocks fuel rest ips
      else
        match net.parseCIDR block with
        | none =>
            if (net.parseIP block).isSome ∧ block ∉ ips then sweepBlocks fuel rest (ips ++ [block])
            else sweepBlocks fuel rest ips
        | some network =>
            match sweepBlock net network fuel (maskIP network.ip network.mask) ips with
            | none => none
            | some (ips, true) => some ips
            | some (ips, false) => sweepBlocks fuel rest ips

/-- The blocks that are swept: the requested one if there is no allowlist. -/
def allowed (raw cidr : Str) : List Str :=
  if parseAllowlist raw = [] then [cidr] else parseAllowlist raw

def hostsInAllowlist (fuel : Nat) (raw cidr : Str) : Option (List Str) :=
  sweepBlocks net fuel (allowed raw cidr) []

/-- An entry that is an address by itself. -/
def Bare (entry : Str) : Prop := Scan.trim entry ≠ [] ∧ net.parseCIDR (Scan.trim entry) = none ∧
  (net.parseIP (Scan.trim entry)).isSome

/-- A text of an address in the block of an entry. -/
def InBlock (entry s : Str) : Prop :=
  ∃ network ip, net.parseCIDR (Scan.trim entry) = some network ∧ network.contains ip = true ∧
    s = net.ipString ip

/-! ### One block -/

theorem nodup_concat (ips : List Str) (s : Str) (distinct : ips.Nodup) (fresh : s ∉ ips) :
    (ips ++ [s]).Nodup := by
  rw [List.nodup_append]
  refine ⟨distinct, List.nodup_singleton _, fun a member b last => ?_⟩
  rw [List.mem_singleton.mp last]
  exact fun same => fresh (same ▸ member)

theorem sweepBlock_succ (network : IPNet) (fuel : Nat) (ip : IP) (ips : List Str)
    (result : List Str × Bool) (ended : sweepBlock net network fuel ip ips = some result) :
    sweepBlock net network (fuel + 1) ip ips = some result := by
  induction fuel generalizing ip ips with
  | zero => cases ended
  | succ fuel ih =>
      rw [sweepBlock] at ended ⊢
      dsimp only at ended ⊢
      split_ifs at ended ⊢ with inside seen full
      · exact ih _ _ ended
      · exact ended
      · exact ih _ _ ended
      · exact ended

/-- What a block adds are texts of its addresses, none twice, up to the limit. -/
theorem sweepBlock_spec (network : IPNet) (fuel : Nat) (ip : IP) (ips result : List Str)
    (stop : Bool) (ended : sweepBlock net network fuel ip ips = some (result, stop))
    (distinct : ips.Nodup) :
    result.Nodup ∧
      (∀ s ∈ result, s ∈ ips ∨ ∃ ip, network.contains ip = true ∧ s = net.ipString ip) ∧
      (ips.length ≤ 63 → result.length ≤ 64) ∧
        (stop = false → result.length ≤ max ips.length 63) := by
  induction fuel generalizing ip ips with
  | zero => cases ended
  | succ fuel ih =>
      rw [sweepBlock] at ended
      dsimp only at ended
      have longer (seen : net.ipString ip ∉ ips) := nodup_concat ips _ distinct seen
      split_ifs at ended with inside seen full
      · exact ih _ _ ended distinct
      · cases ended
        refine ⟨longer seen, fun s member => ?_, fun few => ?_, nofun⟩
        · rcases List.mem_append.mp member with before | here
          · exact Or.inl before
          · exact Or.inr ⟨ip, inside, List.mem_singleton.mp here⟩
        · rw [List.length_append, List.length_singleton]
          omega
      · obtain ⟨nodup, texts, most, kept⟩ := ih _ _ ended (longer seen)
        refine ⟨nodup, fun s member => ?_, fun _ => most (by omega), fun going => ?_⟩
        · rcases texts s member with before | later
          · rcases List.mem_append.mp before with before | here
            · exact Or.inl before
            · exact Or.inr ⟨ip, inside, List.mem_singleton.mp here⟩
          · exact Or.inr later
        · have bound := kept going
          omega
      · cases ended
        exact ⟨distinct, fun s member => Or.inl member, fun few => by omega, fun _ =>
          le_max_left _ _⟩

/-- A loop that goes on has listed all the addresses it went through. -/
theorem sweepBlock_none (network : IPNet) (fuel : Nat) (ip : IP) (ips : List Str)
    (going : sweepBlock net network fuel ip ips = none) :
    ∃ listed, (listed = ips ∨ listed.length < 64) ∧ ips ⊆ listed ∧
      ∀ k < fuel, net.ipString (incIP^[k] ip) ∈ listed := by
  induction fuel generalizing ip ips with
  | zero =>
      exact ⟨ips, Or.inl rfl, fun _ member => member, fun k below =>
        absurd below (Nat.not_lt_zero k)⟩
  | succ fuel ih =>
      rw [sweepBlock] at going
      dsimp only at going
      split_ifs at going with inside seen full
      · obtain ⟨listed, few, kept, all_⟩ := ih _ _ going
        refine ⟨listed, few, kept, fun k below => ?_⟩
        cases k with
        | zero => exact kept seen
        | succ k => exact all_ k (by omega)
      · obtain ⟨listed, few, kept, all_⟩ := ih _ _ going
        refine ⟨listed, Or.inr ?_, fun s member => kept (List.mem_append_left _ member),
          fun k below => ?_⟩
        · cases few with
          | inl same =>
              rw [same]
              omega
          | inr small => exact small
        · cases k with
          | zero => exact kept (List.mem_append_right _ (List.mem_singleton_self _))
          | succ k => exact all_ k (by omega)

/-- With as much fuel as there are addresses, a block ends. -/
theorem exists_sweepBlock (network : IPNet) (ip : IP) (ips : List Str)
    (size : ip.length = 4 ∨ ip.length = 16) (few : ips.length < 2 ^ 32) (fuel : Nat)
    (enough : 2 ^ 128 ≤ fuel) :
    ∃ result, sweepBlock net network fuel ip ips = some result := by
  cases ended : sweepBlock net network fuel ip ips with
  | some result => exact ⟨result, rfl⟩
  | none =>
      obtain ⟨listed, small, -, all_⟩ := sweepBlock_none net network fuel ip ips ended
      have most : 2 ^ 32 ≤ 256 ^ ip.length ∧ 256 ^ ip.length ≤ 2 ^ 128 := by
        cases size with
        | inl four => rw [four]; decide
        | inr sixteen => rw [sixteen]; decide
      have distinct : ((List.range (2 ^ 32)).map fun k => net.ipString (incIP^[k] ip)).Nodup := by
        apply List.Nodup.map_on _ List.nodup_range
        intro j first k second same
        rw [List.mem_range] at first second
        apply iterate_inj ip j k (by omega) (by omega)
        apply net.ipString_inj _ _ _ _ same
        · rw [length_iterate, length_iterate]
        · rwa [length_iterate]
      have inside : ((List.range (2 ^ 32)).map fun k => net.ipString (incIP^[k] ip)) ⊆ listed := by
        intro s member
        obtain ⟨k, below, here⟩ := List.mem_map.mp member
        rw [← here]
        exact all_ k (by have := List.mem_range.mp below; omega)
      have count := (distinct.subperm inside).length_le
      rw [List.length_map, List.length_range] at count
      cases small with
      | inl same =>
          rw [same] at count
          omega
      | inr below => omega

theorem sweepBlock_of_le (network : IPNet) (least fuel : Nat) (ip : IP) (ips : List Str)
    (result : List Str × Bool) (enough : least ≤ fuel)
    (ended : sweepBlock net network least ip ips = some result) :
    sweepBlock net network fuel ip ips = some result := by
  induction enough with
  | refl => exact ended
  | step _ ih => exact sweepBlock_succ net network _ ip ips result ih

/-! ### All blocks -/

theorem length_maskIP (ip mask : IP) (same : ip.length = mask.length) :
    (maskIP ip mask).length = ip.length := by
  unfold maskIP
  have first : ¬ (mask.length = 16 ∧ ip.length = 4 ∧ mask.take 12 = List.replicate 12 0xff) := by
    omega
  have second : ¬ (mask.length = 4 ∧ ip.length = 16 ∧ ip.take 12 = v4InV6Prefix) := by omega
  rw [if_neg first]
  dsimp only
  rw [if_neg second, if_pos same, List.length_zipWith, ← same, Nat.min_self]

/-- What the blocks add: texts of their addresses and bare addresses, none twice, and without bare
addresses at most 64. -/
theorem sweepBlocks_spec (fuel : Nat) (entries ips result : List Str)
    (ended : sweepBlocks net fuel entries ips = some result) (distinct : ips.Nodup) :
    result.Nodup ∧
      (∀ s ∈ result, s ∈ ips ∨ ∃ entry ∈ entries, Bare net entry ∧ s = Scan.trim entry ∨
        InBlock net entry s) ∧
      ((∀ entry ∈ entries, ¬ Bare net entry) → ips.length ≤ 63 → result.length ≤ 64) := by
  induction entries generalizing ips with
  | nil =>
      cases ended
      exact ⟨distinct, fun s member => Or.inl member, fun _ few => by omega⟩
  | cons entry entries ih =>
      have later (more : List Str) (after : sweepBlocks net fuel entries more = some result)
          (nodup : more.Nodup)
          (texts : ∀ s ∈ more, s ∈ ips ∨ Bare net entry ∧ s = Scan.trim entry ∨ InBlock net entry s)
          (size : ¬ Bare net entry → ips.length ≤ 63 → more.length ≤ 63) :
          result.Nodup ∧
            (∀ s ∈ result, s ∈ ips ∨ ∃ e ∈ entry :: entries, Bare net e ∧ s = Scan.trim e ∨
              InBlock net e s) ∧
            ((∀ e ∈ entry :: entries, ¬ Bare net e) → ips.length ≤ 63 → result.length ≤ 64) := by
        obtain ⟨nodup', texts', most⟩ := ih more after nodup
        refine ⟨nodup', fun s member => ?_, fun blocks few => ?_⟩
        · rcases texts' s member with before | ⟨e, within, kind⟩
          · rcases texts s before with old | here
            · exact Or.inl old
            · exact Or.inr ⟨entry, List.mem_cons_self, here⟩
          · exact Or.inr ⟨e, List.mem_cons_of_mem entry within, kind⟩
        · exact most (fun e within => blocks e (List.mem_cons_of_mem entry within))
            (size (blocks entry List.mem_cons_self) few)
      rw [sweepBlocks] at ended
      by_cases empty : Scan.trim entry = []
      · rw [if_pos empty] at ended
        exact later ips ended distinct (fun s member => Or.inl member) fun _ few => few
      · rw [if_neg empty] at ended
        cases cidr : net.parseCIDR (Scan.trim entry) with
        | none =>
            rw [cidr] at ended
            dsimp only at ended
            by_cases fresh : (net.parseIP (Scan.trim entry)).isSome ∧ Scan.trim entry ∉ ips
            · rw [if_pos fresh] at ended
              apply later _ ended
              · exact nodup_concat ips _ distinct fresh.2
              · intro s member
                rcases List.mem_append.mp member with before | here
                · exact Or.inl before
                · exact Or.inr (Or.inl ⟨⟨empty, cidr, fresh.1⟩, List.mem_singleton.mp here⟩)
              · exact fun block => absurd ⟨empty, cidr, fresh.1⟩ block
            · rw [if_neg fresh] at ended
              exact later ips ended distinct (fun s member => Or.inl member) fun _ few => few
        | some network =>
            rw [cidr] at ended
            dsimp only at ended
            cases swept : sweepBlock net network fuel (maskIP network.ip network.mask) ips with
            | none =>
                rw [swept] at ended
                cases ended
            | some pair =>
                obtain ⟨more, stop⟩ := pair
                rw [swept] at ended
                obtain ⟨nodup, texts, most, kept⟩ :=
                  sweepBlock_spec net network fuel _ ips more stop swept distinct
                have listed (s : Str) (member : s ∈ more) :
                    s ∈ ips ∨ Bare net entry ∧ s = Scan.trim entry ∨ InBlock net entry s := by
                  rcases texts s member with before | ⟨ip, inside, shape⟩
                  · exact Or.inl before
                  · exact Or.inr (Or.inr ⟨network, ip, cidr, inside, shape⟩)
                cases stop with
                | true =>
                    rw [← Option.some.inj ended]
                    refine ⟨nodup, fun s member => ?_, fun _ few => most few⟩
                    rcases listed s member with before | here
                    · exact Or.inl before
                    · exact Or.inr ⟨entry, List.mem_cons_self, here⟩
                | false =>
                    apply later more ended nodup listed
                    intro _ few
                    have bound := kept rfl
                    omega

/-- The loops end, whatever the blocks. -/
theorem exists_sweepBlocks (entries ips : List Str) (distinct : ips.Nodup)
    (few : max ips.length 63 + entries.length < 2 ^ 32) :
    ∃ result, ∀ fuel, 2 ^ 128 ≤ fuel → sweepBlocks net fuel entries ips = some result := by
  induction entries generalizing ips with
  | nil => exact ⟨ips, fun fuel _ => rfl⟩
  | cons entry entries ih =>
      rw [List.length_cons] at few
      by_cases empty : Scan.trim entry = []
      · obtain ⟨result, ends⟩ := ih ips distinct (by omega)
        refine ⟨result, fun fuel enough => ?_⟩
        rw [sweepBlocks]
        rw [if_pos empty, ends fuel enough]
      · cases cidr : net.parseCIDR (Scan.trim entry) with
        | none =>
            by_cases fresh : (net.parseIP (Scan.trim entry)).isSome ∧ Scan.trim entry ∉ ips
            · have nodup := nodup_concat ips _ distinct fresh.2
              obtain ⟨result, ends⟩ :=
                ih _ nodup (by rw [List.length_append, List.length_singleton]; omega)
              refine ⟨result, fun fuel enough => ?_⟩
              rw [sweepBlocks]
              rw [if_neg empty, cidr]
              dsimp only
              rw [if_pos fresh, ends fuel enough]
            · obtain ⟨result, ends⟩ := ih ips distinct (by omega)
              refine ⟨result, fun fuel enough => ?_⟩
              rw [sweepBlocks]
              rw [if_neg empty, cidr]
              dsimp only
              rw [if_neg fresh, ends fuel enough]
        | some network =>
            obtain ⟨sizes, kind⟩ := net.sizes _ _ cidr
            have size := length_maskIP _ _ sizes
            obtain ⟨⟨more, stop⟩, swept⟩ := exists_sweepBlock net network
              (maskIP network.ip network.mask) ips (by rwa [size]) (by omega)
              (2 ^ 128) (le_refl _)
            obtain ⟨nodup, -, -, kept⟩ :=
              sweepBlock_spec net network _ _ ips more stop swept distinct
            have unfolds (fuel : Nat) (enough : 2 ^ 128 ≤ fuel) :
                sweepBlocks net fuel (entry :: entries) ips =
                if stop then some more else sweepBlocks net fuel entries more := by
              rw [sweepBlocks]
              rw [if_neg empty, cidr]
              dsimp only
              rw [sweepBlock_of_le net network _ fuel _ ips _ enough swept]
              cases stop with
              | true => rfl
              | false => rfl
            cases stop with
            | true => exact ⟨more, fun fuel enough => unfolds fuel enough⟩
            | false =>
                have bound := kept rfl
                obtain ⟨result, ends⟩ := ih more nodup (by omega)
                exact ⟨result, fun fuel enough =>
                  by rw [unfolds fuel enough, if_neg Bool.false_ne_true, ends fuel enough]⟩

theorem length_allowed (raw cidr : Str) : (allowed raw cidr).length ≤ raw.length + 1 := by
  have pieces (s : Str) : (Scan.splitAll [','] s).length ≤ s.length + 1 := by
    unfold Scan.splitAll
    induction s with
    | nil => exact le_refl 1
    | cons c s ih =>
        rw [Scan.splitLoop]
        split
        · rw [List.length_cons, List.length_cons]
          exact Nat.succ_le_succ ih
        · rw [List.length_modifyHead, List.length_cons]
          omega
  have one : [cidr].length ≤ raw.length + 1 := by
    rw [List.length_singleton]
    omega
  unfold allowed
  by_cases none_ : parseAllowlist raw = []
  · rwa [if_pos none_]
  · rw [if_neg none_]
    unfold parseAllowlist
    split
    · exact Nat.zero_le _
    · have kept :=
        List.length_filter_le (fun p => decide (p ≠ [])) ((Scan.splitAll [','] raw).map Scan.trim)
      rw [List.length_map] at kept
      exact kept.trans (pieces raw)

/-- Texts of addresses, none twice, are those of as many addresses. -/
theorem exists_addresses (ips : List Str) (distinct : ips.Nodup)
    (texts : ∀ s ∈ ips, ∃ ip, s = net.ipString ip) :
    ∃ addrs : List IP, addrs.Nodup ∧ ips = addrs.map net.ipString := by
  have lifted : ∃ addrs : List IP, ips = addrs.map net.ipString := by
    clear distinct
    induction ips with
    | nil => exact ⟨[], rfl⟩
    | cons s ips ih =>
        obtain ⟨ip, here⟩ := texts s List.mem_cons_self
        obtain ⟨addrs, later⟩ := ih fun t member => texts t (List.mem_cons_of_mem s member)
        exact ⟨ip :: addrs, by rw [here, later, List.map_cons]⟩
  obtain ⟨addrs, shape⟩ := lifted
  exact ⟨addrs, List.Nodup.of_map net.ipString (shape ▸ distinct), shape⟩

/-- The sweep ends with texts none of which stands twice, each of an address in a block of the
allowlist, or of the requested block if there is none; without bare addresses they are those of at
most 64 addresses. -/
theorem hostsInAllowlist_within (raw cidr : Str) (short : raw.length < 2 ^ 31) :
    ∃ ips, (∀ fuel, 2 ^ 128 ≤ fuel → hostsInAllowlist net fuel raw cidr = some ips) ∧ ips.Nodup ∧
      (∀ s ∈ ips, ∃ entry ∈ allowed raw cidr, Bare net entry ∧ s = Scan.trim entry ∨
        InBlock net entry s) ∧
      ((∀ entry ∈ allowed raw cidr, ¬ Bare net entry) →
        ips.length ≤ 64 ∧ ∃ addrs : List IP, addrs.Nodup ∧ ips = addrs.map net.ipString) := by
  have few := length_allowed raw cidr
  obtain ⟨ips, ends⟩ :=
    exists_sweepBlocks net (allowed raw cidr) [] List.nodup_nil (by rw [List.length_nil]; omega)
  obtain ⟨nodup, texts, most⟩ :=
    sweepBlocks_spec net (2 ^ 128) (allowed raw cidr) [] ips (ends _ (le_refl _)) List.nodup_nil
  have listed (s : Str) (member : s ∈ ips) := (texts s member).resolve_left List.not_mem_nil
  refine ⟨ips, ends, nodup, listed, fun blocks =>
    ⟨most blocks (Nat.zero_le _), exists_addresses net ips nodup ?_⟩⟩
  intro s member
  obtain ⟨entry, within, kind⟩ := listed s member
  rcases kind with bare | ⟨-, ip, -, -, shape⟩
  · exact absurd bare.1 (blocks entry within)
  · exact ⟨ip, shape⟩

end

/-! ### A library -/

def dotted (ip : IP) : Str := List.intercalate ['.'] (ip.map fun b => Nat.toDigits 10 b.toNat)

theorem dotted_inj (a b : IP) (someA : a ≠ []) (someB : b ≠ []) (same : dotted a = dotted b) :
    a = b := by
  have read_ (ip : IP) (some_ : ip ≠ []) :
      Scan.splitAll ['.'] (dotted ip) = ip.map fun b => Nat.toDigits 10 b.toNat := by
    obtain ⟨head, rest, rfl⟩ := List.exists_cons_of_ne_nil some_
    apply Scan.splitAll_intercalate '.' _ _
    intro piece member
    have listed : piece ∈ (head :: rest).map fun b => Nat.toDigits 10 b.toNat := member
    obtain ⟨b, -, shape⟩ := List.mem_map.mp listed
    rw [← shape]
    intro dot
    have digit := Nat.isDigit_of_mem_toDigits (by decide) (by decide) dot
    exact absurd digit (by decide)
  have digits :=
    (read_ a someA).symm.trans ((congrArg (Scan.splitAll ['.']) same).trans (read_ b someB))
  apply List.map_injective_iff.mpr _ digits
  intro x y written
  have parsed := congrArg Scan.parseDigits written
  rw [Scan.parseDigits_toDigits, Scan.parseDigits_toDigits] at parsed
  exact UInt8.toNat_inj.mp (Option.some.inj parsed)

theorem dotted_inj_of_sizes (a b : IP) (sizes : a.length = b.length)
    (size : a.length = 4 ∨ a.length = 16) (same : dotted a = dotted b) : a = b := by
  apply dotted_inj a b _ _ same
  · rintro rfl
    simp at size
  · rintro rfl
    rw [sizes] at size
    simp at size

/-- Two networks and their texts. -/
def twoNets : Net where
  parseCIDR s :=
    if s = "10.0.0.0/24".toList then some ⟨[10, 0, 0, 0], [255, 255, 255, 0]⟩
    else if s = "127.0.0.1/32".toList then some ⟨[127, 0, 0, 1], [255, 255, 255, 255]⟩
    else none
  parseIP _ := none
  ipString := dotted
  sizes := by
    intro s n found
    split_ifs at found
    · cases found
      exact ⟨rfl, Or.inl rfl⟩
    · cases found
      exact ⟨rfl, Or.inl rfl⟩
  ipString_inj := dotted_inj_of_sizes

/-- Two networks that end at the last address, one inside the other. -/
def lastNets : Net where
  parseCIDR s :=
    if s = "255.255.255.252/30".toList then some ⟨[255, 255, 255, 252], [255, 255, 255, 252]⟩
    else if s = "255.255.255.254/31".toList then some ⟨[255, 255, 255, 254], [255, 255, 255, 254]⟩
    else none
  parseIP _ := none
  ipString := dotted
  sizes := by
    intro s n found
    split_ifs at found
    · cases found
      exact ⟨rfl, Or.inl rfl⟩
    · cases found
      exact ⟨rfl, Or.inl rfl⟩
  ipString_inj := dotted_inj_of_sizes

def lastBlocks : Str := "255.255.255.254/31, 255.255.255.252/30".toList

/-- Blocks that overlap are swept to the last address there is. -/
theorem lastBlocks_within :
    hostsInAllowlist lastNets 8 lastBlocks [] =
        some ["255.255.255.254".toList, "255.255.255.255".toList, "255.255.255.252".toList,
          "255.255.255.253".toList] ∧
      ∃ ips, (∀ fuel, 2 ^ 128 ≤ fuel → hostsInAllowlist lastNets fuel lastBlocks [] = some ips) ∧
        ips.Nodup ∧
        (∀ s ∈ ips, ∃ entry ∈ allowed lastBlocks [],
          Bare lastNets entry ∧ s = Scan.trim entry ∨ InBlock lastNets entry s) ∧
        ((∀ entry ∈ allowed lastBlocks [], ¬ Bare lastNets entry) →
          ips.length ≤ 64 ∧ ∃ addrs : List IP, addrs.Nodup ∧ ips = addrs.map lastNets.ipString) :=
  ⟨by decide, hostsInAllowlist_within lastNets lastBlocks [] (by decide)⟩

/-- An allowlist takes the place of the requested block. -/
theorem allowlist_instead :
    ¬ ∀ (net : Net) (fuel : Nat) (raw cidr : Str) (ips : List Str),
      hostsInAllowlist net fuel raw cidr = some ips →
      ∀ s ∈ ips, InBlock net cidr s := by
  intro inside
  obtain ⟨network, ip, found, within, shape⟩ :=
    inside twoNets 3 "127.0.0.1/32".toList "10.0.0.0/24".toList ["127.0.0.1".toList]
      (by decide) _ List.mem_cons_self
  have block : (⟨[10, 0, 0, 0], [255, 255, 255, 0]⟩ : IPNet) = network := Option.some.inj found
  have loopback : dotted [127, 0, 0, 1] = "127.0.0.1".toList := by decide
  have same : ip = [127, 0, 0, 1] := by
    apply dotted_inj ip _ _ (List.cons_ne_nil _ _) (shape.symm.trans loopback.symm)
    rintro rfl
    cases shape
  rw [← block, same] at within
  exact absurd within (by decide)

end EraOne.DiscoverySweep
