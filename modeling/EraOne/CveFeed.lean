import EraOne.LowerCase
import EraOne.PaddedOrder

set_option autoImplicit false

/- The offline CVE matcher of the vulnerability service (`cvefeed/feed.go`): versions are cut into
numbers, compared number by number, and set against the limits of a feed. -/
namespace EraOne.CveFeed

open Scan LowerCase PaddedOrder

/-- `strconv.Atoi`. -/
def atoi (s : Str) : Option Int :=
  let signed : Int × Str := match s with
    | '+' :: rest => (1, rest)
    | '-' :: rest => (-1, rest)
    | _ => (1, s)
  match parseDigits signed.2 with
  | some n =>
      let value := signed.1 * n
      if -2 ^ 63 ≤ value ∧ value < 2 ^ 63 then some value else none
  | none => none

def isSeparator (r : Char) : Bool := r = '.' ∨ r = '-' ∨ r = '_'

/-- `strings.FieldsFunc` at the separators of a version. -/
def fieldsFunc (s : Str) : List Str := (s.splitOnP isSeparator).filter (· ≠ [])

/-- The loop of `splitVer`, which stops at the first part that is no number. -/
def leadingNumbers : List Str → List Int
  | [] => []
  | p :: parts =>
      match atoi p with
      | some n => n :: leadingNumbers parts
      | none => []

def splitVer (s : Str) : List Int := leadingNumbers (fieldsFunc (trim s))

/-- The loop of `versionLess` from the `i`-th number on. -/
def lessFrom (a b : List Int) : Nat → Nat → Bool
  | 0, _ => false
  | left + 1, i =>
      let ai := a.getD i 0
      let bi := b.getD i 0
      if ai < bi then true
      else if ai > bi then false
      else lessFrom a b left (i + 1)

def versionLess (cur limit : Str) : Bool :=
  if limit = [] then true
  else
    let a := splitVer cur
    let b := splitVer limit
    lessFrom a b (max a.length b.length) 0

structure SoftwareRow where
  nodeID : Str
  name : Str
  version : Str
  deriving DecidableEq, Repr

structure Entry where
  id : Str
  product : Str
  versionLt : Str
  severity : Str
  summary : Str
  deriving DecidableEq, Repr

structure Feed where
  cves : List Entry

structure Finding where
  templateID : Str
  target : Str
  severity : Str
  vulnerabilityName : Str
  matchedURL : Str
  timestamp : Int
  deriving DecidableEq, Repr

variable (table : Table) (now : Int)

def matchProducts (rows : List SoftwareRow) (product : Str) : List SoftwareRow :=
  rows.foldl (fun out r => if table.contains r.name product then out ++ [r] else out) []

/-- The finding for an installed package. -/
def finding (cve : Entry) (sw : SoftwareRow) : Finding where
  templateID := cve.id
  target := sw.nodeID
  severity := cve.severity
  vulnerabilityName := cve.id ++ [' '] ++ sw.name ++ [' '] ++ sw.version
  matchedURL := cve.summary
  timestamp := now

def matchSoftware (feed : Option Feed) (rows : List SoftwareRow) : List Finding :=
  match feed with
  | none => []
  | some f =>
      f.cves.foldl (fun out cve =>
        (matchProducts table rows cve.product).foldl (fun out sw =>
          if versionLess sw.version cve.versionLt then out ++ [finding now cve sw] else out) out) []

/-! ### Versions -/

theorem lessFrom_iff (a b : List Int) (left i : Nat) :
    lessFrom a b left i = true ↔
      ∃ k < i + left, i ≤ k ∧ (∀ j < k, i ≤ j → a.getD j 0 = b.getD j 0) ∧
        a.getD k 0 < b.getD k 0 := by
  induction left generalizing i with
  | zero =>
      rw [lessFrom]
      refine iff_of_false Bool.false_ne_true ?_
      rintro ⟨k, below, above, -⟩
      omega
  | succ left ih =>
      rw [lessFrom]
      by_cases less : a.getD i 0 < b.getD i 0
      · rw [if_pos less]
        exact iff_of_true rfl ⟨i, by omega, le_rfl, fun j below above => by omega, less⟩
      rw [if_neg less]
      by_cases more : a.getD i 0 > b.getD i 0
      · rw [if_pos more]
        refine iff_of_false Bool.false_ne_true ?_
        rintro ⟨k, -, above, same, lessK⟩
        rcases Nat.eq_or_lt_of_le above with here | later
        · rw [← here] at lessK
          exact less lessK
        · have equal := same i later le_rfl
          omega
      rw [if_neg more, ih]
      have equal : a.getD i 0 = b.getD i 0 := by omega
      constructor
      · rintro ⟨k, inside, above, same, lessK⟩
        refine ⟨k, by omega, by omega, ?_, lessK⟩
        intro j below from_
        rcases Nat.eq_or_lt_of_le from_ with here | later
        · rw [← here]
          exact equal
        · exact same j below later
      · rintro ⟨k, inside, above, same, lessK⟩
        have later : i ≠ k := by
          rintro rfl
          exact less lessK
        exact ⟨k, by omega, by omega, fun j below from_ => same j below (by omega), lessK⟩

/-- Against a limit, versions are compared by their numbers. -/
theorem versionLess_iff (cur limit : Str) (given : limit ≠ []) :
    versionLess cur limit = true ↔ Below (splitVer cur) (splitVer limit) := by
  rw [versionLess, if_neg given, lessFrom_iff, below_iff_within]
  simp only [Nat.zero_add, Nat.zero_le, true_and, forall_const]

theorem versionLess_isStrictWeakOrder :
    IsStrictWeakOrder {v : Str // v ≠ []} fun a b => versionLess a.1 b.1 = true := by
  have same : (fun a b : {v : Str // v ≠ []} => versionLess a.1 b.1 = true) =
      Order.Preimage (fun v : {v : Str // v ≠ []} => splitVer v.1) Below := by
    funext a b
    exact propext (versionLess_iff a.1 b.1 b.2)
  rw [same]
  infer_instance

/-! ### Numeric versions -/

/-- A decimal number of at most 63 bits, with any leading zeros. -/
def Decimal (part : Str) (n : Nat) : Prop := parseDigits part = some n ∧ n < 2 ^ 63

def dotted (parts : List Str) : Str := ['.'].intercalate parts

theorem Decimal.digits {part : Str} {n : Nat} (decimal : Decimal part n) :
    part ≠ [] ∧ ∀ c ∈ part, c.isDigit = true := by
  have read := decimal.1
  unfold parseDigits at read
  split_ifs at read with empty numeric
  exact ⟨fun nil => empty (List.isEmpty_iff.mpr nil), List.all_eq_true.mp numeric⟩

theorem Decimal.atoi_eq {part : Str} {n : Nat} (decimal : Decimal part n) :
    atoi part = some (n : Int) := by
  obtain ⟨-, digits⟩ := decimal.digits
  obtain ⟨read, small⟩ := decimal
  have plain : atoi part = match parseDigits part with
      | some n =>
          if -2 ^ 63 ≤ 1 * (n : Int) ∧ 1 * (n : Int) < 2 ^ 63 then some (1 * (n : Int)) else none
      | none => none := by
    unfold atoi
    split
    · exact absurd (digits '+' List.mem_cons_self) (by decide)
    · exact absurd (digits '-' List.mem_cons_self) (by decide)
    · rfl
  rw [plain, read]
  dsimp only
  rw [Int.one_mul, if_pos (by omega)]

theorem dotted_cons_cons (p q : Str) (parts : List Str) :
    dotted (p :: q :: parts) = p ++ '.' :: dotted (q :: parts) := by
  unfold dotted
  rw [List.intercalate_cons_cons, List.append_assoc, List.singleton_append]

theorem dotted_singleton (p : Str) : dotted [p] = p := List.intercalate_singleton

section Dotted

variable {parts : List Str} {ns : List Nat}

theorem mem_dotted (decimals : List.Forall₂ Decimal parts ns) :
    ∀ c ∈ dotted parts, c.isDigit = true ∨ c = '.' := by
  induction decimals with
  | nil => exact fun c member => absurd member List.not_mem_nil
  | @cons p n parts ns decimal decimals ih =>
      cases parts with
      | nil =>
          rw [dotted_singleton]
          exact fun c member => .inl (decimal.digits.2 c member)
      | cons q parts =>
          rw [dotted_cons_cons]
          intro c member
          rcases List.mem_append.mp member with front | back
          · exact .inl (decimal.digits.2 c front)
          · rcases List.mem_cons.mp back with dot | later
            · exact .inr dot
            · exact ih c later

theorem trim_dotted (decimals : List.Forall₂ Decimal parts ns) :
    trim (dotted parts) = dotted parts := by
  have solid (c : Char) (member : c ∈ dotted parts) : isWhitespace c = false := by
    rcases mem_dotted decimals c member with digit | rfl
    · have bounds : 48 ≤ c.toNat ∧ c.toNat ≤ 57 := Char.isDigit_iff_toNat.mp digit
      unfold isWhitespace
      rw [decide_eq_false_iff_not]
      omega
    · decide
  rw [trim_eq_self_iff]
  exact ⟨fun c first => solid c (List.mem_of_mem_head? first),
    fun c last => solid c (List.mem_of_getLast? last)⟩

theorem fieldsFunc_dotted (decimals : List.Forall₂ Decimal parts ns) :
    fieldsFunc (dotted parts) = parts := by
  have joined (p : Str) (n : Nat) (decimal : Decimal p n) : ∀ c ∈ p, isSeparator c = false := by
    intro c member
    have bounds := Char.isDigit_iff_toNat.mp (decimal.digits.2 c member)
    unfold isSeparator
    rw [decide_eq_false_iff_not]
    rintro (rfl | rfl | rfl) <;> revert bounds <;> decide
  induction decimals with
  | nil => rfl
  | @cons p n parts ns decimal decimals ih =>
      have nonempty : decide (p ≠ []) = true := decide_eq_true decimal.digits.1
      cases parts with
      | nil =>
          rw [dotted_singleton, fieldsFunc, List.splitOnP_eq_singleton (joined p n decimal),
            List.filter_cons, if_pos nonempty,
            List.filter_nil]
      | cons q parts =>
          rw [fieldsFunc] at ih
          rw [dotted_cons_cons, fieldsFunc,
            List.splitOnP_append_cons_of_forall_mem (joined p n decimal) '.' (by decide),
            List.filter_cons, if_pos nonempty, ih]

/-- A numeric version is cut into its numbers. -/
theorem splitVer_dotted (decimals : List.Forall₂ Decimal parts ns) :
    splitVer (dotted parts) = ns.map (fun n : Nat => (n : Int)) := by
  rw [splitVer, trim_dotted decimals, fieldsFunc_dotted decimals]
  induction decimals with
  | nil => rfl
  | cons decimal decimals ih => rw [leadingNumbers, decimal.atoi_eq, ih, List.map_cons]

theorem dotted_ne_nil (decimals : List.Forall₂ Decimal parts ns) (some_ : ns ≠ []) :
    dotted parts ≠ [] := by
  intro empty
  have cut := splitVer_dotted decimals
  rw [empty] at cut
  exact some_ (List.map_eq_nil_iff.mp cut.symm)

end Dotted

/-- Numeric versions are compared as their numbers are. -/
theorem versionLess_dotted (parts parts' : List Str) (ns ns' : List Nat)
    (decimals : List.Forall₂ Decimal parts ns) (decimals' : List.Forall₂ Decimal parts' ns')
    (given : ns' ≠ []) : versionLess (dotted parts) (dotted parts') = true ↔ Below ns ns' := by
  rw [versionLess_iff _ _ (dotted_ne_nil decimals' given), splitVer_dotted decimals,
    splitVer_dotted decimals']
  exact below_map_iff (fun n : Nat => (n : Int)) (fun _ _ => Int.ofNat_lt.mpr) rfl ns ns'

/-! ### Matching -/

/-- The loop that keeps what passes a test. -/
theorem foldl_keep {α β : Type} (keep : α → Bool) (f : α → β) (xs : List α) (out : List β) :
    xs.foldl (fun out x => if keep x then out ++ [f x] else out) out =
      out ++ (xs.filter keep).map f := by
  induction xs generalizing out with
  | nil => rw [List.foldl_nil, List.filter_nil, List.map_nil, List.append_nil]
  | cons x xs ih =>
      rw [List.foldl_cons, ih, List.filter_cons]
      by_cases kept : keep x = true
      · rw [if_pos kept, if_pos kept, List.map_cons, List.append_assoc, List.singleton_append]
      · rw [if_neg kept, if_neg kept]

theorem matchProducts_eq (rows : List SoftwareRow) (product : Str) :
    matchProducts table rows product = rows.filter fun r => table.contains r.name product := by
  have kept := foldl_keep (fun r : SoftwareRow => table.contains r.name product) id rows []
  rw [List.map_id, List.nil_append] at kept
  exact kept

theorem matchSoftware_eq (feed : Feed) (rows : List SoftwareRow) :
    matchSoftware table now (some feed) rows = feed.cves.flatMap fun cve =>
      (rows.filter fun sw => table.contains sw.name cve.product &&
        versionLess sw.version cve.versionLt).map (finding now cve) := by
  have entry (cve : Entry) (out : List Finding) :
      (matchProducts table rows cve.product).foldl (fun out sw =>
        if versionLess sw.version cve.versionLt then out ++ [finding now cve sw] else out) out =
      out ++ (rows.filter fun sw => table.contains sw.name cve.product &&
        versionLess sw.version cve.versionLt).map (finding now cve) := by
    rw [foldl_keep, matchProducts_eq, List.filter_filter]
    simp only [Bool.and_comm]
  rw [matchSoftware]
  simp only [entry]
  rw [List.foldl_append_eq_append, List.nil_append, List.flatMap_def]

/-- Versions that are given are in a weak order, numeric ones in the order of their numbers, and an
entry with a limit is reported for exactly the packages of its product below the limit. -/
theorem version_order :
    (IsStrictWeakOrder {v : Str // v ≠ []} fun a b => versionLess a.1 b.1 = true) ∧
    (∀ parts parts' ns ns', List.Forall₂ Decimal parts ns → List.Forall₂ Decimal parts' ns' →
      ns' ≠ [] → (versionLess (dotted parts) (dotted parts') = true ↔ Below ns ns')) ∧
    ∀ feed rows, matchSoftware table now (some feed) rows = feed.cves.flatMap fun cve =>
      (rows.filter fun sw => table.Occurs cve.product sw.name ∧
        (cve.versionLt ≠ [] → Below (splitVer sw.version) (splitVer cve.versionLt))).map
          (finding now cve) := by
  refine ⟨versionLess_isStrictWeakOrder, ?_, ?_⟩
  · intro parts parts' ns ns' decimals decimals' given
    exact versionLess_dotted parts parts' ns ns' decimals decimals' given
  · intro feed rows
    rw [matchSoftware_eq]
    congr 1
    funext cve
    congr 1
    apply List.filter_congr
    intro sw _
    rw [Bool.eq_iff_iff, Bool.and_eq_true, contains_iff, decide_eq_true_iff]
    apply and_congr_right
    intro _
    by_cases limit : cve.versionLt = []
    · rw [versionLess, if_pos limit]
      exact iff_of_true rfl fun given => absurd limit given
    · rw [versionLess_iff _ _ limit]
      exact ⟨fun below _ => below, fun below => below limit⟩

theorem version_order_patch :
    versionLess (dotted ["1".toList, "9".toList]) (dotted ["1".toList, "010".toList]) = true :=
  ((version_order asciiTable 0).2.1 _ _ [1, 9] [1, 10]
    (.cons ⟨by decide, by decide⟩ (.cons ⟨by decide, by decide⟩ .nil))
    (.cons ⟨by decide, by decide⟩ (.cons ⟨by decide, by decide⟩ .nil)) (by decide)).mpr
      ⟨1, by decide, by decide⟩

/-- A part that is no number ends the version. -/
example : versionLess "1.0-rc1".toList "1.0".toList = false ∧
    versionLess "1.0".toList "1".toList = false := by decide

end EraOne.CveFeed
