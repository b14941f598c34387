import EraOne.Scan
import EraOne.ShamirSharing

set_option autoImplicit false

/- Tolerant matching of installation signals (`fingerprint.go`). Lower case is a parameter. -/
namespace EraOne.License

open Shamir (hexEncode)

structure Signals where
  machineID : Str
  boardSerial : Str
  diskSerials : List Str
  macs : List Str
  deriving DecidableEq

inductive Kind where
  | mid
  | board
  | disk
  | mac
  deriving DecidableEq

def Kind.text : Kind → Str
  | .mid => "mid".toList
  | .board => "board".toList
  | .disk => "disk".toList
  | .mac => "mac".toList

def componentText (salt : Str) (kind : Kind) (v : Str) : Str := salt ++ '|' :: kind.text ++ ':' :: v

section Functions

variable (lower : Str → Str) (sha256 : Str → Vector UInt8 32)

/-- The first sixteen hex digits. -/
def componentHash (text : Str) : List UInt8 := (hexEncode (sha256 text).toList).take 16

/-- The closure `add`. -/
def addComponent (salt : Str) (kind : Kind) (comps : List (List UInt8)) (v : Str) :
    List (List UInt8) :=
  let v := lower (Scan.trim v)
  if v = [] then comps else comps ++ [componentHash sha256 (componentText salt kind v)]

def componentHashes (s : Signals) (salt : Str) : List (List UInt8) :=
  let comps := addComponent lower sha256 salt .mid [] s.machineID
  let comps := addComponent lower sha256 salt .board comps s.boardSerial
  let comps := s.diskSerials.foldl (addComponent lower sha256 salt .disk) comps
  s.macs.foldl (addComponent lower sha256 salt .mac) comps

/-- The baseline is made a set, the current components are counted one by one. -/
def matchTolerant (baseline current : Signals) (salt : Str) (minMatch : Int) : Bool :=
  let set := componentHashes lower sha256 baseline salt
  let matched := (componentHashes lower sha256 current salt).countP fun c => c ∈ set
  minMatch ≤ matched

end Functions

section Components

variable (lower : Str → Str)

structure Component where
  kind : Kind
  value : Str
  deriving DecidableEq

def Component.text (salt : Str) (c : Component) : Str := componentText salt c.kind c.value

/-- The components of one kind that are not blank. -/
def componentsOf (kind : Kind) (values : List Str) : List Component :=
  ((values.map fun v => lower (Scan.trim v)).filter (· ≠ [])).map fun v => ⟨kind, v⟩

/-- The normalised components, each as often as it is listed. -/
def Signals.components (s : Signals) : List Component :=
  componentsOf lower .mid [s.machineID] ++ componentsOf lower .board [s.boardSerial] ++
    componentsOf lower .disk s.diskSerials ++ componentsOf lower .mac s.macs

/-- The distinct components that occur in both. -/
def common (baseline current : Signals) : Finset Component :=
  (baseline.components lower).toFinset ∩ (current.components lower).toFinset

/-- How often the common components are listed again in the current signals. -/
def repeats (baseline current : Signals) : Nat :=
  ∑ c ∈ common lower baseline current, ((current.components lower).count c - 1)

/-- The texts that are hashed for two signals. -/
def componentTexts (salt : Str) (baseline current : Signals) : List Str :=
  (baseline.components lower ++ current.components lower).map (Component.text salt)

end Components

section Matching

variable (lower : Str → Str) (sha256 : Str → Vector UInt8 32)

theorem foldl_addComponent (salt : Str) (kind : Kind) (values : List Str)
    (comps : List (List UInt8)) :
    values.foldl (addComponent lower sha256 salt kind) comps =
      comps ++ (componentsOf lower kind values).map fun c =>
        componentHash sha256 (c.text salt) := by
  induction values generalizing comps with
  | nil => simp [componentsOf]
  | cons v values ih =>
      rw [List.foldl_cons, ih, addComponent]
      by_cases blank : lower (Scan.trim v) = []
      · simp [componentsOf, blank]
      · simp [componentsOf, blank, Component.text]

theorem componentHashes_eq (s : Signals) (salt : Str) :
    componentHashes lower sha256 s salt =
      (s.components lower).map fun c => componentHash sha256 (c.text salt) := by
  have one (kind : Kind) (comps : List (List UInt8)) (v : Str) :=
    foldl_addComponent lower sha256 salt kind [v] comps
  simp only [List.foldl_cons, List.foldl_nil] at one
  unfold componentHashes
  simp only [one, foldl_addComponent, Signals.components, List.map_append, List.nil_append]

/-- A component can be read off its text. -/
theorem text_inj (salt : Str) (a b : Component) (same : a.text salt = b.text salt) : a = b := by
  obtain ⟨kind, v⟩ := a
  obtain ⟨kind', v'⟩ := b
  unfold Component.text componentText at same
  rw [List.append_assoc, List.append_assoc] at same
  have rest := List.append_cancel_left same
  cases kind <;> cases kind' <;> simp_all [Kind.text]

/-- The count of the code is the number of distinct common components and of their repetitions. -/
theorem matched_eq (baseline current : Signals) (salt : Str)
    (collisionFree : ∀ x ∈ componentTexts lower salt baseline current,
      ∀ y ∈ componentTexts lower salt baseline current,
        componentHash sha256 x = componentHash sha256 y → x = y) :
    ((componentHashes lower sha256 current salt).countP fun c =>
      c ∈ componentHashes lower sha256 baseline salt) =
        (common lower baseline current).card + repeats lower baseline current := by
  have listed : ∀ c ∈ current.components lower,
      componentHash sha256 (c.text salt) ∈ componentHashes lower sha256 baseline salt ↔
        c ∈ baseline.components lower := by
    intro c inside
    rw [componentHashes_eq, List.mem_map]
    constructor
    · rintro ⟨b, present, same⟩
      have texts := collisionFree _ (List.mem_map_of_mem (List.mem_append_left _ present)) _
        (List.mem_map_of_mem (List.mem_append_right _ inside)) same
      rw [← text_inj salt b c texts]
      exact present
    · intro present
      exact ⟨c, present, rfl⟩
  have counted : ((componentHashes lower sha256 current salt).countP
      fun c => c ∈ componentHashes lower sha256 baseline salt) =
        ((current.components lower).filter fun c => c ∈ baseline.components lower).length := by
    rw [componentHashes_eq lower sha256 current, List.countP_map, ← List.countP_eq_length_filter]
    apply List.countP_congr
    intro c inside
    simpa using listed c inside
  have shared :
      ((current.components lower).filter fun c => c ∈ baseline.components lower).toFinset =
        common lower baseline current := by
    ext c
    simp [common, and_comm]
  rw [counted, ← List.sum_toFinset_count_eq_length, shared, repeats, Finset.card_eq_sum_ones,
    ← Finset.sum_add_distrib]
  apply Finset.sum_congr rfl
  intro c inside
  have both := Finset.mem_inter.mp inside
  rw [List.mem_toFinset, List.mem_toFinset] at both
  have positive : 0 < (current.components lower).count c := List.count_pos_iff.mpr both.2
  rw [List.count_filter (by simpa using both.1)]
  omega

/-- The threshold is met by shared components alone, or missed also with their repetitions. -/
theorem matchTolerant_counts_iff (baseline current : Signals) (salt : Str) (minMatch : Int)
    (collisionFree : ∀ x ∈ componentTexts lower salt baseline current,
      ∀ y ∈ componentTexts lower salt baseline current,
        componentHash sha256 x = componentHash sha256 y → x = y) :
    (matchTolerant lower sha256 baseline current salt minMatch = true ↔
        minMatch ≤ (common lower baseline current).card) ↔
      minMatch ≤ (common lower baseline current).card ∨
        (common lower baseline current).card + repeats lower baseline current < minMatch := by
  unfold matchTolerant
  dsimp only
  rw [matched_eq lower sha256 baseline current salt collisionFree, decide_eq_true_eq]
  omega

end Matching

section Sample

/-- A machine with one network card. -/
def oneCard : Signals := ⟨"m1".toList, [], [], ["aa".toList]⟩

/-- The same card listed twice, on another machine. -/
def cardTwice : Signals := ⟨"m2".toList, [], [], ["aa".toList, "aa".toList]⟩

/-- SHA-256 on the component texts of the two. -/
def sampleSum (text : Str) : Vector UInt8 32 :=
  if text = "s|mid:m1".toList then
    #v[101, 177, 115, 173, 159, 151, 23, 168, 227, 175, 132, 242, 209, 14, 172, 23, 221, 122, 6,
      129, 162, 141, 112, 158, 130, 181, 64, 43, 28, 100, 63, 245]
  else if text = "s|mac:aa".toList then
    #v[2, 68, 2, 201, 221, 46, 153, 20, 177, 106, 234, 52, 245, 201, 25, 6, 98, 8, 91, 86, 16, 191,
      223, 96, 211, 179, 199, 80, 29, 159, 46, 109]
  else
    #v[125, 212, 146, 116, 251, 96, 95, 225, 33, 33, 133, 208, 106, 13, 108, 223, 250, 150, 76, 213,
      145, 68, 208, 238, 145, 152, 220, 187, 2, 93, 224, 106]

theorem oneCard_counts : matchTolerant id sampleSum oneCard oneCard "s".toList 2 = true ↔
    (2 : Int) ≤ (common id oneCard oneCard).card :=
  (matchTolerant_counts_iff id sampleSum oneCard oneCard "s".toList 2 (by decide)).mpr
    (Or.inl (by decide))

/-- One shared card, listed twice, passes for two, but only on one side. -/
theorem cardTwice_passes :
    (∀ x ∈ componentTexts id "s".toList oneCard cardTwice,
      ∀ y ∈ componentTexts id "s".toList oneCard cardTwice,
        componentHash sampleSum x = componentHash sampleSum y → x = y) ∧
      matchTolerant id sampleSum oneCard cardTwice "s".toList 2 = true ∧
      matchTolerant id sampleSum cardTwice oneCard "s".toList 2 = false ∧
      (common id oneCard cardTwice).card = 1 := by
  decide

end Sample

end EraOne.License
