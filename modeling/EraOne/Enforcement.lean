import EraOne.Strings

set_option autoImplicit false

/- The enforcement policy of the control plane in its two stores (`memory_enforcement.go`,
`sqlite_enforcement.go`). A policy comes back from its JSON column as it was written, and the clock
is read outside. -/
namespace EraOne.Enforcement

structure AppRule where
  id : Str
  action : Str
  path : Str := []
  hashSHA256 : Str := []
  signer : Str := []
  parentPath : Str := []
  deriving DecidableEq

structure DeviceRule where
  id : Str
  action : Str
  deviceClass : Str
  deriving DecidableEq

structure VirtualPatchRule where
  id : Str
  cveID : Str
  action : Str
  path : Str := []
  vector : Str := []
  hashSHA256 : Str := []
  deriving DecidableEq

/-- The zero value is the policy without a version. -/
structure EnforcementPolicy where
  version : Str := []
  mode : Str := []
  failMode : Str := []
  appRules : List AppRule := []
  deviceRules : List DeviceRule := []
  virtualPatches : List VirtualPatchRule := []
  deriving DecidableEq

structure Revision where
  version : Str
  mode : Str
  actor : Str
  detail : Str
  createdAt : Int
  deriving DecidableEq

/-- The calls of the repository, with the time that each reads. -/
inductive Op where
  | get
  | set (p : EnforcementPolicy) (actor detail : Str) (now : Int)
  | rollback (actor : Str) (now : Int)
  | list (limit : Int)

/-- What a call returns; a nil slice of revisions is not an empty one. -/
inductive Answer where
  | policy (p : EnforcementPolicy)
  | error (text : Option Str)
  | rolled (p : EnforcementPolicy) (ok : Bool)
  | history (revisions : Option (List Revision))
  deriving DecidableEq

def versionRequired : Str := "policy version required".toList

def rollbackFrom (version : Str) : Str := "rollback from ".toList ++ version

def revision (p : EnforcementPolicy) (actor detail : Str) (now : Int) : Revision :=
  ⟨p.version, p.mode, actor, detail, now⟩

section Stores

/- `DefaultEnforcementPolicy`, read from an embedded file. -/
variable (default : EnforcementPolicy)

/-- The fields of the memory store; the history has the newest revision first. -/
structure MemoryStore where
  enforcement : EnforcementPolicy
  enforcementPrev : EnforcementPolicy := {}
  history : List Revision := []

namespace MemoryStore

def new : MemoryStore where
  enforcement := default

def getEnforcementPolicy (m : MemoryStore) : EnforcementPolicy :=
  if m.enforcement.version = [] then default else m.enforcement

def setEnforcementPolicy (m : MemoryStore) (p : EnforcementPolicy) (actor detail : Str)
    (now : Int) :
    MemoryStore × Option Str :=
  if p.version = [] then (m, some versionRequired)
  else
    let history := revision p actor detail now :: m.history
    ({ enforcement := p
       enforcementPrev := if m.enforcement.version ≠ [] then m.enforcement else m.enforcementPrev
       history := if history.length > 50 then history.take 50 else history }, none)

def rollbackEnforcementPolicy (m : MemoryStore) (actor : Str) (now : Int) :
    MemoryStore × EnforcementPolicy × Bool :=
  if m.enforcementPrev.version = [] then (m, m.enforcement, false)
  else
    let cur := m.enforcement
    ({ enforcement := m.enforcementPrev
       enforcementPrev := {}
       history := revision m.enforcementPrev actor (rollbackFrom cur.version) now :: m.history },
      m.enforcementPrev, true)

def listEnforcementHistory (m : MemoryStore) (limit : Int) : List Revision :=
  let limit := if limit ≤ 0 ∨ m.history.length < limit then m.history.length else limit.toNat
  m.history.take limit

def step (m : MemoryStore) : Op → MemoryStore × Answer
  | .get => (m, .policy (m.getEnforcementPolicy default))
  | .set p actor detail now =>
      let done := m.setEnforcementPolicy p actor detail now
      (done.1, .error done.2)
  | .rollback actor now =>
      let done := m.rollbackEnforcementPolicy actor now
      (done.1, .rolled done.2.1 done.2.2)
  | .list limit => (m, .history (some (m.listEnforcementHistory limit)))

def answers (m : MemoryStore) : List Op → List Answer
  | [] => []
  | op :: rest => (m.step default op).2 :: (m.step default op).1.answers rest

end MemoryStore

/-- The one row of `enforcement_policy`, and `enforcement_history` from the highest id down. -/
structure SqliteStore where
  version : Str
  policy : EnforcementPolicy
  prev : Option EnforcementPolicy := none
  history : List Revision := []

namespace SqliteStore

/-- The row that the migration inserts. -/
def new : SqliteStore where
  version := default.version
  policy := default

def setEnforcementPolicy (s : SqliteStore) (p : EnforcementPolicy) (actor detail : Str)
    (now : Int) :
    SqliteStore × Option Str :=
  if p.version = [] then (s, some versionRequired)
  else
    ({ version := p.version, policy := p, prev := some s.policy
       history := revision p actor detail now :: s.history }, none)

/-- A rollback is written as another policy. -/
def rollbackEnforcementPolicy (s : SqliteStore) (actor : Str) (now : Int) :
    SqliteStore × EnforcementPolicy × Bool :=
  match s.prev with
  | none => (s, s.policy, false)
  | some p => ((s.setEnforcementPolicy p actor (rollbackFrom s.version) now).1, p, true)

/-- The rows are appended to a slice that starts as nil. -/
def listEnforcementHistory (s : SqliteStore) (limit : Int) : Option (List Revision) :=
  let rows := s.history.take (if limit ≤ 0 then 50 else limit.toNat)
  if rows = [] then none else some rows

def step (s : SqliteStore) : Op → SqliteStore × Answer
  | .get => (s, .policy s.policy)
  | .set p actor detail now =>
      let done := s.setEnforcementPolicy p actor detail now
      (done.1, .error done.2)
  | .rollback actor now =>
      let done := s.rollbackEnforcementPolicy actor now
      (done.1, .rolled done.2.1 done.2.2)
  | .list limit => (s, .history (s.listEnforcementHistory limit))

def answers (s : SqliteStore) : List Op → List Answer
  | [] => []
  | op :: rest => (s.step op).2 :: (s.step op).1.answers rest

end SqliteStore

end Stores

/-! ### Where the stores agree -/

/-- What has become of the policy so far. -/
inductive Phase where
  | untouched
  | written
  | rolledBack
  deriving DecidableEq

def Phase.next : Phase → Op → Phase
  | phase, .set p _ _ _ => if p.version = [] then phase else .written
  | .written, .rollback _ _ => .rolledBack
  | phase, _ => phase

/-- A rollback has a policy set since the last one that had something to go back to, and a listing
has something to list. -/
def Phase.Allows : Phase → Op → Prop
  | .rolledBack, .rollback _ _ => False
  | .untouched, .list _ => False
  | _, _ => True

def Steady : Phase → List Op → Prop
  | _, [] => True
  | phase, op :: rest => phase.Allows op ∧ Steady (phase.next op) rest

/-- What the two stores have in common in a phase. -/
structure Matches (phase : Phase) (m : MemoryStore) (s : SqliteStore) : Prop where
  policy : m.enforcement = s.policy
  column : s.version = s.policy.version
  versioned : s.policy.version ≠ []
  history : m.history.take 50 = s.history.take 50
  prev : match phase with
    | .untouched => m.enforcementPrev.version = [] ∧ s.prev = none
    | .written => s.prev = some m.enforcementPrev ∧ m.enforcementPrev.version ≠ []
    | .rolledBack => m.enforcementPrev.version = [] ∧ ∃ p, s.prev = some p ∧ p.version ≠ []
  recorded : s.history = [] ↔ phase = .untouched

theorem take_cons_take {α : Type} (x : α) (xs ys : List α) (same : xs.take 50 = ys.take 50) :
    (x :: xs).take 50 = (x :: ys).take 50 := by
  have shorter := congrArg (List.take 49) same
  rw [List.take_take, List.take_take, Nat.min_eq_left (by omega : 49 ≤ 50)] at shorter
  rw [List.take_succ_cons, List.take_succ_cons, shorter]

theorem take_of_take {α : Type} (n : Nat) (xs ys : List α) (few : n ≤ 50)
    (same : xs.take 50 = ys.take 50) :
    xs.take n = ys.take n := by
  have shorter := congrArg (List.take n) same
  rw [List.take_take, List.take_take, Nat.min_eq_left few] at shorter
  exact shorter

theorem take_truncated (history : List Revision) :
    (if history.length > 50 then history.take 50 else history).take 50 = history.take 50 := by
  split
  · rw [List.take_take, Nat.min_self]
  · rfl

variable (default : EnforcementPolicy)

theorem set_matches (phase : Phase) (m : MemoryStore) (s : SqliteStore) (p : EnforcementPolicy)
    (actor detail : Str) (now : Int) (same : Matches phase m s) :
    (m.setEnforcementPolicy p actor detail now).2 = (s.setEnforcementPolicy p actor detail now).2 ∧
      Matches (phase.next (.set p actor detail now)) (m.setEnforcementPolicy p actor detail now).1
        (s.setEnforcementPolicy p actor detail now).1 := by
  unfold MemoryStore.setEnforcementPolicy SqliteStore.setEnforcementPolicy Phase.next
  by_cases unversioned : p.version = []
  · simp only [if_pos unversioned, true_and]
    exact same
  · simp only [if_neg unversioned, true_and]
    have before : m.enforcement.version ≠ [] := by
      rw [same.policy]
      exact same.versioned
    refine ⟨rfl, rfl, unversioned, ?_, ?_, by simp⟩
    · rw [take_truncated]
      exact take_cons_take _ _ _ same.history
    · dsimp only
      rw [if_pos before]
      exact ⟨by rw [same.policy], before⟩

theorem rollback_matches (phase : Phase) (m : MemoryStore) (s : SqliteStore) (actor : Str)
    (now : Int) (same : Matches phase m s) (fresh : phase ≠ .rolledBack) :
    (m.rollbackEnforcementPolicy actor now).2 = (s.rollbackEnforcementPolicy actor now).2 ∧
      Matches (phase.next (.rollback actor now)) (m.rollbackEnforcementPolicy actor now).1
        (s.rollbackEnforcementPolicy actor now).1 := by
  unfold MemoryStore.rollbackEnforcementPolicy SqliteStore.rollbackEnforcementPolicy
  have prev := same.prev
  cases phase with
  | untouched =>
      rw [if_pos prev.1, prev.2]
      exact ⟨by rw [same.policy], same⟩
  | written =>
      rw [if_neg prev.2, prev.1]
      dsimp only
      unfold SqliteStore.setEnforcementPolicy
      rw [if_neg prev.2]
      refine ⟨rfl, rfl, rfl, prev.2, ?_, ⟨rfl, s.policy, rfl, same.versioned⟩, by simp [Phase.next]⟩
      dsimp only
      rw [same.policy, same.column]
      exact take_cons_take _ _ _ same.history
  | rolledBack => exact absurd rfl fresh

/-- A second rollback goes nowhere in memory, and forward again in SQLite. -/
theorem rollback_differs (m : MemoryStore) (s : SqliteStore) (actor : Str) (now : Int)
    (same : Matches .rolledBack m s) :
    (m.rollbackEnforcementPolicy actor now).2 ≠ (s.rollbackEnforcementPolicy actor now).2 := by
  obtain ⟨none_, p, some_, -⟩ := same.prev
  unfold MemoryStore.rollbackEnforcementPolicy SqliteStore.rollbackEnforcementPolicy
  rw [if_pos none_, some_]
  intro equal
  exact Bool.false_ne_true (congrArg Prod.snd equal)

theorem list_matches (phase : Phase) (m : MemoryStore) (s : SqliteStore) (limit : Int)
    (same : Matches phase m s) (positive : 0 < limit) (few : limit ≤ 50) :
    some (m.listEnforcementHistory limit) = s.listEnforcementHistory limit ↔
      phase ≠ .untouched := by
  have listed : m.listEnforcementHistory limit = s.history.take limit.toNat := by
    unfold MemoryStore.listEnforcementHistory
    dsimp only
    rw [← take_of_take limit.toNat _ _ (by omega) same.history]
    split
    · rename_i beyond
      rw [List.take_of_length_le (Nat.le_refl _), List.take_of_length_le (by omega)]
    · rfl
  have none_ : s.history.take limit.toNat = [] ↔ phase = .untouched := by
    rw [← same.recorded, List.take_eq_nil_iff]
    exact or_iff_right (by omega)
  unfold SqliteStore.listEnforcementHistory
  dsimp only
  rw [if_neg (by omega : ¬ limit ≤ 0), listed, Ne, ← none_]
  by_cases empty : s.history.take limit.toNat = []
  · rw [if_pos empty]
    simp [empty]
  · rw [if_neg empty]
    simp [empty]

/-- One call: the answers agree and so do the stores after it, exactly if the phase allows it. -/
theorem step_matches (phase : Phase) (m : MemoryStore) (s : SqliteStore) (op : Op)
    (same : Matches phase m s) (few : ∀ limit, op = .list limit → 0 < limit ∧ limit ≤ 50) :
    ((m.step default op).2 = (s.step op).2 ↔ phase.Allows op) ∧
      ((m.step default op).2 = (s.step op).2 →
        Matches (phase.next op) (m.step default op).1 (s.step op).1) := by
  cases op with
  | get =>
      have equal : (m.step default .get).2 = (s.step .get).2 := by
        show Answer.policy (m.getEnforcementPolicy default) = .policy s.policy
        unfold MemoryStore.getEnforcementPolicy
        rw [same.policy, if_neg same.versioned]
      refine ⟨iff_of_true equal (by cases phase <;> exact trivial), fun _ => ?_⟩
      cases phase <;> exact same
  | set p actor detail now =>
      obtain ⟨equal, next⟩ := set_matches phase m s p actor detail now same
      exact ⟨iff_of_true (congrArg Answer.error equal) (by cases phase <;> exact trivial), fun _ =>
        next⟩
  | rollback actor now =>
      by_cases rolled : phase = .rolledBack
      · subst rolled
        have differ :
            (m.step default (.rollback actor now)).2 ≠ (s.step (.rollback actor now)).2 := by
          intro equal
          apply rollback_differs m s actor now same
          exact Prod.ext (Answer.rolled.inj equal).1 (Answer.rolled.inj equal).2
        exact ⟨iff_of_false differ id, fun equal => absurd equal differ⟩
      · obtain ⟨equal, next⟩ := rollback_matches phase m s actor now same rolled
        refine ⟨iff_of_true ?_ ?_, fun _ => next⟩
        · show Answer.rolled _ _ = Answer.rolled _ _
          rw [equal]
        · cases phase with
          | untouched => exact trivial
          | written => exact trivial
          | rolledBack => exact absurd rfl rolled
  | list limit =>
      obtain ⟨positive, least⟩ := few limit rfl
      have equal_iff := list_matches phase m s limit same positive least
      have answered : (m.step default (.list limit)).2 = (s.step (.list limit)).2 ↔
          some (m.listEnforcementHistory limit) = s.listEnforcementHistory limit :=
        ⟨Answer.history.inj, congrArg Answer.history⟩
      refine ⟨(answered.trans equal_iff).trans ?_, fun _ => ?_⟩
      · cases phase <;> simp [Phase.Allows]
      · cases phase <;> exact same

theorem answers_iff (phase : Phase) (m : MemoryStore) (s : SqliteStore) (ops : List Op)
    (same : Matches phase m s) (few : ∀ limit, Op.list limit ∈ ops → 0 < limit ∧ limit ≤ 50) :
    m.answers default ops = s.answers ops ↔ Steady phase ops := by
  induction ops generalizing phase m s with
  | nil => exact iff_of_true rfl trivial
  | cons op rest ih =>
      obtain ⟨equal_iff, next⟩ := step_matches default phase m s op same fun limit here =>
        few limit (by rw [here]; exact List.mem_cons_self)
      rw [MemoryStore.answers, SqliteStore.answers, List.cons.injEq, Steady, ← equal_iff]
      apply and_congr_right
      intro equal
      exact ih _ _ _ (next equal) fun limit member => few limit (List.mem_cons_of_mem op member)

/-- In every run of the calls that lists no more than 50 revisions, the two stores give the same
answers exactly if between any two rollbacks that have something to go back to a policy is set, and
no empty history is listed. -/
theorem stores_agree_iff (ops : List Op) (versioned : default.version ≠ [])
    (few : ∀ limit, Op.list limit ∈ ops → 0 < limit ∧ limit ≤ 50) :
    (MemoryStore.new default).answers default ops = (SqliteStore.new default).answers ops ↔
    Steady .untouched ops :=
  answers_iff default .untouched _ _ ops
    ⟨rfl, rfl, versioned, rfl, ⟨rfl, rfl⟩, by simp [SqliteStore.new]⟩ few

/-- A policy, another one, and the way back. -/
theorem stores_agree_sample :
    (MemoryStore.new { version := ['0'] }).answers { version := ['0'] }
        [.set { version := ['1'] } [] [] 1, .rollback [] 2, .list 50, .get] =
      (SqliteStore.new { version := ['0'] }).answers
        [.set { version := ['1'] } [] [] 1, .rollback [] 2, .list 50, .get] ↔
    Steady .untouched [.set { version := ['1'] } [] [] 1, .rollback [] 2, .list 50, .get] := by
  apply stores_agree_iff
  · decide
  · intro limit member
    simp only [List.mem_cons, Op.list.injEq, reduceCtorEq, List.not_mem_nil, false_or,
      or_false] at member
    rw [member]
    decide

end EraOne.Enforcement
