import Mathlib

set_option autoImplicit false

/- Lists of records that are looked up by a key, as small stores keep them: a lookup finds the first
record of a key, and writes replace or remove it in place. -/
namespace EraOne.KeyedList

variable {ρ κ : Type} {key : ρ → κ}

/-- No key that counts has two records. -/
def Distinct (key : ρ → κ) (counts : κ → Prop) (records : List ρ) : Prop :=
  records.Pairwise fun a b => counts (key a) → key a ≠ key b

theorem distinct_iff (counts : κ → Prop) (records : List ρ) :
    Distinct key counts records ↔ (records.map key).Pairwise fun a b => counts a → a ≠ b := by
  unfold Distinct
  rw [List.pairwise_map]

theorem distinct_append (counts : κ → Prop) (r : ρ) (records : List ρ)
    (distinct : Distinct key counts records) (fresh : counts (key r) →
      ∀ x ∈ records, key x ≠ key r) : Distinct key counts (records ++ [r]) := by
  refine List.pairwise_append.mpr ⟨distinct, List.pairwise_singleton _ r, ?_⟩
  intro x member y last
  rw [List.mem_singleton.mp last]
  intro counted same
  rw [same] at counted
  exact fresh counted x member same

variable [DecidableEq κ] (key)

def lookup (k : κ) (records : List ρ) : Option ρ := records.find? fun r => key r = k

/-- The first record of the key is replaced; nothing where there is none. -/
def replace (k : κ) (r : ρ) : List ρ → Option (List ρ)
  | [] => none
  | x :: rest => if key x = k then some (r :: rest) else (replace k r rest).map (x :: ·)

/-- The first record of the key is replaced, or a record appended. -/
def upsert (r : ρ) (records : List ρ) : List ρ :=
  (replace key (key r) r records).getD (records ++ [r])

/-- The first record of the key is removed; nothing where there is none. -/
def remove (k : κ) : List ρ → Option (List ρ)
  | [] => none
  | x :: rest => if key x = k then some rest else (remove k rest).map (x :: ·)

variable {key}

theorem replace_eq_none_iff (k : κ) (r : ρ) (records : List ρ) :
    replace key k r records = none ↔ ∀ x ∈ records, key x ≠ k := by
  induction records with
  | nil => simp [replace]
  | cons x rest ih =>
      rw [replace, List.forall_mem_cons, ← ih]
      by_cases same : key x = k
      · simp [same]
      · simp [same]

theorem remove_eq_none_iff (k : κ) (records : List ρ) :
    remove key k records = none ↔ ∀ x ∈ records, key x ≠ k := by
  induction records with
  | nil => simp [remove]
  | cons x rest ih =>
      rw [remove, List.forall_mem_cons, ← ih]
      by_cases same : key x = k
      · simp [same]
      · simp [same]

/-- A replacement keeps the keys where they are. -/
theorem map_key_replace (k : κ) (r : ρ) (records records' : List ρ) (own : key r = k)
    (replaced : replace key k r records = some records') : records'.map key = records.map key := by
  induction records generalizing records' with
  | nil => cases replaced
  | cons x rest ih =>
      rw [replace] at replaced
      split at replaced
      · rename_i same
        rw [← Option.some.inj replaced, List.map_cons, List.map_cons, own, same]
      · obtain ⟨rest', inner, whole⟩ := Option.map_eq_some_iff.mp replaced
        rw [← whole, List.map_cons, List.map_cons, ih rest' inner]

theorem lookup_replace (k other : κ) (r : ρ) (records records' : List ρ) (own : key r = k)
    (replaced : replace key k r records = some records') :
    lookup key other records' = if other = k then some r else lookup key other records := by
  induction records generalizing records' with
  | nil => cases replaced
  | cons x rest ih =>
      rw [replace] at replaced
      split at replaced
      · rename_i same
        rw [← Option.some.inj replaced]
        unfold lookup
        rw [List.find?_cons, List.find?_cons, own, same]
        by_cases mine : other = k
        · simp [mine]
        · have back : k ≠ other := fun equal => mine equal.symm
          simp [mine, back]
      · rename_i different
        obtain ⟨rest', inner, whole⟩ := Option.map_eq_some_iff.mp replaced
        have later := ih rest' inner
        rw [← whole]
        unfold lookup at later ⊢
        rw [List.find?_cons, List.find?_cons, later]
        by_cases mine : other = k
        · rw [mine]
          simp [different]
        · simp only [if_neg mine]

/-- A write makes its record the one of its key, and leaves the other keys alone. -/
theorem lookup_upsert (k : κ) (r : ρ) (records : List ρ) :
    lookup key k (upsert key r records) = if k = key r then some r else lookup key k records := by
  unfold upsert
  cases replaced : replace key (key r) r records with
  | some records' => exact lookup_replace (key r) k r records records' rfl replaced
  | none =>
      have absent := (replace_eq_none_iff (key r) r records).mp replaced
      unfold lookup
      rw [Option.getD_none, List.find?_append]
      by_cases mine : k = key r
      · have none_ : records.find? (fun x => decide (key x = k)) = none := by
          rw [List.find?_eq_none]
          intro x member
          simpa [mine] using absent x member
        rw [none_, if_pos mine]
        simp [mine]
      · rw [if_neg mine]
        have back : key r ≠ k := fun equal => mine equal.symm
        simp [back]

theorem distinct_replace (counts : κ → Prop) (k : κ) (r : ρ) (records records' : List ρ)
    (own : key r = k) (replaced : replace key k r records = some records')
    (distinct : Distinct key counts records) :
    Distinct key counts records' := by
  rw [distinct_iff] at distinct ⊢
  rw [map_key_replace k r records records' own replaced]
  exact distinct

theorem distinct_upsert (counts : κ → Prop) (r : ρ) (records : List ρ)
    (distinct : Distinct key counts records) :
    Distinct key counts (upsert key r records) := by
  unfold upsert
  cases replaced : replace key (key r) r records with
  | some records' => exact distinct_replace counts (key r) r records records' rfl replaced distinct
  | none =>
      exact distinct_append counts r records distinct fun _ =>
        (replace_eq_none_iff (key r) r records).mp replaced

theorem sublist_of_remove (k : κ) (records records' : List ρ)
    (removed : remove key k records = some records') :
    records'.Sublist records := by
  induction records generalizing records' with
  | nil => cases removed
  | cons x rest ih =>
      rw [remove] at removed
      split at removed
      · rw [← Option.some.inj removed]
        exact List.sublist_cons_self x rest
      · obtain ⟨rest', inner, whole⟩ := Option.map_eq_some_iff.mp removed
        rw [← whole]
        exact (ih rest' inner).cons_cons x

theorem lookup_eq_none (k : κ) (records : List ρ) (absent : ∀ x ∈ records, key x ≠ k) :
    lookup key k records = none := by
  unfold lookup
  rw [List.find?_eq_none]
  intro x member
  simpa using absent x member

/-- Of a key that counts, there is one record at most to remove. -/
theorem remove_eq_filter (counts : κ → Prop) (k : κ) (records : List ρ) (counted : counts k)
    (distinct : Distinct key counts records) :
    (remove key k records).getD records = records.filter fun r => key r ≠ k := by
  induction records with
  | nil => rfl
  | cons x rest ih =>
      obtain ⟨apart, others⟩ := List.pairwise_cons.mp distinct
      rw [remove, List.filter_cons]
      by_cases here : key x = k
      · have untouched : rest.filter (fun r => decide (key r ≠ k)) = rest := by
          rw [List.filter_eq_self]
          intro y member
          rw [decide_eq_true_iff, ← here]
          exact (apart y member (by rw [here]; exact counted)).symm
        rw [if_pos here, if_neg (by simp [here]), untouched]
        rfl
      · rw [if_neg here, if_pos (by simp [here]), ← ih others]
        cases remove key k rest <;> rfl

theorem distinct_remove (counts : κ → Prop) (k : κ) (records records' : List ρ)
    (removed : remove key k records = some records') (distinct : Distinct key counts records) :
    Distinct key counts records' := distinct.sublist (sublist_of_remove k records records' removed)

/-- The records of other keys stay, whatever there is of the key. -/
theorem lookup_remove_of_ne (k other : κ) (records records' : List ρ) (different : other ≠ k)
    (removed : remove key k records = some records') :
    lookup key other records' = lookup key other records := by
  induction records generalizing records' with
  | nil => cases removed
  | cons x rest ih =>
      rw [remove] at removed
      split at removed
      · rename_i same
        have back : k ≠ other := fun equal => different equal.symm
        rw [← Option.some.inj removed]
        unfold lookup
        rw [List.find?_cons]
        simp [same, back]
      · obtain ⟨rest', inner, whole⟩ := Option.map_eq_some_iff.mp removed
        have later := ih rest' inner
        rw [← whole]
        unfold lookup at later ⊢
        rw [List.find?_cons, List.find?_cons, later]

/-- Of a key that counts, nothing is left when its record is removed. -/
theorem lookup_remove_self (counts : κ → Prop) (k : κ) (records records' : List ρ)
    (counted : counts k) (distinct : Distinct key counts records)
    (removed : remove key k records = some records') :
    lookup key k records' = none := by
  induction records generalizing records' with
  | nil => cases removed
  | cons x rest ih =>
      obtain ⟨apart, others⟩ := List.pairwise_cons.mp distinct
      rw [remove] at removed
      split at removed
      · rename_i same
        rw [← Option.some.inj removed]
        apply lookup_eq_none
        intro y member back
        exact apart y member (by rw [same]; exact counted) (by rw [same, back])
      · rename_i different
        obtain ⟨rest', inner, whole⟩ := Option.map_eq_some_iff.mp removed
        have later := ih rest' others inner
        rw [← whole]
        unfold lookup at later ⊢
        rw [List.find?_cons, later]
        simp [different]

theorem lookup_isSome_iff (k : κ) (records : List ρ) :
    (lookup key k records).isSome ↔ ∃ x ∈ records, key x = k := by
  unfold lookup
  simp

/-- With one record a key, the lookups tell what is there. -/
theorem lookup_eq_some_iff (counts : κ → Prop) (r : ρ) (records : List ρ) (counted : counts (key r))
    (distinct : Distinct key counts records) :
    lookup key (key r) records = some r ↔ r ∈ records := by
  constructor
  · intro found
    exact List.mem_of_find?_eq_some found
  · intro member
    induction records with
    | nil => cases member
    | cons x rest ih =>
        obtain ⟨apart, others⟩ := List.pairwise_cons.mp distinct
        unfold lookup at ih ⊢
        rw [List.find?_cons]
        rcases List.mem_cons.mp member with here | later
        · simp [here]
        · have different : key x ≠ key r := by
            intro same
            exact apart r later (by rw [same]; exact counted) same
          simp [different, ih others later]

/-! ### Runs of writes -/

inductive Write (ρ κ : Type) where
  | load (records : List ρ)
  | put (r : ρ)
  | drop (k : κ)

section Runs

variable (key) (counts : κ → Prop) [DecidablePred counts]

/-- A record without a key that counts is appended; what is not there is not dropped. -/
def write (records : List ρ) : Write ρ κ → List ρ
  | .load loaded => loaded
  | .put r => if counts (key r) then upsert key r records else records ++ [r]
  | .drop k => (remove key k records).getD records

/-- What a write makes of the table that the records stand for. -/
def writeTable (table : κ → Option ρ) : Write ρ κ → κ → Option ρ
  | .load loaded => fun k => lookup key k loaded
  | .put r => Function.update table (key r) (some r)
  | .drop k => Function.update table k none

def Write.Loads : Write ρ κ → Prop
  | .load loaded => Distinct key counts loaded
  | _ => True

variable {key counts}

theorem distinct_write (w : Write ρ κ) (records : List ρ) (loads : w.Loads key counts)
    (distinct : Distinct key counts records) :
    Distinct key counts (write key counts records w) := by
  cases w with
  | load loaded => exact loads
  | put r =>
      rw [write]
      by_cases counted : counts (key r)
      · rw [if_pos counted]
        exact distinct_upsert counts r records distinct
      · rw [if_neg counted]
        exact distinct_append counts r records distinct fun yes => absurd yes counted
  | drop k =>
      rw [write]
      cases removed : remove key k records with
      | none => exact distinct
      | some records' => exact distinct_remove counts k records records' removed distinct

theorem lookup_write (w : Write ρ κ) (records : List ρ) (table : κ → Option ρ) (k : κ)
    (counted : counts k) (distinct : Distinct key counts records)
    (same : lookup key k records = table k) :
    lookup key k (write key counts records w) = writeTable key table w k := by
  cases w with
  | load loaded => rfl
  | put r =>
      rw [write, writeTable, Function.update_apply]
      by_cases own : counts (key r)
      · rw [if_pos own, lookup_upsert, same]
      · have other : k ≠ key r := by
          intro equal
          rw [equal] at counted
          exact own counted
        have unlike : key r ≠ k := other.symm
        rw [if_neg own, if_neg other, ← same]
        unfold lookup
        rw [List.find?_append]
        simp [unlike]
  | drop gone =>
      rw [write, writeTable, Function.update_apply]
      cases removed : remove key gone records with
      | none =>
          have absent := (remove_eq_none_iff gone records).mp removed
          by_cases here : k = gone
          · rw [if_pos here, Option.getD_none, here]
            exact lookup_eq_none gone records absent
          · rw [if_neg here]
            exact same
      | some records' =>
          by_cases here : k = gone
          · rw [here] at counted ⊢
            rw [if_pos rfl]
            exact lookup_remove_self counts gone records records' counted distinct removed
          · rw [if_neg here, ← same]
            exact lookup_remove_of_ne gone k records records' here removed

/-- Over a run of writes, lists with one record a key are the table they stand for. -/
theorem lookup_run (writes : List (Write ρ κ)) (records : List ρ) (table : κ → Option ρ)
    (loads : ∀ w ∈ writes, w.Loads key counts) (distinct : Distinct key counts records)
    (same : ∀ k, counts k → lookup key k records = table k) :
    Distinct key counts (writes.foldl (write key counts) records) ∧
      ∀ k, counts k → lookup key k (writes.foldl (write key counts) records) = writes.foldl
        (writeTable key) table k := by
  induction writes generalizing records table with
  | nil => exact ⟨distinct, same⟩
  | cons w rest ih =>
      rw [List.forall_mem_cons] at loads
      rw [List.foldl_cons, List.foldl_cons]
      apply ih _ _ loads.2 (distinct_write w records loads.1 distinct)
      intro k counted
      exact lookup_write w records table k counted distinct (same k counted)

theorem mem_run (writes : List (Write ρ κ)) (records : List ρ)
    (loads : ∀ w ∈ writes, w.Loads key counts) (distinct : Distinct key counts records) (r : ρ)
    (counted : counts (key r)) :
    r ∈ writes.foldl (write key counts) records ↔
      writes.foldl (writeTable key) (fun k => lookup key k records) (key r) = some r := by
  obtain ⟨still, same⟩ :=
    lookup_run writes records (fun k => lookup key k records) loads distinct fun _ _ => rfl
  rw [← same (key r) counted, lookup_eq_some_iff counts r _ counted still]

end Runs

end EraOne.KeyedList
