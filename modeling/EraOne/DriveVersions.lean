import EraOne.DriveCalls
import EraOne.Maps

set_option autoImplicit false

/- Version history: the head of an object, its version list and the blobs are three maps, which
only uploads change together. Version numbers are an `int32` that wraps. -/
namespace EraOne.Drive

open Scan Runs

/-- The bytes that a call uploads to an object, if it is an upload that returns no error. -/
def uploadedTo (m : MemoryStore) (input : Env × Call) (id : Str) : List Bytes :=
  match input.2 with
  | .createObject content blobKey =>
      if input.1.id = id ∧ (m.createObject input.1 content blobKey).1.isOk then [content.data]
      else []
  | .putVersion tenantID objectID p content blobKey =>
      if objectID = id ∧ (m.putVersion input.1 tenantID objectID p content blobKey).1.isOk then
        [content.data]
      else []
  | _ => []

/-- The uploads of a run to each object, in order. -/
def uploadLog (lower : Str → Str) : MemoryStore → List (Env × Call) → Str → List Bytes
  | _, [], _ => []
  | m, input :: inputs, id =>
      uploadedTo m input id ++ uploadLog lower (step lower m input) inputs id

/-- A new object has a new uuid, and every upload a new blob key. -/
def FreshUpload (m : MemoryStore) (input : Env × Call) : Prop :=
  match input.2 with
  | .createObject _ blobKey => input.1.id ∉ m.objects ∧ blobKeyOr blobKey input.1 ∉ m.blobs
  | .putVersion _ _ _ _ blobKey => blobKeyOr blobKey input.1 ∉ m.blobs
  | _ => True

instance (m : MemoryStore) (input : Env × Call) : Decidable (FreshUpload m input) := by
  cases input with
  | mk env call => cases call <;> dsimp only [FreshUpload] <;> infer_instance

/-- The version list of an object against its head, the blobs and the bytes that were uploaded.
The numbers are those of an `int32` that counts from one. -/
structure History (blobs : StrMap Bytes) (obj : Object) (vs : List Version) (log : List Bytes) :
    Prop where
  numbers : vs.map (·.version) = (List.range' 1 vs.length).map Int32.ofNat
  head : obj.version = Int32.ofNat vs.length
  last : (vs.getLast?.map fun v => (v.blobKey, v.sizeBytes)) = some (obj.blobKey, obj.sizeBytes)
  bytes : (vs.map fun v => blobs[v.blobKey]?) = log.map some

/-- Every object has a history of what was uploaded to it. -/
structure Recorded (m : MemoryStore) (log : Str → List Bytes) : Prop where
  objects : ∀ (id : Str) (obj : Object), m.objects[id]? = some obj →
    obj.id = id ∧ History m.blobs obj (m.vers[id]?.getD []) (log id)
  others : ∀ id : Str, id ∉ m.objects → log id = []

/-- Every listed blob is there, so that a new key is none of them. -/
theorem History.insert {blobs : StrMap Bytes} {obj : Object} {vs : List Version} {log : List Bytes}
    (history : History blobs obj vs log) (key : Str) (data : Bytes) (fresh : key ∉ blobs) :
    (vs.map fun v => (blobs.insert key data)[v.blobKey]?) = log.map some := by
  rw [← history.bytes]
  refine List.map_congr_left ?_
  intro v listed
  have stored : blobs[v.blobKey]? ∈ log.map some := by
    rw [← history.bytes]
    exact List.mem_map_of_mem (f := fun v => blobs[v.blobKey]?) listed
  obtain ⟨bytes, -, there⟩ := List.mem_map.mp stored
  rw [Std.ExtTreeMap.getElem?_insert, if_neg]
  rw [Std.LawfulEqCmp.compare_eq_iff_eq]
  intro same
  apply fresh
  rw [same, ← Std.ExtTreeMap.isSome_getElem?_iff_mem, ← there]
  rfl

theorem History.append {blobs : StrMap Bytes} {obj : Object} {vs : List Version} {log : List Bytes}
    (history : History blobs obj vs log) (next : Object) (data : Bytes) (now : Time)
    (fresh : next.blobKey ∉ blobs) (number : next.version = obj.version + 1) :
    History (blobs.insert next.blobKey data) next
      (vs ++ [⟨next.version, next.blobKey, next.sizeBytes, now⟩]) (log ++ [data]) where
  numbers := by
    rw [List.map_append, history.numbers, List.length_append, List.length_singleton,
      List.range'_1_concat, List.map_append, List.map_singleton, List.map_singleton, number,
      history.head]
    congr 2
    rw [Nat.add_comm, Int32.ofNat_add]
    rfl
  head := by
    rw [number, history.head, List.length_append, List.length_singleton, Int32.ofNat_add]
    rfl
  last := by
    rw [List.getLast?_append, List.getLast?_singleton, Option.some_or, Option.map_some]
  bytes := by
    rw [List.map_append, List.map_append, List.map_singleton, List.map_singleton,
      Std.ExtTreeMap.getElem?_insert_self, history.insert next.blobKey data fresh]

section Steps

variable (m : MemoryStore) (env : Env)

theorem vers_putContent (key id : Str) (obj : Object) (data : Bytes) (history : List Version) :
    (m.putContent env key obj data history).vers[id]? =
      if key = id then some (history ++ [⟨obj.version, obj.blobKey, obj.sizeBytes, env.now⟩])
      else m.vers[id]? := by
  unfold MemoryStore.putContent
  dsimp only
  rw [Std.ExtTreeMap.getElem?_insert]
  simp only [Std.LawfulEqCmp.compare_eq_iff_eq]

theorem createObject_cases (input : CreateObjectInput) (blobKey : Str) :
    (∃ e, m.createObject env input blobKey = (.error e, m)) ∨
      m.createObject env input blobKey =
        (.ok (newObject env input (blobKeyOr blobKey env)), m.putContent env env.id
          (newObject env input (blobKeyOr blobKey env)) input.data []) := by
  unfold MemoryStore.createObject
  split
  · exact Or.inl ⟨_, rfl⟩
  · split
    · exact Or.inl ⟨_, rfl⟩
    · exact Or.inr rfl

theorem putVersion_cases (tenantID objectID : Str) (p : Principal) (input : PutVersionInput)
    (blobKey : Str) :
    (∃ e, m.putVersion env tenantID objectID p input blobKey = (.error e, m)) ∨
      ∃ obj, m.objects[objectID]? = some obj ∧
        m.putVersion env tenantID objectID p input blobKey =
          (.ok (nextVersion env obj input (blobKeyOr blobKey env)), m.putContent env objectID
            (nextVersion env obj input (blobKeyOr blobKey env)) input.data
            (m.vers[objectID]?.getD [])) := by
  unfold MemoryStore.putVersion
  split
  · exact Or.inl ⟨_, rfl⟩
  · rename_i obj own
    split
    · exact Or.inl ⟨_, rfl⟩
    · exact Or.inr ⟨obj, ((m.writable_eq_ok tenantID objectID p obj).mp own).1, rfl⟩

/-- A change that is no upload: one object gets other metadata, or none does. -/
theorem edit_of_change (c : Call) (next : MemoryStore) (change : Change env m c next)
    (noCreate : ∀ input blobKey, c ≠ .createObject input blobKey)
    (noPut : ∀ tenantID objectID p input blobKey,
      c ≠ .putVersion tenantID objectID p input blobKey) :
    next.vers = m.vers ∧ next.blobs = m.blobs ∧
      (next.objects = m.objects ∨ ∃ id obj after, m.objects[id]? = some obj ∧
        next.objects = m.objects.insert id after ∧ after.id = obj.id ∧
        after.version = obj.version ∧ after.blobKey = obj.blobKey ∧
        after.sizeBytes = obj.sizeBytes) := by
  cases change with
  | createFolder | patchFolder | trashFolder | restoreFolder => exact ⟨rfl, rfl, Or.inl rfl⟩
  | createObject input blobKey => exact absurd rfl (noCreate input blobKey)
  | putVersion tenantID objectID p input blobKey =>
      exact absurd rfl (noPut tenantID objectID p input blobKey)
  | updateACL tenantID objectID p _ obj own
  | trashObject tenantID objectID p obj own
  | restoreObject tenantID objectID p obj own =>
      have found := ((m.writable_eq_ok tenantID objectID p obj).mp own).1
      exact ⟨rfl, rfl, Or.inr ⟨objectID, obj, _, found, rfl, rfl, rfl, rfl, rfl⟩⟩
  | patchObject tenantID objectID p patch obj next plain own patched =>
      have found := ((m.writable_eq_ok tenantID objectID p obj).mp own).1
      obtain ⟨-, ⟨locked, lock, shape⟩, -⟩ :=
        m.patchObject_spec env tenantID objectID p patch obj next patched
      obtain ⟨kept, -⟩ := patchLock_spec obj locked p env.now patch.locked lock
      refine ⟨rfl, rfl, Or.inr ⟨objectID, obj, next, found, rfl, ?_⟩⟩
      rw [shape, kept]
      exact ⟨rfl, rfl, rfl, rfl⟩

/-- The history of the objects an upload does not go to. -/
theorem Recorded.aside {m : MemoryStore} {log : Str → List Bytes} (recorded : Recorded m log)
    (id other : Str) (obj found : Object) (data : Bytes) (history : List Version)
    (apart : other ≠ id) (fresh : obj.blobKey ∉ m.blobs) (there : m.objects[other]? = some found) :
    found.id = other ∧ History (m.putContent env id obj data history).blobs found
      ((m.putContent env id obj data history).vers[other]?.getD []) (log other) := by
  obtain ⟨key, past⟩ := recorded.objects other found there
  refine ⟨key, ?_⟩
  rw [vers_putContent, if_neg (Ne.symm apart)]
  exact ⟨past.numbers, past.head, past.last, past.insert obj.blobKey data fresh⟩

theorem recorded_upload (log : Str → List Bytes) (recorded : Recorded m log) (id : Str)
    (obj : Object) (data : Bytes) (history : List Version) (fresh : obj.blobKey ∉ m.blobs)
    (named : obj.id = id)
    (own : History (m.blobs.insert obj.blobKey data) obj
      (history ++ [⟨obj.version, obj.blobKey, obj.sizeBytes, env.now⟩]) (log id ++ [data])) :
    Recorded (m.putContent env id obj data history)
      (fun other => log other ++ if id = other then [data] else []) where
  objects := by
    intro other found there
    by_cases here : other = id
    · subst here
      have same : (m.putContent env other obj data history).objects[other]? = some obj := by
        unfold MemoryStore.putContent
        dsimp only
        rw [Std.ExtTreeMap.getElem?_insert_self]
      have list : (m.putContent env other obj data history).vers[other]?.getD [] =
          history ++ [⟨obj.version, obj.blobKey, obj.sizeBytes, env.now⟩] := by
        rw [vers_putContent, if_pos rfl]
        rfl
      rw [same, Option.some.injEq] at there
      subst there
      rw [list, if_pos rfl]
      exact ⟨named, own⟩
    · have stored : m.objects[other]? = some found := by
        unfold MemoryStore.putContent at there
        dsimp only at there
        rwa [Std.ExtTreeMap.getElem?_insert, if_neg] at there
        rw [Std.LawfulEqCmp.compare_eq_iff_eq]
        exact Ne.symm here
      rw [if_neg (Ne.symm here), List.append_nil]
      exact recorded.aside env id other obj found data history here fresh stored
  others := by
    intro other absent
    unfold MemoryStore.putContent at absent
    dsimp only at absent
    rw [Std.ExtTreeMap.mem_insert, not_or, Std.LawfulEqCmp.compare_eq_iff_eq] at absent
    rw [if_neg absent.1, List.append_nil]
    exact recorded.others other absent.2

theorem recorded_edit (log : Str → List Bytes) (recorded : Recorded m log) (next : MemoryStore)
    (vers : next.vers = m.vers) (blobs : next.blobs = m.blobs)
    (objects : next.objects = m.objects ∨ ∃ id obj after, m.objects[id]? = some obj ∧
      next.objects = m.objects.insert id after ∧ after.id = obj.id ∧
      after.version = obj.version ∧ after.blobKey = obj.blobKey ∧
      after.sizeBytes = obj.sizeBytes) : Recorded next log := by
  rcases objects with same | ⟨id, obj, after, found, put, key, version, blob, size⟩
  · exact ⟨by rw [same, vers, blobs]; exact recorded.objects, by rw [same]; exact recorded.others⟩
  · constructor
    · intro other item there
      rw [put, Std.ExtTreeMap.getElem?_insert] at there
      rw [vers, blobs]
      split at there
      · rename_i here
        rw [Std.LawfulEqCmp.compare_eq_iff_eq] at here
        cases there
        subst here
        obtain ⟨named, past⟩ := recorded.objects id obj found
        exact ⟨key.trans named, past.numbers, version.trans past.head,
          by rw [past.last, blob, size], past.bytes⟩
      · exact recorded.objects other item there
    · intro other absent
      rw [put, Std.ExtTreeMap.mem_insert, not_or] at absent
      exact recorded.others other absent.2

variable (lower : Str → Str)

theorem recorded_step (log : Str → List Bytes) (c : Call) (recorded : Recorded m log)
    (fresh : FreshUpload m (env, c)) :
    Recorded (step lower m (env, c)) (fun id => log id ++ uploadedTo m (env, c) id) := by
  have idle (none_ : ∀ id, uploadedTo m (env, c) id = []) :
      (fun id => log id ++ uploadedTo m (env, c) id) = log := by
    funext id
    rw [none_, List.append_nil]
  have change := call_change lower m env c
  obtain ⟨-, created, put⟩ := resolve_eq_create c
  cases c with
  | createObject input blobKey =>
      unfold step MemoryStore.call uploadedTo
      dsimp only
      rcases createObject_cases m env input blobKey with ⟨e, failed⟩ | done
      · rw [failed]
        simpa [Except.isOk, Except.toBool] using recorded
      · rw [done]
        obtain ⟨new, fresh⟩ := fresh
        have own : History (m.blobs.insert (blobKeyOr blobKey env) input.data)
            (newObject env input (blobKeyOr blobKey env))
            ([] ++ [⟨1, blobKeyOr blobKey env, input.data.length, env.now⟩])
            (log env.id ++ [input.data]) := by
          rw [recorded.others env.id new]
          exact ⟨rfl, rfl, rfl, by simp⟩
        have after := recorded_upload m env log recorded env.id
          (newObject env input (blobKeyOr blobKey env)) input.data [] fresh rfl own
        simpa [Except.isOk, Except.toBool] using after
  | putVersion tenantID objectID p input blobKey =>
      unfold step MemoryStore.call uploadedTo
      dsimp only
      rcases putVersion_cases m env tenantID objectID p input blobKey with
        ⟨e, failed⟩ | ⟨obj, found, done⟩
      · rw [failed]
        simpa [Except.isOk, Except.toBool] using recorded
      · rw [done]
        obtain ⟨named, past⟩ := recorded.objects objectID obj found
        have own := past.append (nextVersion env obj input (blobKeyOr blobKey env)) input.data
          env.now fresh rfl
        have after := recorded_upload m env log recorded objectID
          (nextVersion env obj input (blobKeyOr blobKey env)) input.data
          (m.vers[objectID]?.getD []) fresh named own
        simpa [Except.isOk, Except.toBool] using after
  | _ =>
      rw [idle fun _ => rfl]
      unfold step
      rcases change with same | change
      · rw [same]
        exact recorded
      · obtain ⟨vers, blobs, objects⟩ := edit_of_change m env _ _ change
          (fun input blobKey same => by rw [created input blobKey same] at same; cases same)
          (fun _ _ _ _ _ same => by rw [put _ _ _ _ _ same] at same; cases same)
        exact recorded_edit m log recorded _ vers blobs objects

theorem recorded_run (log : Str → List Bytes) (inputs : List (Env × Call))
    (recorded : Recorded m log) (fresh : Guarded (step lower) FreshUpload m inputs) :
    Recorded (inputs.foldl (step lower) m) (fun id => log id ++ uploadLog lower m inputs id) := by
  induction inputs generalizing m log with
  | nil => simpa [uploadLog] using recorded
  | cons input inputs ih =>
      obtain ⟨first, rest⟩ := (guarded_cons _ _ _ _ _).mp fresh
      have next := recorded_step m input.1 lower log input.2 recorded first
      have all := ih _ _ next rest
      simpa [uploadLog, List.append_assoc] using all

/-- A call only adds to the version list of an object that is there. -/
theorem versions_step (c : Call) (id : Str) (there : id ∈ m.objects)
    (fresh : FreshUpload m (env, c)) :
    id ∈ (step lower m (env, c)).objects ∧
      m.vers[id]?.getD [] <+: (step lower m (env, c)).vers[id]?.getD [] := by
  have change := call_change lower m env c
  obtain ⟨-, created, put⟩ := resolve_eq_create c
  cases c with
  | createObject input blobKey =>
      unfold step MemoryStore.call
      dsimp only
      rcases createObject_cases m env input blobKey with ⟨e, failed⟩ | done
      · rw [failed]
        exact ⟨there, List.prefix_refl _⟩
      · rw [done]
        have apart : env.id ≠ id := by
          intro same
          exact fresh.1 (same ▸ there)
        refine ⟨Std.ExtTreeMap.mem_insert.mpr (Or.inr there), ?_⟩
        change _ <+: (m.putContent env env.id _ _ _).vers[id]?.getD []
        rw [vers_putContent, if_neg apart]
  | putVersion tenantID objectID p input blobKey =>
      unfold step MemoryStore.call
      dsimp only
      rcases putVersion_cases m env tenantID objectID p input blobKey with
        ⟨e, failed⟩ | ⟨obj, found, done⟩
      · rw [failed]
        exact ⟨there, List.prefix_refl _⟩
      · rw [done]
        refine ⟨Std.ExtTreeMap.mem_insert.mpr (Or.inr there), ?_⟩
        change _ <+: (m.putContent env objectID _ _ _).vers[id]?.getD []
        rw [vers_putContent]
        split
        · rename_i here
          subst here
          exact List.prefix_append _ _
        · exact List.prefix_refl _
  | _ =>
      unfold step
      rcases change with same | change
      · rw [same]
        exact ⟨there, List.prefix_refl _⟩
      · obtain ⟨vers, -, objects⟩ := edit_of_change m env _ _ change
          (fun input blobKey same => by rw [created input blobKey same] at same; cases same)
          (fun _ _ _ _ _ same => by rw [put _ _ _ _ _ same] at same; cases same)
        rw [vers]
        refine ⟨?_, List.prefix_refl _⟩
        rcases objects with same | ⟨_, _, _, _, put, _⟩
        · rw [same]
          exact there
        · rw [put]
          exact Std.ExtTreeMap.mem_insert.mpr (Or.inr there)

theorem versions_run (inputs : List (Env × Call)) (id : Str) (there : id ∈ m.objects)
    (fresh : Guarded (step lower) FreshUpload m inputs) :
    m.vers[id]?.getD [] <+: (inputs.foldl (step lower) m).vers[id]?.getD [] := by
  induction inputs generalizing m with
  | nil => exact List.prefix_refl _
  | cons input inputs ih =>
      obtain ⟨first, rest⟩ := (guarded_cons _ _ _ _ _).mp fresh
      obtain ⟨still, grows⟩ := versions_step m input.1 lower input.2 id there first
      exact grows.trans (ih _ still rest)

end Steps

/-- The listed versions are the numbers from one to the object's version, in order. -/
def ListsVersions (m : MemoryStore) (obj : Object) : Prop :=
  (m.vers[obj.id]?.getD []).map (·.version.toInt) =
    (List.range' 1 obj.version.toInt.toNat).map Int.ofNat

theorem listsVersions_of_history (m : MemoryStore) (obj : Object) (log : List Bytes)
    (history : History m.blobs obj (m.vers[obj.id]?.getD []) log) (few : log.length < 2 ^ 31) :
    ListsVersions m obj := by
  have length := congrArg List.length history.bytes
  rw [List.length_map, List.length_map] at length
  unfold ListsVersions
  have numbers := congrArg (List.map Int32.toInt) history.numbers
  rw [List.map_map, List.map_map] at numbers
  rw [Function.comp_def] at numbers
  rw [numbers, history.head, Int32.toInt_ofNat_of_lt (by omega), Int.toNat_natCast]
  refine List.map_congr_left ?_
  intro n listed
  have bounds := List.mem_range'_1.mp listed
  exact Int32.toInt_ofNat_of_lt (by omega)

variable (lower : Str → Str)

/-- With fresh uuids and blob keys, after every run the last listed version is the head, every
listed blob has the bytes that were uploaded, and what is listed stays as it is in every longer run;
the numbers are those from one to the version while fewer than `2 ^ 31` were uploaded. -/
theorem version_history (inputs more : List (Env × Call))
    (fresh : Guarded (step lower) FreshUpload newMemoryStore (inputs ++ more)) (id : Str)
    (obj : Object) (found : (inputs.foldl (step lower) newMemoryStore).objects[id]? = some obj) :
    ((uploadLog lower newMemoryStore inputs id).length < 2 ^ 31 →
      ListsVersions (inputs.foldl (step lower) newMemoryStore) obj) ∧
    ((((inputs.foldl (step lower) newMemoryStore).vers[obj.id]?.getD []).getLast?.map fun v =>
      (v.blobKey, v.sizeBytes)) = some (obj.blobKey, obj.sizeBytes)) ∧
    ((((inputs.foldl (step lower) newMemoryStore).vers[obj.id]?.getD []).map fun v =>
        (inputs.foldl (step lower) newMemoryStore).blobs[v.blobKey]?) =
      (uploadLog lower newMemoryStore inputs id).map some) ∧
    (inputs.foldl (step lower) newMemoryStore).vers[obj.id]?.getD [] <+:
      ((inputs ++ more).foldl (step lower) newMemoryStore).vers[obj.id]?.getD [] := by
  have start : Recorded newMemoryStore (fun _ => []) :=
    ⟨by simp [newMemoryStore], fun _ _ => rfl⟩
  obtain ⟨before, after⟩ := (guarded_append _ _ _ _ _).mp fresh
  have recorded := recorded_run newMemoryStore lower _ inputs start before
  obtain ⟨named, history⟩ := recorded.objects id obj found
  rw [List.nil_append] at history
  have there : id ∈ (inputs.foldl (step lower) newMemoryStore).objects := by
    rw [← Std.ExtTreeMap.isSome_getElem?_iff_mem, found]
    rfl
  have grows := versions_run _ lower more id there after
  rw [List.foldl_append, named]
  refine ⟨?_, history.last, history.bytes, grows⟩
  intro few
  rw [← named] at history
  exact listsVersions_of_history _ obj _ history (by rwa [named])

/-- An object and its second version, with what a trash adds. -/
theorem version_history_two :
    ListsVersions ([(envOf "o1", .createObject (uploadOf "a.txt" "owner" [1]) ['k']),
        (envOf "-", .putVersion "t1".toList "o1".toList (userOf "owner") ⟨[2, 3], []⟩ ['l'])].foldl
          (step id) newMemoryStore)
      (nextVersion (envOf "-") (newObject (envOf "o1") (uploadOf "a.txt" "owner" [1]) ['k'])
        ⟨[2, 3], []⟩ ['l']) := by
  refine (version_history id _ [(envOf "-", .trashObject "t1".toList "o1".toList (userOf "owner"))]
    ?_ "o1".toList _ ?_).1 ?_
  · simp only [List.cons_append, List.nil_append, guarded_cons]
    exact ⟨by decide, by decide, by decide, guarded_nil _ _ _⟩
  · decide
  · decide

section Wrap

/-- An object and `n` more versions of it, each under a longer key. -/
def uploads : Nat → List (Env × Call)
  | 0 => [(⟨['a'], [], 0⟩, .createObject (uploadOf "a.txt" "owner" []) ['k'])]
  | n + 1 => uploads n ++ [(⟨[], [], 0⟩, .putVersion "t1".toList ['a'] (userOf "owner") ⟨[], []⟩
      (List.replicate (n + 2) 'k'))]

/-- The state after these uploads, as far as the next one reads it. -/
structure Uploaded (m : MemoryStore) (n : Nat) (obj : Object) : Prop where
  found : m.objects[['a']]? = some obj
  named : obj.id = ['a']
  tenant : obj.tenantID = "t1".toList
  owner : obj.ownerUserID = "owner".toList
  unlocked : obj.lockedBy = []
  number : obj.version = Int32.ofNat (n + 1)
  listed : m.vers[['a']]?.getD [] ≠ []
  keys : ∀ k, n + 1 < k → List.replicate k 'k' ∉ m.blobs

theorem Uploaded.next {m : MemoryStore} {n : Nat} {obj : Object} (before : Uploaded m n obj) :
    Uploaded (step lower m (⟨[], [], 0⟩, .putVersion "t1".toList ['a'] (userOf "owner") ⟨[], []⟩
      (List.replicate (n + 2) 'k'))) (n + 1)
      (nextVersion ⟨[], [], 0⟩ obj ⟨[], []⟩ (List.replicate (n + 2) 'k')) := by
  have may : canWrite obj (userOf "owner") = true := by
    unfold canWrite granted isOwner
    rw [before.owner]
    rfl
  have free : canMutateWhileLocked obj (userOf "owner") = true := by
    unfold canMutateWhileLocked isLocked
    rw [before.unlocked]
    rfl
  have own := (m.writable_eq_ok "t1".toList ['a'] (userOf "owner") obj).mpr
    ⟨before.found, before.tenant, may⟩
  rw [step_of_change lower m _ _ _ (Change.putVersion _ _ _ _ _ obj own free)]
  have key : blobKeyOr (List.replicate (n + 2) 'k') ⟨[], [], 0⟩ = List.replicate (n + 2) 'k' :=
    if_neg (by simp)
  rw [key]
  refine ⟨Std.ExtTreeMap.getElem?_insert_self, before.named, before.tenant, before.owner,
    before.unlocked, ?_, ?_, ?_⟩
  · unfold nextVersion
    dsimp only
    rw [before.number, Int32.ofNat_add (n + 1) 1]
    rfl
  · rw [vers_putContent, if_pos rfl]
    simp
  · intro k long stored
    unfold MemoryStore.putContent at stored
    dsimp only at stored
    rw [Std.ExtTreeMap.mem_insert, Std.LawfulEqCmp.compare_eq_iff_eq] at stored
    rcases stored with same | stored
    · have lengths := congrArg List.length same
      unfold nextVersion at lengths
      rw [List.length_replicate, List.length_replicate] at lengths
      omega
    · exact before.keys k (by omega) stored

theorem uploads_run (n : Nat) :
    Guarded (step lower) FreshUpload newMemoryStore (uploads n) ∧
      ∃ obj, Uploaded ((uploads n).foldl (step lower) newMemoryStore) n obj := by
  induction n with
  | zero =>
      constructor
      · unfold uploads
        rw [guarded_cons]
        exact ⟨by decide, guarded_nil _ _ _⟩
      · refine ⟨newObject ⟨['a'], [], 0⟩ (uploadOf "a.txt" "owner" []) ['k'], ?_⟩
        unfold uploads
        rw [List.foldl_cons, List.foldl_nil]
        have created : step lower newMemoryStore
            (⟨['a'], [], 0⟩, .createObject (uploadOf "a.txt" "owner" []) ['k']) = _ :=
          step_of_change lower _ _ _ _ (Change.createObject _ _ (by decide) (by decide))
        rw [created]
        refine ⟨by decide, rfl, rfl, rfl, rfl, rfl, by decide, ?_⟩
        intro k long stored
        change _ ∈ (∅ : StrMap Bytes).insert ['k'] [] at stored
        rw [Std.ExtTreeMap.mem_insert, Std.LawfulEqCmp.compare_eq_iff_eq] at stored
        rcases stored with same | stored
        · have lengths := congrArg List.length same
          rw [List.length_replicate, List.length_singleton] at lengths
          omega
        · exact Std.ExtTreeMap.not_mem_empty stored
  | succ n ih =>
      obtain ⟨fresh, obj, before⟩ := ih
      unfold uploads
      rw [guarded_append, List.foldl_append, guarded_cons]
      refine ⟨⟨fresh, ?_, guarded_nil _ _ _⟩, _, before.next lower⟩
      change blobKeyOr (List.replicate (n + 2) 'k') _ ∉ _
      unfold blobKeyOr
      rw [if_neg (by simp)]
      exact before.keys (n + 2) (by omega)

end Wrap

/-- The version after `2 ^ 31 - 1` wraps. -/
theorem version_numbers_wrap :
    ¬ ∀ (lower : Str → Str) (inputs : List (Env × Call)) (id : Str) (obj : Object),
      Guarded (step lower) FreshUpload newMemoryStore inputs →
      (inputs.foldl (step lower) newMemoryStore).objects[id]? = some obj →
      ListsVersions (inputs.foldl (step lower) newMemoryStore) obj := by
  intro all
  obtain ⟨fresh, obj, after⟩ := uploads_run id (2 ^ 31 - 1)
  have lists := all id (uploads (2 ^ 31 - 1)) ['a'] obj fresh after.found
  have negative : obj.version.toInt.toNat = 0 := by
    rw [after.number]
    decide
  unfold ListsVersions at lists
  rw [negative, after.named, List.range'_zero, List.map_nil, List.map_eq_nil_iff] at lists
  exact after.listed lists

end EraOne.Drive
