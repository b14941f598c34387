import EraOne.Maps
import EraOne.Scan

set_option autoImplicit false

/- The scan scheduler of `services/vm/internal/scheduler/scheduler.go`. Times and durations are
nanoseconds; ids and the clock come from outside. -/
namespace EraOne.ScanSchedule

/-- `time.ParseDuration`; a duration begins with a sign, a digit or a point. -/
structure Durations where
  parse : Str → Option Int
  starts : ∀ s d, parse s = some d → ∃ c ∈ s.head?, c.isDigit ∨ c = '.' ∨ c = '+' ∨ c = '-'

structure Job where
  id : Str
  name : Str
  targets : List Str
  cronExpr : Str
  nextRun : Int
  enabled : Bool
  lastRun : Option Int
  lastStatus : Str
  concurrency : Int
  deriving DecidableEq, Repr

abbrev Scheduler := StrMap Job

structure UpdateFields where
  name : Str := []
  targets : Option (List Str) := none
  cronExpr : Str := []
  concurrency : Int := 0
  enabled : Option Bool := none

section

variable (durations : Durations)

def hour : Int := 3600000000000

def parseEvery (expr : Str) : Int :=
  if expr = [] then 24 * hour
  else
    match durations.parse expr with
    | some d => d
    | none =>
        if expr.length > 6 ∧ expr.take 6 = "@every".toList then
          (durations.parse (expr.drop 6)).getD (24 * hour)
        else 24 * hour

def create (s : Scheduler) (id name : Str) (targets : List Str) (cronExpr : Str)
    (concurrency now : Int) : Scheduler :=
  s.insert id
    { id := id, name := name, targets := targets, cronExpr := cronExpr
      nextRun := now + parseEvery durations cronExpr, enabled := true, lastRun := none,
        lastStatus := []
      concurrency := if concurrency ≤ 0 then 5 else concurrency }

def markRun (s : Scheduler) (id status : Str) (now : Int) : Scheduler :=
  match s[id]? with
  | some j =>
      s.insert id
        { j with
          lastRun := some now, lastStatus := status,
          nextRun := now + parseEvery durations j.cronExpr }
  | none => s

def patch (j : Job) (f : UpdateFields) (now : Int) : Job :=
  let j := if f.name ≠ [] then { j with name := f.name } else j
  let j := match f.targets with
    | some targets => { j with targets := targets }
    | none => j
  let j := if f.cronExpr ≠ [] then
      { j with cronExpr := f.cronExpr, nextRun := now + parseEvery durations f.cronExpr }
    else j
  let j := if f.concurrency > 0 then { j with concurrency := f.concurrency } else j
  match f.enabled with
  | some enabled => { j with enabled := enabled }
  | none => j

def update (s : Scheduler) (id : Str) (f : UpdateFields) (now : Int) : Scheduler :=
  match s[id]? with
  | some j => s.insert id (patch durations j f now)
  | none => s

/-- A call, with the id that `Create` draws and the clock that the call reads. -/
inductive Call where
  | create (id name : Str) (targets : List Str) (cronExpr : Str) (concurrency now : Int)
  | update (id : Str) (f : UpdateFields) (now : Int)
  | markRun (id status : Str) (now : Int)

/-- The job that a call is about. -/
def Call.job : Call → Str
  | .create id .. => id
  | .update id .. => id
  | .markRun id .. => id

def step (s : Scheduler) : Call → Scheduler
  | .create id name targets cronExpr concurrency now =>
      create durations s id name targets cronExpr concurrency now
  | .update id f now => update durations s id f now
  | .markRun id status now => markRun durations s id status now

def run (calls : List Call) : Scheduler := calls.foldl (step durations) ∅

/-- The time of a call that sets `NextRun`: a creation, an update of the schedule or a run. -/
def Call.sets : Call → Option Int
  | .create _ _ _ _ _ now => some now
  | .update _ f now => if f.cronExpr ≠ [] then some now else none
  | .markRun _ _ now => some now

/-- The time of the last such call for a job. -/
def lastSet (calls : List Call) (id : Str) : Option Int :=
  (calls.filterMap fun call => if call.job = id then call.sets else none).getLast?

/-- Every job with a documented schedule runs its interval after the last call that sets
`NextRun`. -/
def Honoured (calls : List Call) : Prop :=
  ∀ id j, (run durations calls)[id]? = some j → ∀ d δ, durations.parse d = some δ → 0 < δ →
    j.cronExpr = "@every ".toList ++ d ∨ j.cronExpr = d → ∃ t ∈ lastSet calls id, j.nextRun = t + δ

def Call.creates (id : Str) : Call → Bool
  | .create id' .. => id' = id
  | _ => false

/-- The schedule that a call gives to its job, after earlier calls. -/
def Call.schedule (earlier : List Call) : Call → Option Str
  | .create _ _ _ cronExpr _ _ => some cronExpr
  | .update id f _ =>
      if f.cronExpr ≠ [] ∧ earlier.any (Call.creates id) then some f.cronExpr else none
  | .markRun .. => none

/-- Behind `@every ` there is no other interval than the default. -/
def Daily (expr : Str) : Prop :=
  ∀ d δ, durations.parse d = some δ → 0 < δ → expr = "@every ".toList ++ d → δ = 24 * hour

theorem run_concat (calls : List Call) (call : Call) :
    run durations (calls ++ [call]) = step durations (run durations calls) call := by
  unfold run
  rw [List.foldl_append, List.foldl_cons, List.foldl_nil]

/-! ### The interval of an expression -/

theorem parse_eq_none (s : Str)
    (foreign : ∀ c ∈ s.head?, ¬ (c.isDigit ∨ c = '.' ∨ c = '+' ∨ c = '-')) :
    durations.parse s = none := by
  cases parsed : durations.parse s with
  | none => rfl
  | some d =>
      obtain ⟨c, head, kind⟩ := durations.starts s d parsed
      exact absurd kind (foreign c head)

theorem parseEvery_plain (d : Str) (δ : Int) (parsed : durations.parse d = some δ) :
    parseEvery durations d = δ := by
  unfold parseEvery
  rw [if_neg, parsed]
  intro empty
  obtain ⟨c, head, -⟩ := durations.starts d δ parsed
  rw [empty] at head
  cases head

/-- The blank behind `@every` stays in front of the duration. -/
theorem parseEvery_every (d : Str) : parseEvery durations ("@every ".toList ++ d) = 24 * hour := by
  have whole : durations.parse ("@every ".toList ++ d) = none := by
    apply parse_eq_none
    intro c head
    rw [← Option.some.inj head]
    decide
  have rest : durations.parse (("@every ".toList ++ d).drop 6) = none := by
    apply parse_eq_none
    intro c head
    rw [← Option.some.inj head]
    decide
  have nonempty : "@every ".toList ++ d ≠ [] := List.cons_ne_nil _ _
  unfold parseEvery
  rw [if_neg nonempty, whole]
  dsimp only
  rw [rest, Option.getD_none, ite_self]

/-! ### What a run keeps -/

theorem patch_spec (j : Job) (f : UpdateFields) (now : Int) :
    (patch durations j f now).cronExpr = (if f.cronExpr ≠ [] then f.cronExpr else j.cronExpr) ∧
      (patch durations j f now).nextRun =
        (if f.cronExpr ≠ [] then now + parseEvery durations f.cronExpr else j.nextRun) := by
  unfold patch
  cases f.enabled <;> cases f.targets <;> by_cases name : f.name ≠ []
    <;> by_cases cron : f.cronExpr ≠ [] <;>
    by_cases more : f.concurrency > 0 <;> simp [name, cron, more]

/-- No call changes another job. -/
theorem step_other (s : Scheduler) (call : Call) (id : Str) (other : call.job ≠ id) :
    (step durations s call)[id]? = s[id]? := by
  have apart (job : Str) (j : Job) (differs : job ≠ id) : (s.insert job j)[id]? = s[id]? := by
    rw [Maps.getElem?_insert_eq, if_neg (Ne.symm differs)]
  cases call with
  | create job name targets cronExpr concurrency now => exact apart job _ other
  | update job f now =>
      show (update durations s job f now)[id]? = s[id]?
      unfold update
      split
      · exact apart job _ other
      · rfl
  | markRun job status now =>
      show (markRun durations s job status now)[id]? = s[id]?
      unfold markRun
      split
      · exact apart job _ other
      · rfl

/-- What a call makes of its own job: the schedule it gives or the old one, and the time that
goes with it. -/
theorem step_own (s : Scheduler) (call : Call) (j : Job)
    (found : (step durations s call)[call.job]? = some j) :
    (∃ id name targets concurrency now, call = .create id name targets j.cronExpr concurrency now ∧
        j.nextRun = now + parseEvery durations j.cronExpr) ∨
      (∃ old id f now, s[call.job]? = some old ∧ call = .update id f now ∧
        j.cronExpr = (if f.cronExpr ≠ [] then f.cronExpr else old.cronExpr) ∧
        j.nextRun = (if f.cronExpr ≠ [] then now + parseEvery durations j.cronExpr
          else old.nextRun)) ∨
      (∃ old id status now, s[call.job]? = some old ∧ call = .markRun id status now ∧
        j.cronExpr = old.cronExpr ∧ j.nextRun = now + parseEvery durations j.cronExpr) := by
  have same (job : Str) (new : Job) (inserted : (s.insert job new)[job]? = some j) : new = j := by
    rw [Maps.getElem?_insert_eq, if_pos rfl] at inserted
    exact Option.some.inj inserted
  cases call with
  | create id name targets cronExpr concurrency now =>
      left
      rw [← same id _ found]
      exact ⟨id, name, targets, concurrency, now, rfl, rfl⟩
  | update id f now =>
      right
      left
      change (update durations s id f now)[id]? = some j at found
      unfold update at found
      cases before : s[id]? with
      | none =>
          rw [before] at found
          dsimp only at found
          rw [before] at found
          cases found
      | some old =>
          rw [before] at found
          have cron := (patch_spec durations old f now).1
          have next := (patch_spec durations old f now).2
          rw [same id _ found] at cron next
          refine ⟨old, id, f, now, before, rfl, cron, ?_⟩
          rw [next, cron]
          split
          · rfl
          · rfl
  | markRun id status now =>
      right
      right
      change (markRun durations s id status now)[id]? = some j at found
      unfold markRun at found
      cases before : s[id]? with
      | none =>
          rw [before] at found
          dsimp only at found
          rw [before] at found
          cases found
      | some old =>
          rw [before] at found
          rw [← same id _ found]
          exact ⟨old, id, status, now, before, rfl, rfl, rfl⟩

theorem lastSet_concat (calls : List Call) (call : Call) (id : Str) :
    lastSet (calls ++ [call]) id = (if call.job = id then call.sets else none).or
      (lastSet calls id) := by
  unfold lastSet
  rw [List.filterMap_append, List.getLast?_append]
  congr 1
  rw [List.filterMap_cons, List.filterMap_nil]
  split
  · rename_i kind
    rw [kind, List.getLast?_nil]
  · rename_i t kind
    rw [kind, List.getLast?_singleton]

/-- `NextRun` is the interval of the job's schedule after the last call that sets it. -/
theorem nextRun_of_run (calls : List Call) (id : Str) (j : Job)
    (found : (run durations calls)[id]? = some j) :
    ∃ t ∈ lastSet calls id, j.nextRun = t + parseEvery durations j.cronExpr := by
  induction calls using List.reverseRecOn generalizing j with
  | nil =>
      rw [show run durations [] = ∅ from rfl, Std.ExtTreeMap.getElem?_empty] at found
      cases found
  | append_singleton calls call ih =>
      rw [run_concat] at found
      rw [lastSet_concat]
      by_cases own : call.job = id
      · rw [if_pos own]
        rw [← own] at found
        rcases step_own durations _ call j found with ⟨_, _, _, _, now, shape, next⟩ | ⟨old, _, f,
            now, before, shape, cron, next⟩ |
          ⟨old, _, _, now, before, shape, cron, next⟩
        · rw [shape]
          exact ⟨now, rfl, next⟩
        · rw [own] at before
          obtain ⟨t, last, earlier⟩ := ih old before
          rw [shape]
          by_cases sets : f.cronExpr ≠ []
          · rw [if_pos sets] at next
            exact ⟨now, by rw [Call.sets, if_pos sets]; rfl, next⟩
          · rw [if_neg sets] at cron next
            exact ⟨t, by rw [Call.sets, if_neg sets]; exact last, by rw [next, cron, earlier]⟩
        · rw [shape]
          exact ⟨now, rfl, next⟩
      · rw [if_neg own]
        rw [step_other durations _ call id own] at found
        exact ih j found

theorem isSome_step_own (s : Scheduler) (call : Call) :
    (step durations s call)[call.job]?.isSome = (s[call.job]?.isSome || call.creates call.job) := by
  have there (job : Str) (j : Job) : (s.insert job j)[job]?.isSome = true := by
    rw [Maps.getElem?_insert_eq, if_pos rfl]
    rfl
  cases call with
  | create job name targets cronExpr concurrency now =>
      have named : (Call.create job name targets cronExpr concurrency now).creates job = true :=
        decide_eq_true rfl
      rw [Call.job, named, Bool.or_true]
      exact there job _
  | update job f now =>
      show (update durations s job f now)[job]?.isSome = (s[job]?.isSome || false)
      rw [Bool.or_false]
      unfold update
      split
      · rename_i found
        rw [there, found]
        rfl
      · rfl
  | markRun job status now =>
      show (markRun durations s job status now)[job]?.isSome = (s[job]?.isSome || false)
      rw [Bool.or_false]
      unfold markRun
      split
      · rename_i found
        rw [there, found]
        rfl
      · rfl

/-- A job is there once it is created. -/
theorem isSome_run (calls : List Call) (id : Str) :
    (run durations calls)[id]?.isSome = calls.any (Call.creates id) := by
  induction calls using List.reverseRecOn with
  | nil => rfl
  | append_singleton calls call ih =>
      rw [run_concat, List.any_append, ← ih, List.any_cons, List.any_nil, Bool.or_false]
      by_cases own : call.job = id
      · subst own
        exact isSome_step_own durations _ call
      · have foreign : call.creates id = false := by
          cases call with
          | create job name targets cronExpr concurrency now => exact decide_eq_false own
          | update job f now => rfl
          | markRun job status now => rfl
        rw [step_other durations _ call id own, foreign, Bool.or_false]

/-- The schedule of a job was given to it by a call. -/
theorem exists_schedule (calls : List Call) (id : Str) (j : Job)
    (found : (run durations calls)[id]? = some j) :
    ∃ earlier call, earlier ++ [call] <+: calls ∧ call.schedule earlier = some j.cronExpr := by
  induction calls using List.reverseRecOn generalizing j with
  | nil =>
      rw [show run durations [] = ∅ from rfl, Std.ExtTreeMap.getElem?_empty] at found
      cases found
  | append_singleton calls call ih =>
      have before (old : Job) (was : (run durations calls)[id]? = some old)
          (cron : j.cronExpr = old.cronExpr) :
          ∃ earlier call', earlier ++ [call'] <+: calls ++ [call] ∧
            call'.schedule earlier = some j.cronExpr := by
        obtain ⟨earlier, call', within, given⟩ := ih old was
        exact ⟨earlier, call', within.trans (List.prefix_append _ _), by rw [cron, given]⟩
      rw [run_concat] at found
      by_cases own : call.job = id
      · rw [← own] at found
        rcases step_own durations _ call j found with ⟨_, _, _, _, now, shape, -⟩ | ⟨old, _, f, now,
            was, shape, cron, -⟩ |
          ⟨old, _, _, now, was, shape, cron, -⟩
        · exact ⟨calls, call, List.prefix_refl _, by rw [shape]; rfl⟩
        · rw [own] at was
          by_cases gives : f.cronExpr ≠ []
          · rw [if_pos gives] at cron
            have created : calls.any (Call.creates id) = true := by
              rw [← isSome_run durations, was]
              rfl
            have named : call.job = id := own
            rw [shape, Call.job] at named
            refine ⟨calls, call, List.prefix_refl _, ?_⟩
            rw [shape, Call.schedule, named, if_pos ⟨gives, created⟩, cron]
          · rw [if_neg gives] at cron
            exact before old was cron
        · rw [own] at was
          exact before old was cron
      · rw [step_other durations _ call id own] at found
        exact before j found rfl

/-- A schedule that a call gives is the one that its job has then. -/
theorem cronExpr_of_schedule (calls : List Call) (call : Call) (expr : Str)
    (given : call.schedule calls = some expr) :
    ∃ j, (run durations (calls ++ [call]))[call.job]? = some j ∧ j.cronExpr = expr := by
  have there : (run durations (calls ++ [call]))[call.job]?.isSome = true := by
    rw [isSome_run, List.any_append]
    cases call with
    | create job name targets cronExpr concurrency now => simp [Call.creates, Call.job]
    | update job f now =>
        rw [Call.schedule] at given
        split at given
        · rename_i gives
          rw [Call.job, gives.2, Bool.true_or]
        · cases given
    | markRun job status now => cases given
  obtain ⟨j, found⟩ := Option.isSome_iff_exists.mp there
  refine ⟨j, found, ?_⟩
  rw [run_concat] at found
  rcases step_own durations _ call j found with ⟨_, _, _, _, now, shape, -⟩ | ⟨old, _, f, now, was,
      shape, cron, -⟩ |
    ⟨old, _, _, now, was, shape, cron, -⟩
  · rw [shape] at given
    exact Option.some.inj given
  · rw [shape, Call.schedule] at given
    split at given
    · rename_i gives
      rw [cron, if_pos gives.1]
      exact Option.some.inj given
    · cases given
  · rw [shape] at given
    cases given

/-- The interval of a documented schedule is honoured if there is no `@every` in front of it, or it
is the default. -/
theorem parseEvery_of_daily (expr d : Str) (δ : Int) (parsed : durations.parse d = some δ)
    (positive : 0 < δ) (daily : Daily durations expr)
    (documented : expr = "@every ".toList ++ d ∨ expr = d) : parseEvery durations expr = δ := by
  cases documented with
  | inl every => rw [every, parseEvery_every, daily d δ parsed positive every]
  | inr plain => rw [plain, parseEvery_plain durations d δ parsed]

/-- Every job honours its schedule all along a run exactly if behind every `@every ` that the run
gives to a job stands the default interval; and no call changes another job. -/
theorem schedules_honoured_iff (calls : List Call) :
    ((∀ front, front <+: calls → Honoured durations front) ↔
        ∀ front call, front ++ [call] <+: calls →
          ∀ expr ∈ call.schedule front, Daily durations expr) ∧
      ∀ front call, front ++ [call] <+: calls → ∀ id, call.job ≠ id →
        (run durations (front ++ [call]))[id]? = (run durations front)[id]? := by
  refine ⟨⟨?_, ?_⟩, ?_⟩
  · intro honoured front call within expr given d δ parsed positive every
    obtain ⟨j, found, cron⟩ := cronExpr_of_schedule durations front call expr given
    obtain ⟨t, last, next⟩ :=
      honoured _ within _ j found d δ parsed positive (Or.inl (by rw [cron, every]))
    obtain ⟨t', last', next'⟩ := nextRun_of_run durations _ _ j found
    have same : t' = t := Option.some.inj (last'.symm.trans last)
    rw [next, cron, every, parseEvery_every, same] at next'
    exact Int.add_left_cancel next'
  · intro daily front within id j found d δ parsed positive documented
    obtain ⟨t, last, next⟩ := nextRun_of_run durations front id j found
    obtain ⟨earlier, call, before, given⟩ := exists_schedule durations front id j found
    refine ⟨t, last, ?_⟩
    rw [next, parseEvery_of_daily durations _ d δ parsed positive
      (daily earlier call (before.trans within) _ given) documented]
  · intro front call within id other
    rw [run_concat]
    exact step_other durations _ call id other

end

/-- Durations of whole hours, such as `1h`. -/
def hours : Durations where
  parse s := if s.getLast? = some 'h' then (Scan.parseDigits s.dropLast).map fun n => n * hour
    else none
  starts := by
    intro s d parsed
    split at parsed
    · cases digits : Scan.parseDigits s.dropLast with
      | none =>
          rw [digits] at parsed
          cases parsed
      | some n =>
          unfold Scan.parseDigits at digits
          cases s with
          | nil => cases digits
          | cons c s =>
              cases s with
              | nil => cases digits
              | cons c' s =>
                  rw [List.dropLast_cons_cons, List.isEmpty_cons] at digits
                  split at digits
                  · cases digits
                  · split at digits
                    · rename_i all
                      rw [List.all_cons, Bool.and_eq_true] at all
                      exact ⟨c, rfl, Or.inl all.1⟩
                    · cases digits
    · cases parsed

/-- An hourly scan runs once a day. -/
theorem hourly_runs_daily :
    ¬ ∀ (durations : Durations) (calls : List Call), Honoured durations calls := by
  intro honoured
  have read : hours.parse "1h".toList = some hour := by decide
  obtain ⟨t, last, next⟩ :=
    honoured hours [.create "a".toList "lan".toList [] "@every 1h".toList 0 0] "a".toList
    { id := "a".toList, name := "lan".toList, targets := [], cronExpr := "@every 1h".toList
      nextRun := 24 * hour, enabled := true, lastRun := none, lastStatus := [], concurrency := 5 }
    (by decide) "1h".toList hour read (by decide) (Or.inl rfl)
  have zero : t = 0 := Option.some.inj (last.symm.trans rfl)
  rw [zero] at next
  exact absurd next (by decide)

end EraOne.ScanSchedule
