import DistTaskSystem.Guarantees.DagEngine
import DistTaskSystem.Scheduler.SchedulerLoop

/-!
# DTS — tasks that hold up their neighbours

A pass over a batch ends early if a loop body throws: the entries that come
after it are handled by nobody, and neither is the entry itself. Without
failures of the infrastructure this happens exactly on an entry whose
parameters `nlohmann::json::parse` refuses otherwise than by a `parse_error`,
the only exception `TaskFromProto` catches.

## Results

* `pass_covers_iff` — a pass covers its batch if no body throws.
* `poison_iff`      — when both loops handle every entry of a batch.
-/

namespace DistTaskSystem

-- ---------------------------------------------------------------------------
-- Passes
-- ---------------------------------------------------------------------------

/-- The entry was dispatched or skipped. -/
def Handled.Done : Handled → Prop
  | .noWorker => False
  | _ => True

/-- Every entry of the batch was dispatched or skipped. -/
def Covers (batch : List StreamEntry) (handled : List (StreamEntry × Handled)) : Prop :=
  handled.map Prod.fst = batch ∧ ∀ p ∈ handled, p.2.Done

section Pass

variable {body : Nat → StreamEntry → SchedulerLoop → Except LoopError (Handled × SchedulerLoop)}
  {I : SchedulerLoop → Prop} {B : StreamEntry → Prop} {batch : List StreamEntry}

/-- **A pass covers its batch** exactly if none of its entries is one that its body
throws on. -/
theorem pass_covers_iff
    (hthrow : ∀ idx, ∀ entry ∈ batch, ∀ s, I s →
      ((∃ result, body idx entry s = .ok result) ↔ ¬ B entry))
    (hstep : ∀ idx entry s handled t, I s → body idx entry s = .ok (handled, t) →
      I t ∧ handled.Done)
    (idx : Nat) (s : SchedulerLoop) (hs : I s) :
    Covers batch (pass body idx batch s).1 ↔ ∀ entry ∈ batch, ¬ B entry := by
  induction batch generalizing idx s with
  | nil => simp [pass, Covers]
  | cons entry rest ih =>
    rw [pass, List.forall_mem_cons, ← hthrow idx entry List.mem_cons_self s hs]
    cases hbody : body idx entry s with
    | error e =>
      refine iff_of_false (fun h => nomatch h.1) ?_
      rintro ⟨⟨result, hresult⟩, -⟩
      exact nomatch hresult
    | ok result =>
      obtain ⟨handled, t⟩ := result
      obtain ⟨ht, hdone⟩ := hstep idx entry s handled t hs hbody
      rw [← ih (fun i e he => hthrow i e (List.mem_cons_of_mem _ he)) (handled.next idx) t ht]
      show Covers (entry :: rest) ((entry, handled) :: (pass body _ rest t).1) ↔ _
      unfold Covers
      rw [List.map_cons, List.cons_inj_right, List.forall_mem_cons]
      constructor
      · rintro ⟨hmap, -, hall⟩
        exact ⟨⟨_, rfl⟩, hmap, hall⟩
      · rintro ⟨-, hmap, hall⟩
        exact ⟨hmap, hdone, hall⟩

end Pass

-- ---------------------------------------------------------------------------
-- The two loops
-- ---------------------------------------------------------------------------

section Loops

variable {env : LoopEnv} {s₀ : SchedulerLoop}

/-- What a pass leaves as it was: the metas, the clock, and that there is a worker. -/
structure Steady (env : LoopEnv) (s₀ s : SchedulerLoop) : Prop where
  keys : ∀ k, k ≠ kTasks → s.redis.keys k = s₀.redis.keys k
  now : s.redis.now = s₀.redis.now
  workers : s.availableWorkers env ≠ []

theorem Steady.step {entry : StreamEntry} {select : Option WorkerInfo} {s t : SchedulerLoop}
    {handled : Handled} (h : Steady env s₀ s) (hselect : select ≠ none)
    (hbody : handleEntry env {} select entry s = .ok (handled, t)) :
    Steady env s₀ t ∧ handled.Done := by
  cases handleEntry_effect hbody with
  | skip hlookup =>
    refine ⟨⟨fun k hk => ?_, ?_, ?_⟩, trivial⟩
    · show (s.ack _ entry.id).redis.keys k = _
      rw [ack_keys s _ _ hk, h.keys k hk]
    · show (s.ack _ entry.id).redis.now = _
      rw [ack_now, h.now]
    · show s.workerManager.getAvailableWorkersSorted env.order (s.ack _ entry.id).redis.now ≠ []
      rw [ack_now]
      exact h.workers
  | dispatch task worker hlookup hworker =>
    exact ⟨⟨h.keys, h.now, WorkerManager.available_prebookTask _ _ h.workers⟩, trivial⟩
  | noWorker task hlookup hnone => exact absurd hnone hselect

/-- A body throws exactly on a poisoned entry. -/
theorem Steady.throws {entry : StreamEntry} {select : Option WorkerInfo} {s : SchedulerLoop}
    (h : Steady env s₀ s) (hget : ∀ ptr, parseStreamEntry entry = some ptr →
      ∃ value, (getStr (taskMeta ptr.taskId) s₀.redis).1 = .ok value) :
    (∃ result, handleEntry env {} select entry s = .ok result) ↔ ¬ Poisoned env s₀.redis entry := by
  have hcongr : Poisoned env s.redis entry ↔ Poisoned env s₀.redis entry := poisoned_congr h.keys
  rw [handleEntry_ok_iff, ← hcongr]
  refine lookupTask_ok_iff fun ptr hptr => ?_
  rw [getStr_congr (h.keys (taskMeta ptr.taskId) (by simp))]
  exact hget ptr hptr

/-- **When a batch is handled**: with a worker and without failures of the
infrastructure, both loops dispatch or skip every entry of a batch exactly if the
batch has no poisoned entry. -/
theorem poison_iff (env : LoopEnv) (c : Candidates) (batch : List StreamEntry) (s : SchedulerLoop)
    (hworkers : s.availableWorkers env ≠ [])
    (hget : ∀ entry ∈ batch, ∀ ptr, parseStreamEntry entry = some ptr →
      ∃ value, (getStr (taskMeta ptr.taskId) s.redis).1 = .ok value) :
    (Covers batch (runLoopPass env c batch s).1 ∧ Covers batch (rescuePass env batch s).1) ↔
      ∀ entry ∈ batch, ¬ Poisoned env s.redis entry := by
  have hs : Steady env s s := ⟨fun _ _ => rfl, rfl, hworkers⟩
  have hrun : Covers batch (runLoopPass env c batch s).1 ↔
      ∀ entry ∈ batch, ¬ Poisoned env s.redis entry :=
    pass_covers_iff (I := Steady env s) (B := Poisoned env s.redis)
      (fun _ entry he _ h => h.throws (hget entry he))
      (fun _ _ _ _ _ h hbody => h.step (Option.some_ne_none _) hbody) 0 s hs
  have hrescue : Covers batch (rescuePass env batch s).1 ↔
      ∀ entry ∈ batch, ¬ Poisoned env s.redis entry := by
    refine pass_covers_iff (I := Steady env s) (B := Poisoned env s.redis)
      (fun _ entry he _ h => h.throws (hget entry he))
      (fun _ _ t _ _ h hbody => h.step ?_ hbody) 0 s hs
    -- some worker is first in the list
    intro hnone
    exact h.workers (List.head?_eq_none_iff.mp hnone)
  rw [hrun, hrescue, and_self]

end Loops

-- ---------------------------------------------------------------------------
-- A batch with and without such an entry
-- ---------------------------------------------------------------------------

/-- The serialized messages whose parameters are 1, and 1e999, and nothing else. -/
def metaOne : List UInt8 := [50, 1, 49]
def metaHuge : List UInt8 := [50, 5, 49, 101, 57, 57, 57]

def numeralEnv : LoopEnv where
  deserialize binaryData :=
    if binaryData = metaOne then some { funcParams := "1" }
    else if binaryData = metaHuge then some { funcParams := "1e999" }
    else none
  -- 1e999 is too large for a double
  parse text :=
    if text = "1" then .ok (.number 1)
    else if text = "1e999" then .error .outOfRange
    else .error .parseError
  dump _ := "1"
  order := .stable
  consumerName := "scheduler"

/-- A worker that has just registered. -/
def oneWorker : WorkerManager := WorkerManager.started.handleRegister "worker" "10.0.0.1:50051" 0

/-- The metas of two tasks. -/
def twoMetas (metaA metaB : List UInt8) : SchedulerLoop where
  redis :=
    { keys := fun k =>
        if k = taskMeta taskA.text then some ⟨.str metaA, none⟩
        else if k = taskMeta taskB.text then some ⟨.str metaB, none⟩
        else none
      now := 0 }
  db := .empty
  workerManager := oneWorker

def entryA : StreamEntry := ⟨1, toXAddArgs taskA.text jobX.text⟩
def entryB : StreamEntry := ⟨2, toXAddArgs taskB.text jobX.text⟩

theorem twoMetas_workers (metaA metaB : List UInt8) :
    (twoMetas metaA metaB).availableWorkers numeralEnv ≠ [] :=
  (WorkerManager.available_ne_nil_iff _ _).mpr ⟨_, List.mem_cons_self, rfl⟩

theorem parse_entryA : parseStreamEntry entryA = some ⟨taskA.text, jobX.text, 1⟩ := by
  simp [parseStreamEntry, entryA, toXAddArgs, parseField]

theorem parse_entryB : parseStreamEntry entryB = some ⟨taskB.text, jobX.text, 2⟩ := by
  simp [parseStreamEntry, entryB, toXAddArgs, parseField]

theorem get_metaA (metaA metaB : List UInt8) :
    (getStr (taskMeta taskA.text) (twoMetas metaA metaB).redis).1 = .ok (some metaA) := by
  have hslot :
      (twoMetas metaA metaB).redis.keys (taskMeta taskA.text) = some ⟨.str metaA, none⟩ := by
    simp [twoMetas]
  exact getStr_str hslot

theorem get_metaB (metaA metaB : List UInt8) :
    (getStr (taskMeta taskB.text) (twoMetas metaA metaB).redis).1 = .ok (some metaB) := by
  have hid : taskB.text ≠ taskA.text := by decide
  have hslot :
      (twoMetas metaA metaB).redis.keys (taskMeta taskB.text) = some ⟨.str metaB, none⟩ := by
    simp [twoMetas, hid]
  exact getStr_str hslot

/-- Both metas are there. -/
theorem get_twoMetas (metaA metaB : List UInt8) : ∀ entry ∈ [entryA, entryB], ∀ ptr,
    parseStreamEntry entry = some ptr →
      ∃ value, (getStr (taskMeta ptr.taskId) (twoMetas metaA metaB).redis).1 = .ok value := by
  intro entry hentry ptr hptr
  rcases List.mem_pair.mp hentry with rfl | rfl
  · obtain rfl := Option.some.inj (parse_entryA.symm.trans hptr)
    exact ⟨_, get_metaA metaA metaB⟩
  · obtain rfl := Option.some.inj (parse_entryB.symm.trans hptr)
    exact ⟨_, get_metaB metaA metaB⟩

theorem metaOne_fine : ¬ PoisonedMeta numeralEnv metaOne := by
  rintro ⟨-, proto, hproto, -, hparse⟩
  obtain rfl := Option.some.inj hproto
  have hone : numeralEnv.parse "1" = .ok (.number 1) := by simp [numeralEnv]
  exact nomatch hone.symm.trans hparse

theorem metaHuge_poisoned : PoisonedMeta numeralEnv metaHuge := by
  have hhuge : numeralEnv.parse "1e999" = .error .outOfRange := by simp [numeralEnv]
  exact ⟨by decide, _, rfl, by decide, hhuge⟩

/-- Two tasks with readable parameters. -/
theorem poison_iff_readable :
    Covers [entryA, entryB] (runLoopPass numeralEnv ⟨oneWorker.workers, by decide⟩
        [entryA, entryB] (twoMetas metaOne metaOne)).1 ∧
      Covers [entryA, entryB] (rescuePass numeralEnv [entryA, entryB]
        (twoMetas metaOne metaOne)).1 := by
  refine (poison_iff numeralEnv ⟨oneWorker.workers, by decide⟩ [entryA, entryB]
    (twoMetas metaOne metaOne) (twoMetas_workers _ _) (get_twoMetas _ _)).mpr ?_
  rintro entry hentry ⟨ptr, binaryData, hptr, hget, hbad⟩
  rcases List.mem_pair.mp hentry with rfl | rfl
  · obtain rfl := Option.some.inj (parse_entryA.symm.trans hptr)
    obtain rfl := Option.some.inj (Except.ok.inj ((get_metaA _ _).symm.trans hget))
    exact metaOne_fine hbad
  · obtain rfl := Option.some.inj (parse_entryB.symm.trans hptr)
    obtain rfl := Option.some.inj (Except.ok.inj ((get_metaB _ _).symm.trans hget))
    exact metaOne_fine hbad

/-- **A number too large for a double blocks the batch**: neither its own entry nor
the readable one after it is handled, in either loop. -/
theorem huge_number_blocks_batch :
    ¬ Poisoned numeralEnv (twoMetas metaHuge metaOne).redis entryB ∧
      (runLoopPass numeralEnv ⟨oneWorker.workers, by decide⟩ [entryA, entryB]
        (twoMetas metaHuge metaOne)).1 = [] ∧
      (rescuePass numeralEnv [entryA, entryB] (twoMetas metaHuge metaOne)).1 = [] := by
  have hpoison : Poisoned numeralEnv (twoMetas metaHuge metaOne).redis entryA :=
    ⟨_, _, parse_entryA, get_metaA _ _, metaHuge_poisoned⟩
  -- whatever the worker, the first body throws
  have hthrow : ∀ select, ¬ ∃ result, handleEntry numeralEnv {} select entryA
      (twoMetas metaHuge metaOne) = .ok result := by
    intro select
    rw [handleEntry_ok_iff, lookupTask_ok_iff (get_twoMetas _ _ entryA List.mem_cons_self)]
    exact not_not_intro hpoison
  have hpass : ∀ body : Nat → StreamEntry → SchedulerLoop →
      Except LoopError (Handled × SchedulerLoop),
      (¬ ∃ result, body 0 entryA (twoMetas metaHuge metaOne) = .ok result) →
      (pass body 0 [entryA, entryB] (twoMetas metaHuge metaOne)).1 = [] := by
    intro body hbody
    rw [pass]
    cases hresult : body 0 entryA (twoMetas metaHuge metaOne) with
    | error e => rfl
    | ok result => exact absurd ⟨result, hresult⟩ hbody
  refine ⟨?_, hpass _ (hthrow _), hpass _ (hthrow _)⟩
  rintro ⟨ptr, binaryData, hptr, hget, hbad⟩
  obtain rfl := Option.some.inj (parse_entryB.symm.trans hptr)
  obtain rfl := Option.some.inj (Except.ok.inj ((get_metaB _ _).symm.trans hget))
  exact metaOne_fine hbad

end DistTaskSystem
