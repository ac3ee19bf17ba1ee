import DistTaskSystem.ApiServer.JobQueryHandler

/-!
# DTS — a job query from the cache and from the database

What the handler should answer is a function of the task rows alone
(`AnswersAs`), whichever of the runtime hashes are there. The hashes that are
there answer for their rows; the fallback for the others selects a column the
table does not have, is refused, and its exception is logged. So the answer is
right exactly when nothing falls back.

## Results

* `handle_cached`    — the answer when every hash is there.
* `handle_short`     — the details when one is missing.
* `query_agrees_iff` — when the answer is that of the rows.
-/

namespace DistTaskSystem

-- ---------------------------------------------------------------------------
-- The answer the rows give
-- ---------------------------------------------------------------------------

/-- The task rows of a job. -/
def Db.tasksOf (db : Db) (job : Uuid) : List TaskRow :=
  db.tasks.filter fun t => t.jobId = job

def TaskRow.state (row : TaskRow) : TaskState :=
  .ofInt row.run.state.val

/-- The state of a job, from the states of its tasks. -/
def jobStateOf (states : List TaskState) : JobState :=
  if states = [] then .unknown
  else if ∃ s ∈ states, s.isFailed = true then .failed
  else if ∃ s ∈ states, s = .running then .running
  else if ∀ s ∈ states, s = .success then .success
  else if ∀ s ∈ states, s.isPending = true then .pending
  else .running

/-- The call returns the state, the totals and the details of these rows. -/
structure AnswersAs (rows : List TaskRow) (answer : Answered) : Prop where
  returns : answer.thrown = false
  state : answer.response.state = jobStateOf (rows.map TaskRow.state)
  total : answer.response.totalTasks = rows.length
  finished : answer.response.finishedTasks = rows.countP fun t => t.state.isFinished
  details : (answer.response.taskDetails.map TaskRuntimeDetail.taskId).Perm
    (rows.map fun t => t.taskId.text)

-- ---------------------------------------------------------------------------
-- What is cached
-- ---------------------------------------------------------------------------

/-- The set of the job's tasks is cached, or is missing. -/
def QueryCache.Lists (cache : QueryCache) (jobId : String) (rows : List TaskRow) : Prop :=
  getTaskIdsFromRedis cache jobId = [] ∨
    (getTaskIdsFromRedis cache jobId).Perm (rows.map fun t => t.taskId.text)

/-- A hash that holds the number of the row's state carries it. -/
theorem runtimeState_text {hash : RuntimeHash} {row : TaskRow}
    (h : hash.lookup "state" = some (toString row.run.state.val)) :
    runtimeState hash = row.state := by
  have hrange := row.run.state.property
  have hread : safeStringToInt (toString row.run.state.val) = row.run.state.val :=
    safeStringToInt_toString ⟨by omega, by omega⟩
  unfold runtimeState
  rw [h]
  show TaskState.ofInt (safeStringToInt (toString row.run.state.val)) = _
  rw [hread]
  rfl

/-- Each runtime hash is missing, or carries the state of its row. -/
def QueryCache.Carries (cache : QueryCache) (rows : List TaskRow) : Prop :=
  ∀ t ∈ rows, ∃ hash, cache.runtime t.taskId.text = some hash ∧
    (hash.entries = [] ∨ runtimeState hash = t.state)

/-- No task needs the database: the pipeline answers, and every runtime hash is there. -/
def QueryCache.Complete (cache : QueryCache) (rows : List TaskRow) : Prop :=
  cache.pipelineUp = true ∧
    ∀ t ∈ rows, ∃ hash, cache.runtime t.taskId.text = some hash ∧ hash.entries ≠ []

-- ---------------------------------------------------------------------------
-- The tasks of the job
-- ---------------------------------------------------------------------------

section Handle

variable {cache : QueryCache} {faults : QueryFaults} {db : Db} {req : GetJobStatusRequest}
  {job : Uuid}

theorem getTaskIdsFromDB_eq {jobId : String} (hjob : castUuid (paramText jobId) = .ok job) :
    getTaskIdsFromDB .committed jobId db =
      some ((db.tasksOf job).map fun t => t.taskId.text) := by
  have hselect : selectTaskIds jobId db =
      .ok ((db.tasksOf job).map fun t => t.taskId.text, db) := by
    rw [selectTaskIds, queryUuid, hjob]
    rfl
  rw [getTaskIdsFromDB, executeTx_returned hselect, if_pos rfl]

/-- **Both ways to the ids** lead to those of the rows. -/
theorem getTaskIds_perm {jobId : String} (hjob : castUuid (paramText jobId) = .ok job)
    (hlists : cache.Lists jobId (db.tasksOf job)) :
    ∃ taskIds, getTaskIds cache .committed jobId db = some taskIds ∧
      taskIds.Perm ((db.tasksOf job).map fun t => t.taskId.text) := by
  rw [getTaskIds]
  cases hredis : getTaskIdsFromRedis cache jobId with
  | nil => exact ⟨_, getTaskIdsFromDB_eq hjob, .refl _⟩
  | cons t rest =>
    refine ⟨_, rfl, ?_⟩
    rw [← hredis]
    refine hlists.resolve_left fun hnil => ?_
    rw [hredis] at hnil
    exact List.cons_ne_nil _ _ hnil

-- ---------------------------------------------------------------------------
-- The details
-- ---------------------------------------------------------------------------

/-- The ids whose details come back: no row of the table is ever read. -/
def QueryCache.answered (cache : QueryCache) (hash : String → RuntimeHash)
    (taskIds : List String) : List String :=
  if cache.pipelineUp then taskIds.filter fun t => !(hash t).entries.isEmpty else []

theorem fetchTaskDetails_eq {hash : String → RuntimeHash} {taskIds : List String}
    (outcome : TxOutcome) (needPayload : Bool) (db : Db)
    (hread : ∀ t ∈ taskIds, cache.runtime t = some (hash t)) :
    ∃ missed, fetchTaskDetails cache outcome needPayload taskIds db =
      ⟨(cache.answered hash taskIds).map fun t => cachedDetail needPayload t (hash t), missed,
        false⟩ := by
  rw [fetchTaskDetails, QueryCache.answered]
  by_cases hup : cache.pipelineUp = true
  · rw [if_pos hup, if_pos hup, readReplies_eq needPayload hread]
    simp only [Bool.false_eq_true, if_false, fetchMissed_eq, List.append_nil]
    exact ⟨_, rfl⟩
  · rw [if_neg hup, if_neg hup]
    simp only [Bool.false_eq_true, if_false, fetchMissed_eq, List.append_nil]
    exact ⟨_, rfl⟩

/-- The call, once the ids are known. -/
theorem handle_eq {hash : String → RuntimeHash} {taskIds : List String} (hne : taskIds ≠ [])
    (hids : getTaskIds cache faults.taskIds req.jobId db = some taskIds)
    (hread : ∀ t ∈ taskIds, cache.runtime t = some (hash t)) :
    ∃ details, details = (cache.answered hash taskIds).map (fun t =>
        cachedDetail req.includeTasks t (hash t)) ∧
      handle cache faults db req =
        ⟨{ jobId := req.jobId
           state := (countStates details).jobState taskIds.length
           totalTasks := taskIds.length
           finishedTasks := (countStates details).success + (countStates details).failed
           taskDetails := details }, false⟩ := by
  obtain ⟨t, rest, rfl⟩ := List.exists_cons_of_ne_nil hne
  obtain ⟨missed, hfetch⟩ := fetchTaskDetails_eq faults.details req.includeTasks db hread
  refine ⟨_, rfl, ?_⟩
  rw [handle, hids]
  simp only [hfetch, Bool.false_eq_true, if_false]

-- ---------------------------------------------------------------------------
-- The state of the job
-- ---------------------------------------------------------------------------

theorem jobStateOf_perm {states states' : List TaskState} (h : states.Perm states') :
    jobStateOf states = jobStateOf states' := by
  have hnil : states = [] ↔ states' = [] := by
    rw [← List.length_eq_zero_iff, h.length_eq, List.length_eq_zero_iff]
  simp only [jobStateOf, hnil, h.mem_iff]

/-- **The counters decide as the states do.** -/
theorem jobState_eq {details : List TaskRuntimeDetail} (hne : details ≠ []) :
    (countStates details).jobState details.length =
      jobStateOf (details.map TaskRuntimeDetail.state) := by
  have hstates : details.map TaskRuntimeDetail.state ≠ [] := by simpa using hne
  rw [countStates_eq, StateCounts.jobState, jobStateOf, if_neg hstates]
  simp only [gt_iff_lt, List.countP_pos_iff, List.countP_eq_length, List.mem_map,
    decide_eq_true_eq, exists_exists_and_eq_and, forall_exists_index, and_imp,
    forall_apply_eq_imp_iff₂]

/-- A task has ended with success or without. -/
theorem finished_eq (details : List TaskRuntimeDetail) :
    (countStates details).success + (countStates details).failed =
      (details.map TaskRuntimeDetail.state).countP TaskState.isFinished := by
  rw [countStates_eq, List.countP_map]
  induction details with
  | nil => rfl
  | cons d rest ih =>
    simp only [List.countP_cons]
    cases hstate : d.state <;>
      simp [hstate, TaskState.isFinished, TaskState.isFailed] at ih ⊢ <;> omega

-- ---------------------------------------------------------------------------
-- The two paths
-- ---------------------------------------------------------------------------

/-- The hash of each id, where the cache carries the states of the rows. -/
theorem QueryCache.Carries.read (hcarries : cache.Carries (db.tasksOf job)) {taskIds : List String}
    (hperm : taskIds.Perm ((db.tasksOf job).map fun t => t.taskId.text)) :
    ∀ t ∈ taskIds, cache.runtime t = some ((cache.runtime t).getD ∅) := by
  intro t ht
  obtain ⟨row, hrow, rfl⟩ := List.mem_map.mp (hperm.mem_iff.mp ht)
  obtain ⟨hash, hhash, -⟩ := hcarries row hrow
  rw [hhash]
  rfl

/-- A query for a job without tasks. -/
theorem handle_empty (hids : getTaskIds cache faults.taskIds req.jobId db = some []) :
    AnswersAs [] (handle cache faults db req) := by
  rw [handle, hids]
  exact ⟨rfl, rfl, rfl, rfl, .refl _⟩

/-- A complete cache answers for every id. -/
theorem QueryCache.Complete.answered (hcomplete : cache.Complete (db.tasksOf job))
    {taskIds : List String} (hperm : taskIds.Perm ((db.tasksOf job).map fun t => t.taskId.text)) :
    cache.answered (fun t => (cache.runtime t).getD ∅) taskIds = taskIds := by
  rw [QueryCache.answered, if_pos hcomplete.1]
  refine List.filter_eq_self.mpr fun t ht => ?_
  obtain ⟨row, hrow, rfl⟩ := List.mem_map.mp (hperm.mem_iff.mp ht)
  obtain ⟨hash, hhash, hentries⟩ := hcomplete.2 row hrow
  simpa [hhash] using hentries

/-- The states a complete cache answers with are those of the rows. -/
theorem QueryCache.Complete.states (hcomplete : cache.Complete (db.tasksOf job))
    (hcarries : cache.Carries (db.tasksOf job)) {taskIds : List String}
    (hperm : taskIds.Perm ((db.tasksOf job).map fun t => t.taskId.text)) :
    (taskIds.map fun t => runtimeState ((cache.runtime t).getD ∅)).Perm
      ((db.tasksOf job).map TaskRow.state) := by
  have hmap := hperm.map fun t => runtimeState ((cache.runtime t).getD ∅)
  have hrows : ((db.tasksOf job).map fun t => t.taskId.text).map
      (fun t => runtimeState ((cache.runtime t).getD ∅)) = (db.tasksOf job).map TaskRow.state := by
    rw [List.map_map]
    refine List.map_congr_left fun row hrow => ?_
    obtain ⟨hash, hhash, hcarried⟩ := hcarries row hrow
    obtain ⟨hash', hhash', hentries⟩ := hcomplete.2 row hrow
    obtain rfl := Option.some.inj (hhash.symm.trans hhash')
    rw [Function.comp, hhash]
    exact hcarried.resolve_left hentries
  rwa [hrows] at hmap

/-- **When every hash is there**, the answer is that of the rows. -/
theorem handle_cached (hcarries : cache.Carries (db.tasksOf job))
    (hcomplete : cache.Complete (db.tasksOf job)) {taskIds : List String} (hne : taskIds ≠ [])
    (hids : getTaskIds cache faults.taskIds req.jobId db = some taskIds)
    (hperm : taskIds.Perm ((db.tasksOf job).map fun t => t.taskId.text)) :
    AnswersAs (db.tasksOf job) (handle cache faults db req) := by
  obtain ⟨details, hdetails, hhandle⟩ := handle_eq hne hids (hcarries.read hperm)
  rw [hcomplete.answered hperm] at hdetails
  have hlen : details.length = taskIds.length := by rw [hdetails, List.length_map]
  have hdne : details ≠ [] := by
    rw [hdetails]
    simpa using hne
  have hstates : (details.map TaskRuntimeDetail.state).Perm
      ((db.tasksOf job).map TaskRow.state) := by
    rw [hdetails, List.map_map]
    exact hcomplete.states hcarries hperm
  have hkeys : details.map TaskRuntimeDetail.taskId = taskIds := by
    rw [hdetails, List.map_map]
    exact List.map_id'' (fun _ => rfl) taskIds
  rw [hhandle]
  refine ⟨rfl, ?_, ?_, ?_, ?_⟩
  · show (countStates details).jobState taskIds.length = _
    rw [← hlen, jobState_eq hdne]
    exact jobStateOf_perm hstates
  · show taskIds.length = _
    rw [hperm.length_eq, List.length_map]
  · show (countStates details).success + (countStates details).failed = _
    rw [finished_eq, hstates.countP_eq, List.countP_map]
    rfl
  · show (details.map TaskRuntimeDetail.taskId).Perm _
    rw [hkeys]
    exact hperm

/-- **When a hash is missing**, so is the detail of its task. -/
theorem handle_short (hcarries : cache.Carries (db.tasksOf job)) {taskIds : List String}
    (hne : taskIds ≠ [])
    (hids : getTaskIds cache faults.taskIds req.jobId db = some taskIds)
    (hperm : taskIds.Perm ((db.tasksOf job).map fun t => t.taskId.text))
    (hanswers : AnswersAs (db.tasksOf job) (handle cache faults db req)) :
    cache.Complete (db.tasksOf job) := by
  obtain ⟨details, hdetails, hhandle⟩ := handle_eq hne hids (hcarries.read hperm)
  have hlen : (cache.answered (fun t => (cache.runtime t).getD ∅) taskIds).length =
      taskIds.length := by
    have hkeys := hanswers.details.length_eq
    rw [hhandle, List.length_map, List.length_map] at hkeys
    rw [hperm.length_eq, List.length_map, ← hkeys, hdetails, List.length_map]
  rw [QueryCache.answered] at hlen
  by_cases hup : cache.pipelineUp = true
  · refine ⟨hup, fun row hrow => ?_⟩
    rw [if_pos hup, List.length_filter_eq_length_iff] at hlen
    obtain ⟨hash, hhash, -⟩ := hcarries row hrow
    have hthere := hlen row.taskId.text (hperm.mem_iff.mpr (List.mem_map_of_mem hrow))
    exact ⟨hash, hhash, by simpa [hhash] using hthere⟩
  · rw [if_neg hup] at hlen
    exact absurd (List.length_eq_zero_iff.mp hlen.symm) hne

/-- **When cache and database agree.** For a job whose cached hashes carry the states of
its rows, whichever are missing and whatever becomes of the transaction of the
fallback, the answer is that of the rows exactly when the job has no tasks or no task
needs the database. -/
theorem query_agrees_iff (hjob : castUuid (paramText req.jobId) = .ok job)
    (htx : faults.taskIds = .committed)
    (hlists : cache.Lists req.jobId (db.tasksOf job)) (hcarries : cache.Carries (db.tasksOf job)) :
    AnswersAs (db.tasksOf job) (handle cache faults db req) ↔
      db.tasksOf job = [] ∨ cache.Complete (db.tasksOf job) := by
  obtain ⟨taskIds, hids, hperm⟩ := getTaskIds_perm hjob hlists
  rw [← htx] at hids
  by_cases hrows : db.tasksOf job = []
  · rw [hrows] at hperm ⊢
    obtain rfl := hperm.eq_nil
    exact iff_of_true (handle_empty hids) (.inl rfl)
  · have hne : taskIds ≠ [] := by
      rintro rfl
      exact hrows (by simpa using hperm)
    rw [or_iff_right hrows]
    exact ⟨handle_short hcarries hne hids hperm,
      fun hcomplete => handle_cached hcarries hcomplete hne hids hperm⟩

end Handle

-- ---------------------------------------------------------------------------
-- One hash missing
-- ---------------------------------------------------------------------------

def queriedJob : Uuid := ⟨"10000000-0000-0000-0000-000000000000", by decide⟩

def queriedSuccess : Uuid := ⟨"20000000-0000-0000-0000-000000000000", by decide⟩

def queriedFailure : Uuid := ⟨"30000000-0000-0000-0000-000000000000", by decide⟩

def queriedRow (taskId : Uuid) (naturalId : String) (state : SmallInt) : TaskRow where
  taskId := taskId
  jobId := queriedJob
  naturalId := naturalId
  funcName := "f"
  funcParams := none
  priority := ⟨0, smallInt_zero⟩
  maxRetry := ⟨0, smallInt_zero⟩
  timeoutMs := ⟨0, int4_zero⟩
  pendingDependencies := ⟨0, int4_zero⟩
  submitTs := none
  run := ⟨state, ⟨0, smallInt_zero⟩, none, none, none, none, none⟩

/-- A job of a task that has succeeded and one that has failed. -/
def queriedDb : Db where
  jobs := [⟨queriedJob, "key", stateRunning⟩]
  tasks := [queriedRow queriedSuccess "a" stateSuccess, queriedRow queriedFailure "b" stateFailed]
  edges := []
  jobPkey := by decide
  jobIdempotencyKey := by decide
  taskPkey := by decide
  uqJobNaturalId := by decide
  fkTaskToJob := by decide
  edgePkey := by decide
  fkEdgeToParent := by decide
  fkEdgeToChild := by decide

/-- The hash of the failed task has expired. -/
def expiredCache : QueryCache where
  jobTasks _ := some [queriedSuccess.text, queriedFailure.text]
  pipelineUp := true
  runtime taskId := some <|
    if taskId = queriedSuccess.text then AList.singleton "state" (toString (2 : Int)) else ∅

def queryReq : GetJobStatusRequest := ⟨queriedJob.text, true⟩

theorem expiredCache_lists :
    expiredCache.Lists queryReq.jobId (queriedDb.tasksOf queriedJob) :=
  .inr (by decide)

/-- Both hashes are there. -/
def completeCache : QueryCache where
  jobTasks _ := some [queriedSuccess.text, queriedFailure.text]
  pipelineUp := true
  runtime taskId := some <|
    AList.singleton "state" (toString (if taskId = queriedSuccess.text then 2 else 3 : Int))

theorem completeCache_lists :
    completeCache.Lists queryReq.jobId (queriedDb.tasksOf queriedJob) :=
  .inr (by decide)

theorem mem_queriedRows {t : TaskRow} (ht : t ∈ queriedDb.tasksOf queriedJob) :
    t = queriedRow queriedSuccess "a" stateSuccess ∨
      t = queriedRow queriedFailure "b" stateFailed := by
  have htasks : t ∈ queriedDb.tasks := (List.mem_filter.mp ht).1
  simpa [queriedDb] using htasks

theorem completeCache_carries : completeCache.Carries (queriedDb.tasksOf queriedJob) := by
  intro t ht
  refine ⟨_, rfl, .inr ?_⟩
  obtain rfl | rfl := mem_queriedRows ht <;> exact runtimeState_text rfl

theorem expiredCache_carries : expiredCache.Carries (queriedDb.tasksOf queriedJob) := by
  intro t ht
  obtain rfl | rfl := mem_queriedRows ht
  · exact ⟨AList.singleton "state" (toString (2 : Int)), congrArg some (if_pos rfl),
      .inr (runtimeState_text rfl)⟩
  · exact ⟨∅, congrArg some (if_neg (by decide)), .inl rfl⟩

/-- With both hashes the answer is that of the rows, without one of them it is not. -/
theorem query_agrees_iff_cached :
    AnswersAs (queriedDb.tasksOf queriedJob)
        (handle completeCache ⟨.committed, .committed⟩ queriedDb queryReq) ∧
      ¬ AnswersAs (queriedDb.tasksOf queriedJob)
        (handle expiredCache ⟨.committed, .committed⟩ queriedDb queryReq) := by
  have hcomplete : completeCache.Complete (queriedDb.tasksOf queriedJob) :=
    ⟨rfl, fun t _ => ⟨_, rfl, List.cons_ne_nil _ _⟩⟩
  have hexpired : ¬ (queriedDb.tasksOf queriedJob = [] ∨
      expiredCache.Complete (queriedDb.tasksOf queriedJob)) := by
    rintro (hnone | ⟨-, hall⟩)
    · exact absurd hnone (by decide)
    · obtain ⟨hash, hhash, hentries⟩ :=
        hall (queriedRow queriedFailure "b" stateFailed) (by decide)
      rw [← Option.some.inj hhash] at hentries
      exact hentries rfl
  exact ⟨(query_agrees_iff (by decide) rfl completeCache_lists completeCache_carries).mpr
      (.inr hcomplete),
    mt (query_agrees_iff (by decide) rfl expiredCache_lists expiredCache_carries).mp hexpired⟩

/-- The failed task is dropped, and its job is still running. -/
theorem expired_hash_drops_task :
    ∃ cache faults db req job, castUuid (paramText req.jobId) = .ok job ∧
      faults = ⟨.committed, .committed⟩ ∧ cache.Lists req.jobId (db.tasksOf job) ∧
      cache.Carries (db.tasksOf job) ∧
      (handle cache faults db req).response.state = .running ∧
      jobStateOf ((db.tasksOf job).map TaskRow.state) = .failed ∧
      ¬ AnswersAs (db.tasksOf job) (handle cache faults db req) := by
  refine ⟨expiredCache, ⟨.committed, .committed⟩, queriedDb, queryReq, queriedJob, by decide, rfl,
    expiredCache_lists, expiredCache_carries, by decide, by decide, fun h => ?_⟩
  exact absurd h.finished (by decide)

end DistTaskSystem
