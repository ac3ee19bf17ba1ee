import DistTaskSystem.ApiServer.Publication

/-!
# DTS — what a pipeline leaves behind

The keys of a job after a list of commands, whichever they are: a children set
gains the members of the SADDs sent to it, a counter and a payload have the
value of the one HSET or SET, the task stream gains the entries of the XADDs in
order, and a key no command is sent to stays as it is.
-/

namespace DistTaskSystem

/-! ## Reading the keys of a job -/

/-- The payload stored for a task. -/
def payloadAt (r : Redis) (taskId : String) : Option (List UInt8) :=
  match r.keys (taskMeta taskId) with
  | some ⟨.str bytes, _⟩ => some bytes
  | _ => none

/-- The entries of the task stream that point to a task, by their fields. -/
def entriesOf (r : Redis) (taskId : String) : List (List (String × String)) :=
  ((r.streamAt kTasks).entries.map StreamEntry.fields).filter fun fields =>
    StreamEntry.taskId? ⟨0, fields⟩ = some taskId

/-! ## What a pipeline leaves at a key -/

section Reading

variable {cmd : PipeCmd} {cmds : List PipeCmd} {r : Redis} {jobId t : String}

theorem payloadAt_congr {r' : Redis} (h : r.keys (taskMeta t) = r'.keys (taskMeta t)) :
    payloadAt r t = payloadAt r' t := by
  unfold payloadAt
  rw [h]

theorem payloadAt_of_none (h : r.keys (taskMeta t) = none) : payloadAt r t = none := by
  unfold payloadAt
  rw [h]

/-- A deadline changes no payload. -/
theorem payloadAt_expire (key : String) (deadline : Nat) :
    payloadAt (r.expire key deadline) t = payloadAt r t := by
  unfold payloadAt Redis.expire
  by_cases hkey : taskMeta t = key
  · subst hkey
    rw [Redis.keys_put_self]
    rcases r.keys (taskMeta t) with _ | ⟨_ | _ | _ | _, _⟩ <;> rfl
  · rw [Redis.keys_put_ne _ _ _ hkey]

/-- A command stores a payload or leaves it as it is. -/
theorem exec_payload (h : cmd.Fits r) :
    (∃ bytes ttl, cmd = .set (.taskMeta t) bytes ttl ∧ payloadAt (cmd.exec r) t = some bytes) ∨
      (∀ bytes ttl, cmd ≠ .set (.taskMeta t) bytes ttl) ∧
        payloadAt (cmd.exec r) t = payloadAt r t := by
  by_cases hkey : cmd.key = .taskMeta t
  · cases cmd with
    | set key bytes ttl =>
      obtain rfl : key = .taskMeta t := hkey
      refine .inl ⟨bytes, ttl, rfl, ?_⟩
      rw [PipeCmd.exec, PipeCmd.run, setEx_ok, payloadAt, Redis.keys_put_self]
    | expire key ttl => exact .inr ⟨by simp, payloadAt_expire _ _⟩
    | sadd key member =>
      obtain ⟨-, taskId, rfl⟩ := h
      cases hkey
    | hset key field value =>
      obtain ⟨-, job, rfl⟩ := h
      cases hkey
    | xadd key fields =>
      obtain ⟨-, rfl⟩ := h
      cases hkey
  · refine .inr ⟨?_, payloadAt_congr (exec_keys_ne fun heq => hkey ?_)⟩
    · rintro bytes ttl rfl
      exact hkey rfl
    · exact (Key.text_inj.mp heq).symm

/-- A pipeline that stores only `bytes` for a task. -/
theorem execPipeline_payload (h : ∀ cmd ∈ cmds, cmd.Fits r) {bytes : List UInt8}
    (hset : ∀ bytes' ttl, .set (.taskMeta t) bytes' ttl ∈ cmds → bytes' = bytes) :
    payloadAt (execPipeline cmds r) t = some bytes ∧
        (∃ ttl, .set (.taskMeta t) bytes ttl ∈ cmds) ∨
      (∀ bytes' ttl, .set (.taskMeta t) bytes' ttl ∉ cmds) ∧
        payloadAt (execPipeline cmds r) t = payloadAt r t := by
  induction cmds generalizing r with
  | nil => exact .inr ⟨by simp, rfl⟩
  | cons cmd rest ih =>
    obtain ⟨hcmd, hrest⟩ := List.forall_mem_cons.mp h
    rw [execPipeline_cons]
    rcases ih (fun cmd' hmem => exec_fits hcmd (hrest cmd' hmem))
      (fun bytes' ttl hmem => hset bytes' ttl (List.mem_cons_of_mem _ hmem)) with
      ⟨hpay, ttl, hmem⟩ | ⟨hnone, hpay⟩
    · exact .inl ⟨hpay, ttl, List.mem_cons_of_mem _ hmem⟩
    · -- the rest leaves the payload alone: the first command decides
      rcases exec_payload (t := t) hcmd with ⟨bytes', ttl, rfl, hfirst⟩ | ⟨hne, hfirst⟩
      · obtain rfl := hset bytes' ttl List.mem_cons_self
        exact .inl ⟨hpay.trans hfirst, ttl, List.mem_cons_self⟩
      · refine .inr ⟨fun bytes' ttl hmem => ?_, hpay.trans hfirst⟩
        rcases List.mem_cons.mp hmem with heq | hmem
        · exact hne bytes' ttl heq.symm
        · exact hnone bytes' ttl hmem

/-- The fields a command adds to the task stream. -/
def PipeCmd.pushed : PipeCmd → Option (List (String × String))
  | .xadd .tasks fields => some fields
  | _ => none

theorem exec_fields (h : cmd.Fits r) :
    ((cmd.exec r).streamAt kTasks).entries.map StreamEntry.fields =
      (r.streamAt kTasks).entries.map StreamEntry.fields ++ cmd.pushed.toList := by
  by_cases hkey : cmd.key = .tasks
  · cases cmd with
    | xadd key fields =>
      obtain ⟨ht, rfl⟩ := h
      rw [PipeCmd.exec, PipeCmd.run, RedisM.bind_ok (xadd_ok ht fields)]
      show ((r.put kTasks _).streamAt kTasks).entries.map _ = _
      rw [Redis.streamAt_put_stream, Stream.add, List.map_append]
      rfl
    | expire key ttl =>
      rw [PipeCmd.exec, PipeCmd.run, expireKey_ok]
      show ((r.expire _ _).streamAt kTasks).entries.map _ = _
      rw [Redis.streamAt_expire]
      simp [PipeCmd.pushed]
    | set key bytes ttl =>
      obtain ⟨taskId, rfl⟩ := h
      cases hkey
    | sadd key member =>
      obtain ⟨-, taskId, rfl⟩ := h
      cases hkey
    | hset key field value =>
      obtain ⟨-, job, rfl⟩ := h
      cases hkey
  · have hpushed : cmd.pushed = none := by
      unfold PipeCmd.pushed
      split
      · exact absurd rfl hkey
      · rfl
    rw [hpushed, Option.toList_none, List.append_nil,
      Redis.streamAt_congr (exec_keys_ne fun heq => hkey (Key.text_inj.mp heq).symm)]

theorem execPipeline_fields (h : ∀ cmd ∈ cmds, cmd.Fits r) :
    ((execPipeline cmds r).streamAt kTasks).entries.map StreamEntry.fields =
      (r.streamAt kTasks).entries.map StreamEntry.fields ++ cmds.filterMap PipeCmd.pushed := by
  induction cmds generalizing r with
  | nil => rw [execPipeline_nil, List.filterMap_nil, List.append_nil]
  | cons cmd rest ih =>
    obtain ⟨hcmd, hrest⟩ := List.forall_mem_cons.mp h
    rw [execPipeline_cons, ih fun cmd' hmem => exec_fits hcmd (hrest cmd' hmem),
      exec_fields hcmd, List.append_assoc, List.filterMap_cons]
    cases cmd.pushed <;> rfl

/-- The entries a pipeline adds for a task. -/
theorem execPipeline_entriesOf (h : ∀ cmd ∈ cmds, cmd.Fits r) :
    entriesOf (execPipeline cmds r) t = entriesOf r t ++
      (cmds.filterMap PipeCmd.pushed).filter fun fields =>
        StreamEntry.taskId? ⟨0, fields⟩ = some t := by
  rw [entriesOf, execPipeline_fields h, List.filter_append]
  rfl

/-- The members a pipeline adds to the children of a task. -/
theorem mem_actAll_children {c : String} (s : Countdown.State String) :
    c ∈ (actAll jobId cmds s).children t ↔
      c ∈ s.children t ∨ .sadd (.children t) c ∈ cmds := by
  induction cmds generalizing s with
  | nil => simp [actAll]
  | cons cmd rest ih =>
    show c ∈ (actAll jobId rest (cmd.act jobId s)).children t ↔ _
    rw [ih, List.mem_cons, ← or_assoc]
    refine or_congr_left ?_
    -- only an SADD to the same set adds a member
    unfold PipeCmd.act
    split
    · next taskId child =>
      show c ∈ Function.update s.children taskId (insert child (s.children taskId)) t ↔ _
      by_cases ht : t = taskId
      · subst ht
        rw [Function.update_self, Finset.mem_insert, or_comm]
        simp
      · rw [Function.update_of_ne ht]
        simp [ht]
    · exact (or_iff_left (by simp)).symm
    · split <;> exact (or_iff_left (by simp)).symm
    · exact (or_iff_left (by simp)).symm
    · next hsadd _ _ _ =>
      exact (or_iff_left fun heq => hsadd t c heq.symm).symm

/-- A pipeline that sets the counter of a task to `v` only. -/
theorem actAll_counter {v : Int} (s : Countdown.State String)
    (hset : ∀ v', .hset (.deps jobId) t v' ∈ cmds → v' = v) :
    (actAll jobId cmds s).counter t = some v ∧ .hset (.deps jobId) t v ∈ cmds ∨
      (∀ v', .hset (.deps jobId) t v' ∉ cmds) ∧ (actAll jobId cmds s).counter t = s.counter t := by
  induction cmds generalizing s with
  | nil => exact .inr ⟨by simp, rfl⟩
  | cons cmd rest ih =>
    show (actAll jobId rest (cmd.act jobId s)).counter t = _ ∧ _ ∨
      _ ∧ (actAll jobId rest (cmd.act jobId s)).counter t = _
    rcases ih (cmd.act jobId s) (fun v' hmem => hset v' (List.mem_cons_of_mem _ hmem)) with
      ⟨hv, hmem⟩ | ⟨hnone, hv⟩
    · exact .inl ⟨hv, List.mem_cons_of_mem _ hmem⟩
    · by_cases hfirst : ∃ v', cmd = .hset (.deps jobId) t v'
      · obtain ⟨v', rfl⟩ := hfirst
        obtain rfl := hset v' List.mem_cons_self
        refine .inl ⟨hv.trans ?_, List.mem_cons_self⟩
        simp [PipeCmd.act]
      · refine .inr ⟨fun v' hmem => ?_, hv.trans ?_⟩
        · rcases List.mem_cons.mp hmem with heq | hmem
          · exact hfirst ⟨v', heq.symm⟩
          · exact hnone v' hmem
        · unfold PipeCmd.act
          split
          · rfl
          · rfl
          · next job taskId value =>
            split
            · next hjob =>
              refine Function.update_of_ne (fun ht => hfirst ⟨value, ?_⟩) _ _
              rw [hjob, ht]
            · rfl
          · rfl
          · rfl

/-- A key stays free unless a command writes to it: an EXPIRE does not. -/
theorem execPipeline_none {k : Key} (h : ∀ cmd ∈ cmds, cmd.Fits r)
    (hkey : ∀ cmd ∈ cmds, cmd.isExpire = true ∨ cmd.key ≠ k) (hnone : r.keys k.text = none) :
    (execPipeline cmds r).keys k.text = none := by
  induction cmds generalizing r with
  | nil => exact hnone
  | cons cmd rest ih =>
    obtain ⟨hcmd, hrest⟩ := List.forall_mem_cons.mp h
    obtain ⟨hfirst, hothers⟩ := List.forall_mem_cons.mp hkey
    refine ih (fun cmd' hmem => exec_fits hcmd (hrest cmd' hmem)) hothers ?_
    by_cases heq : cmd.key = k
    · have hexpire := hfirst.resolve_right (not_not_intro heq)
      cases cmd with
      | expire key ttl =>
        obtain rfl : key = k := heq
        show (r.expire _ _).keys _ = none
        rw [Redis.expire, Redis.keys_put_self, hnone]
        rfl
      | _ => simp at hexpire
    · rw [exec_keys_ne fun htext => heq (Key.text_inj.mp htext).symm]
      exact hnone

end Reading

end DistTaskSystem
