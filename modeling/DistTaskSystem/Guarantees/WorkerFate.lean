import DistTaskSystem.Guarantees.WorkerShutdown

/-!
# DTS — what a signal does to a worker process

`Stop` shuts the server down and joins the heartbeat thread, if they are there. What becomes
of the process is decided by where its main thread is when the `Stop` comes that finds
`running_` set. While it waits in `Await`, the process exits. While it registers, `Stop`
finds no thread to join, the thread is made afterwards, and its destructor ends the process
by `std::terminate`. And before the server is built there is nothing to shut down: the
process goes on, and no later signal does anything to it. Where there is no server, it is
the destructor that stops the worker, and the process exits.

## Results

* `signals_step` — what a signal leaves behind.
* `rank_step`    — every step of the process itself brings its end nearer.
* `worker_fate`  — how a process ends that was told to stop.
-/

namespace DistTaskSystem

namespace NodeProcess

open Runs

variable {env : NodeEnv} {s t : NodeProcess} {a : Action} {actions : List Action}

-- ---------------------------------------------------------------------------
-- What a signal leaves behind
-- ---------------------------------------------------------------------------

/-- `Stop` found no thread to join. -/
structure Unjoined (m : NodeMain) (s : NodeProcess) : Prop where
  joined : s.joined = false
  before : s.main.pastThread = false
  waits : s.interrupted = true → s.main = m

/-- `Stop` found what `BuildAndStart` had returned. -/
structure Halted (s : NodeProcess) : Prop where
  later : s.main ≠ .binding
  server : s.server ≠ .unbuilt
  down : s.stop = .joining ∨ s.stop = .returned → s.server.isUp = false

/-- `Stop` found the thread. -/
structure Leaving (m : NodeMain) (s : NodeProcess) : Prop where
  main : s.main = m ∨ s.main.destructing = true
  spared : s.main ≠ .terminated
  waits : s.main ≠ m → s.stop = .returned
  joined : s.stop = .returned → s.joined = true

/-- The main thread goes on when `Stop` has joined the heartbeat thread. -/
def JoinsFirst (env : NodeEnv) (m : NodeMain) : Prop :=
  env.onMain = true ∧ m = .awaiting ∨ m = .stopping

/-- What has become of the process since the `Stop`. -/
structure Signals (env : NodeEnv) (s : NodeProcess) : Prop where
  unheard : s.signalled = none → s.stop = .notCalled
  heard : s.signalled ≠ none → s.running = false ∧ s.main ≠ .launched ∧ s.stop ≠ .notCalled
  built : s.server = .unbuilt → s.main = .launched ∨ s.main = .binding
  closing : s.server = .closing → s.stop = .shuttingDown
  draining : s.main = .destroying .threadPool → s.owner.pool.destructor ≠ .returned
  executable : ∀ task ∈ s.jobs, ∃ handler, env.registry task.funcName = some handler
  unjoined : env.onMain = true → ∀ m, s.signalled = some m → m.starting = true → Unjoined m s
  deaf : env.onMain = true → s.signalled = some .binding → s.server ≠ .closing ∧ s.server ≠ .down
  halted : ∀ m, s.signalled = some m → m ≠ .binding → s.Halted
  leaving : ∀ m, s.signalled = some m → JoinsFirst env m → Leaving m s

/-- The `Stop` that was called has not returned. -/
theorem interrupted_of {stop : StopPoint} (hstop : s.stop = stop) (hcalled : stop ≠ .notCalled)
    (hreturned : stop ≠ .returned) : s.interrupted = true := by
  rw [interrupted, hstop, decide_eq_true hcalled, decide_eq_true hreturned]
  rfl

theorem free_of_returned (hstop : s.stop = .returned) : s.interrupted = false := by
  rw [interrupted, hstop]
  rfl

theorem returned_of_free (hcalled : s.stop ≠ .notCalled) (hfree : s.interrupted = false) :
    s.stop = .returned := by
  by_contra hreturned
  have hinterrupted := interrupted_of rfl hcalled hreturned
  exact Bool.false_ne_true (hfree.symm.trans hinterrupted)

theorem pastThread_of_starting {m : NodeMain} (h : m.starting = true) : m.pastThread = false := by
  cases m <;> first | rfl | exact absurd h Bool.false_ne_true

theorem NodeServer.isUp_of_isNull {server : NodeServer} (h : server.isNull = true) :
    server.isUp = false := by
  cases server <;> first | rfl | exact absurd h Bool.false_ne_true

/-- The main thread goes on. -/
theorem Unjoined.onward {m m' : NodeMain} {server : NodeServer} {heartbeat : HeartbeatPoint}
    (hs : Unjoined m s) (hfree : s.interrupted = false) (hbefore : m'.pastThread = false) :
    Unjoined m { s with server := server, heartbeat := heartbeat, main := m' } where
  joined := hs.joined
  before := hbefore
  waits := fun h => absurd (hfree.symm.trans h) Bool.false_ne_true

theorem Unjoined.step {m : NodeMain} (hordered : s.Ordered) (hs : Signals env s)
    (honMain : env.onMain = true) (hheard : s.signalled = some m) (hstarting : m.starting = true)
    (h : Moves env s a t) : Unjoined m t := by
  obtain ⟨hrunning, hlaunched, -⟩ := hs.heard (by rw [hheard]; simp)
  have hunjoined := hs.unjoined honMain m hheard hstarting
  have hpast : ∀ {m : NodeMain}, s.main = m → m.pastThread = true → False := fun hmain hm =>
    Bool.false_ne_true (hunjoined.before.symm.trans ((congrArg _ hmain).trans hm))
  cases h with
  | signal hrunning' => exact absurd (hrunning.symm.trans hrunning') (by decide)
  | leaveStop success hmain hserver hrunning' =>
    exact absurd (hrunning.symm.trans hrunning') (by decide)
  | stopNull hstop hserver =>
    have hmain := hunjoined.waits (interrupted_of hstop (by decide) (by decide))
    exact { hunjoined with waits := fun _ => hmain }
  | shutdown hstop hserver =>
    have hmain := hunjoined.waits (interrupted_of hstop (by decide) (by decide))
    exact { hunjoined with waits := fun _ => hmain }
  | down hstop hcalls =>
    have hmain := hunjoined.waits (interrupted_of hstop (by decide) (by decide))
    exact { hunjoined with waits := fun _ => hmain }
  | joinNothing hstop hheartbeat =>
    exact { hunjoined with waits := fun h => absurd h Bool.false_ne_true }
  | join hstop hheartbeat =>
    -- the thread is made behind `registering`
    have hmain := hunjoined.waits (interrupted_of hstop (by decide) (by decide))
    have hunstarted := hordered.unstarted (by rw [hmain]; exact hstarting)
    exact absurd (hunstarted.symm.trans hheartbeat) (by decide)
  | start success hmain => exact absurd hmain hlaunched
  | bind success hmain hstopped => exact hunjoined.onward (hstopped honMain) rfl
  | registered hmain hstopped => exact hunjoined.onward (hstopped honMain) rfl
  | abort hmain hstopped => exact hunjoined.onward (hstopped honMain) rfl
  | leave success hmain hserver hrunning' hstopped =>
    exact hunjoined.onward (hstopped honMain) rfl
  | destroy success hmain hstop => exact hunjoined.onward (free_of_returned hstop) rfl
  | destroyThread success hmain hjoined =>
    have hstarted := hordered.started (.inr (by rw [hmain]; rfl))
    exact absurd (hunjoined.joined.symm.trans (hjoined.resolve_left hstarted)) (by decide)
  | terminate success hmain hjoined =>
    have hfree : s.interrupted = false := by
      refine Bool.eq_false_iff.mpr fun h => ?_
      rw [← hunjoined.waits h, hmain] at hstarting
      exact absurd hstarting (by decide)
    exact hunjoined.onward hfree rfl
  | destroyServer success hmain => exact (hpast hmain rfl).elim
  | destroyService success hmain => exact (hpast hmain rfl).elim
  | free success owner hmain howner => exact (hpast hmain rfl).elim
  | exit success owner hmain howner => exact (hpast hmain rfl).elim
  | _ => exact { hunjoined with }

/-- Nobody shuts the server down. -/
theorem deaf_step (hordered : s.Ordered) (hs : Signals env s) (honMain : env.onMain = true)
    (hheard : s.signalled = some .binding) (h : Moves env s a t) :
    t.server ≠ .closing ∧ t.server ≠ .down := by
  have hdeaf := hs.deaf honMain hheard
  cases h with
  | shutdown hstop hserver =>
    have hunjoined := hs.unjoined honMain _ hheard rfl
    have hmain := hunjoined.waits (interrupted_of hstop (by decide) (by decide))
    rw [hordered.unbuilt (.inr hmain)] at hserver
    exact absurd hserver (by decide)
  | down hstop hcalls => exact absurd (hordered.closing hstop) hdeaf.1
  | bind success hmain hstopped => cases success <;> simp
  | _ => exact hdeaf

theorem Halted.step {m : NodeMain} (hs : Signals env s) (hheard : s.signalled = some m)
    (hm : m ≠ .binding) (h : Moves env s a t) : t.Halted := by
  obtain ⟨hrunning, hlaunched, -⟩ := hs.heard (by rw [hheard]; simp)
  have hhalted := hs.halted m hheard hm
  cases h with
  | signal hrunning' => exact absurd (hrunning.symm.trans hrunning') (by decide)
  | leaveStop success hmain hserver hrunning' =>
    exact absurd (hrunning.symm.trans hrunning') (by decide)
  | stopNull hstop hserver =>
    exact { hhalted with down := fun _ => NodeServer.isUp_of_isNull hserver }
  | shutdown hstop hserver => exact { hhalted with server := by simp, down := by simp }
  | down hstop hcalls => exact { hhalted with server := by simp, down := fun _ => rfl }
  | joinNothing hstop hheartbeat =>
    exact { hhalted with down := fun _ => hhalted.down (.inl hstop) }
  | join hstop hheartbeat => exact { hhalted with down := fun _ => hhalted.down (.inl hstop) }
  | start success hmain => exact absurd hmain hlaunched
  | bind success hmain hstopped => exact absurd hmain hhalted.later
  | _ => first | exact { hhalted with } | exact { hhalted with later := by simp }

/-- The destructor goes on. -/
theorem Leaving.onward {m m' : NodeMain} {owner : PoolOwner} (hs : Leaving m s)
    (hstop : s.stop = .returned) (hm' : m'.destructing = true) (hspared : m' ≠ .terminated) :
    Leaving m { s with owner := owner, main := m' } where
  main := .inr hm'
  spared := hspared
  waits := fun _ => hstop
  joined := hs.joined

theorem Leaving.step {m : NodeMain} (hordered : s.Ordered) (hs : Signals env s)
    (hheard : s.signalled = some m) (hm : JoinsFirst env m) (h : Moves env s a t) :
    Leaving m t := by
  obtain ⟨hrunning, hlaunched, hcalled⟩ := hs.heard (by rw [hheard]; simp)
  have hleaving := hs.leaving m hheard hm
  have hreturned : ∀ {m' : NodeMain}, s.main = m' → m' ≠ .awaiting → m' ≠ .stopping →
      s.stop = .returned := by
    rintro m' rfl hawaiting hstopping
    refine hleaving.waits fun hmain => ?_
    exact hm.elim (fun hm => hawaiting (hmain.trans hm.2)) fun hm => hstopping (hmain.trans hm)
  have hthere : s.main = .awaiting ∨ s.main.destructing = true := by
    rcases hleaving.main with hmain | hdestructing
    · rcases hm with ⟨-, rfl⟩ | rfl
      · exact .inl hmain
      · exact .inr (by rw [hmain]; rfl)
    · exact .inr hdestructing
  have hearly : ∀ {m' : NodeMain}, s.main = m' → m' ≠ .awaiting → m'.destructing = false →
      False := by
    rintro m' rfl hawaiting hdestructing
    exact Bool.false_ne_true (hdestructing.symm.trans (hthere.resolve_left hawaiting))
  cases h with
  | signal hrunning' => exact absurd (hrunning.symm.trans hrunning') (by decide)
  | leaveStop success hmain hserver hrunning' =>
    exact absurd (hrunning.symm.trans hrunning') (by decide)
  | stopNull hstop hserver =>
    exact { hleaving with
      waits := fun h => absurd (hstop.symm.trans (hleaving.waits h)) (by decide)
      joined := by simp }
  | shutdown hstop hserver =>
    exact { hleaving with
      waits := fun h => absurd (hstop.symm.trans (hleaving.waits h)) (by decide)
      joined := by simp }
  | down hstop hcalls =>
    exact { hleaving with
      waits := fun h => absurd (hstop.symm.trans (hleaving.waits h)) (by decide)
      joined := by simp }
  | joinNothing hstop hheartbeat => exact absurd hheartbeat (hordered.started hthere)
  | join hstop hheartbeat =>
    exact { hleaving with
      waits := fun _ => rfl
      joined := fun _ => rfl }
  | start success hmain => exact absurd hmain hlaunched
  | bind success hmain hstopped => exact (hearly hmain (by decide) rfl).elim
  | registered hmain hstopped => exact (hearly hmain (by decide) rfl).elim
  | abort hmain hstopped => exact (hearly hmain (by decide) rfl).elim
  | leave success hmain hserver hrunning' hstopped =>
    rcases hm with ⟨honMain, -⟩ | rfl
    · exact hleaving.onward (returned_of_free hcalled (hstopped honMain)) rfl (by decide)
    · exact absurd (hmain ▸ hleaving.main) (by decide)
  | destroy success hmain hstop => exact hleaving.onward hstop rfl (by decide)
  | destroyThread success hmain hjoined =>
    exact hleaving.onward (hreturned hmain (by decide) (by decide)) rfl (by decide)
  | terminate success hmain hjoined =>
    exact absurd (.inr (hleaving.joined (hreturned hmain (by decide) (by decide)))) hjoined
  | destroyServer success hmain =>
    exact hleaving.onward (hreturned hmain (by decide) (by decide)) rfl (by decide)
  | destroyService success hmain =>
    exact hleaving.onward (hreturned hmain (by decide) (by decide)) rfl (by decide)
  | free success owner hmain howner =>
    exact hleaving.onward (hreturned hmain (by decide) (by decide)) rfl (by decide)
  | exit success owner hmain howner =>
    exact hleaving.onward (hreturned hmain (by decide) (by decide)) rfl (by decide)
  | _ => exact { hleaving with }

/-- The destructor of the pool has not returned before the process exits. -/
theorem draining_step (hordered : s.Ordered)
    (hs : s.main = .destroying .threadPool → s.owner.pool.destructor ≠ .returned)
    (h : Moves env s a t) (hmain : t.main = .destroying .threadPool) :
    t.owner.pool.destructor ≠ .returned := by
  have hpool : ∀ {a : ThreadAction} {owner : PoolOwner}, s.owner.poolStep a = some owner →
      a ≠ .join → s.main = .destroying .threadPool → owner.pool.destructor ≠ .returned := by
    intro a owner howner ha hmain hreturned
    obtain ⟨pool, hstep, rfl⟩ := Option.map_eq_some_iff.mp howner
    exact (PoolOwner.returned_pool hstep hreturned).elim (hs hmain) ha
  cases h with
  | free success owner hbefore howner =>
    have hfreed : s.owner.freed = false := hordered.freed.trans (by rw [hbefore]; rfl)
    intro hreturned
    cases PoolOwner.step_moves howner with
    | free hfreed' =>
      have hcalled : s.owner.pool.destructor ≠ .notCalled := by
        rw [show s.owner.pool.destructor = .returned from hreturned]
        decide
      have horder := hordered.settled.order hcalled
      exact absurd (hfreed.symm.trans horder) (by decide)
  | drain success a owner hbefore ha howner =>
    refine hpool howner ?_ hbefore
    rcases ha with rfl | rfl <;> simp
  | enqueue k task tReqId handler owner hcall hhandler hstop howner =>
    exact hpool howner (by simp) hmain
  | pool a owner ha howner =>
    refine hpool howner ?_ hmain
    rintro rfl
    exact Bool.false_ne_true ha
  | report i n task handler owner hn htask hhandler howner =>
    obtain ⟨-, -, -, hsame⟩ := PoolOwner.begun_use howner
    exact fun hreturned => hs hmain (hsame ▸ hreturned)
  | reported i owner howner =>
    obtain ⟨-, hsame⟩ := PoolOwner.begun_leave howner
    exact fun hreturned => hs hmain (hsame ▸ hreturned)
  | finish i owner howner =>
    rw [PoolOwner.step, Option.ite_none_right_eq_some] at howner
    exact hpool howner.2 (by simp) hmain
  | _ => first | exact hs hmain | exact absurd hmain (by simp)

/-- A job has a handler. -/
theorem executable_step (hs : ∀ task ∈ s.jobs, ∃ handler, env.registry task.funcName = some handler)
    (h : Moves env s a t) :
    ∀ task ∈ t.jobs, ∃ handler, env.registry task.funcName = some handler := by
  cases h with
  | enqueue k task tReqId handler owner hcall hhandler hstop howner =>
    intro task' htask'
    rcases List.mem_append.mp htask' with hold | hnew
    · exact hs task' hold
    · rw [List.mem_singleton.mp hnew]
      exact ⟨handler, hhandler⟩
  | _ => exact hs

/-- A process that was told to stop does not start again. -/
theorem heard_step (hordered : s.Ordered) (hs : Signals env s) (h : Moves env s a t)
    (hheard : t.signalled ≠ none) :
    t.running = false ∧ t.main ≠ .launched ∧ t.stop ≠ .notCalled := by
  by_cases hbefore : s.signalled = none
  · cases h with
    | signal hrunning =>
      refine ⟨rfl, fun hmain => ?_, by simp⟩
      exact absurd (hrunning.symm.trans (hordered.launched hmain).2) (by decide)
    | leaveStop success hmain hserver hrunning => exact ⟨rfl, by simp, by simp⟩
    | _ => exact absurd hbefore hheard
  · obtain ⟨hrunning, hlaunched, hcalled⟩ := hs.heard hbefore
    refine ⟨?_, ?_, ?_⟩
    · cases h with
      | signal hrunning' => rfl
      | leaveStop success hmain hserver hrunning' => rfl
      | start success hmain => exact absurd hmain hlaunched
      | _ => exact hrunning
    · cases h <;> first | exact hlaunched | simp
    · cases h <;> first | exact hcalled | simp

/-- The server is built before the worker registers. -/
theorem built_step (hs : s.server = .unbuilt → s.main = .launched ∨ s.main = .binding)
    (h : Moves env s a t) (hserver : t.server = .unbuilt) :
    t.main = .launched ∨ t.main = .binding := by
  have hlate : ∀ {m : NodeMain}, s.main = m → s.server = .unbuilt →
      m = .launched ∨ m = .binding := by
    rintro m rfl
    exact hs
  cases h with
  | shutdown hstop hnull => exact absurd hserver (by simp)
  | down hstop hcalls => exact absurd hserver (by simp)
  | start success hmain => exact .inr rfl
  | bind success hmain hstopped => cases success <;> exact absurd hserver (by simp)
  | registered hmain hstopped => exact absurd (hlate hmain hserver) (by decide)
  | abort hmain hstopped => exact absurd (hlate hmain hserver) (by decide)
  | leaveStop success hmain hdown hrunning => exact absurd (hlate hmain hserver) (by decide)
  | leave success hmain hdown hrunning hstopped =>
    exact absurd (hlate hmain hserver) (by decide)
  | destroy success hmain hstop => exact absurd (hlate hmain hserver) (by decide)
  | destroyThread success hmain hjoined => exact absurd (hlate hmain hserver) (by decide)
  | terminate success hmain hjoined => exact absurd (hlate hmain hserver) (by decide)
  | destroyServer success hmain => exact absurd (hlate hmain hserver) (by decide)
  | destroyService success hmain => exact absurd (hlate hmain hserver) (by decide)
  | free success owner hmain howner => exact absurd (hlate hmain hserver) (by decide)
  | exit success owner hmain howner => exact absurd (hlate hmain hserver) (by decide)
  | _ => exact hs hserver

/-- A server that closes does so in `Shutdown`. -/
theorem closing_step (hordered : s.Ordered) (hs : Signals env s) (h : Moves env s a t)
    (hserver : t.server = .closing) : t.stop = .shuttingDown := by
  cases h with
  | signal hrunning =>
    have hstop := hordered.running hrunning
    exact absurd (hstop.symm.trans (hs.closing hserver)) (by decide)
  | leaveStop success hmain hdown hrunning =>
    have hclosing : s.server = .closing := hserver
    rw [hclosing] at hdown
    exact absurd hdown (by decide)
  | stopNull hstop hnull =>
    have hclosing : s.server = .closing := hserver
    rw [hclosing] at hnull
    exact absurd hnull (by decide)
  | shutdown hstop hnull => rfl
  | down hstop hcalls => exact absurd hserver (by simp)
  | joinNothing hstop hheartbeat => exact absurd (hstop.symm.trans (hs.closing hserver)) (by decide)
  | join hstop hheartbeat => exact absurd (hstop.symm.trans (hs.closing hserver)) (by decide)
  | bind success hmain hstopped => cases success <;> exact absurd hserver (by simp)
  | _ => exact hs.closing hserver

/-- **Step lemma.** -/
theorem signals_step (hordered : s.Ordered) (hs : Signals env s) (h : s.step env a = some t) :
    Signals env t := by
  obtain ⟨-, hmoves⟩ := step_moves h
  refine ⟨?_, heard_step hordered hs hmoves, built_step hs.built hmoves,
    closing_step hordered hs hmoves, draining_step hordered hs.draining hmoves,
    executable_step hs.executable hmoves, ?_, ?_, ?_, ?_⟩
  · intro hunheard
    cases hmoves with
    | signal hrunning => exact absurd hunheard (by simp)
    | leaveStop success hmain hserver hrunning => exact absurd hunheard (by simp)
    | stopNull hstop _ => exact absurd (hstop.symm.trans (hs.unheard hunheard)) (by decide)
    | shutdown hstop _ => exact absurd (hstop.symm.trans (hs.unheard hunheard)) (by decide)
    | down hstop _ => exact absurd (hstop.symm.trans (hs.unheard hunheard)) (by decide)
    | joinNothing hstop _ => exact absurd (hstop.symm.trans (hs.unheard hunheard)) (by decide)
    | join hstop _ => exact absurd (hstop.symm.trans (hs.unheard hunheard)) (by decide)
    | _ => exact hs.unheard hunheard
  · intro honMain m hheard hstarting
    by_cases hbefore : s.signalled = some m
    · exact Unjoined.step hordered hs honMain hbefore hstarting hmoves
    · cases hmoves with
      | signal hrunning =>
        obtain rfl : s.main = m := Option.some.inj hheard
        have hjoined : s.joined = false := Bool.eq_false_iff.mpr fun hjoined =>
          absurd ((hordered.unstarted hstarting).symm.trans (hordered.joined hjoined)) (by decide)
        have hearly : s.main.pastThread = false := pastThread_of_starting hstarting
        exact ⟨hjoined, hearly, fun _ => rfl⟩
      | leaveStop success hmain hserver hrunning =>
        obtain rfl : NodeMain.stopping = m := Option.some.inj hheard
        exact absurd hstarting (by decide)
      | _ => exact absurd hheard hbefore
  · intro honMain hheard
    by_cases hbefore : s.signalled = some .binding
    · exact deaf_step hordered hs honMain hbefore hmoves
    · cases hmoves with
      | signal hrunning =>
        have hmain : s.main = .binding := Option.some.inj hheard
        show s.server ≠ .closing ∧ s.server ≠ .down
        rw [hordered.unbuilt (.inr hmain)]
        decide
      | leaveStop success hmain hserver hrunning =>
        exact absurd (Option.some.inj hheard) (by decide)
      | _ => exact absurd hheard hbefore
  · intro m hheard hm
    by_cases hbefore : s.signalled = some m
    · exact Halted.step hs hbefore hm hmoves
    · cases hmoves with
      | signal hrunning =>
        obtain rfl : s.main = m := Option.some.inj hheard
        refine ⟨hm, fun hserver => ?_, by simp⟩
        have hlaunched := (hs.built hserver).resolve_right hm
        exact absurd (hrunning.symm.trans (hordered.launched hlaunched).2) (by decide)
      | leaveStop success hmain hserver hrunning =>
        refine ⟨by simp, fun hunbuilt => ?_, by simp⟩
        exact absurd (hmain ▸ hs.built hunbuilt) (by decide)
      | _ => exact absurd hheard hbefore
  · intro m hheard hm
    by_cases hbefore : s.signalled = some m
    · exact Leaving.step hordered hs hbefore hm hmoves
    · cases hmoves with
      | signal hrunning =>
        obtain rfl : s.main = m := Option.some.inj hheard
        have hspared : s.main ≠ .terminated := by
          intro hterminated
          rw [hterminated] at hm
          exact hm.elim (fun hm => absurd hm.2 (by decide)) fun hm => absurd hm (by decide)
        exact ⟨.inl rfl, hspared, fun h => absurd rfl h, by simp⟩
      | leaveStop success hmain hserver hrunning =>
        obtain rfl : NodeMain.stopping = m := Option.some.inj hheard
        exact ⟨.inl rfl, by simp, fun h => absurd rfl h, by simp⟩
      | _ => exact absurd hheard hbefore

-- ---------------------------------------------------------------------------
-- How long it takes
-- ---------------------------------------------------------------------------

/-- The steps that the process takes by itself. -/
def Action.own : Action → Bool
  | .stop | .main _ | .heartbeat _ | .handle _ | .report _ | .reported _ | .finish _ => true
  | .pool (.notify _) | .pool (.test _) | .pool (.begin _) | .pool (.clear _) => true
  | _ => false

def phaseWeight : UsePhase → Nat
  | .before => 2
  | .inUse => 1
  | .done => 0

def callWeight : RunTaskPoint → Nat
  | .received _ _ => 10
  | .reporting => 1
  | .returned => 0

def stopWeight : StopPoint → Nat
  | .called => 3
  | .shuttingDown => 2
  | .joining => 1
  | .notCalled | .returned => 0

/-- Of a thread that will find `running_` unset. -/
def heartbeatWeight : HeartbeatPoint → Nat
  | .beating => 4
  | .registering => 3
  | .sleeping => 2
  | .testing => 1
  | .unstarted | .exited => 0

def mainWeight : NodeMain → Nat
  | .binding => 10
  | .registering => 9
  | .awaiting => 7
  | .stopping => 6
  | .destroying .heartbeatThread => 5
  | .destroying .grpcServer => 4
  | .destroying .serviceImpl => 3
  | .destroying .schedulerClient => 2
  | .destroying .threadPool => 1
  | .launched | .exited | .terminated | .aborted => 0

/-- The destructor of a pool; it wakes every thread. -/
def destructorWeight (pool : ThreadPool) : Nat :=
  match pool.destructor with
  | .notCalled => pool.workers.length + 3
  | .stopped => pool.workers.length + 2
  | .joining => 1
  | .returned => 0

def ownerRank (o : PoolOwner) : Nat :=
  o.pool.work + destructorWeight o.pool + (o.phases.map phaseWeight).sum

/-- What a process that was told to stop has before it. -/
def rank (s : NodeProcess) : Nat :=
  ownerRank s.owner + (s.calls.map callWeight).sum + stopWeight s.stop +
    heartbeatWeight s.heartbeat + mainWeight s.main

/-- The pool goes on. -/
theorem ownerRank_internal {o o' : PoolOwner} {a : ThreadAction} (ha : a.Internal)
    (h : o.poolStep a = some o') : ownerRank o' < ownerRank o := by
  have hnext : o'.pool.nextId = o.pool.nextId ∧ o'.pool.destructor = o.pool.destructor := by
    obtain ⟨pool, hpool, rfl⟩ := Option.map_eq_some_iff.mp h
    cases ThreadPool.step_moves hpool <;> first | exact ⟨rfl, rfl⟩ | exact ha.elim
  obtain ⟨pool, hpool, rfl⟩ := Option.map_eq_some_iff.mp h
  have hwork := ThreadPool.work_step ha hpool
  have hlength := ThreadPool.length_step hpool
  dsimp only at hnext
  have hdestructor : destructorWeight pool = destructorWeight o.pool := by
    rw [destructorWeight, destructorWeight, hnext.2, hlength]
  simp only [ownerRank, hnext.1, Nat.sub_self, List.replicate_zero, List.append_nil, hdestructor]
  omega

/-- The destructor of the pool goes on. -/
theorem ownerRank_destroy {o o' : PoolOwner} {a : ThreadAction}
    (ha : a = .stop ∨ a = .notifyAll ∨ a = .join) (h : o.poolStep a = some o') :
    ownerRank o' < ownerRank o := by
  obtain ⟨pool, hpool, rfl⟩ := Option.map_eq_some_iff.mp h
  have hwake : ∀ workers : List PoolThread,
      ((workers.map ThreadPool.wakeUp).map PoolThread.weight).sum ≤
        (workers.map PoolThread.weight).sum + workers.length := by
    intro workers
    induction workers with
    | nil => exact Nat.le_refl _
    | cons th workers ih =>
      have hone : (ThreadPool.wakeUp th).weight ≤ th.weight + 1 := by
        obtain ⟨point, tReqId⟩ := th
        cases point <;> simp [ThreadPool.wakeUp, PoolThread.weight]
      simp only [List.map_cons, List.sum_cons, List.length_cons]
      omega
  cases ThreadPool.step_moves hpool with
  | stop hdestructor =>
    simp only [ownerRank, ThreadPool.work, destructorWeight, hdestructor, Nat.sub_self,
      List.replicate_zero, List.append_nil]
    omega
  | notifyAll hdestructor =>
    have hle := hwake o.pool.workers
    simp only [ownerRank, ThreadPool.work, destructorWeight, hdestructor, Nat.sub_self,
      List.replicate_zero, List.append_nil]
    omega
  | join hdestructor hexited =>
    simp only [ownerRank, ThreadPool.work, destructorWeight, hdestructor, Nat.sub_self,
      List.replicate_zero, List.append_nil]
    omega
  | _ => exact absurd ha (by simp)

/-- A job comes in. -/
theorem ownerRank_enqueue {o o' : PoolOwner} {tReqId : String} (hstop : o.pool.stop = false)
    (h : o.poolStep (.enqueue (.outside tReqId)) = some o') : ownerRank o' = ownerRank o + 8 := by
  obtain ⟨pool, hpool, rfl⟩ := Option.map_eq_some_iff.mp h
  cases ThreadPool.step_moves hpool with
  | refuse caller tReqId hcaller hstopped => exact absurd (hstop.symm.trans hstopped) (by decide)
  | accept caller tReqId' hcaller hstop' =>
    have hone : o.pool.nextId + 1 - o.pool.nextId = 1 := by omega
    simp only [ownerRank, ThreadPool.work, destructorWeight, hone, List.replicate_one,
      List.map_append, List.map_cons, List.map_nil, List.sum_append, List.sum_cons, List.sum_nil,
      List.length_append, List.length_singleton, phaseWeight]
    omega

/-- A job goes on. -/
theorem ownerRank_setPhase {o : PoolOwner} {n : Nat} {phase phase' : UsePhase}
    (hphase : o.phases[n]? = some phase) (hless : phaseWeight phase' < phaseWeight phase) :
    ownerRank (o.setPhase n phase') < ownerRank o := by
  have hsum := Parties.sum_set (x := phase') phaseWeight hphase
  simp only [ownerRank, PoolOwner.setPhase]
  omega

theorem internal_of_own {a : ThreadAction} (ha : (Action.pool a).own = true) : a.Internal := by
  cases a <;> trivial

/-- **Step lemma.** A step of the process itself brings its end nearer. -/
theorem rank_step (hs : Signals env s) (hheard : s.signalled ≠ none) (ha : a.own = true)
    (h : s.step env a = some t) : t.rank < s.rank := by
  obtain ⟨hrunning, hlaunched, -⟩ := hs.heard hheard
  obtain ⟨-, hmoves⟩ := step_moves h
  cases hmoves with
  | ignore hrunning' => exact absurd ha Bool.false_ne_true
  | signal hrunning' => exact absurd ha Bool.false_ne_true
  | turnAway request tReqId hserver => exact absurd ha Bool.false_ne_true
  | arrive request tReqId task hserver htask => exact absurd ha Bool.false_ne_true
  | start success hmain => exact absurd hmain hlaunched
  | stopNull hstop hserver => simp [rank, hstop, stopWeight]
  | shutdown hstop hserver => simp [rank, hstop, stopWeight]
  | down hstop hcalls => simp [rank, hstop, stopWeight]
  | joinNothing hstop hheartbeat => simp [rank, hstop, stopWeight]
  | join hstop hheartbeat => simp [rank, hstop, stopWeight]
  | bind success hmain hfree => simp [rank, hmain, mainWeight]
  | registered hmain hfree =>
    simp only [rank, hmain, mainWeight, heartbeatWeight]
    omega
  | abort hmain hfree => simp [rank, hmain, mainWeight]
  | leaveStop success hmain hserver hrunning' =>
    exact absurd (hrunning.symm.trans hrunning') (by decide)
  | leave success hmain hserver hrunning' hfree => simp [rank, hmain, mainWeight]
  | destroy success hmain hstop => simp [rank, hmain, mainWeight]
  | destroyThread success hmain hjoined => simp [rank, hmain, mainWeight]
  | terminate success hmain hjoined => simp [rank, hmain, mainWeight]
  | destroyServer success hmain => simp [rank, hmain, mainWeight]
  | destroyService success hmain => simp [rank, hmain, mainWeight]
  | free success owner hmain howner =>
    have hsame : ownerRank owner = ownerRank s.owner := by
      cases PoolOwner.step_moves howner with
      | free hfreed => rfl
    simp [rank, hmain, mainWeight, hsame]
  | drain success a owner hmain hdestroy howner =>
    have hless := ownerRank_destroy (hdestroy.imp_right .inl) howner
    simp only [rank]
    omega
  | exit success owner hmain howner =>
    have hless := ownerRank_destroy (.inr (.inr rfl)) howner
    simp only [rank, hmain, mainWeight]
    omega
  | test success hheartbeat => simp [rank, hheartbeat, hrunning, heartbeatWeight]
  | beat success hheartbeat => cases success <;> simp [rank, hheartbeat, heartbeatWeight]
  | registerAgain success hheartbeat => simp [rank, hheartbeat, heartbeatWeight]
  | wake success hheartbeat => simp [rank, hheartbeat, heartbeatWeight]
  | refuse k task tReqId hcall hhandler =>
    have hsum := Parties.sum_set (x := .reporting) callWeight hcall
    simp only [callWeight] at hsum
    simp only [rank]
    omega
  | stopped k task tReqId request hcall hstop =>
    have hsum := Parties.sum_set (x := .reporting) callWeight hcall
    simp only [callWeight] at hsum
    simp only [rank]
    omega
  | enqueue k task tReqId handler owner hcall hhandler hstop howner =>
    have hsum := Parties.sum_set (x := .returned) callWeight hcall
    have hmore := ownerRank_enqueue hstop howner
    simp only [callWeight] at hsum
    simp only [rank]
    omega
  | answer k hcall =>
    have hsum := Parties.sum_set (x := .returned) callWeight hcall
    simp only [callWeight] at hsum
    simp only [rank]
    omega
  | pool a owner hthreads howner =>
    have hless := ownerRank_internal (internal_of_own ha) howner
    simp only [rank]
    omega
  | report i n task handler owner hn htask hhandler howner =>
    have hless : ownerRank owner < ownerRank s.owner := by
      cases PoolOwner.step_moves howner with
      | use i n hn hphase => exact ownerRank_setPhase hphase (by decide)
    simp only [rank]
    omega
  | reported i owner howner =>
    have hless : ownerRank owner < ownerRank s.owner := by
      cases PoolOwner.step_moves howner with
      | leave i n hn hphase => exact ownerRank_setPhase hphase (by decide)
    simp only [rank]
    omega
  | finish i owner howner =>
    rw [PoolOwner.step, Option.ite_none_right_eq_some] at howner
    have hinternal : (ThreadAction.finish i .value).Internal := trivial
    have hless := ownerRank_internal hinternal howner.2
    simp only [rank]
    omega

/-- The process itself does not forget the signal. -/
theorem signalled_own (hs : Signals env s) (hheard : s.signalled ≠ none) (ha : a.own = true)
    (h : s.step env a = some t) : t.signalled = s.signalled := by
  obtain ⟨-, hmoves⟩ := step_moves h
  cases hmoves with
  | signal hrunning => exact absurd ha Bool.false_ne_true
  | leaveStop success hmain hserver hrunning =>
    exact absurd ((hs.heard hheard).1.symm.trans hrunning) (by decide)
  | _ => rfl

/-- A process that was told to stop comes to rest after that many steps of its own. -/
theorem own_length (hordered : s.Ordered) (hs : Signals env s) (hheard : s.signalled ≠ none)
    (hown : ∀ a ∈ actions, a.own = true) (hrun : run (step env) s actions = some t) :
    actions.length ≤ s.rank := by
  induction actions generalizing s with
  | nil => exact Nat.zero_le _
  | cons a actions ih =>
    obtain ⟨u, hstep, hrest⟩ := run_cons.mp hrun
    have ha := hown a List.mem_cons_self
    have hlt := rank_step hs hheard ha hstep
    have hle := ih (ordered_step hordered hstep) (signals_step hordered hs hstep)
      (by rw [signalled_own hs hheard ha hstep]; exact hheard)
      (fun b hb => hown b (List.mem_cons_of_mem a hb)) hrest
    rw [List.length_cons]
    omega

-- ---------------------------------------------------------------------------
-- Where it ends
-- ---------------------------------------------------------------------------

/-- The process does nothing more by itself. -/
def Resting (env : NodeEnv) (s : NodeProcess) : Prop :=
  ∀ a : Action, a.own = true → s.step env a = none

theorem step_eq (hended : s.ended = false) : s.step env a = s.act env a := by
  rw [step, hended, if_neg Bool.false_ne_true]

/-- The calls of a process at rest have returned. -/
theorem Resting.calls (h : Resting env s) (hended : s.ended = false) :
    s.calls.all RunTaskPoint.isReturned = true := by
  rw [List.all_eq_true]
  intro call hcall
  obtain ⟨k, hk⟩ := List.mem_iff_getElem?.mp hcall
  have hnone := h (.handle k) rfl
  rw [step_eq hended, act] at hnone
  cases call with
  | returned => rfl
  | reporting =>
    simp only [handleStep, hk] at hnone
    cases hnone
  | received task tReqId =>
    simp only [handleStep, hk, onTaskReceived] at hnone
    split at hnone
    · cases hnone
    · -- `enqueue` never blocks
      rw [Option.map_eq_none_iff, PoolOwner.poolStep, Option.map_eq_none_iff] at hnone
      simp only [ThreadPool.step, ThreadPool.reqIdOf] at hnone
      split at hnone <;> cases hnone

/-- `Stop` has returned. -/
theorem Resting.stop (h : Resting env s) (hended : s.ended = false)
    (hcalled : s.stop ≠ .notCalled) : s.stop = .returned := by
  have hnone := h .stop rfl
  rw [step_eq hended, act, stopStep] at hnone
  cases hstop : s.stop with
  | notCalled => exact absurd hstop hcalled
  | called =>
    rw [hstop] at hnone
    cases hnone
  | shuttingDown =>
    rw [hstop] at hnone
    dsimp only at hnone
    rw [if_pos (h.calls hended)] at hnone
    cases hnone
  | joining =>
    have hbeat := h (.heartbeat true) rfl
    rw [step_eq hended, act, heartbeatStep] at hbeat
    rw [hstop] at hnone
    -- the heartbeat thread goes on, or there is nothing to wait for
    cases hheartbeat : s.heartbeat with
    | unstarted =>
      rw [hheartbeat] at hnone
      cases hnone
    | exited =>
      rw [hheartbeat] at hnone
      cases hnone
    | _ =>
      rw [hheartbeat] at hbeat
      cases hbeat
  | returned => rfl

/-- The callable of a thread was enqueued. -/
theorem callable_lt {o : PoolOwner} {i n : Nat} (hs : o.Settled)
    (hn : o.pool.callable? i = some n) : n < o.pool.nextId := by
  have hmem : n ∈ o.pool.workers.filterMap PoolThread.running? := by
    rw [ThreadPool.callable?] at hn
    split at hn
    · next task tReqId hthread =>
      obtain rfl := Option.some.inj hn
      exact List.mem_filterMap.mpr ⟨_, List.mem_of_getElem? hthread, rfl⟩
    · cases hn
  have hstarted := hs.accounted.started.mem_iff.mpr (List.mem_append_left _ hmem)
  obtain ⟨call, hcall, rfl⟩ := List.mem_map.mp hstarted
  have htaken := hs.accounted.taken.mem_iff.mpr (List.mem_append_right _ hcall)
  have haccepted : call ∈ o.pool.accepted := by
    rw [hs.accounted.fifo]
    exact List.mem_append_left _ htaken
  have hnumber := List.mem_map_of_mem (f := Prod.fst) haccepted
  rw [hs.accounted.numbered] at hnumber
  exact List.mem_range.mp hnumber

/-- No job is being executed. -/
theorem Resting.idle (h : Resting env s) (hended : s.ended = false) (hordered : s.Ordered)
    (hbooked : Booked env s) (hs : Signals env s) (i : Nat) :
    s.owner.pool.callable? i = none := by
  by_contra hsome
  obtain ⟨n, hn⟩ := Option.ne_none_iff_exists'.mp hsome
  have hlt := callable_lt hordered.settled hn
  obtain ⟨phase, hphase⟩ : ∃ phase, s.owner.phases[n]? = some phase :=
    ⟨_, List.getElem?_eq_getElem (hlt.trans_eq hordered.settled.phased.symm)⟩
  cases phase with
  | before =>
    obtain ⟨task, htask⟩ : ∃ task, s.jobs[n]? = some task :=
      ⟨_, List.getElem?_eq_getElem (hlt.trans_eq hbooked.counted.symm)⟩
    obtain ⟨handler, hhandler⟩ := hs.executable task (List.mem_of_getElem? htask)
    have hnone := h (.report i) rfl
    rw [step_eq hended, act] at hnone
    simp [reportStep, hn, htask, hhandler, PoolOwner.step, hphase] at hnone
  | inUse =>
    have hnone := h (.reported i) rfl
    rw [step_eq hended, act] at hnone
    simp [PoolOwner.step, hn, hphase] at hnone
  | done =>
    have hnone := h (.finish i) rfl
    rw [step_eq hended, act] at hnone
    rw [ThreadPool.callable?] at hn
    split at hn
    · next task tReqId hthread =>
      obtain rfl := Option.some.inj hn
      simp [PoolOwner.step, PoolOwner.allows, PoolOwner.poolStep, ThreadPool.callable?, hthread,
        hphase, ThreadPool.step] at hnone
    · cases hn

/-- The pool is quiet. -/
theorem Resting.quiet (h : Resting env s) (hended : s.ended = false) (hordered : s.Ordered)
    (hbooked : Booked env s) (hs : Signals env s) : s.owner.pool.Quiet := by
  have hpool : ∀ a, ofThreads a = true → (Action.pool a).own = true →
      s.owner.pool.step a = none := by
    intro a hthreads hown
    have hnone := h (.pool a) hown
    rw [step_eq hended, act, if_pos hthreads, Option.map_eq_none_iff, PoolOwner.poolStep,
      Option.map_eq_none_iff] at hnone
    exact hnone
  intro a ha
  cases a with
  | notify woken => exact hpool _ rfl rfl
  | test i => exact hpool _ rfl rfl
  | begin i => exact hpool _ rfl rfl
  | clear i => exact hpool _ rfl rfl
  | finish i ending =>
    have hidle := h.idle hended hordered hbooked hs i
    cases hstep : s.owner.pool.step (.finish i ending) with
    | none => rfl
    | some pool =>
      cases ThreadPool.step_moves hstep with
      | finish i ending tReqId task hthread =>
        rw [ThreadPool.callable?, hthread] at hidle
        cases hidle
  | _ => exact ha.elim

/-- A process at rest that was told to stop is gone, or waits for a server that nobody
shuts down. -/
theorem Resting.over (h : Resting env s) (hordered : s.Ordered) (hbooked : Booked env s)
    (hs : Signals env s) (hheard : s.signalled ≠ none) :
    s.ended = true ∨ s.main = .awaiting ∧ s.server = .serving ∧ s.stop = .returned := by
  by_cases hended : s.ended = true
  · exact .inl hended
  · have hended : s.ended = false := Bool.eq_false_iff.mpr hended
    obtain ⟨-, hlaunched, hcalled⟩ := hs.heard hheard
    have hstop := h.stop hended hcalled
    have hfree : (env.onMain && s.interrupted) = false := by
      rw [interrupted, hstop]
      exact Bool.and_false _
    have hmain : ∀ success, s.mainStep success = none := by
      intro success
      have hnone := h (.main success) rfl
      rw [step_eq hended, act, hfree, if_neg Bool.false_ne_true] at hnone
      exact hnone
    have hstep := hmain true
    rw [mainStep] at hstep
    refine .inr ?_
    cases hpoint : s.main with
    | launched => exact absurd hpoint hlaunched
    | awaiting =>
      rw [hpoint] at hstep
      have hup : s.server.isUp = true := by
        by_contra hdown
        dsimp only at hstep
        rw [if_neg hdown] at hstep
        cases hstep
      refine ⟨rfl, ?_, hstop⟩
      cases hserver : s.server with
      | serving => rfl
      | closing => exact absurd (hstop.symm.trans (hs.closing hserver)) (by decide)
      | _ => exact absurd (hserver ▸ hup) (by decide)
    | stopping =>
      rw [hpoint] at hstep
      dsimp only at hstep
      rw [if_pos hstop] at hstep
      cases hstep
    | destroying member =>
      rw [hpoint] at hstep
      cases member with
      | heartbeatThread =>
        simp only [destroyStep] at hstep
        split at hstep <;> cases hstep
      | grpcServer => cases hstep
      | serviceImpl => cases hstep
      | schedulerClient =>
        have hfreed : s.owner.freed = false := hordered.freed.trans (by rw [hpoint]; rfl)
        simp [destroyStep, PoolOwner.step, hfreed] at hstep
      | threadPool =>
        simp only [destroyStep, destroyPool] at hstep
        have hexited := hordered.settled.awake.allExited (h.quiet hended hordered hbooked hs)
        have hreturned := hs.draining hpoint
        cases hdestructor : s.owner.pool.destructor with
        | notCalled => simp [hdestructor, PoolOwner.poolStep, ThreadPool.step] at hstep
        | stopped => simp [hdestructor, PoolOwner.poolStep, ThreadPool.step] at hstep
        | joining =>
          have hall := hexited hdestructor
          have hjoin : s.owner.pool.step .join =
              some { s.owner.pool with destructor := .returned } := if_pos ⟨hdestructor, hall⟩
          simp [hdestructor, PoolOwner.poolStep, hjoin] at hstep
        | returned => exact absurd hdestructor hreturned
    | exited => exact absurd hended (by rw [ended, hpoint]; decide)
    | terminated => exact absurd hended (by rw [ended, hpoint]; decide)
    | aborted => exact absurd hended (by rw [ended, hpoint]; decide)
    | _ =>
      rw [hpoint] at hstep
      cases hstep

/-- What becomes of a process that was told to stop. -/
structure Fate (env : NodeEnv) (s : NodeProcess) : Prop where
  /-- left to itself it comes to rest -/
  bounded : s.signalled ≠ none → ∀ more t, (∀ a ∈ more, Action.own a = true) →
    run (step env) s more = some t → more.length ≤ s.rank
  /-- gone, or in `Await` -/
  atRest : s.signalled ≠ none → Resting env s →
    s.ended = true ∨ s.main = .awaiting ∧ s.server = .serving ∧ s.stop = .returned
  /-- before the server is built, a signal handled on the main thread is heard by nobody: the
  destructor never begins, unless there is no server to wait for -/
  deaf : env.onMain = true → s.signalled = some .binding → s.server ≠ .failed →
    s.main.destructing = false ∧ (Resting env s → s.main = .awaiting ∨ s.main = .aborted)
  /-- then, as when it is handled while the worker registers, the process ends by
  `std::terminate` -/
  terminates : env.onMain = true → s.signalled = some .registering ∨
    s.signalled = some .binding ∧ s.server = .failed →
    s.main.pastThread = false ∧ (Resting env s → s.main = .terminated ∨ s.main = .aborted)
  /-- a signal handled in `Await` makes it exit, and so does the `Stop` of the destructor -/
  exits : ∀ m, s.signalled = some m → JoinsFirst env m →
    s.main ≠ .terminated ∧ (Resting env s → s.main = .exited)

theorem signals_launch (env : NodeEnv) (threads : Nat) : Signals env (launch threads) where
  unheard := fun _ => rfl
  heard := fun h => absurd rfl h
  built := fun _ => .inl rfl
  closing := fun h => absurd (show NodeServer.unbuilt = .closing from h) (by decide)
  draining := fun h => absurd (show NodeMain.launched = .destroying .threadPool from h) (by decide)
  executable := fun task htask => absurd htask List.not_mem_nil
  unjoined := fun _ m h => absurd (show none = some m from h) (by simp)
  deaf := fun _ h => absurd (show none = some NodeMain.binding from h) (by decide)
  halted := fun m h => absurd (show none = some m from h) (by simp)
  leaving := fun m h => absurd (show none = some m from h) (by simp)

theorem reached_signals {threads : Nat} (hthreads : 0 < threads)
    (hrun : run (step env) (launch threads) actions = some s) : s.Ordered ∧ Signals env s :=
  run_invariant (P := fun u => u.Ordered ∧ Signals env u)
    (fun _ _ _ hu hstep => ⟨ordered_step hu.1 hstep, signals_step hu.1 hu.2 hstep⟩) hrun
    ⟨ordered_launch hthreads, signals_launch env threads⟩

theorem ended_cases (h : s.ended = true) :
    s.main = .exited ∨ s.main = .terminated ∨ s.main = .aborted := by
  simpa [ended, or_assoc] using h

theorem JoinsFirst.ne {m m' : NodeMain} (h : JoinsFirst env m) (hawaiting : m' ≠ .awaiting)
    (hstopping : m' ≠ .stopping) : m ≠ m' := by
  rintro rfl
  exact h.elim (fun h => hawaiting h.2) hstopping

/-- **What a signal does to a worker process.** In every run. -/
theorem worker_fate {threads : Nat} (hthreads : 0 < threads)
    (hrun : run (step env) (launch threads) actions = some s) : Fate env s := by
  obtain ⟨hordered, hbooked⟩ := reached hthreads hrun
  obtain ⟨-, hs⟩ := reached_signals hthreads hrun
  refine ⟨fun hheard more t hown hmore => own_length hordered hs hheard hown hmore,
    fun hheard hrest => hrest.over hordered hbooked hs hheard, ?_, ?_, ?_⟩
  · intro honMain hheard hbuilt
    obtain ⟨hclosing, hdown⟩ := hs.deaf honMain hheard
    have hearly : s.main.destructing = false := by
      rw [Bool.eq_false_iff]
      intro hdestructing
      have hserver := hordered.alone hdestructing
      cases hpoint : s.server with
      | unbuilt =>
        rcases hs.built hpoint with hmain | hmain
        · exact absurd hdestructing (by rw [hmain]; decide)
        · exact absurd hdestructing (by rw [hmain]; decide)
      | failed => exact hbuilt hpoint
      | serving => exact absurd (hpoint ▸ hserver) (by decide)
      | closing => exact hclosing hpoint
      | down => exact hdown hpoint
    refine ⟨hearly, fun hrest => ?_⟩
    rcases hrest.over hordered hbooked hs (by rw [hheard]; decide) with hended | ⟨hmain, -⟩
    · rcases ended_cases hended with hmain | hmain | hmain
      · exact absurd hearly (by rw [hmain]; decide)
      · exact absurd hearly (by rw [hmain]; decide)
      · exact .inr hmain
    · exact .inl hmain
  · intro honMain hearly
    obtain ⟨m, hheard, hstarting⟩ : ∃ m, s.signalled = some m ∧ m.starting = true := by
      rcases hearly with hheard | ⟨hheard, -⟩
      · exact ⟨_, hheard, rfl⟩
      · exact ⟨_, hheard, rfl⟩
    have hunjoined := hs.unjoined honMain m hheard hstarting
    refine ⟨hunjoined.before, fun hrest => ?_⟩
    rcases hrest.over hordered hbooked hs (by rw [hheard]; simp) with
      hended | ⟨-, hserving, hstop⟩
    · rcases ended_cases hended with hmain | hmain | hmain
      · exact absurd hunjoined.before (by rw [hmain]; decide)
      · exact .inl hmain
      · exact .inr hmain
    · rcases hearly with hheard | ⟨-, hfailed⟩
      · have hdown := (hs.halted _ hheard (by decide)).down (.inr hstop)
        exact absurd (hserving ▸ hdown) (by decide)
      · exact absurd (hserving.symm.trans hfailed) (by decide)
  · intro m hheard hm
    have hleaving := hs.leaving m hheard hm
    refine ⟨hleaving.spared, fun hrest => ?_⟩
    rcases hrest.over hordered hbooked hs (by rw [hheard]; simp) with
      hended | ⟨-, hserving, hstop⟩
    · rcases ended_cases hended with hmain | hmain | hmain
      · exact hmain
      · exact absurd hmain hleaving.spared
      · rcases hmain ▸ hleaving.main with haborted | hdestructing
        · exact absurd haborted.symm (hm.ne (by decide) (by decide))
        · exact absurd hdestructing (by decide)
    · have hdown := (hs.halted m hheard (hm.ne (by decide) (by decide))).down (.inr hstop)
      exact absurd (hserving ▸ hdown) (by decide)

/-- A signal while the worker registers: the server is shut down, there is no thread to
join, and the main thread goes on. -/
def signalInStart : List Action :=
  [.main true, .main true, .signal, .stop, .stop, .stop, .main true, .heartbeat true, .main true,
    .main true]

/-- It ends the process. -/
theorem worker_fate_registering : ∃ s, run (step echoNode) (launch 1) signalInStart = some s ∧
    s.signalled = some .registering ∧ s.main = .terminated ∧ Fate echoNode s := by
  have hend : ((run (step echoNode) (launch 1) signalInStart).any fun s =>
      s.signalled = some .registering ∧ s.main = .terminated) = true := by
    decide
  obtain ⟨s, hrun, hs⟩ := (Option.any_eq_true _ _).mp hend
  obtain ⟨hheard, hmain⟩ := of_decide_eq_true hs
  exact ⟨s, hrun, hheard, hmain, worker_fate Nat.one_pos hrun⟩

-- Without a server the destructor calls `Stop`, and the process exits.
example : (run (step echoNode) (launch 1) [.main true, .main false, .main true, .heartbeat true,
    .main true, .stop, .heartbeat true, .heartbeat true, .heartbeat true, .stop, .main true,
    .main true, .main true, .main true, .main true, .main true, .main true, .pool (.test 0),
    .main true]).map (fun s => (s.server, s.signalled, s.main)) =
    some (.failed, some .stopping, .exited) := by
  decide

end NodeProcess

end DistTaskSystem
