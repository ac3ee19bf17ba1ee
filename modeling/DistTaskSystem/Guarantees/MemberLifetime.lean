import DistTaskSystem.Common.PoolOwner
import DistTaskSystem.Guarantees.ThreadPool

/-!
# DTS — what a pool uses after its owner gave it up

When the destructor of the pool has returned, every callable has run, those too that were
queued when the other member was destroyed. So each of them that was not done with the
member has then used what was not there any more, and no other has.

## Results

* `settled_step` — what every step keeps.
* `Settled.drained` — what is known when the destructor of the pool has returned.
-/

namespace DistTaskSystem

namespace PoolOwner

open Runs

variable {s t : PoolOwner} {a : OwnerAction} {n : Nat}

/-- How the callables stand with the member. -/
structure Settled (s : PoolOwner) : Prop where
  accounted : s.pool.Accounted
  awake : s.pool.Awake
  threads : 0 < s.pool.workers.length
  phased : s.phases.length = s.pool.nextId
  /-- a callable that has ended was done before -/
  ended : ∀ n ∈ s.pool.ended.map Prod.fst, s.phases[n]? = some .done
  /-- the member goes before the pool -/
  order : s.pool.destructor ≠ .notCalled → s.freed = true
  untouched : s.freed = false → s.left = [] ∧ s.dangling = []
  /-- nobody is late who was not late when the member went -/
  late : s.freed = true → ∀ n phase, s.phases[n]? = some phase → phase ≠ .done → n ∈ s.left
  /-- what is late and has moved on has touched the member -/
  touched : ∀ n ∈ s.left, s.phases[n]? = some .before ∨ n ∈ s.dangling
  known : ∀ n ∈ s.left, n < s.phases.length
  dangles : ∀ n ∈ s.dangling, n ∈ s.left
  nodup : s.left.Nodup ∧ s.dangling.Nodup

-- ---------------------------------------------------------------------------
-- Before and after a phase
-- ---------------------------------------------------------------------------

theorem mem_numbered {p : UsePhase → Bool} :
    n ∈ s.numbered p ↔ ∃ phase, s.phases[n]? = some phase ∧ p phase = true := by
  rw [numbered, List.mem_filter, List.mem_range, Option.any_eq_true]
  constructor
  · rintro ⟨-, phase, hphase, hp⟩
    exact ⟨phase, hphase, hp⟩
  · rintro ⟨phase, hphase, hp⟩
    exact ⟨(List.getElem?_eq_some_iff.mp hphase).1, phase, hphase, hp⟩

theorem numbered_nodup (p : UsePhase → Bool) : (s.numbered p).Nodup :=
  List.nodup_range.filter _

/-- A callable that goes on has not ended. -/
theorem Settled.unended {phase : UsePhase} (hs : s.Settled) (hphase : s.phases[n]? = some phase)
    (hdone : phase ≠ .done) : n ∉ s.pool.ended.map Prod.fst := by
  intro hn
  exact hdone (Option.some.inj (hphase.symm.trans (hs.ended n hn)))

/-- Another callable than the one that goes on. -/
theorem phases_set {phase phase' : UsePhase} {m : Nat}
    (h : (s.setPhase n phase).phases[m]? = some phase') :
    m = n ∧ phase' = phase ∨ m ≠ n ∧ s.phases[m]? = some phase' := by
  by_cases hm : m = n
  · subst hm
    have hlt : m < (s.phases.set m phase).length := (List.getElem?_eq_some_iff.mp h).1
    rw [List.length_set] at hlt
    rw [setPhase, List.getElem?_set_self hlt] at h
    exact .inl ⟨rfl, (Option.some.inj h).symm⟩
  · rw [setPhase, List.getElem?_set_ne (Ne.symm hm)] at h
    exact .inr ⟨hm, h⟩

theorem phases_other {phase : UsePhase} {m : Nat} (hm : m ≠ n) :
    (s.setPhase n phase).phases[m]? = s.phases[m]? :=
  List.getElem?_set_ne (Ne.symm hm)

/-- The callables that have begun to use the member. -/
def begun (s : PoolOwner) : List Nat := s.numbered fun phase => phase ≠ .before

theorem mem_begun : n ∈ s.begun ↔ ∃ phase, s.phases[n]? = some phase ∧ phase ≠ .before := by
  simp only [begun, mem_numbered, ne_eq, decide_not, Bool.not_eq_true', decide_eq_false_iff_not]

theorem begun_perm (h : ∀ n, n ∈ t.begun ↔ n ∈ s.begun) : t.begun.Perm s.begun :=
  (List.perm_ext_iff_of_nodup (numbered_nodup _) (numbered_nodup _)).mpr h

/-- A callable begins to use the member. -/
theorem begun_use {i : Nat} (h : s.step (.use i) = some t) :
    ∃ n, s.pool.callable? i = some n ∧ t.begun.Perm (n :: s.begun) ∧ t.pool = s.pool := by
  cases step_moves h with
  | use i n hn hphase =>
    refine ⟨n, hn, ?_, rfl⟩
    have hnew : n ∉ s.begun := by
      intro hmem
      obtain ⟨phase, hphase', hbefore⟩ := mem_begun.mp hmem
      exact hbefore (Option.some.inj (hphase'.symm.trans hphase))
    refine (List.perm_ext_iff_of_nodup (numbered_nodup _)
      (List.nodup_cons.mpr ⟨hnew, numbered_nodup _⟩)).mpr fun m => ?_
    show m ∈ ((s.setPhase n .inUse).touch n).begun ↔ m ∈ n :: s.begun
    rw [List.mem_cons, mem_begun, mem_begun]
    constructor
    · rintro ⟨phase, hm, hbefore⟩
      rcases phases_set hm with ⟨rfl, -⟩ | ⟨-, hother⟩
      · exact .inl rfl
      · exact .inr ⟨phase, hother, hbefore⟩
    · rintro (rfl | ⟨phase, hm, hbefore⟩)
      · refine ⟨.inUse, ?_, by decide⟩
        exact List.getElem?_set_self (List.getElem?_eq_some_iff.mp hphase).1
      · refine ⟨phase, (phases_other ?_).trans hm, hbefore⟩
        rintro rfl
        exact hbefore (Option.some.inj (hm.symm.trans hphase))

/-- It is done with it. -/
theorem begun_leave {i : Nat} (h : s.step (.leave i) = some t) :
    t.begun.Perm s.begun ∧ t.pool = s.pool := by
  cases step_moves h with
  | leave i n hn hphase =>
    refine ⟨begun_perm fun m => ?_, rfl⟩
    rw [mem_begun, mem_begun]
    constructor
    · rintro ⟨phase, hm, hbefore⟩
      rcases phases_set hm with ⟨rfl, -⟩ | ⟨-, hother⟩
      · exact ⟨.inUse, hphase, by decide⟩
      · exact ⟨phase, hother, hbefore⟩
    · rintro ⟨phase, hm, hbefore⟩
      by_cases hne : m = n
      · subst hne
        exact ⟨.done, List.getElem?_set_self (List.getElem?_eq_some_iff.mp hphase).1, by decide⟩
      · exact ⟨phase, (phases_other hne).trans hm, hbefore⟩

/-- The pool moves. -/
theorem begun_pool {a : ThreadAction} (h : s.poolStep a = some t) : t.begun.Perm s.begun := by
  obtain ⟨pool, hpool, rfl⟩ := Option.map_eq_some_iff.mp h
  refine begun_perm fun m => ?_
  rw [mem_begun, mem_begun]
  constructor
  · rintro ⟨phase, hm, hbefore⟩
    rcases Nat.lt_or_ge m s.phases.length with hlt | hge
    · exact ⟨phase, (List.getElem?_append_left hlt).symm.trans hm, hbefore⟩
    · -- the callable is new
      dsimp only at hm
      rw [List.getElem?_append_right hge, List.getElem?_replicate] at hm
      rw [Option.ite_none_right_eq_some] at hm
      exact absurd (Option.some.inj hm.2).symm hbefore
  · rintro ⟨phase, hm, hbefore⟩
    refine ⟨phase, ?_, hbefore⟩
    exact (List.getElem?_append_left (List.getElem?_eq_some_iff.mp hm).1).trans hm

-- ---------------------------------------------------------------------------
-- The steps
-- ---------------------------------------------------------------------------

/-- A step of the pool. -/
theorem Settled.pool {a : ThreadAction} {pool : ThreadPool} (hs : s.Settled)
    (hallows : s.allows a = true) (hpool : s.pool.step a = some pool) :
    Settled { s with
      pool := pool
      phases := s.phases ++ List.replicate (pool.nextId - s.pool.nextId) .before } := by
  obtain ⟨hnext, hended, hdestructor⟩ := pool_effect hpool
  have hold : ∀ (n : Nat) (phase : UsePhase), s.phases[n]? = some phase →
      (s.phases ++ List.replicate (pool.nextId - s.pool.nextId) .before)[n]? = some phase := by
    intro n phase hphase
    rw [List.getElem?_append_left (List.getElem?_eq_some_iff.mp hphase).1]
    exact hphase
  -- nothing is enqueued once the member is gone
  have hgrown : s.freed = true → pool.nextId = s.pool.nextId := by
    intro hfreed
    rcases hnext with hsame | ⟨-, caller, rfl⟩
    · exact hsame
    · cases caller with
      | outside tReqId =>
        rw [allows, hfreed] at hallows
        exact absurd hallows (by decide)
      | inside i => exact absurd hallows (by rw [allows]; decide)
  refine ⟨ThreadPool.accounted_step hs.accounted hpool, ThreadPool.awake_step hs.awake hpool, ?_,
    ?_, ?_, ?_, hs.untouched, ?_, ?_, ?_, hs.dangles, hs.nodup⟩
  · exact (ThreadPool.length_step hpool).symm ▸ hs.threads
  · show (s.phases ++ List.replicate (pool.nextId - s.pool.nextId) _).length = pool.nextId
    rw [List.length_append, List.length_replicate, hs.phased]
    rcases hnext with hsame | ⟨hmore, -⟩
    · omega
    · omega
  · intro n hn
    refine hold n .done ?_
    rcases hended n hn with hbefore | ⟨i, ending, rfl, hcallable⟩
    · exact hs.ended n hbefore
    · rw [allows, hcallable, Option.any_some] at hallows
      exact of_decide_eq_true hallows
  · intro hcalled
    rcases hdestructor hcalled with hbefore | rfl
    · exact hs.order hbefore
    · exact hallows
  · intro hfreed n phase hphase hdone
    dsimp only at hphase
    rw [hgrown hfreed, Nat.sub_self, List.replicate_zero, List.append_nil] at hphase
    exact hs.late hfreed n phase hphase hdone
  · intro n hn
    exact (hs.touched n hn).imp_left (hold n .before)
  · intro n hn
    refine Nat.lt_of_lt_of_le (hs.known n hn) ?_
    show s.phases.length ≤ (s.phases ++ _).length
    rw [List.length_append]
    exact Nat.le_add_right _ _

/-- A callable goes on, which does not touch the member. -/
theorem Settled.goOn {phase phase' : UsePhase} (hs : s.Settled)
    (hphase : s.phases[n]? = some phase) (hdone : phase ≠ .done)
    (htouched : s.freed = true → n ∈ s.left → phase' = .before ∨ n ∈ s.dangling) :
    (s.setPhase n phase').Settled := by
  refine ⟨hs.accounted, hs.awake, hs.threads, ?_, ?_, hs.order, hs.untouched, ?_, ?_, ?_,
    hs.dangles, hs.nodup⟩
  · exact List.length_set.trans hs.phased
  · intro m hm
    have hne : m ≠ n := by
      rintro rfl
      exact hs.unended hphase hdone hm
    rw [phases_other hne]
    exact hs.ended m hm
  · intro hfreed m phase'' hm hm'
    rcases phases_set hm with ⟨rfl, -⟩ | ⟨-, hother⟩
    · exact hs.late hfreed m phase hphase hdone
    · exact hs.late hfreed m phase'' hother hm'
  · intro m hm
    by_cases hne : m = n
    · subst hne
      have hfreed : s.freed = true := by
        by_contra hfreed
        have hm' : m ∈ s.left := hm
        rw [(hs.untouched (Bool.eq_false_iff.mpr hfreed)).1] at hm'
        exact absurd hm' List.not_mem_nil
      refine (htouched hfreed hm).imp_left ?_
      rintro rfl
      exact List.getElem?_set_self (List.getElem?_eq_some_iff.mp hphase).1
    · rw [phases_other hne]
      exact hs.touched m hm
  · intro m hm
    exact (hs.known m hm).trans_eq List.length_set.symm

/-- The member is touched. -/
theorem Settled.touching (hs : s.Settled) (hn : s.freed = true → n ∈ s.left) :
    (s.touch n).Settled := by
  by_cases hnew : s.freed = true ∧ n ∉ s.dangling
  · have heq : s.touch n = { s with dangling := s.dangling ++ [n] } := by
      rw [touch, if_pos hnew]
    rw [heq]
    refine ⟨hs.accounted, hs.awake, hs.threads, hs.phased, hs.ended, hs.order, ?_, hs.late, ?_,
      hs.known, ?_, hs.nodup.1, ?_⟩
    · intro hfreed
      exact absurd (hnew.1.symm.trans hfreed) (by decide)
    · intro m hm
      exact (hs.touched m hm).imp_right (List.mem_append_left _)
    · intro m hm
      rcases List.mem_append.mp hm with hm | hm
      · exact hs.dangles m hm
      · rw [List.mem_singleton.mp hm]
        exact hn hnew.1
    · rw [List.nodup_append]
      refine ⟨hs.nodup.2, List.nodup_singleton n, ?_⟩
      intro m hm m' hm' hsame
      rw [hsame, List.mem_singleton.mp hm'] at hm
      exact hnew.2 hm
  · have heq : s.touch n = s := by
      rw [touch, if_neg hnew]
    rw [heq]
    exact hs

/-- The member goes. -/
theorem Settled.free (hs : s.Settled) :
    Settled { s with
      freed := true
      left := s.numbered fun phase => phase ≠ .done
      dangling := s.numbered fun phase => phase = .inUse } := by
  refine ⟨hs.accounted, hs.awake, hs.threads, hs.phased, hs.ended, fun _ => rfl, ?_, ?_, ?_, ?_,
    ?_, numbered_nodup _, numbered_nodup _⟩
  · intro h
    exact absurd (show true = false from h) (by decide)
  · intro _ n phase hphase hdone
    exact mem_numbered.mpr ⟨phase, hphase, decide_eq_true hdone⟩
  · intro n hn
    obtain ⟨phase, hphase, hdone⟩ := mem_numbered.mp hn
    cases phase with
    | before => exact .inl hphase
    | inUse => exact .inr (mem_numbered.mpr ⟨.inUse, hphase, decide_eq_true rfl⟩)
    | done => exact absurd rfl (of_decide_eq_true hdone)
  · intro n hn
    obtain ⟨phase, hphase, -⟩ := mem_numbered.mp hn
    exact (List.getElem?_eq_some_iff.mp hphase).1
  · intro n hn
    obtain ⟨phase, hphase, hinUse⟩ := mem_numbered.mp hn
    refine mem_numbered.mpr ⟨phase, hphase, decide_eq_true ?_⟩
    rw [of_decide_eq_true hinUse]
    decide

/-- **Step lemma.** -/
theorem settled_step (hs : s.Settled) (h : s.step a = some t) : t.Settled := by
  cases step_moves h with
  | pool a pool hallows hpool => exact hs.pool hallows hpool
  | use i n hn hphase =>
    have hn' : s.freed = true → n ∈ s.left := by
      intro hfreed
      exact hs.late hfreed n .before hphase (by decide)
    -- it is touched before it goes on
    have hbefore : (s.touch n).phases[n]? = some .before := hphase
    have hon : ((s.touch n).setPhase n .inUse).Settled := by
      refine (hs.touching hn').goOn hbefore (by decide) ?_
      intro hfreed _
      refine .inr ?_
      by_cases hmem : n ∈ s.dangling
      · rw [touch, if_neg (fun hnew => hnew.2 hmem)]
        exact hmem
      · rw [touch, if_pos ⟨hfreed, hmem⟩]
        exact List.mem_append_right _ (List.mem_singleton_self n)
    exact hon
  | pause i n hn hphase =>
    exact hs.goOn hphase (by decide) fun _ _ => .inl rfl
  | leave i n hn hphase =>
    refine hs.goOn hphase (by decide) fun _ hmem => .inr ?_
    refine (hs.touched n hmem).resolve_left ?_
    rw [hphase]
    decide
  | free hfreed => exact hs.free

theorem settled_construct {threads : Nat} (hthreads : 0 < threads) :
    (construct threads).Settled := by
  refine ⟨ThreadPool.accounted_construct threads, ThreadPool.awake_construct threads, ?_, rfl, ?_,
    ?_, fun _ => ⟨rfl, rfl⟩, ?_, ?_, ?_, ?_, List.nodup_nil, List.nodup_nil⟩
  · exact hthreads.trans_eq List.length_replicate.symm
  · intro n hn
    exact absurd hn List.not_mem_nil
  · intro hcalled
    exact absurd rfl hcalled
  · intro hfreed
    exact absurd (show false = true from hfreed) (by decide)
  · intro n hn
    exact absurd hn List.not_mem_nil
  · intro n hn
    exact absurd hn List.not_mem_nil
  · intro n hn
    exact absurd hn List.not_mem_nil

-- ---------------------------------------------------------------------------
-- When the destructor of the pool has returned
-- ---------------------------------------------------------------------------

/-- **What a destroyed owner has done.** Every callable has run once and is done with the
member, and those that touched it when it was gone are those that were not done with it
when it went. -/
theorem Settled.drained (hs : s.Settled) (hreturned : s.pool.destructor = .returned) :
    s.pool.AllRun ∧ (∀ n < s.pool.nextId, s.phases[n]? = some .done) ∧
      s.dangling.Perm s.left := by
  have hexited := hs.awake.returned hreturned
  obtain ⟨th, hth⟩ := List.exists_mem_of_length_pos hs.threads
  have hallRun : s.pool.AllRun := hs.accounted.allRun (hs.awake.exited th hth (hexited th hth)).2
    fun th hth => .inr (hexited th hth)
  have hdone : ∀ n < s.pool.nextId, s.phases[n]? = some .done := by
    intro n hn
    have hmem : n ∈ s.pool.accepted.map Prod.fst := by
      rw [hs.accounted.numbered]
      exact List.mem_range.mpr hn
    obtain ⟨call, hcall, rfl⟩ := List.mem_map.mp hmem
    obtain ⟨-, -, hone⟩ := hallRun call hcall
    exact hs.ended call.1 (List.count_pos_iff.mp (by rw [hone]; exact Nat.one_pos))
  refine ⟨hallRun, hdone, ?_⟩
  rw [List.perm_ext_iff_of_nodup hs.nodup.2 hs.nodup.1]
  intro n
  refine ⟨hs.dangles n, fun hn => (hs.touched n hn).resolve_left ?_⟩
  have hlt : n < s.pool.nextId := (hs.known n hn).trans_eq hs.phased
  rw [hdone n hlt]
  decide

end PoolOwner

end DistTaskSystem
