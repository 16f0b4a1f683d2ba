import OjalvoChat.Concurrency.Progress

namespace ojalvo

section Rest

variable {pool : Pool}

/-- What is left of the handlers of all sessions. -/
def Pool.left (pool : Pool) : List (Option (Handler Unit)) :=
  pool.sessions.map fun session => session.job.map Job.program

/-- A turn of a handler, and the threads it leaves. -/
theorem Pool.Goes.advances (hgoes : pool.Goes) {index : Nat} {after : Pool}
    (hstep : PoolStep reliable pool (.act index) after) :
    after.Goes ∧ Advances Program.Remains after.left pool.left := by
  obtain ⟨session, job, world, changed, hsession, hjob, hsteps, rfl⟩ := hstep.job_steps
  obtain ⟨hlater, hremains⟩ := hgoes.act hsession hjob hsteps
  refine ⟨hlater, ?_⟩
  have hleft : pool.left[index]? = some (some job.program) := by simp [Pool.left, hsession, hjob]
  have hset : (pool.set_job world index session.client_fd changed).left =
      pool.left.set index (changed.map Job.program) := by
    simp [Pool.left, Pool.set_job, List.map_set]
  rw [hset]
  exact advances_of_set hleft hremains

/-- A handler in progress can take its turn. -/
theorem Pool.Goes.exists_act (hgoes : pool.Goes) {index : Nat} {job : Job} (hjob : pool.job index = some job) :
    ∃ after, PoolStep reliable pool (.act index) after := by
  obtain ⟨session, hsession, hrunning⟩ := Option.bind_eq_some_iff.mp hjob
  have hprogram := hgoes.goes session (List.mem_of_getElem? hsession) job hrunning
  have hstep : ∃ world changed, job.step pool.world = some (world, changed) := by
    obtain ⟨event, effects, program⟩ := job
    cases program with
    | ret value => exact ⟨_, _, rfl⟩
    | act body next =>
      have hnext := hprogram.2 pool.world hgoes.idle
      cases hrun : body.run pool.world with
      | ok value after =>
        simp only [Job.step, hrun]
        exact ⟨_, _, rfl⟩
      | error why stopped =>
        rw [hrun] at hnext
        cases hnext
  obtain ⟨world, changed, hstep⟩ := hstep
  exact ⟨_, poolStep_of_step hsession hrunning hstep⟩

/-- The threads of a pool come to rest, one turn after another. -/
theorem Pool.Goes.exists_rest (hgoes : pool.Goes) :
    ∃ history final, Run (PoolStep reliable) pool history final ∧ (∀ moment ∈ history, ∃ index, moment.2 = .act index) ∧
      final.Quiescent := by
  have hacc : Acc (Advances Program.Remains) pool.left := acc_advances fun left _ => Program.acc_remains left
  generalize hleft : pool.left = left at hacc
  induction hacc generalizing pool with
  | intro left _ ih =>
    by_cases hquiet : pool.Quiescent
    · exact ⟨[], pool, .start, List.forall_mem_nil _, hquiet⟩
    · simp only [Pool.Quiescent, not_forall] at hquiet
      obtain ⟨session, hsession, hbusy⟩ := hquiet
      obtain ⟨index, hindex⟩ := List.getElem?_of_mem hsession
      obtain ⟨job, hjob⟩ := Option.ne_none_iff_exists'.mp hbusy
      have hrunning : pool.job index = some job := by simp [Pool.job, hindex, hjob]
      obtain ⟨after, hstep⟩ := hgoes.exists_act hrunning
      obtain ⟨hlater, hadvances⟩ := hgoes.advances hstep
      rw [hleft] at hadvances
      obtain ⟨history, final, hrun, hacts, hfinal⟩ := ih _ hadvances hlater rfl
      refine ⟨history ++ [(pool, .act index)], final, Run.trans (.step .start hstep) hrun, fun moment hmoment => ?_,
        hfinal⟩
      rcases List.mem_append.mp hmoment with hold | hnew
      · exact hacts moment hold
      · exact ⟨index, by rw [List.mem_singleton.mp hnew]⟩

end Rest

/-- On a net without failures, and as long as no request lacks a field that it uses,
nobody waits for ever: in every reachable state every handler in progress can take
its turn, no order of turns goes on for ever, and some order leads to a state in
which nobody is in progress. -/
theorem handlers_come_to_rest {history : List (Pool × Turn)} {pool : Pool} (hrun : PoolRun reliable history pool)
    (hcomplete : ∀ moment ∈ history, moment.2.Complete) :
    (∀ index job, pool.job index = some job → ∃ after, PoolStep reliable pool (.act index) after) ∧
      (¬ ∃ schedule : Nat → Pool, schedule 0 = pool ∧
        ∀ moment, ∃ index, PoolStep reliable (schedule moment) (.act index) (schedule (moment + 1))) ∧
      ∃ later final, Run (PoolStep reliable) pool later final ∧
        (∀ moment ∈ later, ∃ index, moment.2 = .act index) ∧ final.Quiescent := by
  have hgoes := pool_goes hrun hcomplete
  refine ⟨fun index job hjob => hgoes.exists_act hjob, ?_, hgoes.exists_rest⟩
  rintro ⟨schedule, hstart, hturns⟩
  have hall : ∀ moment, (schedule moment).Goes := by
    intro moment
    induction moment with
    | zero => rwa [hstart]
    | succ moment ih =>
      obtain ⟨index, hstep⟩ := hturns moment
      exact (ih.advances hstep).1
  refine not_exists_schedule (acc_advances fun left _ => Program.acc_remains left)
    ⟨fun moment => (schedule moment).left, congrArg Pool.left hstart, fun moment => ?_⟩
  obtain ⟨index, hstep⟩ := hturns moment
  exact ((hall moment).advances hstep).2

/-- Three clients at once, each in the middle of a request. -/
def rush_hour : List Turn := [
  .accept 4, .accept 5, .accept 6,
  .start 0 (some { message_init with type := .IDENTIFY, username := some (.lit "ana") }),
  .start 1 (some { message_init with type := .IDENTIFY, username := some (.lit "ana") }),
  .start 2 none,
  .act 0, .act 1, .act 2, .act 1, .act 0, .act 1, .act 0, .act 1, .act 2]

theorem handlers_come_to_rest_in_rush_hour :
    ∃ history pool, PoolRun reliable history pool ∧ (∀ index < 3, (pool.job index).isSome = true) ∧
      ((∀ index job, pool.job index = some job → ∃ after, PoolStep reliable pool (.act index) after) ∧
        (¬ ∃ schedule : Nat → Pool, schedule 0 = pool ∧
          ∀ moment, ∃ index, PoolStep reliable (schedule moment) (.act index) (schedule (moment + 1))) ∧
        ∃ later final, Run (PoolStep reliable) pool later final ∧
          (∀ moment ∈ later, ∃ index, moment.2 = .act index) ∧ final.Quiescent) := by
  obtain ⟨history, pool, hrun, htest⟩ := exists_pool_run reliable rush_hour
    (fun history pool => (history.all fun moment => decide moment.2.Complete) &&
      (List.range 3).all fun index => (pool.job index).isSome) (by decide +kernel)
  obtain ⟨hcomplete, hbusy⟩ := Bool.and_eq_true_iff.mp htest
  refine ⟨history, pool, hrun, fun index hindex => List.all_eq_true.mp hbusy index (List.mem_range.mpr hindex),
    handlers_come_to_rest hrun fun moment hmoment => ?_⟩
  exact of_decide_eq_true (List.all_eq_true.mp hcomplete moment hmoment)

end ojalvo
