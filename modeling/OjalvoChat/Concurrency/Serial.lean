import OjalvoChat.Concurrency.Waiting

namespace ojalvo

/-- The event that begins with a turn. -/
def Pool.event (pool : Pool) (turn : Turn) : Option Event :=
  match turn with
  | .accept client_fd => some (.accept client_fd)
  | .start index line => (pool.sessions[index]?).map fun session => .of_line session.client_fd line
  | .act _ => none

/-- The events of a history, newest first. -/
def events (history : List (Pool × Turn)) : List Event := history.filterMap fun moment => moment.1.event moment.2

/-- The descriptors of the connections among some events. -/
def accepted_fds (events : List Event) : List Fd :=
  events.filterMap fun event =>
    match event with
    | .accept client_fd => some client_fd
    | _ => none

/-- A connection gets a descriptor that is not open, and lines come on connections. -/
def Event.Admissible (world : World) (client_fds : List Fd) (event : Event) : Prop :=
  match event with
  | .accept client_fd => is_open world.trace client_fd = false
  | .request client_fd _ => client_fd ∈ client_fds
  | .invalid client_fd => client_fd ∈ client_fds

/-- Every event of a history could come when it came. -/
def Admissible (serial : List (World × Event)) : Prop :=
  match serial with
  | [] => True
  | (world, event) :: earlier => event.Admissible world (accepted_fds (earlier.map Prod.snd)) ∧ Admissible earlier

/-- The turns of a history do not overlap: no handler begins, and no connection is
accepted, while another handler is in progress. -/
def Undisturbed (history : List (Pool × Turn)) : Prop := ∀ moment ∈ history, moment.1.undisturbed moment.2 = true

/-- The handler of a line, before its first action. -/
def Job.begun (net : Net) (client_fd : Fd) (line : Option Message) : Job where
  event := .of_line client_fd line
  effects := []
  program := serve net (.of_line client_fd line)

section Events

variable {client_fd : Fd} {line : Option Message} {world : World} {events : List Event}

theorem accepted_fds_of_line : accepted_fds (.of_line client_fd line :: events) = accepted_fds events := by
  cases line <;> rfl

/-- A line may come on every connection that was accepted. -/
theorem admissible_of_line (hmem : client_fd ∈ accepted_fds events) :
    (Event.of_line client_fd line).Admissible world (accepted_fds events) := by
  cases line <;> exact hmem

end Events

section Forward

variable {net : Net} {history : List (Pool × Turn)} {pool after : Pool} {turn : Turn}

/-- Everything that has begun is done. -/
structure Pool.AtRest (net : Net) (history : List (Pool × Turn)) (pool : Pool) (serial : List (World × Event)) :
    Prop where
  quiet : pool.Quiescent
  serial_run : ServerRun net serial pool.world
  admissible : Admissible serial
  events_eq : serial.map Prod.snd = events history
  accepted_eq : pool.client_fds = (accepted_fds (events history)).reverse

/-- One handler is at work, on an event that came when everything else was done. -/
structure Pool.AtWork (net : Net) (history : List (Pool × Turn)) (pool : Pool) (serial : List (World × Event))
    (index : Nat) (session : Session) (job : Job) (world : World) : Prop where
  session_at : pool.sessions[index]? = some session
  job_of : session.job = some job
  alone : ∀ other, other ≠ index → pool.job other = none
  serial_run : ServerRun net serial world
  admissible : Admissible ((world, job.event) :: serial)
  events_eq : job.event :: serial.map Prod.snd = events history
  accepted_eq : pool.client_fds = (accepted_fds (events history)).reverse
  left : job.program.run pool.world = (serve net job.event).run world

/-- At first nothing has begun. -/
theorem atRest_init : pool_init.AtRest net [] [] where
  quiet := List.forall_mem_nil _
  serial_run := .start
  admissible := trivial
  events_eq := rfl
  accepted_eq := rfl

/-- Where no session has a handler the pool is at rest. -/
theorem quiescent_of_job (hjob : ∀ index, pool.job index = none) : pool.Quiescent := by
  intro session hsession
  obtain ⟨index, hindex⟩ := List.getElem?_of_mem hsession
  rw [← Pool.job_of_session hindex]
  exact hjob index

theorem Pool.job_eq_some {index : Nat} {session : Session} {job : Job} (hsession : pool.sessions[index]? = some session)
    (hjob : session.job = some job) : pool.job index = some job := by
  rw [Pool.job_of_session hsession, hjob]

/-- A connection that is accepted at rest leaves the pool at rest. -/
theorem Pool.AtRest.accept {serial : List (World × Event)} (hrest : pool.AtRest net history serial) {client_fd : Fd}
    (hclosed : is_open pool.world.trace client_fd = false) :
    Pool.AtRest net ((pool, .accept client_fd) :: history)
      { world := { pool.world with trace := pool.world.trace ++ [.accept client_fd] }
        sessions := pool.sessions ++ [{ client_fd, job := none }] }
      ((pool.world, .accept client_fd) :: serial) where
  quiet session hsession := by
    rcases List.mem_append.mp hsession with hold | hnew
    · exact hrest.quiet session hold
    · rw [List.mem_singleton.mp hnew]
  serial_run := hrest.serial_run.step rfl
  admissible := ⟨hclosed, hrest.admissible⟩
  events_eq := congrArg (Event.accept client_fd :: ·) hrest.events_eq
  accepted_eq := by
    have hevents : events ((pool, .accept client_fd) :: history) = .accept client_fd :: events history := rfl
    have haccepted : accepted_fds (.accept client_fd :: events history) =
        client_fd :: accepted_fds (events history) := rfl
    rw [hevents, haccepted, List.reverse_cons, ← hrest.accepted_eq]
    simp [Pool.client_fds]

/-- A handler that begins at rest is alone at work. -/
theorem Pool.AtRest.start {serial : List (World × Event)} (hrest : pool.AtRest net history serial) {index : Nat}
    {session : Session} (line : Option Message) (hsession : pool.sessions[index]? = some session) :
    Pool.AtWork net ((pool, .start index line) :: history)
      (pool.set_job pool.world index session.client_fd (some (.begun net session.client_fd line)))
      serial index { session with job := some (.begun net session.client_fd line) } (.begun net session.client_fd line)
      pool.world := by
  have hevents : events ((pool, .start index line) :: history) = .of_line session.client_fd line :: events history := by
    simp [events, Pool.event, hsession]
  have hfd : session.client_fd ∈ accepted_fds (serial.map Prod.snd) := by
    rw [hrest.events_eq, ← List.mem_reverse, ← hrest.accepted_eq]
    exact List.mem_map_of_mem (List.mem_of_getElem? hsession)
  exact {
    session_at := by rw [Pool.getElem?_set_job hsession, if_pos rfl]
    job_of := rfl
    alone := fun other hother => by
      rw [Pool.job_set_job hsession, if_neg hother]
      exact hrest.quiet.job_eq_none other
    serial_run := hrest.serial_run
    admissible := ⟨admissible_of_line hfd, hrest.admissible⟩
    events_eq := by
      rw [hevents, hrest.events_eq]
      rfl
    accepted_eq := by rw [Pool.client_fds_set_job hsession, hevents, accepted_fds_of_line, hrest.accepted_eq]
    left := rfl }

/-- A handler that was alone at work leaves the pool at rest. -/
theorem Pool.AtWork.finish {serial : List (World × Event)} {index : Nat} {session : Session} {job : Job} {world : World}
    (hwork : pool.AtWork net history serial index session job world) (hprogram : job.program = .ret ()) :
    Pool.AtRest net ((pool, .act index) :: history) (pool.set_job pool.world index session.client_fd none)
      ((world, job.event) :: serial) where
  quiet := quiescent_of_job fun other => by
    rw [Pool.job_set_job hwork.session_at]
    split_ifs with hsame
    · rfl
    · exact hwork.alone other hsame
  serial_run := by
    have hserved := hwork.left
    rw [hprogram] at hserved
    exact hwork.serial_run.step hserved.symm
  admissible := hwork.admissible
  events_eq := hwork.events_eq
  accepted_eq := (Pool.client_fds_set_job hwork.session_at).trans hwork.accepted_eq

/-- A handler that is alone at work goes on as it would by itself. -/
theorem Pool.AtWork.act {serial : List (World × Event)} {index : Nat} {session : Session} {job : Job} {world : World}
    (hwork : pool.AtWork net history serial index session job world) (effects : List Effect) {A : Type}
    {action : Action A} {next : A → Handler Unit} {value : A} {later : World}
    (hprogram : job.program = .act action next) (hrun : action.run pool.world = .ok value later) :
    Pool.AtWork net ((pool, .act index) :: history)
      (pool.set_job later index session.client_fd (some { job with effects, program := next value }))
      serial index { session with job := some { job with effects, program := next value } }
      { job with effects, program := next value } world where
  session_at := by rw [Pool.getElem?_set_job hwork.session_at, if_pos rfl]
  job_of := rfl
  alone other hother := by
    rw [Pool.job_set_job hwork.session_at, if_neg hother]
    exact hwork.alone other hother
  serial_run := hwork.serial_run
  admissible := hwork.admissible
  events_eq := hwork.events_eq
  accepted_eq := (Pool.client_fds_set_job hwork.session_at).trans hwork.accepted_eq
  left := by
    have hleft := hwork.left
    rw [hprogram, Program.run, hrun] at hleft
    exact hleft

/-- A turn without overlap, until a handler gets stuck. -/
theorem serial_step {known later : Knowledge} (hmoves : Moves net pool known turn after later)
    (hundisturbed : pool.undisturbed turn = true)
    (hbefore : pool.world.held ≠ [] ∨ (∃ serial, pool.AtRest net history serial) ∨
      ∃ serial index session job world, pool.AtWork net history serial index session job world) :
    after.world.held ≠ [] ∨ (∃ serial, after.AtRest net ((pool, turn) :: history) serial) ∨
      ∃ serial index session job world, after.AtWork net ((pool, turn) :: history) serial index session job world := by
  rcases hbefore with hheld | ⟨serial, hrest⟩ | ⟨serial, index, session, job, world, hwork⟩
  · refine Or.inl ?_
    cases hmoves with
    | jam hsession hjob hprogram hrun heffects => exact List.cons_ne_nil _ _
    | _ => exact hheld
  · refine Or.inr ?_
    cases hmoves with
    | accept client_fd hclosed => exact Or.inl ⟨_, hrest.accept hclosed⟩
    | start line hsession hidle => exact Or.inr ⟨_, _, _, _, _, hrest.start line hsession⟩
    | finish hsession hjob hprogram =>
      rw [hrest.quiet _ (List.mem_of_getElem? hsession)] at hjob
      cases hjob
    | deed hsession hjob hprogram hrun hstep =>
      rw [hrest.quiet _ (List.mem_of_getElem? hsession)] at hjob
      cases hjob
    | jam hsession hjob hprogram hrun heffects =>
      rw [hrest.quiet _ (List.mem_of_getElem? hsession)] at hjob
      cases hjob
  · have hbusy := Pool.job_eq_some hwork.session_at hwork.job_of
    have hsame {moved : Nat} {found : Session} {running : Job} (hfound : pool.sessions[moved]? = some found)
        (hrunning : found.job = some running) : moved = index ∧ found = session ∧ running = job := by
      have hmoved : moved = index := by
        by_contra hother
        have hnone := hwork.alone moved hother
        rw [Pool.job_eq_some hfound hrunning] at hnone
        cases hnone
      subst hmoved
      obtain rfl := Option.some.inj (hfound.symm.trans hwork.session_at)
      exact ⟨rfl, rfl, Option.some.inj (hrunning.symm.trans hwork.job_of)⟩
    cases hmoves with
    | accept client_fd hclosed =>
      rw [Pool.job_of_undisturbed hundisturbed (by simp)] at hbusy
      cases hbusy
    | start line hsession hidle =>
      rw [Pool.job_of_undisturbed hundisturbed (by simp)] at hbusy
      cases hbusy
    | finish hsession hjob hprogram =>
      obtain ⟨rfl, rfl, rfl⟩ := hsame hsession hjob
      exact Or.inr (Or.inl ⟨_, hwork.finish hprogram⟩)
    | deed hsession hjob hprogram hrun hstep =>
      obtain ⟨rfl, rfl, rfl⟩ := hsame hsession hjob
      exact Or.inr (Or.inr ⟨_, _, _, _, _, hwork.act _ hprogram hrun⟩)
    | jam hsession hjob hprogram hrun heffects => exact Or.inl (List.cons_ne_nil _ _)

/-- A run without overlap, at a moment at which nobody is at work, is a run of the
server. -/
theorem exists_serial_run (hrun : PoolRun net history pool) (hundisturbed : Undisturbed history)
    (hquiet : pool.Quiescent) : ∃ serial, pool.AtRest net history serial := by
  obtain ⟨known, -, hreached⟩ := pool_invariant (C := fun pool turn => pool.undisturbed turn = true)
    (I := fun history pool _ => pool.world.held ≠ [] ∨ (∃ serial, pool.AtRest net history serial) ∨
      ∃ serial index session job world, pool.AtWork net history serial index session job world)
    hrun hundisturbed (Or.inr (Or.inl ⟨[], atRest_init⟩))
    fun history before known turn after later _ _ hbefore hnow _ hmoves => serial_step hmoves hnow hbefore
  rcases hreached with hstuck | hrest | ⟨serial, index, session, job, world, hwork⟩
  · exact absurd (held_eq_nil_of_quiescent hrun hquiet) hstuck
  · exact hrest
  · have hbusy := hwork.job_of
    rw [hquiet session (List.mem_of_getElem? hwork.session_at)] at hbusy
    cases hbusy

end Forward

section Backward

variable {net : Net} {history : List (Pool × Turn)} {pool : Pool}

/-- A handler that is alone disturbs nobody. -/
theorem undisturbed_act {index : Nat} (halone : ∀ other, other ≠ index → pool.job other = none) :
    pool.undisturbed (.act index) = true := by
  refine List.all_eq_true.mpr fun other _ => ?_
  by_cases hsame : index = other
  · simp [hsame]
  · simp [halone other (Ne.symm hsame)]

/-- At rest no turn disturbs anybody. -/
theorem undisturbed_of_quiescent (hquiet : pool.Quiescent) (turn : Turn) : pool.undisturbed turn = true :=
  List.all_eq_true.mpr fun other _ => by simp [hquiet.job_eq_none other]

theorem Pool.set_job_set_job (first second : World) (index : Nat) (client_fd : Fd) (job : Option Job) :
    (pool.set_job first index client_fd job).set_job second index client_fd none =
      pool.set_job second index client_fd none := by
  simp [Pool.set_job, List.set_set]

/-- A handler that completes when it runs without interruption completes turn by
turn. -/
theorem exists_solo_run {index : Nat} {session : Session} {job : Job} (hsession : pool.sessions[index]? = some session)
    (hjob : session.job = some job) (halone : ∀ other, other ≠ index → pool.job other = none) {after : World}
    (hrun : job.program.run pool.world = .ok () after) :
    ∃ turns, Run (PoolStep net) pool turns (pool.set_job after index session.client_fd none) ∧ Undisturbed turns ∧
      events turns = [] := by
  obtain ⟨event, effects, program⟩ := job
  induction program generalizing pool session effects with
  | ret value =>
    cases hrun
    exact ⟨_, .step .start (poolStep_of_step hsession hjob rfl), List.forall_mem_singleton.mpr (undisturbed_act halone),
      rfl⟩
  | act action next ih =>
    rw [Program.run] at hrun
    cases hfirst : action.run pool.world with
    | error why stopped =>
      rw [hfirst] at hrun
      cases hrun
    | ok value later =>
      rw [hfirst] at hrun
      let rest : Job := { event, effects := effects ++ later.effects_since pool.world, program := next value }
      have hstep : Job.step pool.world { event, effects, program := .act action next } = some (later, some rest) := by
        simp only [Job.step, hfirst, rest]
      have hturn : PoolStep net pool (.act index) _ := poolStep_of_step hsession hjob hstep
      have hlater : (pool.set_job later index session.client_fd (some rest)).sessions[index]? =
          some { session with job := some rest } := by
        rw [Pool.getElem?_set_job hsession, if_pos rfl]
      have hothers (other : Nat) (hother : other ≠ index) :
          (pool.set_job later index session.client_fd (some rest)).job other = none := by
        rw [Pool.job_set_job hsession, if_neg hother]
        exact halone other hother
      obtain ⟨turns, hrest, hundisturbed, hevents⟩ := ih value hlater hothers _ rfl hrun
      rw [Pool.set_job_set_job] at hrest
      refine ⟨turns ++ [(pool, .act index)], .trans (.step .start hturn) hrest, ?_, ?_⟩
      · exact List.forall_mem_append.mpr ⟨hundisturbed, List.forall_mem_singleton.mpr (undisturbed_act halone)⟩
      · rw [events, List.filterMap_append]
        exact List.append_eq_nil_iff.mpr ⟨hevents, rfl⟩

/-- A run of the server is a run without overlap. -/
theorem exists_undisturbed_run {serial : List (World × Event)} {world : World} (hrun : ServerRun net serial world)
    (hadmissible : Admissible serial) :
    ∃ history pool, PoolRun net history pool ∧ Undisturbed history ∧ pool.AtRest net history serial ∧
      pool.world = world := by
  induction hrun with
  | start => exact ⟨[], pool_init, .start, List.forall_mem_nil _, atRest_init, rfl⟩
  | @step serial before after event hprefix hserved ih =>
    obtain ⟨hnow, hearlier⟩ := hadmissible
    obtain ⟨history, pool, hpool, hundisturbed, hrest, rfl⟩ := ih hearlier
    have hline (client_fd : Fd) (line : Option Message) (hevent : event = .of_line client_fd line)
        (hfd : client_fd ∈ accepted_fds (serial.map Prod.snd)) :
        ∃ history later, PoolRun net history later ∧ Undisturbed history ∧
          later.AtRest net history ((pool.world, event) :: serial) ∧ later.world = after := by
      rw [hrest.events_eq, ← List.mem_reverse, ← hrest.accepted_eq] at hfd
      obtain ⟨session, hmem, rfl⟩ := List.mem_map.mp hfd
      obtain ⟨index, hsession⟩ := List.getElem?_of_mem hmem
      have hidle := hrest.quiet session hmem
      have hstart : PoolStep net pool (.start index line)
          (pool.set_job pool.world index session.client_fd (some (.begun net session.client_fd line))) := by
        simp [PoolStep, pool_step, hsession, hidle, Job.begun]
      have hwork := hrest.start line hsession
      subst hevent
      obtain ⟨turns, hsolo, hturns, hnothing⟩ := exists_solo_run hwork.session_at hwork.job_of hwork.alone hserved
      have hevents : events (turns ++ (pool, .start index line) :: history) =
          events ((pool, .start index line) :: history) := by
        rw [events, List.filterMap_append]
        exact List.append_left_eq_self.mpr hnothing
      refine ⟨_, _, .trans (hpool.step hstart) hsolo, ?_, ?_, rfl⟩
      · exact List.forall_mem_append.mpr ⟨hturns,
          List.forall_mem_cons.mpr ⟨undisturbed_of_quiescent hrest.quiet _, hundisturbed⟩⟩
      · exact {
          quiet := quiescent_of_job fun other => by
            rw [Pool.set_job_set_job, Pool.job_set_job hsession]
            split_ifs with hsame
            · rfl
            · exact hrest.quiet.job_eq_none other
          serial_run := hprefix.step hserved
          admissible := hwork.admissible
          events_eq := by rw [hevents, ← hwork.events_eq]; rfl
          accepted_eq := by
            rw [hevents, ← hwork.accepted_eq]
            exact Pool.client_fds_set_job hwork.session_at }
    cases event with
    | accept client_fd =>
      cases hserved
      have hclosed : is_open pool.world.trace client_fd = false := hnow
      have hstep : PoolStep net pool (.accept client_fd) _ := if_neg (by simp [hclosed])
      exact ⟨_, _, hpool.step hstep, List.forall_mem_cons.mpr ⟨undisturbed_of_quiescent hrest.quiet _, hundisturbed⟩,
        hrest.accept hnow, rfl⟩
    | request client_fd msg_in => exact hline client_fd (some msg_in) rfl hnow
    | invalid client_fd => exact hline client_fd none rfl hnow

end Backward

end ojalvo
