import OjalvoChat.Concurrency.RoomHandlers

namespace ojalvo

/-- The facts that the handlers of all sessions rely on. -/
abbrev Knowledge := Nat → List Fact

/-- Every handler in progress is at a point of its plan. -/
structure Pool.Tracks (net : Net) (pool : Pool) (known : Knowledge) : Prop where
  proper : pool.world.Proper
  idle : ∀ index, pool.job index = none → known index = []
  busy : ∀ index session job, pool.sessions[index]? = some session → session.job = some job →
    (∃ line, job.event = .of_line session.client_fd line) ∧
      Keeps net session.client_fd job.event (known index) job.program

/-- A turn, with what it does to the facts. -/
inductive Moves (net : Net) (pool : Pool) (known : Knowledge) : Turn → Pool → Knowledge → Prop where
  | accept (client_fd : Fd) (hclosed : is_open pool.world.trace client_fd = false) :
    Moves net pool known (.accept client_fd)
      { world := { pool.world with trace := pool.world.trace ++ [.accept client_fd] }
        sessions := pool.sessions ++ [{ client_fd, job := none }] }
      known
  | start {index : Nat} {session : Session} (line : Option Message) (hsession : pool.sessions[index]? = some session)
    (hidle : session.job = none) :
    Moves net pool known (.start index line)
      (pool.set_job pool.world index session.client_fd (some {
        event := .of_line session.client_fd line
        effects := []
        program := serve net (.of_line session.client_fd line) }))
      known
  | finish {index : Nat} {session : Session} {job : Job} (hsession : pool.sessions[index]? = some session)
    (hjob : session.job = some job) (hprogram : job.program = .ret ()) :
    Moves net pool known (.act index) (pool.set_job pool.world index session.client_fd none)
      (Function.update known index [])
  | deed {index : Nat} {session : Session} {job : Job} {A : Type} {action : Action A} {next : A → Handler Unit}
    {value : A} {deed : Deed} {later : List Fact} (hsession : pool.sessions[index]? = some session)
    (hjob : session.job = some job) (hprogram : job.program = .act action next)
    (hrun : action.run pool.world = .ok value (Deed.perform deed pool.world))
    (hstep : HandlerStep net session.client_fd job.event (known index) job.program pool.world.server deed later) :
    Moves net pool known (.act index)
      (pool.set_job (Deed.perform deed pool.world) index session.client_fd
        (some { job with effects := job.effects ++ deed.effects, program := next value }))
      (Function.update known index later)
  | jam {index : Nat} {session : Session} {job : Job} {A : Type} {action : Action A} {next : A → Handler Unit}
    {mutex : Mutex} {effects : List Effect} (hsession : pool.sessions[index]? = some session)
    (hjob : session.job = some job) (hprogram : job.program = .act action next)
    (hrun : action.run pool.world =
      .error (.blocked mutex) { pool.world with held := [.rooms], trace := pool.world.trace ++ effects })
    (heffects : ∀ effect ∈ effects, Sends net (fun _ message => message.Plain) effect) :
    Moves net pool known (.act index)
      (pool.set_job { pool.world with held := [.rooms], trace := pool.world.trace ++ effects } index session.client_fd
        (some { job with effects := job.effects ++ effects }))
      known

section SetJob

variable {pool : Pool} {world : World} {index : Nat} {session : Session} {job : Option Job}

theorem Pool.getElem?_set_job (hsession : pool.sessions[index]? = some session) (other : Nat) :
    (pool.set_job world index session.client_fd job).sessions[other]? =
      if other = index then some { session with job } else pool.sessions[other]? := by
  have hindex : index < pool.sessions.length := (List.getElem?_eq_some_iff.mp hsession).1
  simp only [Pool.set_job, List.getElem?_set]
  by_cases hsame : index = other
  · subst hsame
    simp [hindex]
  · simp [hsame, Ne.symm hsame]

theorem Pool.job_set_job (hsession : pool.sessions[index]? = some session) (other : Nat) :
    (pool.set_job world index session.client_fd job).job other =
      if other = index then job else pool.job other := by
  unfold Pool.job
  rw [Pool.getElem?_set_job hsession]
  split <;> rfl

theorem Pool.job_of_session (hsession : pool.sessions[index]? = some session) : pool.job index = session.job := by
  unfold Pool.job
  rw [hsession]
  rfl

/-- At rest no session has a handler. -/
theorem Pool.Quiescent.job_eq_none (hquiet : pool.Quiescent) (index : Nat) : pool.job index = none := by
  cases hsession : pool.sessions[index]? with
  | none => simp [Pool.job, hsession]
  | some session =>
    rw [Pool.job_of_session hsession]
    exact hquiet session (List.mem_of_getElem? hsession)

/-- A test of every handler in progress is a test of the handler of each session. -/
theorem Pool.job_tested {test : Job → Bool} (htest : (pool.sessions.all fun session => session.job.all test) = true)
    {running : Job} (hrunning : pool.job index = some running) : test running = true := by
  obtain ⟨found, hfound, hbusy⟩ := Option.bind_eq_some_iff.mp hrunning
  have htested := List.all_eq_true.mp htest found (List.mem_of_getElem? hfound)
  rw [hbusy] at htested
  exact htested

theorem Pool.client_fds_set_job (hsession : pool.sessions[index]? = some session) :
    (pool.set_job world index session.client_fd job).client_fds = pool.client_fds := by
  apply List.ext_getElem?
  intro other
  rw [Pool.client_fds, Pool.client_fds, List.getElem?_map, List.getElem?_map, Pool.getElem?_set_job hsession]
  by_cases hsame : other = index
  · rw [if_pos hsame, hsame, hsession]
    rfl
  · rw [if_neg hsame]

/-- A new session has no handler. -/
theorem Pool.busy_of_accept {client_fd : Fd} {found : Session} {running : Job}
    (hfound : (pool.sessions ++ [{ client_fd, job := none }])[index]? = some found)
    (hrunning : found.job = some running) :
    pool.sessions[index]? = some found := by
  rw [List.getElem?_append] at hfound
  split at hfound
  · exact hfound
  · obtain ⟨hbound, rfl⟩ := List.getElem?_eq_some_iff.mp hfound
    simp at hrunning

theorem Pool.job_accept (pool : Pool) (world : World) (client_fd : Fd) (index : Nat) :
    Pool.job { world, sessions := pool.sessions ++ [{ client_fd, job := none }] } index = pool.job index := by
  unfold Pool.job
  rcases lt_trichotomy index pool.sessions.length with hless | rfl | hmore
  · simp [List.getElem?_append_left hless]
  · simp
  · rw [List.getElem?_eq_none (by simpa using Nat.succ_le_of_lt hmore), List.getElem?_eq_none hmore.le]

end SetJob

section Each

variable {net : Net} {pool after : Pool} {turn : Turn} {P : ∀ {A : Type}, Action A → Prop}

/-- A condition on every action that a handler in progress can still take. -/
def Pool.Each (P : ∀ {A : Type}, Action A → Prop) (pool : Pool) : Prop :=
  ∀ index job, pool.job index = some job → job.program.Each P fun _ => True

theorem each_init : pool_init.Each P := fun index job hjob => by simp [Pool.job, pool_init] at hjob

theorem Pool.Each.set_job (heach : pool.Each P) {world : World} {index : Nat} {session : Session} {job : Option Job}
    (hsession : pool.sessions[index]? = some session)
    (hjob : ∀ running, job = some running → running.program.Each P fun _ => True) :
    (pool.set_job world index session.client_fd job).Each P := by
  intro other running hrunning
  rw [Pool.job_set_job hsession] at hrunning
  split at hrunning
  · exact hjob running hrunning
  · exact heach other running hrunning

/-- What holds of the actions of every handler holds of those that are left. -/
theorem PoolStep.each (hstep : PoolStep net pool turn after) (heach : pool.Each P)
    (hserve : ∀ client_fd line, (serve net (.of_line client_fd line)).Each P fun _ => True) : after.Each P := by
  cases turn with
  | accept client_fd =>
    obtain ⟨-, rfl⟩ := hstep.accepted
    exact fun index job hjob => heach index job ((pool.job_accept _ client_fd index).symm.trans hjob)
  | start index line =>
    obtain ⟨session, hsession, -, rfl⟩ := hstep.begun
    refine heach.set_job hsession ?_
    rintro running ⟨⟩
    exact hserve session.client_fd line
  | act index =>
    obtain ⟨session, job, world, changed, hsession, hjob, hsteps, rfl⟩ := hstep.job_steps
    have hprogram := heach index job ((Pool.job_of_session hsession).trans hjob)
    refine heach.set_job hsession ?_
    cases hsteps with
    | finish hret =>
      rintro running ⟨⟩
    | act hact hrun =>
      rintro running ⟨⟩
      rw [hact] at hprogram
      exact hprogram.2 _
    | wait hact hrun =>
      rintro running ⟨⟩
      exact hprogram

end Each

section Tracking

variable {net : Net} {pool after : Pool} {known : Knowledge} {turn : Turn}

theorem tracks_init : pool_init.Tracks net fun _ => [] where
  proper := ⟨rfl, Or.inl rfl⟩
  idle _ _ := rfl
  busy index session job hsession := by simp [pool_init] at hsession

/-- Who relies on a fact has a handler in progress, which has pledged what the fact
asks for. -/
theorem Pool.Tracks.pledged (htracks : pool.Tracks net known) {index : Nat} {fact : Fact} (hfact : fact ∈ known index) :
    ∃ session job, pool.sessions[index]? = some session ∧ session.job = some job ∧
      fact.Pledge session.client_fd job.program := by
  cases hjob : pool.job index with
  | none =>
    rw [htracks.idle index hjob] at hfact
    cases hfact
  | some job =>
    obtain ⟨session, hsession, hrunning⟩ := Option.bind_eq_some_iff.mp hjob
    exact ⟨session, job, hsession, hrunning, (htracks.busy index session job hsession hrunning).2.pledged fact hfact⟩

theorem Pool.Tracks.set_job {world : World} {index : Nat} {session : Session} {job : Option Job} {later : List Fact}
    (htracks : pool.Tracks net known) (hproper : world.Proper) (hsession : pool.sessions[index]? = some session)
    (hidle : job = none → later = [])
    (hbusy : ∀ running, job = some running → (∃ line, running.event = .of_line session.client_fd line) ∧
      Keeps net session.client_fd running.event later running.program) :
    (pool.set_job world index session.client_fd job).Tracks net (Function.update known index later) where
  proper := hproper
  idle other hother := by
    rw [Pool.job_set_job hsession] at hother
    by_cases hsame : other = index
    · subst hsame
      rw [if_pos rfl] at hother
      rw [Function.update_self, hidle hother]
    · rw [if_neg hsame] at hother
      rw [Function.update_of_ne hsame, htracks.idle other hother]
  busy other found running hfound hrunning := by
    rw [Pool.getElem?_set_job hsession] at hfound
    by_cases hsame : other = index
    · subst hsame
      rw [if_pos rfl] at hfound
      cases hfound
      rw [Function.update_self]
      exact hbusy running hrunning
    · rw [if_neg hsame] at hfound
      rw [Function.update_of_ne hsame]
      exact htracks.busy other found running hfound hrunning

theorem Deed.perform_proper {world : World} (deed : Deed) (hproper : world.Proper) : (deed.perform world).Proper :=
  ⟨hproper.alloc, hproper.held⟩

theorem Deed.effects_since_perform (deed : Deed) (world : World) :
    (deed.perform world).effects_since world = deed.effects := List.drop_left

theorem Pool.Tracks.accept (htracks : pool.Tracks net known) (client_fd : Fd) :
    Pool.Tracks net
      { world := { pool.world with trace := pool.world.trace ++ [.accept client_fd] }
        sessions := pool.sessions ++ [{ client_fd, job := none }] }
      known where
  proper := ⟨htracks.proper.alloc, htracks.proper.held⟩
  idle index hidle := htracks.idle index ((pool.job_accept _ client_fd index).symm.trans hidle)
  busy index session job hsession hjob := htracks.busy index session job (Pool.busy_of_accept hsession hjob) hjob

theorem Pool.Tracks.start (htracks : pool.Tracks net known) {index : Nat} {session : Session}
    (hsession : pool.sessions[index]? = some session) (hidle : session.job = none) (line : Option Message) :
    (pool.set_job pool.world index session.client_fd (some {
      event := .of_line session.client_fd line
      effects := []
      program := serve net (.of_line session.client_fd line) })).Tracks net known := by
  have hnothing : known index = [] := htracks.idle index (by rw [Pool.job_of_session hsession, hidle])
  rw [← Function.update_eq_self index known, hnothing]
  refine htracks.set_job htracks.proper hsession (fun hnone => by cases hnone) fun running hrunning => ?_
  cases hrunning
  exact ⟨⟨line, rfl⟩, keeps_serve line⟩

/-- An action of a handler is the step that its plan expects. -/
theorem Pool.Tracks.act (htracks : pool.Tracks net known) {index : Nat} {session : Session} {job : Job} {A : Type}
    {action : Action A} {next : A → Handler Unit} {value : A} {world : World}
    (hsession : pool.sessions[index]? = some session) (hjob : session.job = some job)
    (hprogram : job.program = .act action next) (hrun : action.run pool.world = .ok value world) :
    ∃ deed facts, world = Deed.perform deed pool.world ∧
      HandlerStep net session.client_fd job.event (known index) job.program pool.world.server deed facts ∧
      (pool.set_job world index session.client_fd
        (some { job with effects := job.effects ++ deed.effects, program := next value })).Tracks net
        (Function.update known index facts) := by
  obtain ⟨hline, hkeeps⟩ := htracks.busy index session job hsession hjob
  rw [hprogram] at hkeeps ⊢
  have hact := hkeeps.2 pool.world htracks.proper
  rw [hrun] at hact
  obtain ⟨facts, ⟨deed, rfl, hdeed⟩, hlater⟩ := hact
  refine ⟨deed, facts, rfl, hdeed, ?_⟩
  refine htracks.set_job (deed.perform_proper htracks.proper) hsession (fun hnone => by cases hnone) ?_
  rintro running ⟨⟩
  exact ⟨hline, hlater⟩

/-- A handler that waits stays at its point of the plan. -/
theorem Pool.Tracks.wait (htracks : pool.Tracks net known) {index : Nat} {session : Session} {job : Job} {A : Type}
    {action : Action A} {next : A → Handler Unit} {mutex : Mutex} {stopped : World}
    (hsession : pool.sessions[index]? = some session) (hjob : session.job = some job)
    (hprogram : job.program = .act action next) (hrun : action.run pool.world = .error (.blocked mutex) stopped) :
    ∃ effects, stopped = { pool.world with held := [.rooms], trace := pool.world.trace ++ effects } ∧
      (∀ effect ∈ effects, Sends net (fun _ message => message.Plain) effect) ∧
      (pool.set_job stopped index session.client_fd (some { job with effects := job.effects ++ effects })).Tracks net
        known := by
  obtain ⟨hline, hkeeps⟩ := htracks.busy index session job hsession hjob
  have hact := hkeeps
  rw [hprogram] at hact
  have hjams := hact.2 pool.world htracks.proper
  rw [hrun] at hjams
  obtain ⟨effects, heffects, -, rfl⟩ := hjams
  refine ⟨effects, rfl, heffects, ?_⟩
  rw [← Function.update_eq_self index known]
  refine htracks.set_job ⟨htracks.proper.alloc, Or.inr rfl⟩ hsession (fun hnone => by cases hnone) ?_
  rintro running ⟨⟩
  exact ⟨hline, hkeeps⟩

/-- Every turn keeps the handlers to their plans. -/
theorem Pool.Tracks.moves (htracks : pool.Tracks net known) (hstep : PoolStep net pool turn after) :
    ∃ later, Moves net pool known turn after later ∧ after.Tracks net later := by
  cases turn with
  | accept client_fd =>
    obtain ⟨hclosed, rfl⟩ := hstep.accepted
    exact ⟨known, .accept client_fd hclosed, htracks.accept client_fd⟩
  | start index line =>
    obtain ⟨session, hsession, hidle, rfl⟩ := hstep.begun
    exact ⟨known, .start line hsession hidle, htracks.start hsession hidle line⟩
  | act index =>
    obtain ⟨session, job, world, changed, hsession, hjob, hsteps, rfl⟩ := hstep.job_steps
    cases hsteps with
    | finish hprogram =>
      exact ⟨_, .finish hsession hjob hprogram,
        htracks.set_job htracks.proper hsession (fun _ => rfl) (by rintro running ⟨⟩)⟩
    | act hprogram hrun =>
      obtain ⟨deed, facts, rfl, hdeed, hafter⟩ := htracks.act hsession hjob hprogram hrun
      rw [Deed.effects_since_perform]
      exact ⟨_, .deed hsession hjob hprogram hrun hdeed, hafter⟩
    | wait hprogram hrun =>
      obtain ⟨effects, rfl, heffects, hafter⟩ := htracks.wait hsession hjob hprogram hrun
      have hsince : World.effects_since
          { pool.world with held := [.rooms], trace := pool.world.trace ++ effects } pool.world = effects :=
        List.drop_left
      rw [hsince]
      exact ⟨known, .jam hsession hjob hprogram hrun heffects, hafter⟩

/-- A session has the descriptor that it had before a turn, unless it is new. -/
theorem Moves.session_of_fact {later : Knowledge} (hmoves : Moves net pool known turn after later)
    (htracks : pool.Tracks net known) {index : Nat} {session : Session}
    (hsession : after.sessions[index]? = some session) {fact : Fact} (hfact : fact ∈ later index) :
    ∃ old, pool.sessions[index]? = some old ∧ old.client_fd = session.client_fd := by
  have hset : ∀ {world : World} {moved : Nat} {found : Session} {job : Option Job},
      pool.sessions[moved]? = some found →
      (pool.set_job world moved found.client_fd job).sessions[index]? = some session →
      ∃ old, pool.sessions[index]? = some old ∧ old.client_fd = session.client_fd := by
    intro world moved found job hfound hmoved
    rw [Pool.getElem?_set_job hfound] at hmoved
    split at hmoved
    · rename_i hsame
      cases hmoved
      exact ⟨found, hsame ▸ hfound, rfl⟩
    · exact ⟨session, hmoved, rfl⟩
  cases hmoves with
  | accept client_fd hclosed =>
    cases hold : pool.sessions[index]? with
    | none =>
      have hnothing := htracks.idle index (by simp [Pool.job, hold])
      rw [hnothing] at hfact
      cases hfact
    | some old =>
      have hbound := (List.getElem?_eq_some_iff.mp hold).1
      rw [List.getElem?_append_left hbound, hold] at hsession
      exact ⟨old, rfl, congrArg Session.client_fd (Option.some.inj hsession)⟩
  | start line hfound hidle => exact hset hfound hsession
  | finish hfound hjob hprogram => exact hset hfound hsession
  | deed hfound hjob hprogram hrun hstep => exact hset hfound hsession
  | jam hfound hjob hprogram hrun heffects => exact hset hfound hsession

/-- A handler that relies on a fact after a turn was in progress before it: it has
relied on the fact already, or it has taken the step that brings it. -/
theorem Moves.handler {later : Knowledge} (hmoves : Moves net pool known turn after later)
    (htracks : pool.Tracks net known) {index : Nat} {session : Session} {job : Job}
    (hsession : after.sessions[index]? = some session) (hjob : session.job = some job) {fact : Fact}
    (hfact : fact ∈ later index) :
    ∃ old running, pool.sessions[index]? = some old ∧ old.job = some running ∧ old.client_fd = session.client_fd ∧
      running.event = job.event ∧ running.effects <+: job.effects ∧
      (fact ∈ known index ∨ ∃ deed, turn = .act index ∧ after.world = Deed.perform deed pool.world ∧
        job.effects = running.effects ++ deed.effects ∧
        HandlerStep net old.client_fd running.event (known index) running.program pool.world.server deed
          (later index)) := by
  cases hmoves with
  | accept client_fd hclosed =>
    exact ⟨session, job, Pool.busy_of_accept hsession hjob, hjob, rfl, rfl, List.prefix_rfl, Or.inl hfact⟩
  | @start moved found line hfound hidle =>
    rw [Pool.getElem?_set_job hfound] at hsession
    by_cases hsame : index = moved
    · have hnothing : known moved = [] := htracks.idle moved (by rw [Pool.job_of_session hfound, hidle])
      rw [hsame, hnothing] at hfact
      cases hfact
    · rw [if_neg hsame] at hsession
      exact ⟨session, job, hsession, hjob, rfl, rfl, List.prefix_rfl, Or.inl hfact⟩
  | @finish moved found running hfound hrunning hprogram =>
    rw [Pool.getElem?_set_job hfound] at hsession
    by_cases hsame : index = moved
    · subst hsame
      rw [Function.update_self] at hfact
      cases hfact
    · rw [if_neg hsame] at hsession
      rw [Function.update_of_ne hsame] at hfact
      exact ⟨session, job, hsession, hjob, rfl, rfl, List.prefix_rfl, Or.inl hfact⟩
  | @deed moved found running A action next value deed facts hfound hrunning hprogram hrun hstep =>
    rw [Pool.getElem?_set_job hfound] at hsession
    by_cases hsame : index = moved
    · subst hsame
      rw [if_pos rfl] at hsession
      cases hsession
      cases hjob
      refine ⟨found, running, hfound, hrunning, rfl, rfl, List.prefix_append _ _, Or.inr ⟨deed, rfl, rfl, rfl, ?_⟩⟩
      rwa [Function.update_self]
    · rw [if_neg hsame] at hsession
      rw [Function.update_of_ne hsame] at hfact
      exact ⟨session, job, hsession, hjob, rfl, rfl, List.prefix_rfl, Or.inl hfact⟩
  | @jam moved found running A action next mutex effects hfound hrunning hprogram hrun heffects =>
    rw [Pool.getElem?_set_job hfound] at hsession
    by_cases hsame : index = moved
    · subst hsame
      rw [if_pos rfl] at hsession
      cases hsession
      cases hjob
      exact ⟨found, running, hfound, hrunning, rfl, rfl, List.prefix_append _ _, Or.inl hfact⟩
    · rw [if_neg hsame] at hsession
      exact ⟨session, job, hsession, hjob, rfl, rfl, List.prefix_rfl, Or.inl hfact⟩

/-- A turn is a deed of one handler, or it leaves the tables alone and brings no
facts. -/
theorem Moves.deed_or_quiet {later : Knowledge} (hmoves : Moves net pool known turn after later) :
    (after.world.server = pool.world.server ∧ ∀ index, later index ⊆ known index) ∨
    ∃ index session job deed facts, turn = .act index ∧ pool.sessions[index]? = some session ∧
      session.job = some job ∧ after.world = Deed.perform deed pool.world ∧
      HandlerStep net session.client_fd job.event (known index) job.program pool.world.server deed facts ∧
      later = Function.update known index facts := by
  cases hmoves with
  | accept client_fd hclosed => exact Or.inl ⟨rfl, fun index => List.Subset.refl _⟩
  | start line hsession hidle => exact Or.inl ⟨rfl, fun index => List.Subset.refl _⟩
  | finish hsession hjob hprogram =>
    refine Or.inl ⟨rfl, fun other => ?_⟩
    rename_i index session job
    by_cases hsame : other = index
    · subst hsame
      rw [Function.update_self]
      exact List.nil_subset _
    · rw [Function.update_of_ne hsame]
      exact List.Subset.refl _
  | deed hsession hjob hprogram hrun hstep => exact Or.inr ⟨_, _, _, _, _, rfl, hsession, hjob, rfl, hstep, rfl⟩
  | jam hsession hjob hprogram hrun heffects => exact Or.inl ⟨rfl, fun index => List.Subset.refl _⟩

/-- Everything that is said in a turn is said by a handler that relies on the facts
for it. -/
theorem Moves.said {later : Knowledge} (hmoves : Moves net pool known turn after later) {effect : Effect}
    (heffect : effect ∈ after.world.effects_since pool.world) :
    (∃ fd, effect = .accept fd) ∨ ∃ index session job, turn = .act index ∧ pool.sessions[index]? = some session ∧
      session.job = some job ∧
      ((∃ fd, effect = .close fd) ∨ Sends net (Sayable session.client_fd job.event (known index)) effect) := by
  cases hmoves with
  | accept client_fd hclosed =>
    have hsince : effect ∈ (pool.world.trace ++ [Effect.accept client_fd]).drop pool.world.trace.length := heffect
    rw [List.drop_left, List.mem_singleton] at hsince
    exact Or.inl ⟨client_fd, hsince⟩
  | start line hsession hidle =>
    have hsince : effect ∈ pool.world.trace.drop pool.world.trace.length := heffect
    simp at hsince
  | finish hsession hjob hprogram =>
    have hsince : effect ∈ pool.world.trace.drop pool.world.trace.length := heffect
    simp at hsince
  | deed hsession hjob hprogram hrun hstep =>
    have hsince : effect ∈ World.effects_since (Deed.perform _ pool.world) pool.world := heffect
    rw [Deed.effects_since_perform] at hsince
    exact Or.inr ⟨_, _, _, rfl, hsession, hjob, hstep.said effect hsince⟩
  | jam hsession hjob hprogram hrun heffects =>
    rename_i index session job A action next mutex effects
    have hsince : effect ∈ (pool.world.trace ++ effects).drop pool.world.trace.length := heffect
    rw [List.drop_left] at hsince
    obtain ⟨fd, message, trace, heq, hplain⟩ := heffects effect hsince
    exact Or.inr ⟨index, session, job, rfl, hsession, hjob, Or.inr ⟨fd, message, trace, heq, .plain fd hplain⟩⟩

/-- What was done on the sockets stays done. -/
theorem Moves.trace {later : Knowledge} (hmoves : Moves net pool known turn after later) :
    pool.world.trace <+: after.world.trace := by
  cases hmoves with
  | accept client_fd hclosed => exact List.prefix_append _ _
  | start line hsession hidle => exact List.prefix_rfl
  | finish hsession hjob hprogram => exact List.prefix_rfl
  | deed hsession hjob hprogram hrun hstep => exact List.prefix_append _ _
  | jam hsession hjob hprogram hrun heffects => exact List.prefix_append _ _

/-- A handler that is in progress after a turn was so before it, or the turn has
started it. -/
theorem Moves.event {later : Knowledge} (hmoves : Moves net pool known turn after later) {index : Nat}
    {session : Session} {job : Job} (hsession : after.sessions[index]? = some session) (hjob : session.job = some job) :
    ∃ old, pool.sessions[index]? = some old ∧ old.client_fd = session.client_fd ∧
      ((∃ running, old.job = some running ∧ running.event = job.event) ∨
        ∃ line, turn = .start index line ∧ job.event = .of_line session.client_fd line) := by
  have hset : ∀ {world : World} {moved : Nat} {found : Session} {changed : Option Job},
      pool.sessions[moved]? = some found →
      (pool.set_job world moved found.client_fd changed).sessions[index]? = some session →
      (index = moved ∧ found.client_fd = session.client_fd ∧ changed = some job) ∨
        pool.sessions[index]? = some session := by
    intro world moved found changed hfound hmoved
    rw [Pool.getElem?_set_job hfound] at hmoved
    split at hmoved
    · rename_i hsame
      cases hmoved
      exact Or.inl ⟨hsame, rfl, hjob⟩
    · exact Or.inr hmoved
  cases hmoves with
  | accept client_fd hclosed => exact ⟨session, Pool.busy_of_accept hsession hjob, rfl, Or.inl ⟨job, hjob, rfl⟩⟩
  | @start moved found line hfound hidle =>
    rcases hset hfound hsession with ⟨rfl, hfd, heq⟩ | hkept
    · cases heq
      exact ⟨found, hfound, hfd, Or.inr ⟨line, rfl, by rw [hfd]⟩⟩
    · exact ⟨session, hkept, rfl, Or.inl ⟨job, hjob, rfl⟩⟩
  | finish hfound hrunning hprogram =>
    rcases hset hfound hsession with ⟨rfl, hfd, heq⟩ | hkept
    · cases heq
    · exact ⟨session, hkept, rfl, Or.inl ⟨job, hjob, rfl⟩⟩
  | deed hfound hrunning hprogram hrun hstep =>
    rcases hset hfound hsession with ⟨rfl, hfd, heq⟩ | hkept
    · cases heq
      exact ⟨_, hfound, hfd, Or.inl ⟨_, hrunning, rfl⟩⟩
    · exact ⟨session, hkept, rfl, Or.inl ⟨job, hjob, rfl⟩⟩
  | jam hfound hrunning hprogram hrun heffects =>
    rcases hset hfound hsession with ⟨rfl, hfd, heq⟩ | hkept
    · cases heq
      exact ⟨_, hfound, hfd, Or.inl ⟨_, hrunning, rfl⟩⟩
    · exact ⟨session, hkept, rfl, Or.inl ⟨job, hjob, rfl⟩⟩

/-- The descriptors of the connections after a turn. -/
theorem Moves.client_fds {later : Knowledge} (hmoves : Moves net pool known turn after later) :
    pool.client_fds <+: after.client_fds := by
  cases hmoves with
  | accept client_fd hclosed => exact ⟨[client_fd], by simp [Pool.client_fds]⟩
  | start line hfound hidle => exact (Pool.client_fds_set_job hfound).symm ▸ List.prefix_rfl
  | finish hfound hjob hprogram => exact (Pool.client_fds_set_job hfound).symm ▸ List.prefix_rfl
  | deed hfound hjob hprogram hrun hstep => exact (Pool.client_fds_set_job hfound).symm ▸ List.prefix_rfl
  | jam hfound hjob hprogram hrun heffects => exact (Pool.client_fds_set_job hfound).symm ▸ List.prefix_rfl

/-- With descriptors that are never used twice, a descriptor tells the session. -/
theorem index_eq_of_client_fd_eq (hfds : pool.client_fds.Nodup) {first second : Nat} {session other : Session}
    (hfirst : pool.sessions[first]? = some session) (hsecond : pool.sessions[second]? = some other)
    (hsame : session.client_fd = other.client_fd) : first = second := by
  have hbound := (List.getElem?_eq_some_iff.mp hfirst).1
  refine (List.getElem?_inj (by simpa [Pool.client_fds] using hbound) hfds).mp ?_
  simp [Pool.client_fds, hfirst, hsecond, hsame]

/-- The rule for runs of the pool. A property of the tables, of the history and of
the facts that holds at the start and is kept by every turn that meets a
condition holds after every run of such turns. -/
theorem pool_invariant {C : Pool → Turn → Prop} {I : List (Pool × Turn) → Pool → Knowledge → Prop}
    {history : List (Pool × Turn)} (hrun : PoolRun net history pool)
    (hturns : ∀ moment ∈ history, C moment.1 moment.2) (hstart : I [] pool_init fun _ => [])
    (hstep : ∀ history before known turn after later, before.Tracks net known → after.Tracks net later →
      I history before known → C before turn → PoolStep net before turn after →
      Moves net before known turn after later → I ((before, turn) :: history) after later) :
    ∃ known, pool.Tracks net known ∧ I history pool known := by
  refine hrun.history_invariant_under (I := fun history pool => ∃ known, pool.Tracks net known ∧ I history pool known)
    hturns ⟨_, tracks_init, hstart⟩ ?_
  rintro history before turn after ⟨known, htracks, hholds⟩ hnow hstepped
  obtain ⟨later, hmoves, hlater⟩ := htracks.moves hstepped
  exact ⟨later, hlater, hstep history before known turn after later htracks hlater hholds hnow hstepped hmoves⟩

theorem pool_tracks {history : List (Pool × Turn)} (hrun : PoolRun net history pool) :
    ∃ known, pool.Tracks net known := by
  obtain ⟨known, htracks, -⟩ := pool_invariant (C := fun _ _ => True) (I := fun _ _ _ => True) hrun
    (fun _ _ => trivial) trivial fun _ _ _ _ _ _ _ _ _ _ _ _ => trivial
  exact ⟨known, htracks⟩

/-- Descriptors that are not used twice up to a turn were not before it. -/
theorem PoolStep.nodup {history : List (Pool × Turn)} (hstep : PoolStep net pool turn after)
    (hrun : PoolRun net history pool) (hfds : after.client_fds.Nodup) : pool.client_fds.Nodup := by
  obtain ⟨known, htracks⟩ := pool_tracks hrun
  obtain ⟨later, hmoves, -⟩ := htracks.moves hstep
  exact hfds.sublist hmoves.client_fds.sublist

end Tracking

end ojalvo
