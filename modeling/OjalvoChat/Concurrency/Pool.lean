import OjalvoChat.Descriptors
import OjalvoChat.Library.Script
import OjalvoChat.Protocol.Runs

namespace ojalvo

/-- A handler in progress: what it was started for, what it has done on the
sockets so far, and the actions that are left of it. -/
structure Job where
  event : Event
  effects : List Effect
  program : Handler Unit

/-- The thread of one connection. It handles one line at a time. -/
structure Session where
  client_fd : Fd
  job : Option Job

/-- The threads of all connections that were ever accepted, over the state that
they share. -/
structure Pool where
  world : World
  sessions : List Session

def pool_init : Pool where
  world := .idle server_init []
  sessions := []

/-- What happens next: a connection is accepted, a thread starts to handle a line
(a request, or a line that is no message), or a handler takes its next action. -/
inductive Turn where
  | accept (client_fd : Fd)
  | start (session : Nat) (line : Option Message)
  | act (session : Nat)

/-- The event of a line on a connection. -/
def Event.of_line (client_fd : Fd) (line : Option Message) : Event :=
  match line with
  | some msg_in => .request client_fd msg_in
  | none => .invalid client_fd

/-- What was done on the sockets between two worlds. -/
def World.effects_since (after before : World) : List Effect := after.trace.drop before.trace.length

def Pool.set_job (pool : Pool) (world : World) (index : Nat) (client_fd : Fd) (job : Option Job) : Pool where
  world
  sessions := pool.sessions.set index { client_fd, job }

/-- The next action of a handler. One that waits for a mutex tries again later,
and keeps what it has locked and sent up to there. -/
def Job.step (world : World) (job : Job) : Option (World × Option Job) :=
  match job.program with
  | .ret _ => some (world, none)
  | .act body next =>
    match body.run world with
    | .ok value after =>
      some (after, some { job with effects := job.effects ++ after.effects_since world, program := next value })
    | .error (.blocked _) stopped =>
      some (stopped, some { job with effects := job.effects ++ stopped.effects_since world })
    | .error _ _ => none

/-- One turn. `accept` hands out a descriptor that is not open. -/
def pool_step (net : Net) (pool : Pool) (turn : Turn) : Option Pool :=
  match turn with
  | .accept client_fd =>
    if is_open pool.world.trace client_fd then none
    else some {
      world := { pool.world with trace := pool.world.trace ++ [.accept client_fd] }
      sessions := pool.sessions ++ [{ client_fd, job := none }] }
  | .start index line => do
    let session ← pool.sessions[index]?
    match session.job with
    | some _ => none
    | none =>
      let event := Event.of_line session.client_fd line
      some (pool.set_job pool.world index session.client_fd (some { event, effects := [], program := serve net event }))
  | .act index => do
    let session ← pool.sessions[index]?
    let job ← session.job
    let (world, job) ← job.step pool.world
    some (pool.set_job world index session.client_fd job)

def PoolStep (net : Net) (before : Pool) (turn : Turn) (after : Pool) : Prop := pool_step net before turn = some after

/-- What a handler does in its turn: it is done, it takes an action, or it waits. -/
inductive Job.Steps (world : World) (job : Job) : World → Option Job → Prop where
  | finish (hprogram : job.program = .ret ()) : Job.Steps world job world none
  | act {A : Type} {action : Action A} {next : A → Handler Unit} {value : A} {after : World}
    (hprogram : job.program = .act action next) (hrun : action.run world = .ok value after) :
    Job.Steps world job after
      (some { job with effects := job.effects ++ after.effects_since world, program := next value })
  | wait {A : Type} {action : Action A} {next : A → Handler Unit} {mutex : Mutex} {stopped : World}
    (hprogram : job.program = .act action next) (hrun : action.run world = .error (.blocked mutex) stopped) :
    Job.Steps world job stopped (some { job with effects := job.effects ++ stopped.effects_since world })

theorem Job.steps_of_step {world after : World} {job : Job} {changed : Option Job}
    (hstep : job.step world = some (after, changed)) : job.Steps world after changed := by
  obtain ⟨event, effects, program⟩ := job
  cases program with
  | ret value =>
    simp only [Job.step, Option.some.injEq, Prod.mk.injEq] at hstep
    obtain ⟨rfl, rfl⟩ := hstep
    exact .finish rfl
  | act action next =>
    cases hrun : action.run world with
    | ok value stepped =>
      simp only [Job.step, hrun, Option.some.injEq, Prod.mk.injEq] at hstep
      obtain ⟨rfl, rfl⟩ := hstep
      exact .act rfl hrun
    | error why stopped =>
      cases why with
      | blocked mutex =>
        simp only [Job.step, hrun, Option.some.injEq, Prod.mk.injEq] at hstep
        obtain ⟨rfl, rfl⟩ := hstep
        exact .wait rfl hrun
      | _ => simp [Job.step, hrun] at hstep

/-- The turn of a handler is a step of its job. -/
theorem PoolStep.job_steps {net : Net} {before after : Pool} {index : Nat}
    (hstep : PoolStep net before (.act index) after) :
    ∃ session job world changed, before.sessions[index]? = some session ∧ session.job = some job ∧
      job.Steps before.world world changed ∧ after = before.set_job world index session.client_fd changed := by
  unfold PoolStep pool_step at hstep
  cases hsession : before.sessions[index]? with
  | none => simp [hsession] at hstep
  | some session =>
    cases hjob : session.job with
    | none => simp [hsession, hjob] at hstep
    | some job =>
      simp only [hsession, hjob, Option.bind_eq_bind, Option.bind_some] at hstep
      obtain ⟨⟨world, changed⟩, hstepped, hafter⟩ := Option.bind_eq_some_iff.mp hstep
      exact ⟨session, job, world, changed, rfl, hjob, Job.steps_of_step hstepped, (Option.some.inj hafter).symm⟩

/-- A connection is accepted on a descriptor that is not open. -/
theorem PoolStep.accepted {net : Net} {before after : Pool} {client_fd : Fd}
    (hstep : PoolStep net before (.accept client_fd) after) :
    is_open before.world.trace client_fd = false ∧ after = {
      world := { before.world with trace := before.world.trace ++ [.accept client_fd] }
      sessions := before.sessions ++ [{ client_fd, job := none }] } := by
  unfold PoolStep pool_step at hstep
  dsimp only at hstep
  split at hstep
  · cases hstep
  · rename_i hclosed
    cases hstep
    exact ⟨Bool.eq_false_iff.mpr hclosed, rfl⟩

/-- A session that is idle begins with a line. -/
theorem PoolStep.begun {net : Net} {before after : Pool} {index : Nat} {line : Option Message}
    (hstep : PoolStep net before (.start index line) after) :
    ∃ session, before.sessions[index]? = some session ∧ session.job = none ∧
      after = before.set_job before.world index session.client_fd (some {
        event := .of_line session.client_fd line
        effects := []
        program := serve net (.of_line session.client_fd line) }) := by
  unfold PoolStep pool_step at hstep
  cases hsession : before.sessions[index]? with
  | none => simp [hsession] at hstep
  | some session =>
    cases hidle : session.job with
    | some job => simp [hsession, hidle] at hstep
    | none =>
      simp only [hsession, hidle, Option.bind_eq_bind, Option.bind_some, Option.some.injEq] at hstep
      exact ⟨session, rfl, hidle, hstep.symm⟩

theorem poolStep_of_step {net : Net} {pool : Pool} {index : Nat} {session : Session} {job : Job} {world : World}
    {changed : Option Job} (hsession : pool.sessions[index]? = some session) (hjob : session.job = some job)
    (hstep : job.step pool.world = some (world, changed)) :
    PoolStep net pool (.act index) (pool.set_job world index session.client_fd changed) := by
  simp [PoolStep, pool_step, hsession, hjob, hstep]

/-- Interleavings of the handlers of all connections, from the initial state. -/
abbrev PoolRun (net : Net) (history : List (Pool × Turn)) (pool : Pool) : Prop :=
  Run (PoolStep net) pool_init history pool

/-- No handler is in progress. -/
def Pool.Quiescent (pool : Pool) : Prop := ∀ session ∈ pool.sessions, session.job = none

/-- The descriptors of all connections, in the order of their acceptance. -/
def Pool.client_fds (pool : Pool) : List Fd := pool.sessions.map Session.client_fd

/-- The handler that a session has in progress. -/
def Pool.job (pool : Pool) (index : Nat) : Option Job := do
  let session ← pool.sessions[index]?
  session.job

/-- A net on which exactly the sends to open descriptors succeed. -/
def connected : Net := fun trace fd _ => is_open trace fd

/-- A test: nobody but the handler that takes the turn is in progress. -/
def Pool.undisturbed (pool : Pool) (turn : Turn) : Bool :=
  (List.range pool.sessions.length).all fun index =>
    (match turn with
      | .act moved => decide (moved = index)
      | _ => false) || (pool.job index).isNone

theorem Pool.job_of_undisturbed {pool : Pool} {turn : Turn} (htest : pool.undisturbed turn = true) {index : Nat}
    (hother : turn ≠ .act index) : pool.job index = none := by
  by_cases hindex : index < pool.sessions.length
  · have hidle := List.all_eq_true.mp htest index (List.mem_range.mpr hindex)
    rw [Bool.or_eq_true, Option.isNone_iff_eq_none] at hidle
    refine hidle.resolve_left fun hmoved => ?_
    cases turn with
    | act moved => exact hother (by rw [of_decide_eq_true hmoved])
    | _ => cases hmoved
  · simp [Pool.job, Nat.le_of_not_lt hindex]

/-- A test of what some turns lead to finds a run. -/
theorem exists_run_from (net : Net) (start : Pool) (turns : List Turn) (test : List (Pool × Turn) → Pool → Bool)
    (htest : (Run.follow (pool_step net) turns [] start).any (fun run => test run.1 run.2) = true) :
    ∃ history pool, Run (PoolStep net) start history pool ∧ test history pool = true :=
  Run.exists_of_follow (fun _ _ _ => id) turns test htest

theorem exists_pool_run (net : Net) (turns : List Turn) (test : List (Pool × Turn) → Pool → Bool)
    (htest : (Run.follow (pool_step net) turns [] pool_init).any (fun run => test run.1 run.2) = true) :
    ∃ history pool, PoolRun net history pool ∧ test history pool = true :=
  exists_run_from net pool_init turns test htest

end ojalvo
