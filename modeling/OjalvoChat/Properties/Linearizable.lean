import OjalvoChat.Concurrency.Serial
import OjalvoChat.Concurrency.Talking
import OjalvoChat.Protocol.Views

namespace ojalvo

/-- A line that begins is talk. -/
def Pool.Talks (pool : Pool) (turn : Turn) : Prop :=
  match turn with
  | .start index line => ∃ session msg_in, pool.sessions[index]? = some session ∧ line = some msg_in ∧
      msg_in.Talks pool.world.server session.client_fd
  | _ => True

instance (server : Server) (client_fd : Fd) (msg_in : Message) : Decidable (msg_in.Talks server client_fd) :=
  decidable_of_iff (msg_in.type ∈ talk_types ∧ (server.users.find_by_client_fd client_fd).isSome ∧
    msg_in.Given fun text => text.isSome)
    ⟨fun htalks => ⟨htalks.1, htalks.2.1, htalks.2.2⟩, fun htalks => ⟨htalks.type, htalks.registered, htalks.given⟩⟩

instance (pool : Pool) (turn : Turn) : Decidable (pool.Talks turn) :=
  match turn with
  | .accept _ => isTrue trivial
  | .start index line =>
    decidable_of_iff ((pool.sessions[index]?).any (fun session =>
      line.any fun msg_in => decide (msg_in.Talks pool.world.server session.client_fd)) = true)
      (by simp [Pool.Talks, Option.any_eq_true])
  | .act _ => isTrue trivial

/-- The session that takes a turn. -/
def Pool.moved (pool : Pool) (turn : Turn) : Nat :=
  match turn with
  | .accept _ => pool.sessions.length
  | .start index _ => index
  | .act index => index

/-- The events of a session that have begun, newest first. -/
def started (index : Nat) (history : List (Pool × Turn)) : List Event :=
  history.filterMap fun moment =>
    if moment.1.moved moment.2 = index then moment.1.event moment.2 else none

/-- One event of a session, processed to its end. -/
def ServedFor (net : Net) (before : World) (event : Nat × Event) (after : World) : Prop :=
  Served net before event.2 after

/-- The events of a session among those that were processed, newest first. -/
def served (index : Nat) (serial : List (World × (Nat × Event))) : List Event :=
  serial.filterMap fun step => if step.2.1 = index then some step.2.2 else none

/-- What a session has begun is served, and what it is at work on may be. -/
def Pool.UpToDate (history : List (Pool × Turn)) (pool : Pool) (serial : List (World × (Nat × Event))) : Prop :=
  ∀ index, started index history = served index serial ∨
    ∃ job, pool.job index = some job ∧ started index history = job.event :: served index serial

/-- An order in which all that has begun in a history was processed: event after
event it leads to the same world, and its beginnings do for the history's own. -/
structure Linearizes (net : Net) (start : Pool) (history : List (Pool × Turn)) (pool : Pool)
    (serial : List (World × (Nat × Event))) : Prop where
  serial_run : Run (ServedFor net) start.world serial pool.world
  up_to_date : pool.UpToDate history serial
  in_time : ∀ recent past, history = recent ++ past → ∃ middle old new, serial = new ++ old ∧
    Run (PoolStep net) start past middle ∧ Run (ServedFor net) start.world old middle.world ∧ middle.UpToDate past old

section Stages

variable {server : Server} {start pool after : Pool} {history : List (Pool × Turn)} {turn : Turn}

/-- How far a session is: it waits for a line, or its request is before the action
that counts, or behind it. -/
inductive SessionStage (server : Server) (begun done : List Event) : Option Job → Prop where
  | idle (hdone : begun = done) : SessionStage server begun done none
  | pending {job : Job} (hcommits : job.program.Commits (At server))
    (hrun : ∀ world, At server world → job.program.run world = (serve reliable job.event).run world)
    (hdone : begun = job.event :: done) : SessionStage server begun done (some job)
  | settled {job : Job} (hsettles : job.program.Settles (At server)) (hdone : begun = done) :
    SessionStage server begun done (some job)

/-- How far all sessions are. -/
structure Pool.Staged (server : Server) (history : List (Pool × Turn)) (pool : Pool)
    (serial : List (World × (Nat × Event))) : Prop where
  world_at : At server pool.world
  stage : ∀ index, SessionStage server (started index history) (served index serial) (pool.job index)

theorem Pool.Staged.up_to_date {serial : List (World × (Nat × Event))} (hstaged : pool.Staged server history serial) :
    pool.UpToDate history serial := by
  intro index
  have hstage := hstaged.stage index
  generalize pool.job index = job at hstage ⊢
  cases hstage with
  | idle hdone => exact Or.inl hdone
  | pending hcommits hrun hdone => exact Or.inr ⟨_, rfl, hdone⟩
  | settled hsettles hdone => exact Or.inl hdone

theorem started_cons (index : Nat) (pool : Pool) (turn : Turn) (history : List (Pool × Turn)) :
    started index ((pool, turn) :: history) =
      (if pool.moved turn = index then (pool.event turn).toList else []) ++ started index history := by
  unfold started
  split_ifs with hsame
  · cases hevent : pool.event turn <;> simp [hsame, hevent]
  · simp [hsame]

/-- No request begins with an action. -/
theorem started_act (index moved : Nat) (pool : Pool) (history : List (Pool × Turn)) :
    started index ((pool, .act moved) :: history) = started index history := by
  simp [started_cons, Pool.event]

theorem served_cons (index : Nat) (world : World) (moved : Nat) (event : Event)
    (serial : List (World × (Nat × Event))) :
    served index ((world, (moved, event)) :: serial) =
      if moved = index then event :: served index serial else served index serial := by
  unfold served
  split_ifs with hsame <;> simp [hsame]

/-- A request begins before the action that counts. -/
theorem SessionStage.begin {begun done : List Event} (hstage : SessionStage server begun done none) {client_fd : Fd}
    {msg_in : Message} (htalks : msg_in.Talks server client_fd) :
    SessionStage server (.request client_fd msg_in :: begun) done (some (.begun reliable client_fd (some msg_in))) := by
  cases hstage with
  | idle hdone => exact .pending (commits_serve htalks) (fun _ _ => rfl) (congrArg _ hdone)

/-- A turn of a handler: its request takes effect, or nothing does. -/
theorem SessionStage.act {begun done : List Event} {job : Job} (hstage : SessionStage server begun done (some job))
    {world later : World} (hat : At server world) {changed : Option Job} (hsteps : job.Steps world later changed) :
    At server later ∧ (later = world ∧ SessionStage server begun done changed ∨
      Served reliable world job.event later ∧ SessionStage server begun (job.event :: done) changed) := by
  cases hstage with
  | pending hcommits hserve hdone =>
    have hnow := hserve world hat
    cases hsteps with
    | finish hret =>
      rw [hret] at hnow
      exact ⟨hat, Or.inr ⟨hnow.symm, .idle hdone⟩⟩
    | @act B action next value _ hact hrun =>
      rw [hact] at hcommits hserve hnow
      rcases hcommits.act hat hrun with ⟨rfl, hnext, hsame⟩ | ⟨hlater, hnext, result, hresult⟩
      · exact ⟨hat, Or.inl ⟨rfl, .pending hnext (fun other hother => (hsame other hother).trans (hserve other hother))
          hdone⟩⟩
      · exact ⟨hlater, Or.inr ⟨hnow.symm.trans hresult, .settled hnext hdone⟩⟩
    | wait hact hrun =>
      rw [hact] at hcommits
      rcases hcommits with ⟨value, hread, -⟩ | hvisible
      · rw [hread world hat] at hrun
        cases hrun
      · obtain ⟨value, answered, hok, -⟩ := hvisible world hat
        rw [hok] at hrun
        cases hrun
  | settled hsettles hdone =>
    cases hsteps with
    | finish hret => exact ⟨hat, Or.inl ⟨rfl, .idle hdone⟩⟩
    | act hact hrun =>
      rw [hact] at hsettles
      obtain ⟨value, hread, hnext⟩ := hsettles
      rw [hread world hat] at hrun
      cases hrun
      exact ⟨hat, Or.inl ⟨rfl, .settled hnext hdone⟩⟩
    | wait hact hrun =>
      rw [hact] at hsettles
      obtain ⟨value, hread, -⟩ := hsettles
      rw [hread world hat] at hrun
      cases hrun

/-- A turn, and the event that takes effect in it, if one does. -/
theorem PoolStep.staged {serial : List (World × (Nat × Event))} (hstep : PoolStep reliable pool turn after)
    (htalks : pool.Talks turn) (hstaged : pool.Staged server history serial) :
    ∃ more, Run (ServedFor reliable) pool.world more after.world ∧
      after.Staged server ((pool, turn) :: history) (more ++ serial) := by
  have hat := hstaged.world_at
  cases turn with
  | accept client_fd =>
    obtain ⟨-, rfl⟩ := hstep.accepted
    refine ⟨[(pool.world, (pool.sessions.length, .accept client_fd))], .step .start rfl, ?_, fun index => ?_⟩
    · rw [hat]
      rfl
    · have hstage := hstaged.stage index
      rw [Pool.job_accept, started_cons, List.singleton_append, served_cons, Pool.moved, Pool.event]
      split_ifs with hnew
      · have hnone : pool.job index = none := by simp [Pool.job, ← hnew]
        rw [hnone] at hstage ⊢
        cases hstage with
        | idle hdone => exact .idle (congrArg _ hdone)
      · exact hstage
  | start index line =>
    obtain ⟨session, hsession, hidle, rfl⟩ := hstep.begun
    obtain ⟨_, msg_in, hfound, rfl, htalk⟩ := htalks
    obtain rfl := Option.some.inj (hsession.symm.trans hfound)
    refine ⟨[], .start, hat, fun other => ?_⟩
    have hstage := hstaged.stage other
    have hserver : pool.world.server = server := by rw [hat]
    rw [Pool.job_set_job hsession, started_cons, List.nil_append, Pool.moved]
    by_cases hsame : index = other
    · subst hsame
      rw [Pool.job_of_session hsession, hidle] at hstage
      rw [if_pos rfl, if_pos rfl, Pool.event, hsession]
      exact hstage.begin (hserver ▸ htalk)
    · rw [if_neg hsame, if_neg (Ne.symm hsame)]
      exact hstage
  | act index =>
    obtain ⟨session, job, world, changed, hsession, hjob, hsteps, rfl⟩ := hstep.job_steps
    have hstage := hstaged.stage index
    rw [Pool.job_of_session hsession, hjob] at hstage
    obtain ⟨hlater, heffect⟩ := hstage.act hat hsteps
    rcases heffect with ⟨rfl, hchanged⟩ | ⟨hserved, hchanged⟩
    · refine ⟨[], .start, hlater, fun other => ?_⟩
      rw [Pool.job_set_job hsession, started_act, List.nil_append]
      split_ifs with hsame
      · exact hsame ▸ hchanged
      · exact hstaged.stage other
    · refine ⟨[(pool.world, (index, job.event))], .step .start hserved, hlater, fun other => ?_⟩
      rw [Pool.job_set_job hsession, started_act, List.singleton_append, served_cons]
      by_cases hsame : index = other
      · subst hsame
        rw [if_pos rfl, if_pos rfl]
        exact hchanged
      · rw [if_neg hsame, if_neg (Ne.symm hsame)]
        exact hstaged.stage other

/-- At first every session waits for a line. -/
theorem staged_start (hat : At server start.world) (hquiet : start.Quiescent) : start.Staged server [] [] where
  world_at := hat
  stage index := by
    rw [hquiet.job_eq_none index]
    exact .idle rfl

/-- A serial order goes on with what takes effect in a turn. -/
theorem Linearizes.step {serial more : List (World × (Nat × Event))}
    (hlinearizes : Linearizes reliable start history pool serial) (hrun : Run (PoolStep reliable) start history pool)
    (hstep : PoolStep reliable pool turn after) (hmore : Run (ServedFor reliable) pool.world more after.world)
    (hdone : after.UpToDate ((pool, turn) :: history) (more ++ serial)) :
    Linearizes reliable start ((pool, turn) :: history) after (more ++ serial) where
  serial_run := hlinearizes.serial_run.trans hmore
  up_to_date := hdone
  in_time recent past hsplit := by
    cases recent with
    | nil =>
      rw [List.nil_append] at hsplit
      subst hsplit
      exact ⟨after, more ++ serial, [], rfl, hrun.step hstep, hlinearizes.serial_run.trans hmore, hdone⟩
    | cons moment recent =>
      obtain ⟨-, hrest⟩ := List.cons.inj hsplit
      obtain ⟨middle, old, new, rfl, hpast⟩ := hlinearizes.in_time recent past hrest
      exact ⟨middle, old, more ++ new, (List.append_assoc _ _ _).symm, hpast⟩

end Stages

/-- On a net without failures and with every broadcast as one step, talk is atomic:
however the handlers of registered clients that talk and ask who is there are
interleaved, each request takes effect at one moment between its beginning and its
end, as if it were alone. -/
theorem talk_is_linearizable {earlier history : List (Pool × Turn)} {start pool : Pool}
    (hreached : PoolRun reliable earlier start) (hcomplete : ∀ moment ∈ earlier, moment.2.Complete)
    (hquiet : start.Quiescent) (hrun : Run (PoolStep reliable) start history pool)
    (htalks : ∀ moment ∈ history, moment.1.Talks moment.2) :
    ∃ serial, Linearizes reliable start history pool serial := by
  have hidle := (pool_goes hreached hcomplete).idle
  suffices hstaged : Run (PoolStep reliable) start history pool ∧
      ∃ serial, pool.Staged start.world.server history serial ∧ Linearizes reliable start history pool serial by
    obtain ⟨-, serial, -, hlinearizes⟩ := hstaged
    exact ⟨serial, hlinearizes⟩
  refine hrun.history_invariant_under (I := fun history pool => Run (PoolStep reliable) start history pool ∧
    ∃ serial, pool.Staged start.world.server history serial ∧ Linearizes reliable start history pool serial)
    htalks ⟨.start, [], staged_start hidle hquiet, ?_⟩ ?_
  · have hdone := (staged_start hidle hquiet).up_to_date
    refine ⟨.start, hdone, fun recent past hsplit => ?_⟩
    obtain ⟨-, rfl⟩ := List.append_eq_nil_iff.mp hsplit.symm
    exact ⟨start, [], [], rfl, .start, .start, hdone⟩
  · rintro history before turn after ⟨hearlier, serial, hstaged, hlinearizes⟩ hnow hstep
    obtain ⟨more, hmore, hlater⟩ := hstep.staged hnow hstaged
    exact ⟨hearlier.step hstep, more ++ serial, hlater, hlinearizes.step hearlier hstep hmore hlater.up_to_date⟩

/-- Two clients identify, one after the other. -/
def acquaintances : List Turn :=
  [.accept 4, .accept 5, .start 0 (some { message_init with type := .IDENTIFY, username := some (.lit "ana") })] ++
  List.replicate 12 (.act 0) ++
  [.start 1 (some { message_init with type := .IDENTIFY, username := some (.lit "luis") })] ++
  List.replicate 12 (.act 1)

/-- They write to all and to each other at once. -/
def chatter : List Turn := [
  .start 0 (some { message_init with type := .PUBLIC_TEXT, text := some (.lit "hola") }),
  .start 1 (some { message_init with type := .TEXT, username := some (.lit "ana"), text := some (.lit "hola") })] ++
  (List.replicate 7 [.act 0, .act 1]).flatten

/-- A test: all was talk, and the two were at it together. -/
def chatted (history : List (Pool × Turn)) (pool : Pool) : Bool :=
  (history.all fun moment => decide (moment.1.Talks moment.2)) &&
    decide ((history.filter fun moment => (moment.1.job 0).isSome && (moment.1.job 1).isSome).length = 13 ∧
      (received 4 pool.world.trace).length = 3)

theorem talk_is_linearizable_at_chatter :
    ∃ start history pool, Run (PoolStep reliable) start history pool ∧
      ((history.filter fun moment => (moment.1.job 0).isSome && (moment.1.job 1).isSome).length = 13 ∧
        (received 4 pool.world.trace).length = 3) ∧
      ∃ serial, Linearizes reliable start history pool serial := by
  obtain ⟨earlier, start, hreached, htest⟩ := exists_pool_run reliable acquaintances
    (fun earlier start => (earlier.all fun moment => decide moment.2.Complete) &&
      (start.sessions.all fun session => session.job.isNone) &&
      (Run.follow (pool_step reliable) chatter [] start).any fun run => chatted run.1 run.2) (by decide +kernel)
  obtain ⟨hbefore, hchatter⟩ := Bool.and_eq_true_iff.mp htest
  obtain ⟨hcomplete, hidle⟩ := Bool.and_eq_true_iff.mp hbefore
  obtain ⟨history, pool, hrun, hovertalk⟩ := exists_run_from reliable start chatter chatted hchatter
  obtain ⟨htalks, hshown⟩ := Bool.and_eq_true_iff.mp hovertalk
  refine ⟨start, history, pool, hrun, of_decide_eq_true hshown, talk_is_linearizable hreached ?_ ?_ hrun ?_⟩
  · exact fun moment hmoment => of_decide_eq_true (List.all_eq_true.mp hcomplete moment hmoment)
  · exact fun session hsession => Option.isNone_iff_eq_none.mp (List.all_eq_true.mp hidle session hsession)
  · exact fun moment hmoment => of_decide_eq_true (List.all_eq_true.mp htalks moment hmoment)

end ojalvo
