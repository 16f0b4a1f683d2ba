import OjalvoChat.Concurrency.Registration
import OjalvoChat.Concurrency.Texts
import OjalvoChat.Properties.Linearizable

namespace ojalvo

/-- An event that is no text to one client and no text to all. -/
def Event.Textless (event : Event) : Prop :=
  match event with
  | .request _ msg_in => msg_in.type ≠ .TEXT ∧ msg_in.type ≠ .PUBLIC_TEXT
  | _ => True

instance (event : Event) : Decidable event.Textless :=
  match event with
  | .accept _ => isTrue trivial
  | .request _ msg_in => inferInstanceAs (Decidable (msg_in.type ≠ .TEXT ∧ msg_in.type ≠ .PUBLIC_TEXT))
  | .invalid _ => isTrue trivial

instance (pair : Correspondents) (server : Server) : Decidable (pair.Present server) :=
  decidable_of_iff (server.Registered pair.sender_fd pair.sender ∧ server.Registered pair.reader_fd pair.reader ∧
    pair.sender_fd ≠ pair.reader_fd)
    ⟨fun hparts => ⟨hparts.1, hparts.2.1, hparts.2.2⟩,
      fun hpresent => ⟨hpresent.sender, hpresent.reader, hpresent.apart⟩⟩

/-- What the reader is to hear of a turn, when the sender has this session. -/
def Correspondents.said_in (pair : Correspondents) (index : Nat) (turn : Turn) : List Message :=
  match turn with
  | .start moved (some msg_in) => if moved = index then pair.passed_on msg_in else []
  | _ => []

/-- What the reader is to hear of a history, in the order of its turns. -/
def Correspondents.said_during (pair : Correspondents) (index : Nat) (history : List (Pool × Turn)) : List Message :=
  history.reverse.flatMap fun moment => pair.said_in index moment.2

theorem Correspondents.said_during_cons (pair : Correspondents) (index : Nat) (pool : Pool) (turn : Turn)
    (history : List (Pool × Turn)) :
    pair.said_during index ((pool, turn) :: history) = pair.said_during index history ++ pair.said_in index turn := by
  simp [Correspondents.said_during]

/-- How far the texts of a history are: some have been heard, and those that are
pending are the last ones, in the hands of the handler of the sender. -/
structure Pool.Conveys (start : Pool) (pair : Correspondents) (index : Nat) (history : List (Pool × Turn))
    (pool : Pool) (pending : List Message) : Prop where
  reached : ∃ effects, pool.world.trace = start.world.trace ++ effects ∧
    pair.said_during index history = heard pair.reader_fd pair.sender effects ++ pending
  tells : ∀ moved job, pool.job moved = some job → job.program.Tells pair (if moved = index then pending else [])
  short : pending.length ≤ 1
  idle : pool.job index = none → pending = []
  session : pool.client_fds[index]? = some pair.sender_fd

section Textless

variable {pool after : Pool} {turn : Turn}

/-- Handlers of events that are no texts pass on none. -/
def Pool.Hushes (pool : Pool) : Prop :=
  ∀ index job, pool.job index = some job → job.event.Textless → job.program.Each Hushed fun _ => True

theorem PoolStep.hushes (hstep : PoolStep reliable pool turn after) (hhushes : pool.Hushes) : after.Hushes := by
  intro other running hrunning htextless
  cases turn with
  | accept client_fd =>
    obtain ⟨-, rfl⟩ := hstep.accepted
    rw [Pool.job_accept] at hrunning
    exact hhushes other running hrunning htextless
  | start index line =>
    obtain ⟨session, hsession, hidle, rfl⟩ := hstep.begun
    rw [Pool.job_set_job hsession] at hrunning
    split at hrunning
    · cases hrunning
      refine hushed_serve fun msg_in hline => ?_
      rw [hline] at htextless
      exact htextless
    · exact hhushes other running hrunning htextless
  | act index =>
    obtain ⟨session, job, world, changed, hsession, hjob, hsteps, rfl⟩ := hstep.job_steps
    rw [Pool.job_set_job hsession] at hrunning
    split at hrunning
    · subst hrunning
      have hearlier := hhushes index job (by rw [Pool.job_of_session hsession, hjob])
      cases hsteps with
      | act hprogram hrun =>
        have hwhole := hearlier htextless
        rw [hprogram] at hwhole
        exact hwhole.2 _
      | wait hprogram hrun => exact hearlier htextless
    · exact hhushes other running hrunning htextless

end Textless

section Conveys

variable {start pool after : Pool} {pair : Correspondents} {index : Nat} {history : List (Pool × Turn)}
  {pending : List Message} {turn : Turn}

theorem Pool.client_fd_of_session {session : Session} (hsession : pool.sessions[index]? = some session) :
    pool.client_fds[index]? = some session.client_fd := by
  simp [Pool.client_fds, hsession]

/-- Only the session of the sender has its descriptor. -/
theorem Pool.Conveys.owner (hconveys : Pool.Conveys start pair index history pool pending)
    (hfds : pool.client_fds.Nodup) {moved : Nat} {session : Session} (hsession : pool.sessions[moved]? = some session) :
    session.client_fd = pair.sender_fd ↔ moved = index := by
  have hmoved := Pool.client_fd_of_session hsession
  constructor
  · intro hsame
    refine (List.getElem?_inj (List.getElem?_eq_some_iff.mp hmoved).1 hfds).mp ?_
    rw [hmoved, hconveys.session, hsame]
  · rintro rfl
    exact Option.some.inj (hmoved.symm.trans hconveys.session)

theorem Pool.Conveys.accept (hconveys : Pool.Conveys start pair index history pool pending) {client_fd : Fd}
    (hstep : PoolStep reliable pool (.accept client_fd) after) :
    Pool.Conveys start pair index ((pool, .accept client_fd) :: history) after pending := by
  obtain ⟨-, rfl⟩ := hstep.accepted
  refine ⟨?_, fun moved job hjob => ?_, hconveys.short, fun hidle => ?_, ?_⟩
  · obtain ⟨effects, htrace, hsaid⟩ := hconveys.reached
    refine ⟨effects ++ [.accept client_fd], by rw [htrace, List.append_assoc], ?_⟩
    rw [Correspondents.said_during_cons, heard_append, hsaid]
    simp [Correspondents.said_in, heard]
  · rw [Pool.job_accept] at hjob
    exact hconveys.tells moved job hjob
  · rw [Pool.job_accept] at hidle
    exact hconveys.idle hidle
  · have hbound := (List.getElem?_eq_some_iff.mp hconveys.session).1
    have hfds : Pool.client_fds { world := { pool.world with trace := pool.world.trace ++ [.accept client_fd] }
                                  sessions := pool.sessions ++ [{ client_fd, job := none }] } =
        pool.client_fds ++ [client_fd] := List.map_append
    rw [hfds, List.getElem?_append_left hbound]
    exact hconveys.session

theorem Correspondents.said_in_other {moved : Nat} (hother : moved ≠ index) (line : Option Message) :
    pair.said_in index (.start moved line) = [] := by
  cases line with
  | none => rfl
  | some msg_in => exact if_neg hother

theorem Correspondents.length_said_in (turn : Turn) : (pair.said_in index turn).length ≤ 1 := by
  unfold Correspondents.said_in Correspondents.passed_on
  repeat' split
  all_goals simp

/-- The handler of a line makes the reader hear what is to be heard of it. -/
theorem tells_line {moved : Nat} {line : Option Message} {client_fd : Fd} (hcomplete : (Turn.start moved line).Complete)
    (howner : client_fd = pair.sender_fd ↔ moved = index) :
    (serve reliable (.of_line client_fd line)).Tells pair (pair.said_in index (.start moved line)) := by
  cases line with
  | none => exact tells_of_hushed (hushed_serve fun msg_in hline => by cases hline)
  | some msg_in =>
    have hsaid : pair.said_in index (.start moved (some msg_in)) = pair.said client_fd msg_in := by
      simp only [Correspondents.said_in, Correspondents.said, howner]
    rw [hsaid]
    exact tells_serve hcomplete

/-- What the sender says is pending when its handler begins. -/
theorem Pool.Conveys.begin (hconveys : Pool.Conveys start pair index history pool pending)
    (hfds : pool.client_fds.Nodup) {moved : Nat} {line : Option Message} (hcomplete : (Turn.start moved line).Complete)
    (hstep : PoolStep reliable pool (.start moved line) after) :
    Pool.Conveys start pair index ((pool, .start moved line) :: history) after
      (pending ++ pair.said_in index (.start moved line)) := by
  obtain ⟨session, hsession, hidle, rfl⟩ := hstep.begun
  have hserve := tells_line hcomplete (hconveys.owner hfds hsession)
  -- the session was idle, so that nothing of its own was pending
  have hown : moved = index → pending = [] := fun hsame =>
    hconveys.idle (by rw [← hsame, Pool.job_of_session hsession, hidle])
  refine ⟨?_, fun other job hjob => ?_, ?_, fun hnone => ?_, ?_⟩
  · obtain ⟨effects, htrace, hsaid⟩ := hconveys.reached
    exact ⟨effects, htrace, by rw [Correspondents.said_during_cons, hsaid, List.append_assoc]⟩
  · rw [Pool.job_set_job hsession] at hjob
    split at hjob
    · rename_i hmoved
      cases hjob
      subst hmoved
      split
      · rename_i hsame
        rw [hown hsame]
        exact hserve
      · rename_i hother
        rw [Correspondents.said_in_other hother] at hserve
        exact hserve
    · rename_i hunmoved
      have htells := hconveys.tells other job hjob
      split
      · rename_i hsame
        rw [if_pos hsame] at htells
        rw [Correspondents.said_in_other (hsame ▸ Ne.symm hunmoved), List.append_nil]
        exact htells
      · rename_i hother
        rwa [if_neg hother] at htells
  · by_cases hsame : moved = index
    · rw [hown hsame]
      exact Correspondents.length_said_in _
    · rw [Correspondents.said_in_other hsame, List.append_nil]
      exact hconveys.short
  · rw [Pool.job_set_job hsession] at hnone
    split at hnone
    · cases hnone
    · rename_i hother
      rw [hconveys.idle hnone, Correspondents.said_in_other (Ne.symm hother)]
      rfl
  · rw [Pool.client_fds_set_job hsession]
    exact hconveys.session

/-- What a handler passes on in its turn is no longer left to tell. -/
theorem Job.Steps.tells {world later : World} {job : Job} {changed : Option Job} {texts : List Message}
    (hsteps : job.Steps world later changed) (htells : job.program.Tells pair texts) (hgoes : job.program.Goes)
    (hidle : world = .idle world.server world.trace) (hindexed : world.server.users.Indexed)
    (hpresent : pair.Present world.server) :
    ∃ effects rest, later.trace = world.trace ++ effects ∧ texts = heard pair.reader_fd pair.sender effects ++ rest ∧
      (changed = none → rest = []) ∧ ∀ running, changed = some running → running.program.Tells pair rest := by
  cases hsteps with
  | finish hprogram =>
    rw [hprogram] at htells
    exact ⟨[], texts, (List.append_nil _).symm, rfl, fun _ => htells, fun running hrunning => by cases hrunning⟩
  | act hprogram hrun =>
    rw [hprogram] at htells
    have htaken := htells.2 world ⟨hidle, hindexed, hpresent⟩
    rw [hrun] at htaken
    obtain ⟨rest, ⟨effects, htrace, htexts⟩, hnext⟩ := htaken
    refine ⟨effects, rest, htrace, htexts, fun hnone => (by cases hnone), fun running hrunning => ?_⟩
    cases hrunning
    exact hnext
  | wait hprogram hrun =>
    rw [hprogram] at hgoes
    have hnever := hgoes.2 world hidle
    rw [hrun] at hnever
    cases hnever

/-- What the handler of the sender passes on is no longer pending. -/
theorem Pool.Conveys.act (hconveys : Pool.Conveys start pair index history pool pending) (hgoes : pool.Goes)
    (hindexed : pool.world.server.users.Indexed) (hpresent : pair.Present pool.world.server) {moved : Nat}
    (hstep : PoolStep reliable pool (.act moved) after) :
    ∃ later, Pool.Conveys start pair index ((pool, .act moved) :: history) after later := by
  obtain ⟨session, job, world, changed, hsession, hjob, hsteps, rfl⟩ := hstep.job_steps
  have htells := hconveys.tells moved job (by rw [Pool.job_of_session hsession, hjob])
  obtain ⟨effects, rest, htrace, htexts, hdone, hlater⟩ := hsteps.tells htells
    (hgoes.goes session (List.mem_of_getElem? hsession) job hjob) hgoes.idle hindexed hpresent
  obtain ⟨before, hbefore, hsaid⟩ := hconveys.reached
  have hworld : world.trace = start.world.trace ++ (before ++ effects) := by
    rw [← List.append_assoc, ← hbefore, htrace]
  by_cases hsame : moved = index
  · subst hsame
    rw [if_pos rfl] at htexts
    refine ⟨rest, ⟨before ++ effects, hworld, ?_⟩, fun other running hrunning => ?_, ?_, fun hnone => ?_, ?_⟩
    · rw [Correspondents.said_during_cons, heard_append, hsaid, htexts]
      simp [Correspondents.said_in]
    · rw [Pool.job_set_job hsession] at hrunning
      split_ifs at hrunning ⊢ with hmoved
      · exact hlater running hrunning
      · have hkept := hconveys.tells other running hrunning
        rwa [if_neg hmoved] at hkept
    · have hshort := hconveys.short
      rw [htexts, List.length_append] at hshort
      omega
    · rw [Pool.job_set_job hsession, if_pos rfl] at hnone
      exact hdone hnone
    · rw [Pool.client_fds_set_job hsession]
      exact hconveys.session
  · rw [if_neg hsame] at htexts
    obtain ⟨hnothing, rfl⟩ := List.append_eq_nil_iff.mp htexts.symm
    refine ⟨pending, ⟨before ++ effects, hworld, ?_⟩, fun other running hrunning => ?_, hconveys.short,
      fun hnone => ?_, ?_⟩
    · rw [Correspondents.said_during_cons, heard_append, hsaid, hnothing]
      simp [Correspondents.said_in]
    · rw [Pool.job_set_job hsession] at hrunning
      split_ifs at hrunning with hmoved
      · rw [if_neg (hmoved ▸ hsame)]
        exact hlater running hrunning
      · exact hconveys.tells other running hrunning
    · rw [Pool.job_set_job hsession, if_neg (Ne.symm hsame)] at hnone
      exact hconveys.idle hnone
    · rw [Pool.client_fds_set_job hsession]
      exact hconveys.session

theorem PoolStep.conveys (hstep : PoolStep reliable pool turn after) (hgoes : pool.Goes)
    (hindexed : pool.world.server.users.Indexed) (hfds : pool.client_fds.Nodup) (hcomplete : turn.Complete)
    (hpresent : pair.Present pool.world.server) (hconveys : Pool.Conveys start pair index history pool pending) :
    ∃ later, Pool.Conveys start pair index ((pool, turn) :: history) after later := by
  cases turn with
  | accept client_fd => exact ⟨pending, hconveys.accept hstep⟩
  | start moved line => exact ⟨_, hconveys.begin hfds hcomplete hstep⟩
  | act moved => exact hconveys.act hgoes hindexed hpresent hstep

end Conveys

/-- On a net without failures, while two clients stay registered and as long as no
descriptor is used again, the reader hears every text that the sender sends to it or
to all, once, in the order in which they were sent, and nothing else in the name of
the sender; at most one text is under way, while its handler is in progress. It does
not matter what all other clients do meanwhile, and how the threads are interleaved. -/
theorem texts_arrive_once_in_order {earlier history : List (Pool × Turn)} {start pool : Pool} {pair : Correspondents}
    {index : Nat} (hreached : PoolRun reliable earlier start) (hcomplete : ∀ moment ∈ earlier, moment.2.Complete)
    (htextless : ∀ session ∈ start.sessions, ∀ job, session.job = some job → job.event.Textless)
    (hsession : start.client_fds[index]? = some pair.sender_fd) (hrun : Run (PoolStep reliable) start history pool)
    (hturns : ∀ moment ∈ history, moment.2.Complete ∧ pair.Present moment.1.world.server)
    (hfds : pool.client_fds.Nodup) :
    ∃ effects pending, pool.world.trace = start.world.trace ++ effects ∧
      pair.said_during index history = heard pair.reader_fd pair.sender effects ++ pending ∧
      pending.length ≤ 1 ∧ (pool.job index = none → pending = []) := by
  have hhushes : start.Hushes := hreached.invariant (I := Pool.Hushes)
    (fun index job hjob => by simp [Pool.job, pool_init] at hjob)
    fun before turn after hbefore hstep => hstep.hushes hbefore
  have hstart : Pool.Conveys start pair index [] start [] := by
    refine ⟨⟨[], (List.append_nil _).symm, rfl⟩, fun moved job hjob => ?_, Nat.zero_le _, fun _ => rfl, hsession⟩
    obtain ⟨session, hfound, hrunning⟩ := Option.bind_eq_some_iff.mp hjob
    rw [ite_self]
    exact tells_of_hushed
      (hhushes moved job hjob (htextless session (List.mem_of_getElem? hfound) job hrunning))
  obtain ⟨-, hconveys⟩ : (PoolRun reliable (history ++ earlier) pool ∧ pool.Goes) ∧
      (pool.client_fds.Nodup → ∃ pending, Pool.Conveys start pair index history pool pending) := by
    refine hrun.history_invariant_under (I := fun history pool =>
      (PoolRun reliable (history ++ earlier) pool ∧ pool.Goes) ∧
        (pool.client_fds.Nodup → ∃ pending, Pool.Conveys start pair index history pool pending))
      (C := fun pool turn => turn.Complete ∧ pair.Present pool.world.server)
      hturns ⟨⟨hreached, pool_goes hreached hcomplete⟩, fun _ => ⟨[], hstart⟩⟩ ?_
    rintro history before turn after ⟨⟨hbefore, hgoes⟩, hconveys⟩ ⟨hnow, hpresent⟩ hstep
    refine ⟨⟨hbefore.step hstep, hstep.goes hgoes hnow⟩, fun hnodup => ?_⟩
    have hdistinct := hstep.nodup hbefore hnodup
    obtain ⟨known, -, hindexed, -⟩ := pool_informed hbefore hdistinct
    obtain ⟨pending, hpending⟩ := hconveys hdistinct
    exact hstep.conveys hgoes hindexed hdistinct hnow hpresent hpending
  obtain ⟨pending, hpending⟩ := hconveys hfds
  obtain ⟨effects, htrace, hsaid⟩ := hpending.reached
  exact ⟨effects, pending, htrace, hsaid, hpending.short, hpending.idle⟩

/-- Ana and Luis, who reads what she says. -/
def ana_to_luis : Correspondents := { sender_fd := 4, sender := .lit "ana", reader_fd := 5, reader := .lit "luis" }

/-- She writes to all and then to him, while he writes to her. -/
def letters : List Turn := chatter ++ [
  .start 0 (some { message_init with type := .TEXT, username := some (.lit "luis"), text := some (.lit "adios") })] ++
  List.replicate 8 (.act 0)

/-- A test: both stay, and all threads come to their end. -/
def lettered (history : List (Pool × Turn)) (pool : Pool) : Bool :=
  (history.all fun moment => decide (moment.2.Complete ∧ ana_to_luis.Present moment.1.world.server)) &&
    decide (pool.client_fds.Nodup ∧ (pool.job 0).isNone ∧
      (ana_to_luis.said_during 0 history).map Message.text = [some (.lit "hola"), some (.lit "adios")])

theorem texts_arrive_once_in_order_in_letters :
    ∃ start history pool effects, Run (PoolStep reliable) start history pool ∧
      pool.world.trace = start.world.trace ++ effects ∧
      (heard 5 (.lit "ana") effects).map Message.text = [some (.lit "hola"), some (.lit "adios")] := by
  obtain ⟨earlier, start, hreached, htest⟩ := exists_pool_run reliable acquaintances
    (fun earlier start => (earlier.all fun moment => decide moment.2.Complete) &&
      ((start.sessions.all fun session => session.job.isNone) && decide (start.client_fds[0]? = some 4)) &&
      (Run.follow (pool_step reliable) letters [] start).any fun run => lettered run.1 run.2) (by decide +kernel)
  obtain ⟨hbefore, hletters⟩ := Bool.and_eq_true_iff.mp htest
  obtain ⟨hcomplete, hready⟩ := Bool.and_eq_true_iff.mp hbefore
  obtain ⟨hidle, hfirst⟩ := Bool.and_eq_true_iff.mp hready
  obtain ⟨history, pool, hrun, hlettered⟩ := exists_run_from reliable start letters lettered hletters
  obtain ⟨hturns, hshown⟩ := Bool.and_eq_true_iff.mp hlettered
  obtain ⟨hfds, hdone, hsaid⟩ := of_decide_eq_true hshown
  have hquiet : ∀ session ∈ start.sessions, ∀ job, session.job = some job → job.event.Textless := by
    intro session hsession job hjob
    rw [Option.isNone_iff_eq_none.mp (List.all_eq_true.mp hidle session hsession)] at hjob
    cases hjob
  have hbegun : start.client_fds[0]? = some ana_to_luis.sender_fd := of_decide_eq_true hfirst
  obtain ⟨effects, pending, htrace, htexts, -, hnothing⟩ := texts_arrive_once_in_order hreached
    (fun moment hmoment => of_decide_eq_true (List.all_eq_true.mp hcomplete moment hmoment)) hquiet hbegun hrun
    (fun moment hmoment => of_decide_eq_true (List.all_eq_true.mp hturns moment hmoment)) hfds
  rw [hnothing (Option.isNone_iff_eq_none.mp hdone), List.append_nil] at htexts
  exact ⟨start, history, pool, effects, hrun, htrace, (congrArg _ htexts.symm).trans hsaid⟩

end ojalvo
