import OjalvoChat.Concurrency.Contenders
import OjalvoChat.Library.Contest

namespace ojalvo

namespace Prize

/-- Some threads have just been started for requests for the prize, which is free.
Their clients may ask for it, and have connections of their own. -/
structure Sought (prize : Prize) (pool : Pool) (contenders : List Nat) : Prop where
  idle : pool.world = .idle pool.world.server pool.world.trace
  valid : prize.Valid
  free : prize.taken pool.world.server = false
  contested : contenders ≠ []
  started : ∀ i ∈ contenders, ∃ session msg_in, pool.sessions[i]? = some session ∧ prize.Requested msg_in ∧
    prize.Eligible session.client_fd pool.world.server ∧ session.job = some {
      event := .request session.client_fd msg_in
      effects := []
      program := serve reliable (.request session.client_fd msg_in) }
  distinct : ∀ i ∈ contenders, ∀ j ∈ contenders, pool.client_fds[i]? = pool.client_fds[j]? → i = j

/-- The answers that a connection has got between two states. -/
def told (prize : Prize) (before after : Pool) (index : Nat) : List CString :=
  match after.sessions[index]? with
  | some session => prize.answers session.client_fd (after.world.effects_since before.world)
  | none => []

/-- One contender is told that it has the prize, and every other one that it is too
late. -/
def Answered (prize : Prize) (contenders : List Nat) (before after : Pool) : Prop :=
  ∃ winner ∈ contenders, prize.told before after winner = [.lit "SUCCESS"] ∧
    ∀ other ∈ contenders, other ≠ winner → prize.told before after other = [prize.refusal]

instance (prize : Prize) (contenders : List Nat) (before after : Pool) :
    Decidable (prize.Answered contenders before after) :=
  inferInstanceAs (Decidable (∃ winner ∈ contenders, _ ∧ _))

/-- A handler is about to take the prize when somebody has it already. -/
def Late (prize : Prize) (pool : Pool) (turn : Turn) : Prop :=
  ∃ index job, turn = .act index ∧ pool.job index = some job ∧ job.program.Next prize.Claims ∧
    prize.taken pool.world.server = true

/-- A contender is at a point of its plan, and has got the answers for it. -/
structure Contends (prize : Prize) (before pool : Pool) (session : Session) (stage : Stage) : Prop where
  relies : prize.Relies session.client_fd stage pool.world.server
  told : prize.answers session.client_fd (pool.world.effects_since before.world) = prize.said stage
  busy : ∀ job, session.job = some job → Races prize session.client_fd stage job.program
  finished : session.job = none → stage.Final

end Prize

/-- The state of a race that began in an earlier state. -/
structure Pool.Racing (prize : Prize) (contenders : List Nat) (before : Pool) (history : List (Pool × Turn))
    (pool : Pool) (stage : Nat → Stage) : Prop where
  idle : pool.world = .idle pool.world.server pool.world.trace
  trace : before.world.trace <+: pool.world.trace
  client_fds : pool.client_fds = before.client_fds
  contest : Contest (prize.taken pool.world.server) stage
  outside : ∀ i, i ∉ contenders → stage i = .checking
  contends : ∀ i ∈ contenders, ∀ session, pool.sessions[i]? = some session →
    prize.Contends before pool session (stage i)
  missed : ∀ i, stage i = .missed ↔ ∃ moment ∈ history, moment.2 = .act i ∧ prize.Late moment.1 moment.2

section Race

variable {prize : Prize} {contenders : List Nat} {before pool after : Pool} {history : List (Pool × Turn)}
  {stage : Nat → Stage} {index : Nat}

theorem Prize.Sought.racing (hsought : prize.Sought before contenders) :
    Pool.Racing prize contenders before [] before fun _ => .checking where
  idle := hsought.idle
  trace := List.prefix_rfl
  client_fds := rfl
  contest := hsought.free ▸ Contest.start fun _ => rfl
  outside _ _ := rfl
  contends i hi session hsession := by
    obtain ⟨found, msg_in, hfound, hrequested, heligible, hjob⟩ := hsought.started i hi
    obtain rfl := Option.some.inj (hfound.symm.trans hsession)
    refine ⟨?_, ?_, fun job hrunning => ?_, fun hnone => absurd (hjob.symm.trans hnone) nofun⟩
    · cases prize with
      | name username =>
        refine Or.inr ⟨heligible, fun user huser => ?_⟩
        have hfree := hsought.free
        rw [Prize.taken, huser] at hfree
        cases hfree
      | room roomname => exact heligible
    · rw [World.effects_since, List.drop_length]
      rfl
    · obtain rfl := Option.some.inj (hjob.symm.trans hrunning)
      exact races_serve hsought.valid hrequested
  missed i := iff_of_false nofun fun ⟨moment, hmem, _⟩ => absurd hmem List.not_mem_nil

theorem Prize.late_act_iff {session : Session} {job : Job} (hsession : pool.sessions[index]? = some session)
    (hjob : session.job = some job) :
    prize.Late pool (.act index) ↔ job.program.Next prize.Claims ∧ prize.taken pool.world.server = true := by
  have hrunning : pool.job index = some job := (Pool.job_of_session hsession).trans hjob
  constructor
  · rintro ⟨moved, running, hturn, hfound, hlate⟩
    cases hturn
    obtain rfl := Option.some.inj (hrunning.symm.trans hfound)
    exact hlate
  · exact fun hlate => ⟨index, job, rfl, hrunning, hlate⟩

/-- What a deed adds to what has been done since an earlier state. -/
theorem Deed.effects_since {world earlier : World} (htrace : earlier.trace <+: world.trace) (deed : Deed) :
    (deed.perform world).effects_since earlier = world.effects_since earlier ++ deed.effects :=
  List.drop_append_of_le_length htrace.length_le

theorem Pool.Racing.set_job {session : Session} {job : Job} {deed : Deed} {later : Stage} {changed : Option Job}
    (hracing : Pool.Racing prize contenders before history pool stage) (hsought : prize.Sought before contenders)
    (hindex : index ∈ contenders) (hsession : pool.sessions[index]? = some session) (hjob : session.job = some job)
    (hstep : RaceStep prize session.client_fd job.program pool.world.server (stage index) deed later)
    (hbusy : ∀ running, changed = some running → Races prize session.client_fd later running.program)
    (hfinished : changed = none → later.Final) :
    Pool.Racing prize contenders before ((pool, .act index) :: history)
      (pool.set_job (deed.perform pool.world) index session.client_fd changed) (Function.update stage index later) where
  idle := by
    change deed.perform pool.world = .idle (deed.perform pool.world).server (deed.perform pool.world).trace
    rw [hracing.idle]
    rfl
  trace := hracing.trace.trans (List.prefix_append _ _)
  client_fds := (Pool.client_fds_set_job hsession).trans hracing.client_fds
  contest := hracing.contest.step hstep.contest
  outside i hi := by
    have hne : i ≠ index := fun hsame => hi (hsame ▸ hindex)
    rw [Function.update_of_ne hne]
    exact hracing.outside i hi
  contends i hi found hfound := by
    rw [Pool.getElem?_set_job hsession] at hfound
    by_cases hsame : i = index
    · subst hsame
      rw [if_pos rfl] at hfound
      cases hfound
      have hown := hracing.contends i hi session hsession
      rw [Function.update_self]
      refine ⟨hstep.relies hown.relies, ?_, hbusy, hfinished⟩
      have hsince := Deed.effects_since hracing.trace deed
      change prize.answers session.client_fd ((deed.perform pool.world).effects_since before.world) = _
      rw [hsince, Prize.answers, List.filterMap_append]
      exact (congrArg (· ++ _) hown.told).trans hstep.answers.1
    · rw [if_neg hsame] at hfound
      have hown := hracing.contends i hi found hfound
      have hother : found.client_fd ≠ session.client_fd := by
        intro hfd
        refine hsame (hsought.distinct i hi index hindex ?_)
        rw [← hracing.client_fds]
        simp [Pool.client_fds, hfound, hsession, hfd]
      rw [Function.update_of_ne hsame]
      refine ⟨hstep.relies_other hother hown.relies, ?_, hown.busy, hown.finished⟩
      have hsince := Deed.effects_since hracing.trace deed
      change prize.answers found.client_fd ((deed.perform pool.world).effects_since before.world) = _
      rw [hsince, Prize.answers, List.filterMap_append]
      exact (congrArg (_ ++ ·) (hstep.answers.2 _ hother)).trans ((List.append_nil _).trans hown.told)
  missed i := by
    have hmissed := hstep.missed_iff ((hracing.contends index hindex session hsession).busy job hjob)
    by_cases hsame : i = index
    · subst hsame
      rw [Function.update_self, hmissed, hracing.missed i, List.exists_mem_cons_iff, or_comm]
      exact or_congr_left ((Prize.late_act_iff hsession hjob).symm.trans (and_iff_right rfl).symm)
    · rw [Function.update_of_ne hsame, hracing.missed i, List.exists_mem_cons_iff]
      refine (or_iff_right ?_).symm
      rintro ⟨hturn, -⟩
      cases hturn
      exact hsame rfl

/-- A turn of a contender is a step of the race. -/
theorem Pool.Racing.step (hracing : Pool.Racing prize contenders before history pool stage)
    (hsought : prize.Sought before contenders) (hindex : index ∈ contenders)
    (hstep : PoolStep reliable pool (.act index) after) :
    ∃ later, Pool.Racing prize contenders before ((pool, .act index) :: history) after later := by
  obtain ⟨session, job, world, changed, hsession, hjob, hsteps, rfl⟩ := hstep.job_steps
  have hown := hracing.contends index hindex session hsession
  have hraces := hown.busy job hjob
  cases hsteps with
  | finish hprogram =>
    have hdone : Deed.look.perform pool.world = pool.world := by simp [Deed.perform, Deed.apply, Deed.effects]
    have hfinal : (stage index).Final := hraces.pledged () hprogram
    have hrests : RaceStep prize session.client_fd job.program pool.world.server (stage index) .look (stage index) :=
      .notice _ [] (fun _ => rfl) fun _ hclaims => by
        rw [hprogram] at hclaims
        exact hclaims
    have hset : Pool.Racing prize contenders before ((pool, .act index) :: history)
        (pool.set_job (Deed.look.perform pool.world) index session.client_fd none)
        (Function.update stage index (stage index)) :=
      hracing.set_job hsought hindex hsession hjob hrests (fun running hnone => by cases hnone) fun _ => hfinal
    rw [hdone] at hset
    exact ⟨_, hset⟩
  | act hprogram hrun =>
    have hact := hraces
    rw [hprogram] at hact
    have hdeed := hact.2 pool.world ⟨hracing.idle, hown.relies⟩
    rw [hrun] at hdeed
    obtain ⟨later, ⟨deed, rfl, htakes⟩, hnext⟩ := hdeed
    rw [← hprogram] at htakes
    refine ⟨_, hracing.set_job hsought hindex hsession hjob htakes (fun running hrunning => ?_)
      fun hnone => by cases hnone⟩
    cases hrunning
    exact hnext
  | wait hprogram hrun =>
    have hact := hraces
    rw [hprogram] at hact
    have hjams := hact.2 pool.world ⟨hracing.idle, hown.relies⟩
    rw [hrun] at hjams
    exact False.elim hjams

/-- The rule for races: every turn is a step of the contest. -/
theorem racing_of_run (hrun : Run (PoolStep reliable) before history pool) (hsought : prize.Sought before contenders)
    (hturns : ∀ moment ∈ history, ∃ i ∈ contenders, moment.2 = .act i) :
    ∃ stage, Pool.Racing prize contenders before history pool stage := by
  refine hrun.history_invariant_under (C := fun _ turn => ∃ i ∈ contenders, turn = .act i)
    (I := fun history pool => ∃ stage, Pool.Racing prize contenders before history pool stage)
    hturns ⟨_, hsought.racing⟩ ?_
  rintro history before turn after ⟨stage, hracing⟩ ⟨i, hi, rfl⟩ hstep
  exact hracing.step hsought hi hstep

/-- A contender in progress can always take its turn, which brings it forward. -/
theorem Pool.Racing.proceeds {job : Job} (hracing : Pool.Racing prize contenders before history pool stage)
    (hindex : index ∈ contenders) (hjob : pool.job index = some job) :
    ∃ after, PoolStep reliable pool (.act index) after ∧ (∀ other, other ≠ index → after.job other = pool.job other) ∧
      ((job.program = .ret () ∧ after.job index = none) ∨
        ∃ (A : Type) (action : Action A) (next : A → Handler Unit) (value : A) (running : Job),
          job.program = .act action next ∧ after.job index = some running ∧ running.program = next value) := by
  obtain ⟨session, hsession, hrunning⟩ := Option.bind_eq_some_iff.mp hjob
  have hown := hracing.contends index hindex session hsession
  have hraces := hown.busy job hrunning
  have hkept : ∀ {world : World} {changed : Option Job} (other : Nat), other ≠ index →
      (pool.set_job world index session.client_fd changed).job other = pool.job other :=
    fun other hother => (Pool.job_set_job hsession other).trans (if_neg hother)
  cases hprogram : job.program with
  | ret value =>
    have hstep : job.step pool.world = some (pool.world, none) := by rw [Job.step, hprogram]
    exact ⟨_, poolStep_of_step hsession hrunning hstep, hkept,
      Or.inl ⟨rfl, (Pool.job_set_job hsession index).trans (if_pos rfl)⟩⟩
  | act action next =>
    rw [hprogram] at hraces
    have hact := hraces.2 pool.world ⟨hracing.idle, hown.relies⟩
    cases hrun : action.run pool.world with
    | error why stopped =>
      rw [hrun] at hact
      exact False.elim hact
    | ok value world =>
      let running : Job :=
        { job with effects := job.effects ++ world.effects_since pool.world, program := next value }
      have hstep : job.step pool.world = some (world, some running) := by
        rw [Job.step, hprogram]
        simp only [hrun]
        rfl
      exact ⟨_, poolStep_of_step hsession hrunning hstep, hkept,
        Or.inr ⟨_, action, next, value, running, rfl, (Pool.job_set_job hsession index).trans (if_pos rfl), rfl⟩⟩

/-- Turns of some contenders, others left alone, go on with a race until they have
finished. -/
def Pool.Finishes (prize : Prize) (contenders : List Nat) (before : Pool) (history : List (Pool × Turn)) (pool : Pool)
    (ending : List Nat) : Prop :=
  ∃ newer after later, Run (PoolStep reliable) pool newer after ∧ (∀ moment ∈ newer, ∃ i ∈ ending, moment.2 = .act i) ∧
    Pool.Racing prize contenders before (newer ++ history) after later ∧ (∀ i ∈ ending, after.job i = none) ∧
    ∀ other, pool.job other = none → after.job other = none

theorem Pool.Racing.finishes_of_done {ending : List Nat}
    (hracing : Pool.Racing prize contenders before history pool stage) (hdone : ∀ i ∈ ending, pool.job i = none) :
    Pool.Finishes prize contenders before history pool ending :=
  ⟨[], pool, stage, .start, List.forall_mem_nil _, hracing, hdone, fun _ => id⟩

theorem Pool.Finishes.of_step {ending : List Nat} (hstep : PoolStep reliable pool (.act index) after)
    (hindex : index ∈ ending) (hkept : ∀ other, pool.job other = none → after.job other = none)
    (hfinishes : Pool.Finishes prize contenders before ((pool, .act index) :: history) after ending) :
    Pool.Finishes prize contenders before history pool ending := by
  obtain ⟨newer, last, later, hrun, hturns, hracing, hdone, hothers⟩ := hfinishes
  refine ⟨newer ++ [(pool, .act index)], last, later, (Run.start.step hstep).trans hrun, fun moment hmem => ?_, ?_,
    hdone, fun other hother => hothers other (hkept other hother)⟩
  · rcases List.mem_append.mp hmem with hnewer | hfirst
    · exact hturns moment hnewer
    · rw [List.mem_singleton.mp hfirst]
      exact ⟨index, hindex, rfl⟩
  · rw [List.append_assoc]
    exact hracing

/-- A contender that is left alone comes to its end. -/
theorem Pool.Racing.finishes_one (hracing : Pool.Racing prize contenders before history pool stage)
    (hsought : prize.Sought before contenders) (hindex : index ∈ contenders) :
    Pool.Finishes prize contenders before history pool [index] := by
  cases hjob : pool.job index with
  | none => exact hracing.finishes_of_done (List.forall_mem_singleton.mpr hjob)
  | some job =>
    have hstill : ∀ {now after : Pool} {running : Job}, now.job index = some running →
        (∀ other, other ≠ index → after.job other = now.job other) →
        ∀ other, now.job other = none → after.job other = none := by
      intro now after running hrunning hkept other hother
      have hne : other ≠ index := by
        rintro rfl
        cases hrunning.symm.trans hother
      rw [hkept other hne, hother]
    generalize hprogram : job.program = program
    induction program generalizing pool history stage job with
    | ret value =>
      obtain ⟨after, hstep, hkept, ⟨-, hdone⟩ | ⟨A, action, next, answer, running, hact, -⟩⟩ :=
        hracing.proceeds hindex hjob
      · obtain ⟨later, hlater⟩ := hracing.step hsought hindex hstep
        exact .of_step hstep List.mem_cons_self (hstill hjob hkept)
          (hlater.finishes_of_done (List.forall_mem_singleton.mpr hdone))
      · cases hprogram.symm.trans hact
    | act action next ih =>
      obtain ⟨after, hstep, hkept, ⟨hret, -⟩ | ⟨A, body, rest, answer, running, hact, hrunning, hnext⟩⟩ :=
        hracing.proceeds hindex hjob
      · cases hprogram.symm.trans hret
      · cases hprogram.symm.trans hact
        obtain ⟨later, hlater⟩ := hracing.step hsought hindex hstep
        exact .of_step hstep List.mem_cons_self (hstill hjob hkept) (ih answer hlater running hrunning hnext)

/-- Nobody gets stuck in a race: from every point of it, turns of the contenders
lead to its end. -/
theorem Pool.Racing.finishes (hracing : Pool.Racing prize contenders before history pool stage)
    (hsought : prize.Sought before contenders) {ending : List Nat} (hending : ending ⊆ contenders) :
    Pool.Finishes prize contenders before history pool ending := by
  induction ending generalizing pool history stage with
  | nil => exact hracing.finishes_of_done (List.forall_mem_nil _)
  | cons index rest ih =>
    obtain ⟨hindex, hrest⟩ := List.cons_subset.mp hending
    obtain ⟨newer, after, later, hrun, hturns, hlater, hdone, hothers⟩ := hracing.finishes_one hsought hindex
    obtain ⟨newest, last, final, hmore, hmoves, hfinal, hfinished, hstill⟩ := ih hlater hrest
    refine ⟨newest ++ newer, last, final, hrun.trans hmore, fun moment hmem => ?_, ?_, ?_,
      fun other hother => hstill other (hothers other hother)⟩
    · rcases List.mem_append.mp hmem with hnewest | hnewer
      · obtain ⟨i, hi, hturn⟩ := hmoves moment hnewest
        exact ⟨i, List.mem_cons_of_mem _ hi, hturn⟩
      · obtain ⟨i, hi, hturn⟩ := hturns moment hnewer
        rw [List.mem_singleton] at hi
        exact ⟨i, hi ▸ List.mem_cons_self, hturn⟩
    · rw [List.append_assoc]
      exact hfinal
    · exact List.forall_mem_cons.mpr ⟨hstill index (hdone index List.mem_cons_self), hfinished⟩

/-- The answers of the contenders when all have finished. -/
theorem Pool.Racing.answered_iff (hracing : Pool.Racing prize contenders before history pool stage)
    (hsought : prize.Sought before contenders) (hdone : ∀ i ∈ contenders, pool.job i = none) :
    prize.Answered contenders before pool ↔ ∀ i ∈ contenders, stage i ≠ .missed := by
  have hpoint : ∀ i ∈ contenders, prize.told before pool i = prize.said (stage i) ∧ (stage i).Final := by
    intro i hi
    obtain ⟨started, msg_in, hstarted, -⟩ := hsought.started i hi
    have hfd : pool.client_fds[i]? = some started.client_fd := by
      rw [hracing.client_fds]
      simp [Pool.client_fds, hstarted]
    rw [Pool.client_fds, List.getElem?_map] at hfd
    obtain ⟨session, hsession, -⟩ := Option.map_eq_some_iff.mp hfd
    have hown := hracing.contends i hi session hsession
    refine ⟨?_, hown.finished ((Pool.job_of_session hsession).symm.trans (hdone i hi))⟩
    rw [Prize.told, hsession]
    exact hown.told
  rw [← hracing.contest.decided_iff hsought.contested hracing.outside fun i hi => (hpoint i hi).2]
  refine exists_congr fun winner => and_congr_right fun hwinner => and_congr ?_ ?_
  · rw [(hpoint winner hwinner).1]
    exact prize.said_success_iff
  · refine forall_congr' fun other => forall_congr' fun hother => imp_congr_right fun _ => ?_
    rw [(hpoint other hother).1]
    exact prize.said_refusal_iff

/-- In every race that has come to its end, one contender gets the prize and the
others are refused, if and only if nobody was late. -/
theorem race_is_answered_iff (hsought : prize.Sought before contenders)
    (hrun : Run (PoolStep reliable) before history after)
    (hturns : ∀ moment ∈ history, ∃ i ∈ contenders, moment.2 = .act i)
    (hdone : ∀ i ∈ contenders, after.job i = none) :
    prize.Answered contenders before after ↔ ∀ moment ∈ history, ¬ prize.Late moment.1 moment.2 := by
  obtain ⟨stage, hracing⟩ := racing_of_run hrun hsought hturns
  rw [hracing.answered_iff hsought hdone]
  constructor
  · intro hnone moment hmem hlate
    obtain ⟨i, hi, hturn⟩ := hturns moment hmem
    exact hnone i hi ((hracing.missed i).mpr ⟨moment, hmem, hturn, hlate⟩)
  · intro hnever i hi hmissed
    obtain ⟨moment, hmem, -, hlate⟩ := (hracing.missed i).mp hmissed
    exact hnever moment hmem hlate

/-- Every race can be brought to its end, whatever has happened in it so far. -/
theorem race_ends (hsought : prize.Sought before contenders) (hrun : Run (PoolStep reliable) before history pool)
    (hturns : ∀ moment ∈ history, ∃ i ∈ contenders, moment.2 = .act i) :
    ∃ newer after, Run (PoolStep reliable) before (newer ++ history) after ∧
      (∀ moment ∈ newer, ∃ i ∈ contenders, moment.2 = .act i) ∧ ∀ i ∈ contenders, after.job i = none := by
  obtain ⟨stage, hracing⟩ := racing_of_run hrun hsought hturns
  obtain ⟨newer, after, later, hmore, hmoves, -, hdone, -⟩ := hracing.finishes hsought (List.Subset.refl _)
  exact ⟨newer, after, hrun.trans hmore, hmoves, hdone⟩

end Race

section Examples

def ana : Message := { message_init with type := .IDENTIFY, username := some (.lit "ana") }

/-- Two clients have asked for one name. -/
def two_of_a_name : Pool where
  world := .idle server_init [.accept 4, .accept 5]
  sessions := [4, 5].map fun client_fd => {
    client_fd
    job := some {
      event := .request client_fd ana
      effects := []
      program := serve reliable (.request client_fd ana) } }

theorem two_of_a_name_reached : ∃ history, PoolRun reliable history two_of_a_name :=
  ⟨[(_, .start 1 (some ana)), (_, .start 0 (some ana)), (_, .accept 5), (_, .accept 4)],
    .step (.step (.step (.step .start rfl) rfl) rfl) rfl⟩

theorem two_of_a_name_sought : (Prize.name (.lit "ana")).Sought two_of_a_name [0, 1] where
  idle := rfl
  valid := (by decide : 0 < strlen (.lit "ana") ∧ strlen (.lit "ana") ≤ 8)
  free := rfl
  contested := nofun
  started i hi := by
    rcases List.mem_pair.mp hi with rfl | rfl
    · exact ⟨_, ana, rfl, ⟨rfl, rfl⟩, rfl, rfl⟩
    · exact ⟨_, ana, rfl, ⟨rfl, rfl⟩, rfl, rfl⟩
  distinct := by decide

/-- A test: all contenders have finished, after turns of theirs only. -/
def ended (contenders : List Nat) (history : List (Pool × Turn)) (pool : Pool) : Bool :=
  contenders.all (fun i => (pool.job i).isNone) && history.all fun moment : Pool × Turn =>
    match moment.2 with
    | .act i => decide (i ∈ contenders)
    | _ => false

theorem ends_of_ended {contenders : List Nat} {history : List (Pool × Turn)} {pool : Pool}
    (htest : ended contenders history pool = true) :
    (∀ moment ∈ history, ∃ i ∈ contenders, moment.2 = .act i) ∧ ∀ i ∈ contenders, pool.job i = none := by
  rw [ended, Bool.and_eq_true] at htest
  refine ⟨fun moment hmem => ?_, fun i hi => Option.isNone_iff_eq_none.mp (List.all_eq_true.mp htest.1 i hi)⟩
  have hturn := List.all_eq_true.mp htest.2 moment hmem
  split at hturn
  · rename_i i hact
    exact ⟨i, of_decide_eq_true hturn, hact⟩
  · cases hturn

/-- A test: the prize is free, or the turn does not take it. -/
def in_time (prize : Prize) (pool : Pool) (turn : Turn) : Bool :=
  !prize.taken pool.world.server || match turn with
    | .act index => (pool.job index).all fun job =>
      match job.program with
      | .ret _ => true
      | .act action _ =>
        match action.run (.idle server_init []) with
        | .ok _ after => !prize.taken after.server
        | .error _ _ => true
    | _ => true

theorem not_late_of_in_time {prize : Prize} {pool : Pool} {turn : Turn} (htest : in_time prize pool turn = true) :
    ¬ prize.Late pool turn := by
  rintro ⟨index, job, rfl, hjob, hnext, htaken⟩
  cases hprogram : job.program with
  | ret value =>
    rw [hprogram] at hnext
    exact hnext
  | act action next =>
    rw [hprogram] at hnext
    obtain ⟨value, after, hrun, hafter⟩ := hnext server_init [] prize.free_init
    simp [in_time, htaken, hjob, hprogram, hrun, hafter] at htest

/-- The one has registered before the other looks. -/
theorem race_is_answered_in_turn : ∃ history after, Run (PoolStep reliable) two_of_a_name history after ∧
    (Prize.name (.lit "ana")).Answered [0, 1] two_of_a_name after := by
  obtain ⟨history, after, hrun, htest⟩ := exists_run_from reliable two_of_a_name
    (List.replicate 4 (.act 0) ++ List.replicate 10 (.act 1) ++ List.replicate 8 (.act 0))
    (fun history after => ended [0, 1] history after &&
      history.all fun moment : Pool × Turn => in_time (.name (.lit "ana")) moment.1 moment.2)
    (by decide +kernel)
  rw [Bool.and_eq_true] at htest
  obtain ⟨hturns, hdone⟩ := ends_of_ended htest.1
  exact ⟨history, after, hrun, (race_is_answered_iff two_of_a_name_sought hrun hturns hdone).mpr
    fun moment hmem => not_late_of_in_time (List.all_eq_true.mp htest.2 moment hmem)⟩

/-- Both have looked before either registers: the second one gets no answer. -/
theorem race_leaves_one_unanswered :
    ¬ ∀ (prize : Prize) (earlier : List (Pool × Turn)) (before : Pool) (contenders : List Nat)
      (history : List (Pool × Turn)) (after : Pool), PoolRun reliable earlier before →
      prize.Sought before contenders → Run (PoolStep reliable) before history after →
      (∀ moment ∈ history, ∃ i ∈ contenders, moment.2 = .act i) → (∀ i ∈ contenders, after.job i = none) →
      prize.Answered contenders before after := by
  intro hclaim
  obtain ⟨earlier, hreached⟩ := two_of_a_name_reached
  obtain ⟨history, after, hrun, htest⟩ := exists_run_from reliable two_of_a_name
    (List.replicate 3 (.act 0) ++ List.replicate 3 (.act 1) ++ List.replicate 9 (.act 0) ++ List.replicate 2 (.act 1))
    (fun history after => ended [0, 1] history after &&
      !decide ((Prize.name (.lit "ana")).Answered [0, 1] two_of_a_name after))
    (by decide +kernel)
  rw [Bool.and_eq_true, Bool.not_eq_true', decide_eq_false_iff_not] at htest
  obtain ⟨hturns, hdone⟩ := ends_of_ended htest.1
  exact htest.2 (hclaim _ earlier _ _ history after hreached two_of_a_name_sought hrun hturns hdone)

end Examples

end ojalvo
