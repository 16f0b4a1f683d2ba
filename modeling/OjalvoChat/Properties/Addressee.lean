import OjalvoChat.Concurrency.Registration
import OjalvoChat.Library.Since

namespace ojalvo

/-- Nobody takes the descriptor of an addressee out of `server->users`, or hands it
out again, while a handler that has found the addressee has the text to send. -/
def AddresseesStay (net : Net) (before : Pool) (turn : Turn) : Prop :=
  ∀ after, PoolStep net before turn after → ∀ index job fd, before.job index = some job →
    Handler.Committed fd job.program → turn ≠ .accept fd ∧
      ∀ username, before.world.server.Registered fd username → after.world.server.Registered fd username

/-- A handler has found a descriptor under a name, and ever since the name has been
registered with it and the descriptor has not been handed out again. -/
def Reached (index : Nat) (fd : Fd) (username : CString) (history : List (Pool × Turn)) (pool : Pool) : Prop :=
  Since
    (fun _ before turn => turn = .act index ∧
      ∃ user, before.world.server.users.find_by_username username = some user ∧ user.socket_fd = fd)
    (fun _ turn => turn ≠ .accept fd) (fun pool => pool.world.server.Registered fd username) history pool

/-- Every handler with a text to send has found the addressee. -/
def Pool.Addressed (history : List (Pool × Turn)) (pool : Pool) (known : Knowledge) : Prop :=
  ∀ index session job, pool.sessions[index]? = some session → session.job = some job →
    ∀ user, .addressee user ∈ known index → job.event.message.type = .TEXT ∧
      ∃ username, job.event.message.username = some username ∧ Reached index user.socket_fd username history pool

section Runs

variable {net : Net} {history : List (Pool × Turn)} {before after : Pool} {turn : Turn}

theorem Moves.named_users {known later : Knowledge} (hmoves : Moves net before known turn after later)
    (hnamed : before.world.server.users.Named) : after.world.server.users.Named := by
  rcases hmoves.deed_or_quiet with ⟨hserver, -⟩ | ⟨index, session, job, deed, facts, -, -, -, hworld, -, -⟩
  · exact hserver ▸ hnamed
  · rw [hworld]
    exact Deed.named_users hnamed deed

theorem Moves.addressed {known later : Knowledge} (hmoves : Moves net before known turn after later)
    (htracks : before.Tracks net known) (hnamed : before.world.server.users.Named)
    (hstep : PoolStep net before turn after) (hstay : AddresseesStay net before turn)
    (haddressed : before.Addressed history known) : after.Addressed ((before, turn) :: history) later := by
  intro index session job hsession hjob user hfact
  obtain ⟨old, running, hold, hrunning, -, hevent, -, hkept | ⟨deed, rfl, hworld, -, hown⟩⟩ :=
    hmoves.handler htracks hsession hjob hfact
  · rw [← hevent]
    obtain ⟨htype, username, hname, hreached⟩ := haddressed index old running hold hrunning user hkept
    have hpledged := (htracks.busy index old running hold hrunning).2.pledged _ hkept
    obtain ⟨hstays, hregistered⟩ :=
      hstay after hstep index running user.socket_fd (by rw [Pool.job_of_session hold, hrunning]) hpledged
    exact ⟨htype, username, hname, hreached.last hstays (hregistered username hreached.now)⟩
  · rw [← hevent]
    rcases hown.kept _ hfact with ⟨hkept, effects, rfl⟩ | ⟨rfl, htype, username, hname, hfound⟩
    · obtain ⟨htype, username, hname, hreached⟩ := haddressed index old running hold hrunning user hkept
      refine ⟨htype, username, hname, hreached.last nofun ?_⟩
      rw [hworld]
      exact hreached.now
    · refine ⟨htype, username, hname, .begin ⟨rfl, user, hfound, rfl⟩ ?_⟩
      rw [hworld]
      exact hnamed.lists_iff_lookup.mpr ⟨user, hfound, rfl⟩

/-- A private text reaches only a connection that is registered under the name
that it is addressed to, and that has been so since the sender's handler found it. -/
theorem texts_reach_addressee (hrun : PoolRun net history before) (hstep : PoolStep net before turn after)
    (hturns : ∀ moment ∈ history, AddresseesStay net moment.1 moment.2) {fd : Fd} {message : Message} {sent : Bool}
    (hsent : Effect.send fd message sent ∈ after.world.effects_since before.world) (htext : message.type = .TEXT_FROM) :
    ∃ index job username, turn = .act index ∧ before.job index = some job ∧ job.event.message.type = .TEXT ∧
      job.event.message.username = some username ∧ before.world.server.Registered fd username ∧
      Reached index fd username history before := by
  obtain ⟨known, htracks, -, haddressed⟩ := pool_invariant (C := AddresseesStay net)
    (I := fun history pool known => pool.world.server.users.Named ∧ pool.Addressed history known) hrun hturns
    ⟨UsersTable.named_init, fun index session job hsession => by simp [pool_init] at hsession⟩
    fun history before known turn after later htracks _ hbefore hstay hstep hmoves =>
      ⟨hmoves.named_users hbefore.1, hmoves.addressed htracks hbefore.1 hstep hstay hbefore.2⟩
  obtain ⟨later, hmoves, -⟩ := htracks.moves hstep
  rcases hmoves.said hsent with ⟨_, heq⟩ | ⟨index, session, job, rfl, hsession, hjob, hsaid⟩
  · cases heq
  rcases hsaid with ⟨_, heq⟩ | ⟨_, _, trace, heq, hsayable⟩
  · cases heq
  cases heq
  obtain ⟨user, rfl, haddressee⟩ := hsayable.addressee htext
  obtain ⟨htype, username, hname, hreached⟩ := haddressed index session job hsession hjob user haddressee
  exact ⟨index, job, username, rfl, by rw [Pool.job_of_session hsession, hjob], htype, hname, hreached.now, hreached⟩

end Runs

section Examples

/-- Two clients register, and the first begins to write to the second, up to the
point where it has found its record. -/
def private_text : List Turn :=
  let identify (username : CString) : Message := { message_init with type := .IDENTIFY, username := some username }
  let text : Message := { message_init with type := .TEXT, username := some (.lit "luis"), text := some (.lit "hola") }
  [.accept 4, .accept 5, .start 0 (some (identify (.lit "ana")))] ++ List.replicate 12 (.act 0) ++
    .start 1 (some (identify (.lit "luis"))) :: List.replicate 12 (.act 1) ++
    .start 0 (some text) :: List.replicate 2 (.act 0)

/-- A test for `AddresseesStay`: nobody is unregistered, and no connection is accepted
while a handler is in progress. -/
def addressees_stay (net : Net) (before : Pool) (turn : Turn) : Bool :=
  (match turn with
    | .accept _ => before.undisturbed turn
    | _ => true) &&
    (pool_step net before turn).all fun after => before.world.server.users.entries.all fun user =>
      decide (after.world.server.Registered user.socket_fd user.username)

theorem addresseesStay_of_addressees_stay {net : Net} {before : Pool} {turn : Turn}
    (htest : addressees_stay net before turn = true) : AddresseesStay net before turn := by
  intro after hstep index job fd hjob _
  obtain ⟨hquiet, hregistered⟩ := Bool.and_eq_true_iff.mp htest
  rw [show pool_step net before turn = some after from hstep] at hregistered
  constructor
  · rintro rfl
    rw [Pool.job_of_undisturbed hquiet nofun] at hjob
    cases hjob
  · rintro username ⟨user, huser, rfl, rfl⟩
    exact of_decide_eq_true (List.all_eq_true.mp hregistered user huser)

/-- A test: a private text is delivered to a descriptor. -/
def is_private_text (fd : Fd) (effect : Effect) : Bool :=
  match effect with
  | .send target message true => decide (target = fd) && decide (message.type = .TEXT_FROM)
  | _ => false

theorem exists_private_text {fd : Fd} {effects : List Effect} (htest : effects.any (is_private_text fd) = true) :
    ∃ message, Effect.send fd message true ∈ effects ∧ message.type = .TEXT_FROM := by
  obtain ⟨effect, hmem, hprivate⟩ := List.any_eq_true.mp htest
  cases effect with
  | send target message sent =>
    cases sent with
    | false => cases hprivate
    | true =>
      rw [is_private_text, Bool.and_eq_true, decide_eq_true_eq, decide_eq_true_eq] at hprivate
      obtain ⟨rfl, htext⟩ := hprivate
      exact ⟨message, hmem, htext⟩
  | accept _ => cases hprivate
  | close _ => cases hprivate

/-- The condition holds in a run in which the addressee changes its status while the
text is on its way. -/
theorem texts_reach_addressee_in_private_text :
    ∃ history before after message, PoolRun connected history before ∧ (before.job 1).isSome ∧
      PoolStep connected before (.act 0) after ∧
      Effect.send 5 message true ∈ after.world.effects_since before.world ∧ message.type = .TEXT_FROM ∧
      ∃ username, before.world.server.Registered 5 username ∧ Reached 0 5 username history before := by
  obtain ⟨history, before, hrun, htest⟩ := exists_pool_run connected
    (private_text ++ .start 1 (some { message_init with type := .STATUS, status := some (.lit "BUSY") }) ::
      (List.replicate 4 [.act 1, .act 0]).flatten)
    (fun history (pool : Pool) => (pool.job 1).isSome &&
      (history.all fun moment : Pool × Turn => addressees_stay connected moment.1 moment.2) &&
      (pool_step connected pool (.act 0)).any fun after : Pool =>
        (after.world.effects_since pool.world).any (is_private_text 5))
    (by decide +kernel)
  rw [Bool.and_eq_true, Bool.and_eq_true] at htest
  obtain ⟨⟨hbusy, hstay⟩, hsend⟩ := htest
  obtain ⟨after, hstep, hsends⟩ := (Option.any_eq_true _ _).mp hsend
  obtain ⟨message, hsent, htext⟩ := exists_private_text hsends
  obtain ⟨index, job, username, hturn, -, -, -, hregistered, hreached⟩ := texts_reach_addressee hrun hstep
    (fun moment hmem => addresseesStay_of_addressees_stay (List.all_eq_true.mp hstay moment hmem)) hsent htext
  cases hturn
  exact ⟨history, before, after, message, hrun, hbusy, hstep, hsent, htext, username, hregistered, hreached⟩

/-- The addressee disconnects and another client gets its descriptor before the
text is sent. -/
theorem text_reaches_next_holder :
    ¬ ∀ (net : Net) (history : List (Pool × Turn)) (before after : Pool) (turn : Turn), PoolRun net history before →
      PoolStep net before turn after → ∀ (fd : Fd) (message : Message),
        Effect.send fd message true ∈ after.world.effects_since before.world → message.type = .TEXT_FROM →
        ∃ index job username, turn = .act index ∧ before.job index = some job ∧ job.event.message.type = .TEXT ∧
          job.event.message.username = some username ∧ before.world.server.Registered fd username := by
  intro hclaim
  obtain ⟨history, before, hrun, htest⟩ := exists_pool_run connected
    (private_text ++ .start 1 (some { message_init with type := .DISCONNECT }) :: List.replicate 8 (.act 1) ++
      .accept 5 :: List.replicate 4 (.act 0))
    (fun _ (pool : Pool) => (pool.world.server.users.entries.all fun user => decide (user.socket_fd ≠ 5)) &&
      (pool_step connected pool (.act 0)).any fun after : Pool =>
        (after.world.effects_since pool.world).any (is_private_text 5))
    (by decide +kernel)
  rw [Bool.and_eq_true] at htest
  obtain ⟨after, hstep, hsends⟩ := (Option.any_eq_true _ _).mp htest.2
  obtain ⟨message, hsent, htext⟩ := exists_private_text hsends
  obtain ⟨-, -, -, -, -, -, -, user, huser, -, hfd⟩ :=
    hclaim connected history before after (.act 0) hrun hstep 5 message hsent htext
  exact of_decide_eq_true (List.all_eq_true.mp htest.1 user huser) hfd

end Examples

end ojalvo
