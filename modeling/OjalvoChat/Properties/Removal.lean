import OjalvoChat.Concurrency.Registration
import OjalvoChat.Library.Since

namespace ojalvo

/-- The handler of a session will remove a name from `server->users`, whatever it
meets until then. -/
def Pool.Bound (pool : Pool) (index : Nat) (username : CString) : Prop :=
  ∃ job, pool.job index = some job ∧ job.program.Must (Unregisters username)

/-- Nobody registers under a name that some handler will remove. -/
def NamesRest (net : Net) (before : Pool) (turn : Turn) : Prop :=
  ∀ after, PoolStep net before turn after → ∀ fd username, after.world.server.Registered fd username →
    ¬ before.world.server.Registered fd username → ∀ index, ¬ before.Bound index username

section Runs

variable {net : Net} {history : List (Pool × Turn)} {before after : Pool} {turn : Turn}

/-- What a handler that is about to remove a name knows about the users who have
it: they are its own client, or one of its sends to them has failed. -/
def Fact.Holders (users : UsersTable) (client_fd : Fd) (effects : List Effect) (fact : Fact) : Prop :=
  match fact with
  | .departing user => ∀ holder ∈ users, holder.username = user.username → holder.socket_fd = client_fd
  | .evicting user => ∀ holder ∈ users, holder.username = user.username →
    ∃ message, Effect.send holder.socket_fd message false ∈ effects
  | .failed fd => ∃ message, Effect.send fd message false ∈ effects
  | _ => True

/-- Facts outlive every change that gives no bound name to a new user, and more
sends. -/
theorem Fact.Holders.of_mem {users changed : UsersTable} {client_fd : Fd} {effects more : List Effect} {fact : Fact}
    (hholds : fact.Holders users client_fd effects) (hsub : effects ⊆ more)
    (hmem : ∀ user, (fact = .departing user ∨ fact = .evicting user) → ∀ holder ∈ changed,
      holder.username = user.username →
      ∃ old ∈ users, old.socket_fd = holder.socket_fd ∧ old.username = holder.username) :
    fact.Holders changed client_fd more := by
  cases fact with
  | departing user =>
    intro holder hholder hname
    obtain ⟨old, hold, hfd, hsame⟩ := hmem user (Or.inl rfl) holder hholder hname
    exact hfd ▸ hholds old hold (hsame.trans hname)
  | evicting user =>
    intro holder hholder hname
    obtain ⟨old, hold, hfd, hsame⟩ := hmem user (Or.inr rfl) holder hholder hname
    obtain ⟨message, hfailed⟩ := hholds old hold (hsame.trans hname)
    exact ⟨message, hfd ▸ hsub hfailed⟩
  | failed fd =>
    obtain ⟨message, hfailed⟩ := hholds
    exact ⟨message, hsub hfailed⟩
  | _ => trivial

/-- All handlers are right about the holders of the names that they remove. -/
def Pool.Careful (pool : Pool) (known : Knowledge) : Prop :=
  ∀ index session job, pool.sessions[index]? = some session → session.job = some job →
    ∀ fact ∈ known index, fact.Holders pool.world.server.users session.client_fd job.effects

/-- A handler that relies on a fact about a name to be removed is bound to remove
it. -/
theorem Pool.Tracks.bound {known : Knowledge} (htracks : before.Tracks net known) {index : Nat} {session : Session}
    {job : Job} (hsession : before.sessions[index]? = some session) (hjob : session.job = some job) {user : User}
    (hfact : .departing user ∈ known index ∨ .evicting user ∈ known index) :
    before.Bound index user.username ∧
      (.departing user ∈ known index → job.program.Must (Closing session.client_fd)) := by
  have hpledged := (htracks.busy index session job hsession hjob).2.pledged
  have hrunning : before.job index = some job := by rw [Pool.job_of_session hsession, hjob]
  refine ⟨⟨job, hrunning, ?_⟩, fun hdeparting => (hpledged (.departing user) hdeparting).2⟩
  rcases hfact with hdeparting | hevicting
  · exact (hpledged (.departing user) hdeparting).1
  · exact hpledged (.evicting user) hevicting

/-- The facts of a handler after its own step. -/
theorem HandlerStep.holders {server : Server} {client_fd : Fd} {event : Event} {facts later : List Fact}
    {program : Handler Unit} {deed : Deed} {effects : List Effect}
    (hstep : HandlerStep net client_fd event facts program server deed later) (hindexed : server.users.Indexed)
    (hholds : ∀ fact ∈ facts, fact.Holders server.users client_fd effects)
    (hmem : ∀ user, (.departing user ∈ facts ∨ .evicting user ∈ facts) → ∀ holder ∈ (deed.apply server).users,
      holder.username = user.username →
      ∃ old ∈ server.users, old.socket_fd = holder.socket_fd ∧ old.username = holder.username) :
    ∀ fact ∈ later, fact.Holders (deed.apply server).users client_fd (effects ++ deed.effects) := by
  intro fact hfact
  rcases hstep.kept fact hfact with ⟨hold, -⟩ | hbrought
  · refine (hholds fact hold).of_mem (List.subset_append_left _ _) fun user hkind => hmem user ?_
    rcases hkind with rfl | rfl
    · exact Or.inl hold
    · exact Or.inr hold
  · cases fact with
    | departing user =>
      obtain ⟨rfl, hfound⟩ := hbrought
      obtain ⟨huser, hfd⟩ := hindexed.find_by_client_fd_iff.mp hfound
      intro holder hholder hname
      rw [UsersTable.eq_of_username_eq hholder huser hname]
      exact hfd
    | evicting user =>
      obtain ⟨rfl, fd, hfailed, hfound⟩ := hbrought
      obtain ⟨huser, rfl⟩ := hindexed.find_by_client_fd_iff.mp hfound
      intro holder hholder hname
      rw [UsersTable.eq_of_username_eq hholder huser hname]
      obtain ⟨message, hmessage⟩ := hholds _ hfailed
      exact ⟨message, List.mem_append_left _ hmessage⟩
    | failed fd =>
      obtain ⟨message, hmessage⟩ := hbrought
      exact ⟨message, List.mem_append_right _ hmessage⟩
    | _ => trivial

/-- The users who have a name that some handler will remove had it before. -/
theorem NamesRest.mem_users (hrest : NamesRest net before turn) (hstep : PoolStep net before turn after)
    (hindexed : before.world.server.users.Indexed) (hafter : after.world.server.users.Indexed) {index : Nat}
    {username : CString} (hbound : before.Bound index username) {holder : User}
    (hholder : holder ∈ after.world.server.users) (hname : holder.username = username) :
    ∃ old ∈ before.world.server.users, old.socket_fd = holder.socket_fd ∧ old.username = holder.username := by
  subst hname
  by_cases hold : before.world.server.Registered holder.socket_fd holder.username
  · obtain ⟨old, hmem, hsame, hfd⟩ := hindexed.lists_iff.mp hold
    exact ⟨old, hmem, hfd, hsame⟩
  · have hnew : after.world.server.Registered holder.socket_fd holder.username :=
      hafter.lists_iff.mpr ⟨holder, hholder, rfl, rfl⟩
    exact absurd hbound (hrest after hstep _ _ hnew hold index)

theorem Moves.careful {known later : Knowledge} (hmoves : Moves net before known turn after later)
    (htracks : before.Tracks net known) (hindexed : before.world.server.users.Indexed)
    (hafter : after.world.server.users.Indexed) (hstep : PoolStep net before turn after)
    (hrest : NamesRest net before turn) (hcareful : before.Careful known) : after.Careful later := by
  intro index session job hsession hjob fact hfact
  obtain ⟨old, running, hold, hrunning, hfd, -, heffects, hkept | ⟨deed, -, hworld, hmore, hown⟩⟩ :=
    hmoves.handler htracks hsession hjob hfact
  · rw [← hfd]
    refine (hcareful index old running hold hrunning fact hkept).of_mem heffects.subset fun user hkind holder => ?_
    refine hrest.mem_users hstep hindexed hafter (htracks.bound hold hrunning ?_).1
    rcases hkind with rfl | rfl
    · exact Or.inl hkept
    · exact Or.inr hkept
  · have hserver : after.world.server = deed.apply before.world.server := by rw [hworld]; rfl
    rw [← hfd, hserver, hmore]
    refine hown.holders hindexed (hcareful index old running hold hrunning) (fun user hkind => ?_) fact hfact
    rw [← hserver]
    exact fun holder => hrest.mem_users hstep hindexed hafter (htracks.bound hold hrunning hkind).1

theorem pool_careful {pool : Pool} (hrun : PoolRun net history pool) (hfds : pool.client_fds.Nodup)
    (hturns : ∀ moment ∈ history, NamesRest net moment.1 moment.2) :
    ∃ known, pool.Tracks net known ∧ pool.Informed known ∧ pool.Careful known := by
  obtain ⟨known, htracks, hholds⟩ := pool_invariant (C := NamesRest net)
    (I := fun _ pool known => pool.client_fds.Nodup → pool.Informed known ∧ pool.Careful known) hrun hturns
    (fun _ => ⟨⟨UsersTable.indexed_init, fun index session _ fact hfact => by cases hfact⟩,
      fun index session job hsession => by simp [pool_init] at hsession⟩)
    fun history before known turn after later htracks _ hbefore hrest hstep hmoves hnodup => by
      obtain ⟨hinformed, hcareful⟩ := hbefore (hnodup.sublist hmoves.client_fds.sublist)
      have hlater := hmoves.informed htracks hnodup hinformed
      exact ⟨hlater, hmoves.careful htracks hinformed.1 hlater.1 hstep hrest hcareful⟩
  exact ⟨known, htracks, hholds hfds⟩

end Runs

/-- A user disappears from `server->users` only in a step of the handler that
disconnects it, or of one to which a send to it has failed; and the handler has
found it registered, under the name that it removes, ever since it was bound to
remove the name. -/
theorem only_own_failure_unregisters {net : Net} {history : List (Pool × Turn)} {before after : Pool} {turn : Turn}
    (hrun : PoolRun net history before) (hstep : PoolStep net before turn after) (hfds : after.client_fds.Nodup)
    (hturns : ∀ moment ∈ history, NamesRest net moment.1 moment.2) {fd : Fd} {username : CString}
    (hregistered : before.world.server.Registered fd username)
    (hgone : ¬ after.world.server.Registered fd username) :
    ∃ index session job, turn = .act index ∧ before.sessions[index]? = some session ∧ session.job = some job ∧
      ((session.client_fd = fd ∧ job.program.Must (Closing fd)) ∨
        ∃ message, Effect.send fd message false ∈ job.effects) ∧
      Since (fun _ pool _ => ¬ pool.Bound index username) (fun _ _ => True)
        (fun pool => pool.world.server.Registered fd username ∧ pool.Bound index username) history before := by
  obtain ⟨known, htracks, ⟨hindexed, hfacts⟩, hcareful⟩ := pool_careful hrun (hstep.nodup hrun hfds) hturns
  obtain ⟨later, hmoves, htracksafter⟩ := htracks.moves hstep
  have hafter := (hmoves.informed htracks hfds ⟨hindexed, hfacts⟩).1
  rcases hmoves.deed_or_quiet with ⟨hserver, -⟩ |
    ⟨index, session, job, deed, facts, rfl, hsession, hjob, hworld, hown, -⟩
  · exact absurd (hserver ▸ hregistered) hgone
  have hserver : after.world.server = deed.apply before.world.server := by rw [hworld]; rfl
  rw [hserver] at hgone hafter
  obtain rfl := hown.unregisters hindexed hafter hregistered hgone
  obtain ⟨-, user, htarget, rfl⟩ := hown.allowed
  obtain ⟨hbound, hcloses⟩ := htracks.bound hsession hjob htarget
  refine ⟨index, session, job, rfl, hsession, hjob, ?_, ?_⟩
  · obtain ⟨holder, hholder, hname, rfl⟩ := hindexed.lists_iff.mp hregistered
    rcases htarget with hdeparting | hevicting
    · have hfd := hcareful index session job hsession hjob _ hdeparting holder hholder hname
      exact Or.inl ⟨hfd.symm, hfd ▸ hcloses hdeparting⟩
    · exact Or.inr (hcareful index session job hsession hjob _ hevicting holder hholder hname)
  · refine hrun.since_under (C := NamesRest net) (fun moment turn hmem => hturns (moment, turn) hmem)
      (fun hstart => absurd hstart.1 UsersTable.not_lists_init) ?_ ⟨hregistered, hbound⟩
    rintro history moment turn next - hrest hturn ⟨hnow, -⟩
    by_cases hwas : moment.Bound index user.username
    · refine Or.inl ⟨⟨?_, hwas⟩, trivial⟩
      by_contra hnot
      exact hrest next hturn fd user.username hnow hnot index hwas
    · exact Or.inr hwas

section Examples

/-- Some way through the code of a handler does not remove a name. -/
def Handler.spares (username : CString) (program : Handler Unit) (server : Server) (trace : List Effect) : Bool :=
  match program with
  | .ret _ => true
  | .act action next =>
    match action.run (.idle server trace) with
    | .ok value after =>
      (after.server.users.find_by_username username).isSome &&
        Handler.spares username (next value) after.server after.trace
    | .error _ _ => false

theorem Handler.not_must_of_spares {username : CString} {program : Handler Unit} {server : Server}
    {trace : List Effect} (hspares : Handler.spares username program server trace = true) :
    ¬ program.Must (Unregisters username) := by
  induction program generalizing server trace with
  | ret value => exact id
  | act action next ih =>
    unfold Handler.spares at hspares
    cases hrun : action.run (.idle server trace) with
    | error why stopped => simp [hrun] at hspares
    | ok value after =>
      simp only [hrun, Bool.and_eq_true] at hspares
      rintro (hremoves | hlater)
      · obtain ⟨other, removed, hsame, husers⟩ := hremoves server trace
        rw [hrun] at hsame
        cases hsame
        rw [husers, UsersTable.find_by_username_remove] at hspares
        exact absurd hspares.1 nofun
      · exact ih value hspares.2 (hlater value)

/-- A test for `NamesRest`: the handlers in progress spare every name that is new
after a turn. -/
def names_rest (net : Net) (before : Pool) (turn : Turn) : Bool :=
  (pool_step net before turn).all fun after => after.world.server.users.entries.all fun user =>
    decide (before.world.server.Registered user.socket_fd user.username) ||
      before.sessions.all fun session => session.job.all fun job =>
        Handler.spares user.username job.program after.world.server after.world.trace

theorem namesRest_of_names_rest {net : Net} {before : Pool} {turn : Turn} (htest : names_rest net before turn = true) :
    NamesRest net before turn := by
  rintro after hstep fd username ⟨user, huser, rfl, rfl⟩ hnew index ⟨job, hjob, hmust⟩
  rw [names_rest, show pool_step net before turn = some after from hstep] at htest
  have hspared := List.all_eq_true.mp htest user huser
  rw [decide_eq_false hnew, Bool.false_or] at hspared
  exact Handler.not_must_of_spares (Pool.job_tested hspared hjob) hmust

/-- A user who hears everything except the public texts. -/
def deaf_to_public_texts : Net := fun _ fd message => !(fd = 4 && message.type = .PUBLIC_TEXT_FROM)

def identify (username : CString) : Message := { message_init with type := .IDENTIFY, username := some username }

/-- While luis writes to all, ana, who cannot be told, changes her status and eva
registers. -/
def crowded_eviction : List Turn :=
  [.accept 4, .accept 5, .accept 6, .start 0 (some (identify (.lit "ana")))] ++ List.replicate 12 (.act 0) ++
    .start 1 (some (identify (.lit "luis"))) :: List.replicate 12 (.act 1) ++
    [.start 0 (some { message_init with type := .STATUS, status := some (.lit "BUSY") }),
      .start 1 (some { message_init with type := .PUBLIC_TEXT, text := some (.lit "hola") }),
      .start 2 (some (identify (.lit "eva")))] ++
    (List.replicate 8 [.act 2, .act 1, .act 0]).flatten

/-- The condition holds in a run in which a user is evicted while others are at work. -/
theorem only_own_failure_unregisters_in_eviction :
    ∃ history before after, PoolRun deaf_to_public_texts history before ∧
      PoolStep deaf_to_public_texts before (.act 1) after ∧ (before.job 0).isSome ∧ (before.job 2).isSome ∧
      before.world.server.Registered 4 (.lit "ana") ∧ ¬ after.world.server.Registered 4 (.lit "ana") ∧
      ∃ session job, before.sessions[1]? = some session ∧ session.job = some job ∧
        ((session.client_fd = 4 ∧ job.program.Must (Closing 4)) ∨
          ∃ message, Effect.send 4 message false ∈ job.effects) ∧
        Since (fun _ pool _ => ¬ pool.Bound 1 (.lit "ana")) (fun _ _ => True)
          (fun pool => pool.world.server.Registered 4 (.lit "ana") ∧ pool.Bound 1 (.lit "ana")) history before := by
  obtain ⟨history, before, hrun, htest⟩ := exists_pool_run deaf_to_public_texts crowded_eviction
    (fun history (pool : Pool) => (pool.job 0).isSome && (pool.job 2).isSome &&
      decide (pool.world.server.Registered 4 (.lit "ana")) &&
      (history.all fun moment : Pool × Turn => names_rest deaf_to_public_texts moment.1 moment.2) &&
      (pool_step deaf_to_public_texts pool (.act 1)).any fun after : Pool =>
        decide (after.client_fds = [4, 5, 6]) && !decide (after.world.server.Registered 4 (.lit "ana")))
    (by decide +kernel)
  simp only [Bool.and_eq_true, decide_eq_true_eq] at htest
  obtain ⟨⟨⟨⟨hstatus, hidentify⟩, hregistered⟩, hrests⟩, hstep⟩ := htest
  obtain ⟨after, hafter, hgone⟩ := (Option.any_eq_true _ _).mp hstep
  simp only [Bool.and_eq_true, decide_eq_true_eq, Bool.not_eq_true', decide_eq_false_iff_not] at hgone
  obtain ⟨index, session, job, hturn, hsession, hjob, hcause, hsince⟩ :=
    only_own_failure_unregisters hrun hafter (by rw [hgone.1]; decide)
      (fun moment hmem => namesRest_of_names_rest (List.all_eq_true.mp hrests moment hmem)) hregistered hgone.2
  cases hturn
  exact ⟨history, before, after, hrun, hafter, hstatus, hidentify, hregistered, hgone.2, session, job, hsession, hjob,
    hcause, hsince⟩

/-- While ana disconnects, a text that she cannot be told evicts her, and another
client takes her name. -/
def overtaken_departure : List Turn :=
  [.accept 4, .accept 5, .accept 6, .start 0 (some (identify (.lit "ana")))] ++ List.replicate 12 (.act 0) ++
    .start 1 (some (identify (.lit "luis"))) :: List.replicate 12 (.act 1) ++
    .start 0 (some { message_init with type := .DISCONNECT }) :: List.replicate 5 (.act 0) ++
    .start 1 (some { message_init with type := .PUBLIC_TEXT, text := some (.lit "hola") }) ::
      List.replicate 10 (.act 1) ++
    .start 2 (some (identify (.lit "ana"))) :: List.replicate 12 (.act 2)

/-- A departure removes the next user with the name. -/
theorem departure_removes_next_holder :
    ¬ ∀ (net : Net) (history : List (Pool × Turn)) (before after : Pool) (turn : Turn), PoolRun net history before →
      PoolStep net before turn after → after.client_fds.Nodup → ∀ (fd : Fd) (username : CString),
        before.world.server.Registered fd username → ¬ after.world.server.Registered fd username →
        ∃ index session job, turn = .act index ∧ before.sessions[index]? = some session ∧ session.job = some job ∧
          (session.client_fd = fd ∨ ∃ message, Effect.send fd message false ∈ job.effects) := by
  intro hclaim
  obtain ⟨history, before, hrun, htest⟩ := exists_pool_run deaf_to_public_texts overtaken_departure
    (fun _ (pool : Pool) => decide (pool.world.server.Registered 6 (.lit "ana")) &&
      (pool_step deaf_to_public_texts pool (.act 0)).any (fun after : Pool =>
        decide (after.client_fds = [4, 5, 6]) && !decide (after.world.server.Registered 6 (.lit "ana"))) &&
      pool.sessions[0]?.any fun session : Session => decide (session.client_fd = 4) &&
        session.job.all fun job : Job => decide (6 ∉ failures job.effects))
    (by decide +kernel)
  simp only [Bool.and_eq_true, decide_eq_true_eq] at htest
  obtain ⟨⟨hregistered, hstep⟩, hsession⟩ := htest
  obtain ⟨after, hafter, hgone⟩ := (Option.any_eq_true _ _).mp hstep
  simp only [Bool.and_eq_true, decide_eq_true_eq, Bool.not_eq_true', decide_eq_false_iff_not] at hgone
  obtain ⟨session, hfound, hown⟩ := (Option.any_eq_true _ _).mp hsession
  simp only [Bool.and_eq_true, decide_eq_true_eq, Option.all_eq_true] at hown
  obtain ⟨index, other, job, hturn, hother, hjob, hcause⟩ :=
    hclaim _ history before after (.act 0) hrun hafter (by rw [hgone.1]; decide) 6 (.lit "ana") hregistered hgone.2
  cases hturn
  obtain rfl := Option.some.inj (hfound.symm.trans hother)
  rcases hcause with hfd | ⟨message, hfailed⟩
  · rw [hown.1] at hfd
    exact absurd hfd (by decide)
  · exact hown.2 job hjob (mem_failures.mpr ⟨message, hfailed⟩)

end Examples

end ojalvo
