import OjalvoChat.Concurrency.Tracking
import OjalvoChat.Protocol.Presence

namespace ojalvo

section Registration

/-- What a fact about the registration of the own client says about the users. -/
def Fact.Registration (users : UsersTable) (client_fd : Fd) (fact : Fact) : Prop :=
  match fact with
  | .absent => ∀ user ∈ users, user.socket_fd ≠ client_fd
  | .named username => ∀ user ∈ users, user.socket_fd = client_fd → user.username = username
  | _ => True

theorem Deed.apply_users (deed : Deed) (server : Server) :
    (deed.apply server).users =
      match deed with
      | .register user => server.users.add user
      | .unregister username => server.users.remove username
      | .mark client_fd status => server.users.change_status_by_client_fd client_fd status
      | _ => server.users := by
  cases deed <;> rfl

theorem Deed.named_users {server : Server} (hnamed : server.users.Named) (deed : Deed) :
    (deed.apply server).users.Named := by
  rw [Deed.apply_users]
  cases deed with
  | register user => exact hnamed.add user
  | unregister username => exact hnamed.remove username
  | mark client_fd status => exact hnamed.change_status client_fd status
  | _ => exact hnamed

variable {net : Net} {server : Server} {client_fd : Fd} {event : Event} {facts later : List Fact}
  {program : Handler Unit} {deed : Deed} {fd : Fd} {username : CString}

/-- No deed gives a descriptor a new name, except that a handler registers its own
client. -/
theorem HandlerStep.mem_users (hstep : HandlerStep net client_fd event facts program server deed later)
    (hindexed : server.users.Indexed) {user : User} (hmem : user ∈ (deed.apply server).users) :
    (∃ old ∈ server.users, old.socket_fd = user.socket_fd ∧ old.username = user.username) ∨
      (deed = .register user ∧ user.socket_fd = client_fd ∧ .absent ∈ facts) := by
  have hallowed := hstep.allowed
  rw [Deed.apply_users] at hmem
  cases deed with
  | register added =>
    obtain ⟨habsent, hfd, hfree⟩ := hallowed
    rcases (UsersTable.mem_add hindexed (hindexed.find_by_username_eq_none_iff.mp hfree)).mp hmem with rfl | hold
    · exact Or.inr ⟨rfl, hfd, habsent⟩
    · exact Or.inl ⟨user, hold, rfl, rfl⟩
  | unregister username => exact Or.inl ⟨user, (UsersTable.mem_remove.mp hmem).1, rfl, rfl⟩
  | mark fd status =>
    obtain ⟨old, hold, rfl⟩ := (UsersTable.mem_change_status_by_client_fd hindexed).mp hmem
    exact Or.inl ⟨old, hold, by split <;> rfl, by split <;> rfl⟩
  | _ => exact Or.inl ⟨user, hmem, rfl, rfl⟩

/-- A step of one handler keeps the table indexed, when its facts hold. -/
theorem HandlerStep.indexed (hstep : HandlerStep net client_fd event facts program server deed later)
    (hindexed : server.users.Indexed) (hfacts : ∀ fact ∈ facts, fact.Registration server.users client_fd) :
    (deed.apply server).users.Indexed := by
  have hallowed := hstep.allowed
  rw [Deed.apply_users]
  cases deed with
  | register user =>
    obtain ⟨habsent, hfd, hfree⟩ := hallowed
    have hname := hindexed.find_by_username_eq_none_iff.mp hfree
    have hown : ∀ other ∈ server.users, other.socket_fd ≠ user.socket_fd := by
      rw [hfd]
      exact hfacts .absent habsent
    exact hindexed.add hname hown
  | unregister username => exact hindexed.remove
  | mark fd status => exact hindexed.change_status_by_client_fd
  | _ => exact hindexed

/-- Only the removal of its name unregisters a user. -/
theorem HandlerStep.unregisters (hstep : HandlerStep net client_fd event facts program server deed later)
    (hindexed : server.users.Indexed) (hafter : (deed.apply server).users.Indexed)
    (hregistered : server.Registered fd username) (hgone : ¬ (deed.apply server).Registered fd username) :
    deed = .unregister username := by
  have hallowed := hstep.allowed
  rw [Server.Registered, Deed.apply_users] at hgone
  rw [Deed.apply_users] at hafter
  cases deed with
  | register user =>
    have hname := hindexed.find_by_username_eq_none_iff.mp hallowed.2.2
    exact absurd ((hindexed.lists_add hname).mpr (Or.inl hregistered)) hgone
  | unregister removed =>
    by_cases hsame : username = removed
    · rw [hsame]
    · exact absurd ((hindexed.lists_remove removed).mpr ⟨hregistered, hsame⟩) hgone
  | mark marked status => exact absurd ((hindexed.lists_change_status marked status).mpr hregistered) hgone
  | _ => exact absurd hregistered hgone

/-- Facts outlive every deed that brings no user with the own descriptor. -/
theorem Fact.Registration.of_mem {users changed : UsersTable} {fact : Fact} (hholds : fact.Registration users client_fd)
    (hmem : ∀ user ∈ changed, user.socket_fd = client_fd →
      ∃ old ∈ users, old.socket_fd = user.socket_fd ∧ old.username = user.username) :
    fact.Registration changed client_fd := by
  cases fact with
  | absent =>
    intro user huser hfd
    obtain ⟨old, hold, hsame, -⟩ := hmem user huser hfd
    exact hholds old hold (hsame.trans hfd)
  | named username =>
    intro user huser hfd
    obtain ⟨old, hold, hsame, hname⟩ := hmem user huser hfd
    rw [← hname]
    exact hholds old hold (hsame.trans hfd)
  | _ => trivial

/-- The facts with which a handler goes on hold after its step. -/
theorem HandlerStep.registration (hstep : HandlerStep net client_fd event facts program server deed later)
    (hindexed : server.users.Indexed) (hfacts : ∀ fact ∈ facts, fact.Registration server.users client_fd) :
    ∀ fact ∈ later, fact.Registration (deed.apply server).users client_fd := by
  intro fact hfact
  rcases hstep.kept fact hfact with ⟨hold, hsurvives⟩ | hbrought
  · by_cases hregister : ∃ user, deed = .register user
    · obtain ⟨user, rfl⟩ := hregister
      cases fact with
      | absent => exact absurd rfl (hsurvives user)
      | named username => exact absurd rfl (hsurvives user)
      | _ => trivial
    · refine (hfacts fact hold).of_mem fun user huser _ => ?_
      exact (hstep.mem_users hindexed huser).resolve_right fun hnew => hregister ⟨user, hnew.1⟩
  · cases fact with
    | absent =>
      obtain ⟨rfl, hnone⟩ := hbrought
      exact hindexed.find_by_client_fd_eq_none_iff.mp hnone
    | named username =>
      obtain ⟨user, rfl, hname⟩ := hbrought
      intro other hother hfd
      rcases hstep.mem_users hindexed hother with ⟨old, hold, hsame, -⟩ | ⟨heq, -⟩
      · exact absurd (hsame.trans hfd) (hfacts .absent hstep.allowed.1 old hold)
      · cases heq
        exact hname
    | _ => trivial

end Registration

section Runs

variable {net : Net} {history : List (Pool × Turn)} {pool : Pool}

/-- The tables are indexed and every handler is right about the registration of
its client. -/
def Pool.Informed (pool : Pool) (known : Knowledge) : Prop :=
  pool.world.server.users.Indexed ∧ ∀ index session, pool.sessions[index]? = some session →
    ∀ fact ∈ known index, fact.Registration pool.world.server.users session.client_fd

theorem Moves.informed {after : Pool} {turn : Turn} {known later : Knowledge}
    (hmoves : Moves net pool known turn after later) (htracks : pool.Tracks net known)
    (hfds : after.client_fds.Nodup) (hinformed : pool.Informed known) : after.Informed later := by
  obtain ⟨hindexed, hfacts⟩ := hinformed
  have hbefore : pool.client_fds.Nodup := hfds.sublist hmoves.client_fds.sublist
  rcases hmoves.deed_or_quiet with ⟨hserver, hlater⟩ |
    ⟨index, session, job, deed, facts, rfl, hsession, hjob, hworld, hstep, rfl⟩
  · refine ⟨hserver ▸ hindexed, fun index session hsession fact hfact => ?_⟩
    obtain ⟨old, hold, hfd⟩ := hmoves.session_of_fact htracks hsession hfact
    rw [hserver, ← hfd]
    exact hfacts index old hold fact (hlater index hfact)
  · have hown := hfacts index session hsession
    have hserver : after.world.server = deed.apply pool.world.server := by rw [hworld]; rfl
    refine ⟨hserver ▸ hstep.indexed hindexed hown, fun other found hfound fact hfact => ?_⟩
    obtain ⟨old, hold, hfd⟩ := hmoves.session_of_fact htracks hfound hfact
    rw [hserver, ← hfd]
    by_cases hsame : other = index
    · subst hsame
      rw [Function.update_self] at hfact
      obtain rfl := Option.some.inj (hold.symm.trans hsession)
      exact hstep.registration hindexed hown fact hfact
    · rw [Function.update_of_ne hsame] at hfact
      refine (hfacts other old hold fact hfact).of_mem fun user huser hotherfd => ?_
      refine (hstep.mem_users hindexed huser).resolve_right fun hnew => hsame ?_
      exact index_eq_of_client_fd_eq hbefore hold hsession (hotherfd.symm.trans hnew.2.1)

theorem pool_informed (hrun : PoolRun net history pool) (hfds : pool.client_fds.Nodup) :
    ∃ known, pool.Tracks net known ∧ pool.Informed known := by
  obtain ⟨known, htracks, hinformed⟩ := pool_invariant (C := fun _ _ => True)
    (I := fun _ pool known => pool.client_fds.Nodup → pool.Informed known) hrun (fun _ _ => trivial)
    (fun _ => ⟨UsersTable.indexed_init, fun index session _ fact hfact => by cases hfact⟩)
    fun history before known turn after later htracks _ hbefore _ _ hmoves hnodup =>
      hmoves.informed htracks hnodup (hbefore (hnodup.sublist hmoves.client_fds.sublist))
  exact ⟨known, htracks, hinformed hfds⟩

end Runs

end ojalvo
