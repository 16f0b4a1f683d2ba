import OjalvoChat.Concurrency.Registration

namespace ojalvo

section Identity

variable {client_fd fd : Fd} {event : Event} {facts : List Fact} {message : Message}

/-- A handler that may confirm an IDENTIFY has registered its own client under the
confirmed name. -/
theorem Sayable.confirms_identify (hsayable : Sayable client_fd event facts fd message)
    (hconfirms : message.Confirms (.lit "IDENTIFY")) :
    fd = client_fd ∧ ∃ username, message.extra = some username ∧ .named username ∈ facts := by
  obtain ⟨htype, hoperation, hresult⟩ := hconfirms
  cases hsayable with
  | plain fd hplain => exact absurd hresult hplain.2
  | identified username hnamed => exact ⟨rfl, username, rfl, hnamed⟩
  | seated operation roomname hrequest hseated =>
    have hsame : operation = .lit "IDENTIFY" := Option.some.inj hoperation
    rcases hrequest with ⟨rfl, -⟩ | ⟨rfl, -⟩
    · exact absurd hsame (by decide)
    · exact absurd hsame (by decide)
  | text_from user htext haddressee => rw [htype] at htext; cases htext

/-- One name per connection and one connection per name, whatever the handlers of
all connections do in between each other's steps. -/
theorem names_and_connections_correspond {net : Net} {history : List (Pool × Turn)} {pool : Pool}
    (hrun : PoolRun net history pool) (hfds : pool.client_fds.Nodup) :
    let users := pool.world.server.users
    (users.entries.map User.socket_fd).Nodup ∧ (users.entries.map User.username).Nodup ∧
    (∀ fd user, users.find_by_client_fd fd = some user →
      user.socket_fd = fd ∧ users.find_by_username user.username = some user) ∧
    (∀ username user, users.find_by_username username = some user →
      user.username = username ∧ users.find_by_client_fd user.socket_fd = some user) ∧
    ∀ turn after, PoolStep net pool turn after → ∀ fd message sent,
      Effect.send fd message sent ∈ after.world.effects_since pool.world → message.Confirms (.lit "IDENTIFY") →
      ∀ user ∈ users, user.socket_fd = fd → message.extra = some user.username := by
  obtain ⟨known, htracks, hindexed, hfacts⟩ := pool_informed hrun hfds
  refine ⟨hindexed.nodup_socket_fds, hindexed.nodup_usernames, fun fd user hfound => ?_,
    fun username user hfound => ?_, fun turn after hstep fd message sent hsent hconfirms user huser hfd => ?_⟩
  · obtain ⟨hmem, hfd⟩ := hindexed.find_by_client_fd_iff.mp hfound
    exact ⟨hfd, hmem⟩
  · obtain ⟨hmem, hname⟩ := hindexed.find_by_username_iff.mp hfound
    exact ⟨hname, hindexed.find_by_client_fd_iff.mpr ⟨hmem, rfl⟩⟩
  · obtain ⟨later, hmoves, -⟩ := htracks.moves hstep
    rcases hmoves.said hsent with ⟨_, heq⟩ | ⟨index, session, job, rfl, hsession, hjob, hsaid⟩
    · cases heq
    rcases hsaid with ⟨_, heq⟩ | ⟨_, _, trace, heq, hsayable⟩
    · cases heq
    cases heq
    obtain ⟨rfl, username, hextra, hnamed⟩ := hsayable.confirms_identify hconfirms
    rw [hextra, hfacts index session hsession (.named username) hnamed user huser hfd]

/-- Two clients that ask for one name at the same time. The second looks for the
name after the first has it. -/
def race : List Turn :=
  let identify : Message := { message_init with type := .IDENTIFY, username := some (.lit "ana") }
  [.accept 4, .accept 5, .start 0 (some identify), .start 1 (some identify),
    .act 0, .act 1, .act 0, .act 1, .act 0, .act 0] ++ List.replicate 8 (.act 1) ++ List.replicate 8 (.act 0)

end Identity

theorem names_and_connections_correspond_in_race :
    ∃ history pool, PoolRun reliable history pool ∧
      (pool.world.server.users.find_by_username (.lit "ana")).map User.socket_fd = some 4 ∧
      (pool.world.server.users.entries.map User.socket_fd).Nodup ∧
      (pool.world.server.users.entries.map User.username).Nodup := by
  obtain ⟨history, pool, hrun, htest⟩ := exists_pool_run reliable race
    (fun _ pool =>
      (pool.world.server.users.find_by_username (.lit "ana")).map User.socket_fd = some 4 &&
        pool.client_fds = [4, 5])
    (by decide +kernel)
  simp only [Bool.and_eq_true, decide_eq_true_eq] at htest
  have hfds : pool.client_fds.Nodup := by
    rw [htest.2]
    decide
  obtain ⟨hconnections, hnames, -⟩ := names_and_connections_correspond hrun hfds
  exact ⟨history, pool, hrun, htest.1, hconnections, hnames⟩

end ojalvo
