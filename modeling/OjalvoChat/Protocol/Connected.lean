import OjalvoChat.Protocol.Lines
import OjalvoChat.Protocol.Presence

namespace ojalvo

/-- Nothing is sent on a descriptor that is not open. -/
def Net.Honest (net : Net) : Prop :=
  ∀ trace client_fd message, net trace client_fd message = true → is_open trace client_fd = true

theorem honest_sockets : sockets.Honest := fun _ _ _ => is_open_of_sockets

section Settled

variable {net : Net} {server : Server} {trace : List Effect} {client_fd fd : Fd} {msg_in : Message}
  {reaction : Reaction} {username : CString}

theorem Permitted.registered_settled (hpermitted : Permitted server client_fd msg_in reaction)
    (hserver : server.Consistent) :
    (reaction.settled net server trace).Registered fd username ↔
      server.Registered fd username ∨
        ∃ user, reaction = .register user ∧ user.username = username ∧ user.socket_fd = fd := by
  have hother : (∀ user, reaction ≠ .register user) → (reaction.settled net server trace).users = server.users →
      ((reaction.settled net server trace).Registered fd username ↔ server.Registered fd username ∨
        ∃ user, reaction = .register user ∧ user.username = username ∧ user.socket_fd = fd) := by
    intro hnone husers
    rw [Server.Registered, husers, or_iff_left]
    rintro ⟨user, hregister, -⟩
    exact hnone user hregister
  cases hpermitted with
  | register user hfd hactive hname hunknown =>
    rw [show Reaction.settled net server trace (.register user) = server.register user from rfl,
      hserver.registered_register hname]
    simp
  | set_status user status text htype hsender hread hchange =>
    rw [show Reaction.settled net server trace (.set_status user status text) =
      server.set_status user.socket_fd status from rfl, hserver.registered_set_status]
    simp
  | invite user invited_to room usernames invited_users htype hsender hroomname husernames hroom hmember hinvited =>
    exact hother (fun _ => nofun) (users_settle_invitations ..)
  | quit user left_room room htype hsender hroomname hroom hmember =>
    exact hother (fun _ => nofun) (Server.users_quit server left_room user)
  | _ => exact hother (fun _ => nofun) rfl

end Settled

section Connected

/-- The descriptors of all registered users are open. -/
def World.Connected (world : World) : Prop :=
  ∀ fd username, world.server.Registered fd username → is_open world.trace fd = true

theorem served_connected {net : Net} (hhonest : net.Honest) {server : Server} {trace : List Effect} {event : Event}
    {after : World}
    (hserver : server.Consistent) (hconnected : World.Connected (.idle server trace))
    (hserved : Served net (.idle server trace) event after) : after.Connected := by
  have hpermitted := event.permitted hserver
  have hsettled := hpermitted.settled_consistent net trace hserver
  obtain ⟨effects, htrace, hclosed, -⟩ := closes_serve net trace hserver event
  have hfinal := final_server_serve net trace hserver event
  rw [hserved] at htrace hfinal
  change after.trace = _ at htrace
  change after.server = _ at hfinal
  intro fd username hregistered
  rw [hfinal, hsettled.registered_evict_all] at hregistered
  obtain ⟨hthere, hspared⟩ := hregistered
  have hkept : Effect.close fd ∉ effects := by
    rw [← mem_closed, hclosed]
    exact fun hmem => hspared (Reaction.closed_subset_casualties hmem)
  have hopen : is_open trace fd = true := by
    rcases (hpermitted.registered_settled hserver).mp hthere with hold | ⟨user, hregister, -, rfl⟩
    · exact hconnected fd username hold
    · rw [hregister] at hpermitted hspared
      cases hpermitted with
      | register _ hfd hactive hname hunknown =>
        by_contra hclosedfd
        have hunsent : net trace event.client_fd
            (response (.lit "IDENTIFY") (.lit "SUCCESS") user.username) = false := by
          rw [← Bool.not_eq_true]
          exact fun hsent => hclosedfd (hfd ▸ hhonest trace event.client_fd _ hsent)
        have hgone : user.socket_fd ∈ (Reaction.register user).closed net event.client_fd server trace := by
          simp [Reaction.closed, closed_unanswered, hunsent, hfd]
        exact hspared (Reaction.closed_subset_casualties hgone)
  rw [htrace]
  exact is_open_append hopen hkept

/-- The descriptors of the users stay open over every run. -/
theorem run_connected {net : Net} (hhonest : net.Honest) {history : List (World × Event)} {world : World}
    (hrun : ServerRun net history world) :
    world.Connected := by
  refine hrun.history_invariant (I := fun _ world => world.Connected) ?_ ?_
  · exact fun fd username hregistered => absurd hregistered UsersTable.not_lists_init
  · intro history before event after hprefix hconnected hserved
    obtain ⟨hidle, hserver⟩ := run_ready hprefix
    rw [hidle] at hserved hconnected
    exact served_connected hhonest hserver hconnected hserved

end Connected

end ojalvo
