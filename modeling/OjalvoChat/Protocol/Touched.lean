import OjalvoChat.Protocol.Delivery

namespace ojalvo

/-- The descriptor that an effect is about. -/
def Effect.fd (effect : Effect) : Fd :=
  match effect with
  | .accept fd => fd
  | .send fd _ _ => fd
  | .close fd => fd

/-- All users of a server have descriptors of some kind. -/
def Server.Within (server : Server) (allowed : Fd → Prop) : Prop := ∀ user ∈ server.users, allowed user.socket_fd

/-- What an outcome adds to a trace is about descriptors of some kind only. -/
def Outcome.Touches (allowed : Fd → Prop) (trace : List Effect) (outcome : Outcome) : Prop :=
  ∃ effects, (final_world outcome).trace = trace ++ effects ∧ ∀ effect ∈ effects, allowed effect.fd

section Touches

variable {allowed : Fd → Prop} {net : Net} {server : Server} {trace : List Effect} {client_fd : Fd}

theorem touches_idle (answer : Bool) : Outcome.Touches allowed trace (.ok answer (.idle server trace)) :=
  ⟨[], by simp [final_world], by simp⟩

/-- A broadcast touches the descriptors that it goes to. -/
theorem touches_broadcast {message : Message} {fds : List Fd} (hfds : ∀ fd ∈ fds, allowed fd) :
    ∀ effect ∈ broadcast net message trace fds, allowed effect.fd := by
  intro effect hmem
  obtain ⟨fd, hfd, sent, rfl⟩ := exists_of_mem_broadcast hmem
  exact hfds fd hfd

/-- Broadcasts go to descriptors of users. -/
theorem Server.Within.recipients (hwithin : server.Within allowed) {contents : UsersTable}
    (hcontents : contents.Indexed) (husers : ∀ user ∈ contents, user ∈ server.users) :
    ∀ fd ∈ recipients contents.entries client_fd, allowed fd := by
  intro fd hfd
  obtain ⟨-, user, huser, rfl⟩ := mem_recipients.mp hfd
  exact hwithin user (husers user (hcontents.mem_entries.mp huser))

variable (hserver : server.Consistent) (hwithin : server.Within allowed)
include hserver hwithin

theorem touches_announce (message : Message) :
    (announce net client_fd message server trace).Touches allowed trace :=
  ⟨_, rfl, touches_broadcast (hwithin.recipients hserver.users fun _ => id)⟩

theorem touches_tell_members (roomname : CString) (message : Message) :
    (tell_members net client_fd roomname message server trace).Touches allowed trace := by
  have htold : ∀ fd ∈ server.room_recipients roomname client_fd, allowed fd := by
    unfold Server.room_recipients
    split
    · exact fun _ hmem => absurd hmem List.not_mem_nil
    · rename_i room hroom
      have hconsistent := hserver.rooms roomname room hroom
      exact hwithin.recipients hconsistent.members hconsistent.members_users
  unfold tell_members
  dsimp only
  split
  · exact ⟨_, rfl, touches_broadcast htold⟩
  · exact ⟨_, rfl, touches_broadcast htold⟩

/-- A departure touches its own descriptor and those of users. -/
theorem touches_departed (hself : allowed client_fd) (answer : Bool) :
    Outcome.Touches allowed trace (.ok answer (departed net server trace client_fd)) := by
  refine ⟨departure_notices net server trace client_fd ++ [.close client_fd], by simp [final_world, departed], ?_⟩
  rw [List.forall_mem_append]
  refine ⟨?_, by simpa [Effect.fd] using hself⟩
  unfold departure_notices
  split
  · exact List.forall_mem_nil _
  · exact touches_broadcast (hwithin.recipients hserver.users fun _ => id)

omit hserver hwithin in
/-- A send before the rest touches its descriptor. -/
theorem Outcome.Touches.after_send {outcome : Outcome} {message : Message} {fd : Fd} {sent : Bool}
    (hrest : outcome.Touches allowed (trace ++ [.send fd message sent])) (hfd : allowed fd) :
    outcome.Touches allowed trace := by
  obtain ⟨effects, htrace, htouches⟩ := hrest
  exact ⟨.send fd message sent :: effects, by simpa using htrace, List.forall_mem_cons.mpr ⟨hfd, htouches⟩⟩

theorem touches_send_or_depart (message : Message) (hfd : allowed client_fd) {failed_fd : Fd}
    (hfailed : allowed failed_fd) {continuation : List Effect → Outcome}
    (hcontinuation : ∀ trace, (continuation trace).Touches allowed trace) :
    (send_or_depart net client_fd message failed_fd server trace continuation).Touches allowed trace := by
  unfold send_or_depart
  dsimp only
  split
  · exact (hcontinuation _).after_send hfd
  · exact (touches_departed hserver hwithin hfailed true).after_send hfd

/-- Invitations touch descriptors of users. -/
theorem touches_invite_all (roomname : CString) (invitation : Message) {invited_users : List User}
    (hinvited : ∀ user ∈ invited_users, user ∈ server.users) :
    (invite_all net roomname invitation invited_users server trace).Touches allowed trace := by
  induction invited_users generalizing server trace with
  | nil => exact touches_idle true
  | cons user rest ih =>
    have huser := hinvited user List.mem_cons_self
    unfold invite_all
    split
    · exact touches_idle true
    · rename_i houtside
      have hadded := hserver.add_guest huser (Bool.not_eq_true _ ▸ houtside)
      refine touches_send_or_depart hadded hwithin invitation (hwithin user huser) (hwithin user huser) fun trace => ?_
      exact ih hadded hwithin fun other hother => hinvited other (List.mem_cons_of_mem user hother)

/-- A reaction is about the requester and the registered users only. -/
theorem Permitted.touches {msg_in : Message} {reaction : Reaction}
    (hpermitted : Permitted server client_fd msg_in reaction) (hself : allowed client_fd) (net : Net)
    (trace : List Effect) :
    (reaction.perform net client_fd server trace).Touches allowed trace := by
  have hsettled := hpermitted.settled_consistent net trace hserver
  have hreply : ∀ (message : Message) {fd : Fd}, allowed fd →
      ((Reaction.reply fd message).perform net client_fd server trace).Touches allowed trace := fun message _ hfd =>
    touches_send_or_depart hserver hwithin message hfd hself fun trace => touches_idle true
  cases hpermitted with
  | ignore answer => exact touches_idle answer
  | crash habsent => exact ⟨[], by simp [final_world, Reaction.perform], List.forall_mem_nil _⟩
  | answer operation result extra => exact hreply _ hself
  | user_list user htype hsender => exact hreply _ hself
  | room_user_list roomname room htype hroom => exact hreply _ hself
  | text user user_to text htype hsender haddressee hother htext => exact hreply _ (hwithin user_to haddressee)
  | refuse operation result extra => exact (touches_departed hserver hwithin hself true).after_send hself
  | leave => exact touches_departed hserver hwithin hself true
  | register user hfd hactive hname hunknown =>
    have hregistered : (server.register user).Within allowed := by
      intro other hother
      rw [hserver.users.find_by_username_eq_none_iff] at hname
      rcases (UsersTable.mem_add hserver.users hname).mp hother with rfl | hold
      · exact hfd ▸ hself
      · exact hwithin other hold
    exact touches_send_or_depart hsettled hregistered _ hself hself fun trace => touches_announce hsettled hregistered _
  | set_status user status text htype hsender hread hchange =>
    have hchanged : (server.set_status client_fd status).Within allowed := by
      intro other hother
      obtain ⟨old, hold, rfl⟩ := (UsersTable.mem_change_status_by_client_fd hserver.users).mp hother
      have hallowed := hwithin old hold
      split <;> exact hallowed
    exact touches_announce (hserver.set_status client_fd status) hchanged _
  | publish user text htype hsender htext => exact touches_announce hserver hwithin _
  | create user requested named htype hsender hroomname hfree =>
    exact touches_send_or_depart hsettled hwithin _ hself hself fun trace => touches_idle true
  | invite user roomname room usernames invited_users htype hsender hroomname husernames hroom hmember hinvited =>
    exact touches_invite_all hserver hwithin _ _ fun invited hmem => (hinvited invited hmem).1
  | join user roomname room htype hsender hroomname hroom houtside hguest =>
    exact touches_send_or_depart hsettled hwithin _ hself hself fun trace =>
      touches_tell_members hsettled hwithin roomname _
  | tell_room user roomname room text htype hsender hroomname hroom hmember htext =>
    exact touches_tell_members hserver hwithin roomname _
  | quit user roomname room htype hsender hroomname hroom hmember =>
    have hleft : (server.quit roomname user).Within allowed := by
      unfold Server.Within
      rw [Server.users_quit]
      exact hwithin
    exact touches_tell_members hsettled hleft roomname _

/-- As `Permitted.touches`, for events that complete. -/
theorem served_touches {event : Event} {after : World} (hself : allowed event.client_fd)
    (hserved : Served net (.idle server trace) event after) :
    ∃ effects, after.trace = trace ++ effects ∧ ∀ effect ∈ effects, allowed effect.fd := by
  have htouches := (event.permitted hserver).touches hserver hwithin hself net trace
  have hfinal := final_world_serve net trace hserver event
  rw [hserved] at hfinal
  change after = _ at hfinal
  cases event with
  | accept client_fd =>
    exact ⟨[.accept client_fd], congrArg World.trace hfinal, by simpa [Effect.fd, Event.client_fd] using hself⟩
  | request client_fd msg_in => exact hfinal ▸ htouches
  | invalid client_fd => exact hfinal ▸ htouches

end Touches

end ojalvo
