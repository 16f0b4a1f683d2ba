import OjalvoChat.Protocol.Eviction
import OjalvoChat.Protocol.Permitted

namespace ojalvo

/-- What a reaction does to the tables before anybody is evicted, for a chain of
invitations together with the casualties of the invitation that could not be
sent. -/
def settle_invitations (net : Net) (roomname : CString) (invitation : Message) (invited_users : List User)
    (server : Server) (trace : List Effect) : Server × List Fd :=
  match invited_users with
  | [] => (server, [])
  | user :: rest =>
    if server.in_room roomname user then (server, [])
    else
      let server := server.add_guest roomname user
      let sent := net trace user.socket_fd invitation
      let trace := trace ++ [.send user.socket_fd invitation sent]
      if sent then settle_invitations net roomname invitation rest server trace
      else (server, departing net server trace user.socket_fd)

/-- The tables after a reaction, not counting those who then leave the server. -/
def Reaction.settled (net : Net) (server : Server) (trace : List Effect) (reaction : Reaction) : Server :=
  match reaction with
  | .register user => server.register user
  | .set_status user status _ => server.set_status user.socket_fd status
  | .create room creator => server.create_room room creator
  | .invite roomname invited_users invitation =>
    (settle_invitations net roomname invitation invited_users server trace).1
  | .join roomname user => server.let_in roomname user
  | .quit roomname user => server.quit roomname user
  | _ => server

/-- Who is gone when a reply could not be sent. -/
def unanswered (net : Net) (client_fd : Fd) (message : Message) (failed_fd : Fd) (server : Server)
    (trace : List Effect) (answered : List Effect → List Fd) : List Fd :=
  let sent := net trace client_fd message
  let trace := trace ++ [.send client_fd message sent]
  if sent then answered trace else departing net server trace failed_fd

/-- Who cannot be told about something that all users are told. -/
def unreachable (net : Net) (client_fd : Fd) (message : Message) (server : Server) (trace : List Effect) : List Fd :=
  failures (broadcast net message trace (recipients server.users.entries client_fd))

/-- The descriptors whose users leave the server because of a reaction. -/
def Reaction.casualties (net : Net) (client_fd : Fd) (server : Server) (trace : List Effect) (reaction : Reaction) :
    List Fd :=
  match reaction with
  | .reply fd message => unanswered net fd message client_fd server trace fun _ => []
  | .refuse message =>
    departing net server (trace ++ [.send client_fd message (net trace client_fd message)]) client_fd
  | .leave => departing net server trace client_fd
  | .register user =>
    let server := server.register user
    unanswered net client_fd (response (.lit "IDENTIFY") (.lit "SUCCESS") user.username) client_fd server trace
      (unreachable net client_fd (new_user_notice user.username) server)
  | .set_status user status text =>
    unreachable net client_fd (new_status_notice user.username text) (server.set_status user.socket_fd status) trace
  | .publish message => unreachable net client_fd message server trace
  | .create room creator =>
    unanswered net client_fd (response (.lit "NEW_ROOM") (.lit "SUCCESS") room.roomname) client_fd
      (server.create_room room creator) trace fun _ => []
  | .invite roomname invited_users invitation =>
    (settle_invitations net roomname invitation invited_users server trace).2
  | .join roomname user =>
    unanswered net client_fd (response (.lit "JOIN_ROOM") (.lit "SUCCESS") roomname) client_fd
      (server.let_in roomname user) trace fun _ => []
  | _ => []

section Settled

variable (net : Net) {server : Server} (trace : List Effect) {client_fd : Fd} {msg_in : Message}

/-- A server stays consistent while users are invited. -/
theorem Server.Consistent.settle_invitations {server : Server} (hserver : server.Consistent)
    (roomname : CString) (invitation : Message) {invited_users : List User}
    (hinvited : ∀ invited ∈ invited_users, invited ∈ server.users) :
    (ojalvo.settle_invitations net roomname invitation invited_users server trace).1.Consistent := by
  induction invited_users generalizing server trace with
  | nil => exact hserver
  | cons user rest ih =>
    unfold ojalvo.settle_invitations
    by_cases hinside : server.in_room roomname user
    · rw [if_pos hinside]
      exact hserver
    · have hadded := hserver.add_guest (hinvited user List.mem_cons_self) (Bool.not_eq_true _ ▸ hinside)
      rw [if_neg hinside]
      dsimp only
      split
      · exact ih _ hadded fun other hother => hinvited other (List.mem_cons_of_mem user hother)
      · exact hadded

/-- A permitted reaction keeps the tables consistent. -/
theorem Permitted.settled_consistent {reaction : Reaction} (hpermitted : Permitted server client_fd msg_in reaction)
    (hserver : server.Consistent) : (reaction.settled net server trace).Consistent := by
  cases hpermitted with
  | register user hfd hactive hname hunknown => exact hserver.register hname hunknown
  | set_status user status text htype hsender hread hchange => exact hserver.set_status user.socket_fd status
  | create user requested named htype hsender hroomname hfree => exact hserver.create_room hsender.registered named
  | invite user roomname room usernames invited_users htype hsender hroomname husernames hroom hmember hinvited =>
    exact hserver.settle_invitations net trace roomname _ fun invited hmem => (hinvited invited hmem).1
  | join user roomname room htype hsender hroomname hroom houtside hguest =>
    refine hserver.let_in hsender.registered fun other hother => ?_
    rw [hroom] at hother
    cases hother
    exact houtside
  | quit user roomname room htype hsender hroomname hroom hmember => exact hserver.quit roomname user
  | _ => exact hserver

end Settled

section Perform

variable {net : Net} {server : Server} {trace : List Effect} {client_fd : Fd} {msg_in : Message}
  {answer : Bool} {world : World}

/-- An outcome that, unless the thread is stuck, is an idle world with the
tables of one server without some of its users. -/
def Outcome.Leaves (outcome : Outcome) (base : Server) (fds : List Fd) : Prop :=
  ∀ answer world, outcome = .ok answer world → ∃ later, world = .idle (base.evict_all fds) later

theorem leaves_idle (answer : Bool) (server : Server) (trace : List Effect) :
    Outcome.Leaves (.ok answer (.idle server trace)) server [] := by
  rintro _ _ ⟨⟩
  exact ⟨trace, rfl⟩

/-- A departure leaves the server without the user and without those who could not
be told. -/
theorem leaves_departed (hserver : server.Consistent) :
    Outcome.Leaves (.ok answer (departed net server trace client_fd)) server
      (departing net server trace client_fd) := by
  rintro _ _ ⟨⟩
  exact ⟨_, by rw [departed, hserver.depart_eq]⟩

/-- An announcement leaves the server without those who could not be told. -/
theorem leaves_announce (message : Message) :
    (announce net client_fd message server trace).Leaves server (unreachable net client_fd message server trace) := by
  rintro _ _ ⟨⟩
  exact ⟨_, rfl⟩

/-- A broadcast to a room that completes leaves the server as it is. -/
theorem leaves_tell_members (roomname : CString) (message : Message) :
    (tell_members net client_fd roomname message server trace).Leaves server [] := by
  intro answer world hok
  simp only [tell_members] at hok
  split at hok
  · cases hok
    exact ⟨_, rfl⟩
  · cases hok

theorem leaves_send_or_depart (hserver : server.Consistent) (message : Message) (failed_fd : Fd)
    (continuation : List Effect → Outcome) (answered : List Effect → List Fd)
    (hanswered : ∀ trace, (continuation trace).Leaves server (answered trace)) :
    (send_or_depart net client_fd message failed_fd server trace continuation).Leaves server
      (unanswered net client_fd message failed_fd server trace answered) := by
  unfold send_or_depart unanswered
  dsimp only
  split
  · exact hanswered _
  · exact leaves_departed hserver

/-- Invitations leave the new guests, and nobody who departed over a failed one. -/
theorem leaves_invite_all {server : Server} {trace : List Effect} (hserver : server.Consistent) (roomname : CString)
    (invitation : Message) {invited_users : List User} (hinvited : ∀ invited ∈ invited_users, invited ∈ server.users) :
    (invite_all net roomname invitation invited_users server trace).Leaves
      (settle_invitations net roomname invitation invited_users server trace).1
      (settle_invitations net roomname invitation invited_users server trace).2 := by
  induction invited_users generalizing server trace with
  | nil => exact leaves_idle true server trace
  | cons user rest ih =>
    unfold invite_all settle_invitations
    by_cases hinside : server.in_room roomname user
    · rw [if_pos hinside, if_pos hinside]
      exact leaves_idle true server trace
    · have hadded := hserver.add_guest (hinvited user List.mem_cons_self) (Bool.not_eq_true _ ▸ hinside)
      rw [if_neg hinside, if_neg hinside]
      unfold send_or_depart
      dsimp only
      split
      · exact ih hadded fun other hother => hinvited other (List.mem_cons_of_mem user hother)
      · exact leaves_departed hadded

/-- What one request can do to the tables: the change that its reaction calls
for, and the removal of the casualties. -/
theorem Permitted.leaves {server : Server} {reaction : Reaction}
    (hpermitted : Permitted server client_fd msg_in reaction) (net : Net) (trace : List Effect)
    (hserver : server.Consistent) :
    (reaction.perform net client_fd server trace).Leaves (reaction.settled net server trace)
      (reaction.casualties net client_fd server trace) := by
  have hsettled := hpermitted.settled_consistent net trace hserver
  cases hpermitted with
  | ignore answer => exact leaves_idle answer server trace
  | crash habsent =>
    intro answer world hok
    cases hok
  | answer operation result extra =>
    exact leaves_send_or_depart hserver _ client_fd _ _ (leaves_idle true server)
  | user_list user htype hsender => exact leaves_send_or_depart hserver _ client_fd _ _ (leaves_idle true server)
  | room_user_list roomname room htype hroom =>
    exact leaves_send_or_depart hserver _ client_fd _ _ (leaves_idle true server)
  | text user user_to text htype hsender haddressee hother htext =>
    exact leaves_send_or_depart hserver _ client_fd _ _ (leaves_idle true server)
  | refuse operation result extra => exact leaves_departed hserver
  | leave => exact leaves_departed hserver
  | register user hfd hactive hname hunknown =>
    exact leaves_send_or_depart hsettled _ client_fd _ _ fun trace => leaves_announce _
  | set_status user status text htype hsender hread hchange =>
    simp only [Reaction.perform, Reaction.settled, Reaction.casualties, hsender.connected]
    exact leaves_announce _
  | publish user text htype hsender htext => exact leaves_announce _
  | create user requested named htype hsender hroomname hfree =>
    exact leaves_send_or_depart hsettled _ client_fd _ _ (leaves_idle true _)
  | invite user roomname room usernames invited_users htype hsender hroomname husernames hroom hmember hinvited =>
    exact leaves_invite_all hserver roomname _ fun invited hmem => (hinvited invited hmem).1
  | join user roomname room htype hsender hroomname hroom houtside hguest =>
    exact leaves_send_or_depart hsettled _ client_fd _ _ fun trace => leaves_tell_members roomname _
  | tell_room user roomname room text htype hsender hroomname hroom hmember htext =>
    exact leaves_tell_members roomname _
  | quit user roomname room htype hsender hroomname hroom hmember => exact leaves_tell_members roomname _

end Perform

end ojalvo
