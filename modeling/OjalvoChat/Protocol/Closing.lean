import OjalvoChat.Descriptors
import OjalvoChat.Protocol.Delivery

namespace ojalvo

/-- A broadcast closes nothing. -/
@[simp] theorem closed_broadcast (net : Net) (message : Message) (trace : List Effect) (fds : List Fd) :
    closed (broadcast net message trace fds) = [] := by
  rw [List.eq_nil_iff_forall_not_mem]
  intro fd hmem
  obtain ⟨other, _, _, heq⟩ := exists_of_mem_broadcast (mem_closed.mp hmem)
  cases heq

/-- The descriptor that is closed when a reply could not be sent. -/
def closed_unanswered (net : Net) (client_fd : Fd) (message : Message) (failed_fd : Fd) (trace : List Effect) :
    List Fd :=
  if net trace client_fd message then [] else [failed_fd]

/-- The same for a chain of invitations. -/
def closed_invitations (net : Net) (roomname : CString) (invitation : Message) (invited_users : List User)
    (server : Server) (trace : List Effect) : List Fd :=
  match invited_users with
  | [] => []
  | user :: rest =>
    if server.in_room roomname user then []
    else
      let server := server.add_guest roomname user
      let sent := net trace user.socket_fd invitation
      let trace := trace ++ [.send user.socket_fd invitation sent]
      if sent then closed_invitations net roomname invitation rest server trace else [user.socket_fd]

/-- The descriptors that a reaction closes. -/
def Reaction.closed (net : Net) (client_fd : Fd) (server : Server) (trace : List Effect) (reaction : Reaction) :
    List Fd :=
  match reaction with
  | .reply fd message => closed_unanswered net fd message client_fd trace
  | .refuse _ => [client_fd]
  | .leave => [client_fd]
  | .register user =>
    closed_unanswered net client_fd (response (.lit "IDENTIFY") (.lit "SUCCESS") user.username) client_fd trace
  | .create room _ =>
    closed_unanswered net client_fd (response (.lit "NEW_ROOM") (.lit "SUCCESS") room.roomname) client_fd trace
  | .invite roomname invited_users invitation => closed_invitations net roomname invitation invited_users server trace
  | .join roomname _ =>
    closed_unanswered net client_fd (response (.lit "JOIN_ROOM") (.lit "SUCCESS") roomname) client_fd trace
  | _ => []

section Closes

/-- What an outcome adds to a trace closes exactly the given descriptors, and
opens none. -/
def Outcome.Closes (fds : List Fd) (trace : List Effect) (outcome : Outcome) : Prop :=
  ∃ effects, (final_world outcome).trace = trace ++ effects ∧ ojalvo.closed effects = fds ∧
    ∀ fd, Effect.accept fd ∉ effects

variable {net : Net} {server : Server} {trace : List Effect} {client_fd : Fd}

theorem closes_idle (answer : Bool) : Outcome.Closes [] trace (.ok answer (.idle server trace)) :=
  ⟨[], by simp [final_world], rfl, fun _ => List.not_mem_nil⟩

/-- A broadcast accepts nobody. -/
theorem accept_not_mem_broadcast (message : Message) (fds : List Fd) (fd : Fd) :
    Effect.accept fd ∉ broadcast net message trace fds := by
  intro hmem
  obtain ⟨_, _, _, heq⟩ := exists_of_mem_broadcast hmem
  cases heq

/-- An announcement closes nothing, whoever is removed for it. -/
theorem closes_announce (message : Message) :
    (announce net client_fd message server trace).Closes [] trace :=
  ⟨_, rfl, closed_broadcast .., accept_not_mem_broadcast _ _⟩

theorem closes_tell_members (roomname : CString) (message : Message) :
    (tell_members net client_fd roomname message server trace).Closes [] trace := by
  unfold tell_members
  dsimp only
  split
  · exact ⟨_, rfl, closed_broadcast .., accept_not_mem_broadcast _ _⟩
  · exact ⟨_, rfl, closed_broadcast .., accept_not_mem_broadcast _ _⟩

/-- A departure closes its own descriptor. -/
theorem closes_departed (answer : Bool) :
    Outcome.Closes [client_fd] trace (.ok answer (departed net server trace client_fd)) := by
  refine ⟨departure_notices net server trace client_fd ++ [.close client_fd], by simp [final_world, departed], ?_⟩
  unfold departure_notices
  cases server.users.find_by_client_fd client_fd with
  | none => simp
  | some user => simp [accept_not_mem_broadcast]

/-- A send before the rest closes nothing. -/
theorem Outcome.Closes.after_send {outcome : Outcome} {message : Message} {fd : Fd} {sent : Bool} {fds : List Fd}
    (hrest : outcome.Closes fds (trace ++ [.send fd message sent])) : outcome.Closes fds trace := by
  obtain ⟨effects, htrace, hclosed, hopened⟩ := hrest
  refine ⟨.send fd message sent :: effects, by simpa using htrace, hclosed, fun other hmem => ?_⟩
  exact hopened other ((List.mem_cons.mp hmem).resolve_left nofun)

theorem closes_send_or_depart (message : Message) (failed_fd : Fd) (continuation : List Effect → Outcome)
    (hcontinuation : ∀ trace, (continuation trace).Closes [] trace) :
    (send_or_depart net client_fd message failed_fd server trace continuation).Closes
      (closed_unanswered net client_fd message failed_fd trace) trace := by
  unfold send_or_depart closed_unanswered
  dsimp only
  split
  · exact (hcontinuation _).after_send
  · exact (closes_departed true).after_send

/-- Invitations close the descriptor on which one of them fails. -/
theorem closes_invite_all (roomname : CString) (invitation : Message) (invited_users : List User) :
    (invite_all net roomname invitation invited_users server trace).Closes
      (closed_invitations net roomname invitation invited_users server trace) trace := by
  induction invited_users generalizing server trace with
  | nil => exact closes_idle true
  | cons user rest ih =>
    unfold invite_all closed_invitations send_or_depart
    dsimp only
    split
    · exact closes_idle true
    · split
      · exact ih.after_send
      · exact (closes_departed true).after_send

/-- A reaction closes its descriptors, each as often as it is listed. -/
theorem Reaction.closes (reaction : Reaction) (net : Net) (client_fd : Fd) (server : Server) (trace : List Effect) :
    (reaction.perform net client_fd server trace).Closes (reaction.closed net client_fd server trace) trace := by
  cases reaction with
  | ignore answer => exact closes_idle answer
  | crash => exact ⟨[], by simp [final_world, Reaction.perform], rfl, fun _ => List.not_mem_nil⟩
  | reply fd message => exact closes_send_or_depart message client_fd _ fun trace => closes_idle true
  | refuse message => exact (closes_departed true).after_send
  | leave => exact closes_departed true
  | register user => exact closes_send_or_depart _ client_fd _ fun trace => closes_announce _
  | set_status user status text => exact closes_announce _
  | publish message => exact closes_announce message
  | create room creator => exact closes_send_or_depart _ client_fd _ fun trace => closes_idle true
  | invite roomname invited_users invitation => exact closes_invite_all roomname invitation invited_users
  | join roomname user => exact closes_send_or_depart _ client_fd _ fun trace => closes_tell_members roomname _
  | tell_room roomname message => exact closes_tell_members roomname message
  | quit roomname user => exact closes_tell_members roomname _

end Closes

section Casualties

variable {net : Net} {server : Server} {trace : List Effect} {client_fd fd : Fd}

/-- Who departs is among those who are gone. -/
theorem self_mem_departing : client_fd ∈ departing net server trace client_fd := by simp [departing]

/-- Who is closed for a failed answer is gone. -/
theorem mem_unanswered_of_closed {message : Message} {failed_fd : Fd} (server : Server)
    (answered : List Effect → List Fd)
    (hclosed : fd ∈ closed_unanswered net client_fd message failed_fd trace) :
    fd ∈ unanswered net client_fd message failed_fd server trace answered := by
  unfold closed_unanswered at hclosed
  unfold unanswered
  dsimp only
  split at hclosed
  · cases hclosed
  · rename_i hunsent
    rw [if_neg hunsent, List.mem_singleton.mp hclosed]
    exact self_mem_departing

/-- Who is closed for a failed invitation is gone. -/
theorem mem_settle_invitations_of_closed {roomname : CString} {invitation : Message} {invited_users : List User}
    (hclosed : fd ∈ closed_invitations net roomname invitation invited_users server trace) :
    fd ∈ (settle_invitations net roomname invitation invited_users server trace).2 := by
  induction invited_users generalizing server trace with
  | nil => cases hclosed
  | cons user rest ih =>
    unfold closed_invitations at hclosed
    unfold settle_invitations
    dsimp only at hclosed ⊢
    split at hclosed
    · cases hclosed
    · rename_i houtside
      rw [if_neg houtside]
      split at hclosed
      · rename_i hsent
        rw [if_pos hsent]
        exact ih hclosed
      · rename_i hunsent
        rw [if_neg hunsent, List.mem_singleton.mp hclosed]
        exact self_mem_departing

/-- No descriptor is closed while its user stays. -/
theorem Reaction.closed_subset_casualties {reaction : Reaction}
    (hclosed : fd ∈ reaction.closed net client_fd server trace) :
    fd ∈ reaction.casualties net client_fd server trace := by
  cases reaction with
  | reply other message => exact mem_unanswered_of_closed server (fun _ => []) hclosed
  | refuse message =>
    rw [List.mem_singleton.mp hclosed]
    exact self_mem_departing
  | leave =>
    rw [List.mem_singleton.mp hclosed]
    exact self_mem_departing
  | register user => exact mem_unanswered_of_closed _ _ hclosed
  | create room creator => exact mem_unanswered_of_closed _ (fun _ => []) hclosed
  | invite roomname invited_users invitation => exact mem_settle_invitations_of_closed hclosed
  | join roomname user => exact mem_unanswered_of_closed _ (fun _ => []) hclosed
  | _ => cases hclosed

end Casualties

section Final

variable {net : Net} {server : Server} {trace : List Effect} {client_fd : Fd} {msg_in : Message} {why : Stop}
  {stopped : World}

theorem send_or_depart_stopped {message : Message} {failed_fd : Fd} {continuation : List Effect → Outcome}
    (hstopped : send_or_depart net client_fd message failed_fd server trace continuation = .error why stopped) :
    net trace client_fd message = true ∧
      continuation (trace ++ [.send client_fd message (net trace client_fd message)]) = .error why stopped := by
  unfold send_or_depart at hstopped
  dsimp only at hstopped
  split at hstopped
  · exact ⟨‹_›, hstopped⟩
  · cases hstopped

/-- A broadcast to a room that gets stuck has not changed the tables. -/
theorem tell_members_stopped {roomname : CString} {message : Message}
    (hstopped : tell_members net client_fd roomname message server trace = .error why stopped) :
    stopped.server = server := by
  unfold tell_members at hstopped
  dsimp only at hstopped
  split at hstopped
  · cases hstopped
  · cases hstopped
    rfl

/-- Sending invitations never gets stuck. -/
theorem invite_all_completes (roomname : CString) (invitation : Message) (invited_users : List User) :
    invite_all net roomname invitation invited_users server trace ≠ .error why stopped := by
  induction invited_users generalizing server trace with
  | nil => exact nofun
  | cons user rest ih =>
    intro hstopped
    unfold invite_all at hstopped
    dsimp only at hstopped
    split at hstopped
    · cases hstopped
    · exact ih (send_or_depart_stopped hstopped).2

/-- A reaction that stops has made its change, and nobody has left. -/
theorem Reaction.stops {reaction : Reaction}
    (hstopped : reaction.perform net client_fd server trace = .error why stopped) :
    stopped.server = reaction.settled net server trace ∧ reaction.casualties net client_fd server trace = [] := by
  cases reaction with
  | crash =>
    cases hstopped
    exact ⟨rfl, rfl⟩
  | reply fd message =>
    simp only [Reaction.perform] at hstopped
    cases (send_or_depart_stopped hstopped).2
  | register user => cases (send_or_depart_stopped hstopped).2
  | create room creator =>
    simp only [Reaction.perform] at hstopped
    cases (send_or_depart_stopped hstopped).2
  | invite roomname invited_users invitation =>
    exact absurd hstopped (invite_all_completes roomname invitation invited_users)
  | join roomname user =>
    obtain ⟨hsent, hstopped⟩ := send_or_depart_stopped hstopped
    exact ⟨tell_members_stopped hstopped, by simp [Reaction.casualties, unanswered, hsent]⟩
  | tell_room roomname message => exact ⟨tell_members_stopped hstopped, rfl⟩
  | quit roomname user => exact ⟨tell_members_stopped hstopped, rfl⟩
  | _ => cases hstopped

/-- The tables after a reaction, also when it stops: its change, without the
casualties. -/
theorem Permitted.final_server {reaction : Reaction} (hpermitted : Permitted server client_fd msg_in reaction)
    (net : Net) (trace : List Effect) (hserver : server.Consistent) :
    (final_world (reaction.perform net client_fd server trace)).server =
      (reaction.settled net server trace).evict_all (reaction.casualties net client_fd server trace) := by
  cases houtcome : reaction.perform net client_fd server trace with
  | ok answer world =>
    obtain ⟨later, rfl⟩ := hpermitted.leaves net trace hserver answer world houtcome
    rfl
  | error why stopped =>
    obtain ⟨hsettled, hnone⟩ := Reaction.stops houtcome
    rw [hnone]
    exact hsettled

end Final

end ojalvo
