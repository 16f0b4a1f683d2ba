import OjalvoChat.Protocol.Failing
import OjalvoChat.Protocol.Lines
import OjalvoChat.Protocol.Presence

namespace ojalvo

/-- The messages that are for all of `server->users`. -/
def public_types : List MessageType := [.NEW_USER, .NEW_STATUS, .PUBLIC_TEXT_FROM, .DISCONNECTED]

/-- Such a message could not be sent to a descriptor. -/
def Lost (effects : List Effect) (fd : Fd) : Prop :=
  ∃ message, message.type ∈ public_types ∧ Effect.send fd message false ∈ effects

/-- What a disconnection leaves behind: the client is in no table, its socket is
closed, and all remaining users within reach know. -/
structure Farewell (failed : Fd → Bool) (after : Server) (effects : List Effect) (fd : Fd) (username : CString) :
    Prop where
  unregistered : ∀ name, ¬ after.Registered fd name
  roomless : ∀ roomname name, ¬ after.Member roomname fd name ∧ ¬ after.Guest roomname fd name
  closed : Effect.close fd ∈ effects
  announced : ∀ other name, after.Registered other name → failed other = false →
    disconnected_notice username ∈ received other effects

/-- All users whom the broadcast of an event cannot reach get a farewell. -/
def FarewellsFollow (failed : Fd → Bool) (world : World) (event : Event) : Prop :=
  let after := final_world ((serve (failing failed) event).run world)
  ∀ effects, after.trace = world.trace ++ effects → ∀ fd username, world.server.Registered fd username →
    Lost effects fd → Farewell failed after.server effects fd username

/-- Those who are told when a client departs. -/
def Server.bystanders (server : Server) (client_fd : Fd) : List Fd :=
  match server.users.find_by_client_fd client_fd with
  | none => []
  | some _ => recipients server.users.entries client_fd

/-- The first of several users whose invitation fails. -/
def uninvited (failed : Fd → Bool) (roomname : CString) (invited_users : List User) (server : Server) : Option Fd :=
  match invited_users with
  | [] => none
  | user :: rest =>
    if server.in_room roomname user then none
    else if failed user.socket_fd then some user.socket_fd
    else uninvited failed roomname rest (server.add_guest roomname user)

/-- The descriptors to which the broadcast of a request goes, when the sends to
some descriptors fail. -/
def Reaction.audience (failed : Fd → Bool) (client_fd : Fd) (server : Server) (reaction : Reaction) : List Fd :=
  match reaction with
  | .reply fd _ => if failed fd then server.bystanders client_fd else []
  | .refuse _ => server.bystanders client_fd
  | .leave => server.bystanders client_fd
  | .register _ => recipients server.users.entries client_fd
  | .set_status .. => recipients server.users.entries client_fd
  | .publish _ => recipients server.users.entries client_fd
  | .create .. => if failed client_fd then server.bystanders client_fd else []
  | .invite roomname invited_users _ =>
    match uninvited failed roomname invited_users server with
    | none => []
    | some fd => server.bystanders fd
  | .join .. => if failed client_fd then server.bystanders client_fd else []
  | _ => []

section Losses

variable {failed : Fd → Bool} {server : Server} {trace : List Effect} {client_fd : Fd} {msg_in : Message}

/-- An outcome loses exactly the descriptors of a list that are out of reach. -/
def Outcome.Loses (failed : Fd → Bool) (told : List Fd) (trace : List Effect) (outcome : Outcome) : Prop :=
  ∃ effects, (final_world outcome).trace = trace ++ effects ∧ ∀ fd, Lost effects fd ↔ fd ∈ told ∧ failed fd = true

theorem not_lost_nil (fd : Fd) : ¬ Lost [] fd := by
  rintro ⟨_, _, hmem⟩
  cases hmem

/-- A public message is lost on those it goes to who cannot be reached. -/
theorem lost_broadcast {message : Message} (hpublic : message.type ∈ public_types) (fds : List Fd) (fd : Fd) :
    Lost (broadcast (failing failed) message trace fds) fd ↔ fd ∈ fds ∧ failed fd = true := by
  rw [broadcast_failing]
  constructor
  · rintro ⟨other, -, hmem⟩
    obtain ⟨found, hfound, heq⟩ := List.mem_map.mp hmem
    obtain ⟨rfl, -, hunsent⟩ := Effect.send.inj heq
    exact ⟨hfound, by simpa using hunsent⟩
  · rintro ⟨hmem, hfailed⟩
    exact ⟨message, hpublic, List.mem_map.mpr ⟨fd, hmem, by rw [hfailed]; rfl⟩⟩

/-- No user is removed for a message that is not public. -/
theorem not_lost_broadcast {message : Message} (hprivate : message.type ∉ public_types) (fds : List Fd) (fd : Fd) :
    ¬ Lost (broadcast (failing failed) message trace fds) fd := by
  rintro ⟨other, hpublic, hmem⟩
  obtain ⟨_, _, _, heq⟩ := exists_of_mem_broadcast hmem
  cases heq
  exact hprivate hpublic

theorem disconnected_is_public (username : CString) : (disconnected_notice username).type ∈ public_types :=
  show MessageType.DISCONNECTED ∈ public_types by decide

theorem loses_idle (answer : Bool) : Outcome.Loses failed [] trace (.ok answer (.idle server trace)) :=
  ⟨[], by simp [final_world], fun fd => iff_of_false (not_lost_nil fd) (by simp)⟩

/-- An announcement loses those who cannot be reached. -/
theorem loses_announce {message : Message} (hpublic : message.type ∈ public_types) :
    (announce (failing failed) client_fd message server trace).Loses failed
      (recipients server.users.entries client_fd) trace :=
  ⟨_, rfl, lost_broadcast hpublic _⟩

/-- A message to a room loses nobody. -/
theorem loses_tell_members {message : Message} (hprivate : message.type ∉ public_types) (roomname : CString) :
    (tell_members (failing failed) client_fd roomname message server trace).Loses failed [] trace := by
  have hnobody : ∀ fd, Lost (broadcast (failing failed) message trace (server.room_recipients roomname client_fd)) fd ↔
      fd ∈ [] ∧ failed fd = true := fun fd => iff_of_false (not_lost_broadcast hprivate _ fd) (by simp)
  unfold tell_members
  dsimp only
  split
  · exact ⟨_, rfl, hnobody⟩
  · exact ⟨_, rfl, hnobody⟩

/-- The notice of a departure loses the bystanders who cannot be reached. -/
theorem loses_departed (answer : Bool) :
    Outcome.Loses failed (server.bystanders client_fd) trace
      (.ok answer (departed (failing failed) server trace client_fd)) := by
  refine ⟨departure_notices (failing failed) server trace client_fd ++ [.close client_fd],
    by simp [final_world, departed], fun fd => ?_⟩
  have hclose : Lost (departure_notices (failing failed) server trace client_fd ++ [.close client_fd]) fd ↔
      Lost (departure_notices (failing failed) server trace client_fd) fd := by
    simp [Lost]
  rw [hclose]
  unfold departure_notices Server.bystanders
  cases server.users.find_by_client_fd client_fd with
  | none => exact iff_of_false (not_lost_nil fd) (by simp)
  | some user => exact lost_broadcast (disconnected_is_public user.username) _ fd

/-- A message to one client before the rest loses nobody. -/
theorem Outcome.Loses.after_send {outcome : Outcome} {message : Message} {fd : Fd} {sent : Bool} {told : List Fd}
    (hrest : outcome.Loses failed told (trace ++ [.send fd message sent])) (hprivate : message.type ∉ public_types) :
    outcome.Loses failed told trace := by
  obtain ⟨effects, htrace, hlost⟩ := hrest
  refine ⟨.send fd message sent :: effects, by simpa using htrace, fun other => ?_⟩
  rw [← hlost other]
  constructor
  · rintro ⟨public_message, hpublic, hmem⟩
    rcases List.mem_cons.mp hmem with heq | hlater
    · cases heq
      exact absurd hpublic hprivate
    · exact ⟨public_message, hpublic, hlater⟩
  · rintro ⟨public_message, hpublic, hmem⟩
    exact ⟨public_message, hpublic, List.mem_cons_of_mem _ hmem⟩

theorem loses_send_or_depart {message : Message} (hprivate : message.type ∉ public_types) (failed_fd : Fd)
    (continuation : List Effect → Outcome) (told : List Fd)
    (hcontinuation : ∀ trace, (continuation trace).Loses failed told trace) :
    (send_or_depart (failing failed) client_fd message failed_fd server trace continuation).Loses failed
      (if failed client_fd then server.bystanders failed_fd else told) trace := by
  unfold send_or_depart failing
  cases hfailed : failed client_fd with
  | true => exact (loses_departed true).after_send hprivate
  | false => exact (hcontinuation _).after_send hprivate

theorem loses_invite_all {invitation : Message} (hprivate : invitation.type ∉ public_types) (roomname : CString)
    (invited_users : List User) :
    (invite_all (failing failed) roomname invitation invited_users server trace).Loses failed
      (match uninvited failed roomname invited_users server with
        | none => []
        | some fd => server.bystanders fd) trace := by
  induction invited_users generalizing server trace with
  | nil => exact loses_idle true
  | cons user rest ih =>
    unfold invite_all uninvited
    by_cases hinside : server.in_room roomname user
    · rw [if_pos hinside, if_pos hinside]
      exact loses_idle true
    · rw [if_neg hinside, if_neg hinside]
      have hstep : (match (if failed user.socket_fd then some user.socket_fd
            else uninvited failed roomname rest (server.add_guest roomname user)) with
          | none => []
          | some fd => server.bystanders fd) =
          if failed user.socket_fd then (server.add_guest roomname user).bystanders user.socket_fd
          else match uninvited failed roomname rest (server.add_guest roomname user) with
            | none => []
            | some fd => (server.add_guest roomname user).bystanders fd := by
        cases failed user.socket_fd with
        | true => rfl
        | false => rfl
      rw [hstep]
      exact loses_send_or_depart hprivate _ _ _ fun trace => ih

theorem Outcome.Loses.congr {outcome : Outcome} {told others : List Fd} (hloses : outcome.Loses failed told trace)
    (hsame : ∀ fd, fd ∈ told ↔ fd ∈ others) : outcome.Loses failed others trace := by
  obtain ⟨effects, htrace, hlost⟩ := hloses
  exact ⟨effects, htrace, fun fd => (hlost fd).trans (and_congr_left fun _ => hsame fd)⟩

theorem mem_recipients_iff_registered {server : Server} {client_fd fd : Fd} :
    fd ∈ recipients server.users.entries client_fd ↔ fd ≠ client_fd ∧ ∃ username, server.Registered fd username := by
  rw [mem_recipients]
  refine and_congr_right fun _ => ⟨?_, ?_⟩
  · rintro ⟨user, hmem, hfd⟩
    exact ⟨user.username, user, hmem, rfl, hfd⟩
  · rintro ⟨username, user, hmem, -, hfd⟩
    exact ⟨user, hmem, hfd⟩

/-- The broadcast of a permitted reaction loses those of its audience who are out
of reach. -/
theorem Permitted.loses {reaction : Reaction} (hpermitted : Permitted server client_fd msg_in reaction)
    (hserver : server.Consistent) :
    (reaction.perform (failing failed) client_fd server trace).Loses failed (reaction.audience failed client_fd server)
      trace := by
  have hresponse : ∀ operation result extra, (response operation result extra).type ∉ public_types :=
    fun _ _ _ => show MessageType.RESPONSE ∉ public_types by decide
  cases hpermitted with
  | ignore answer => exact loses_idle answer
  | crash habsent => exact loses_idle true
  | answer operation result extra => exact loses_send_or_depart (hresponse _ _ _) _ _ _ fun trace => loses_idle true
  | user_list user htype hsender =>
    exact loses_send_or_depart (show MessageType.USER_LIST ∉ public_types by decide) _ _ _ fun trace => loses_idle true
  | room_user_list roomname room htype hroom =>
    exact loses_send_or_depart (show MessageType.ROOM_USER_LIST ∉ public_types by decide) _ _ _ fun trace =>
      loses_idle true
  | text user user_to text htype hsender haddressee hother htext =>
    exact loses_send_or_depart (show MessageType.TEXT_FROM ∉ public_types by decide) _ _ _ fun trace =>
      loses_idle true
  | refuse operation result extra => exact (loses_departed true).after_send (hresponse _ _ _)
  | leave => exact loses_departed true
  | register user hfd hactive hname hunknown =>
    have hregistered : ∀ fd, fd ∈ recipients (server.register user).users.entries client_fd ↔
        fd ∈ recipients server.users.entries client_fd := by
      intro fd
      simp only [mem_recipients_iff_registered, hserver.registered_register hname]
      refine and_congr_right fun hother => exists_congr fun username => or_iff_left ?_
      rintro ⟨-, hsame⟩
      exact hother (hsame.symm.trans hfd)
    have htold : ∀ fd, fd ∈ (if failed client_fd then (server.register user).bystanders client_fd
        else recipients (server.register user).users.entries client_fd) ↔
          fd ∈ recipients server.users.entries client_fd := by
      intro fd
      have hfound := (hserver.register hname hunknown).users.find_by_client_fd_iff.mpr
        ⟨(UsersTable.mem_add hserver.users (hserver.users.find_by_username_eq_none_iff.mp hname)).mpr (Or.inl rfl), hfd⟩
      cases failed client_fd with
      | true =>
        simp only [if_true, Server.bystanders, hfound]
        exact hregistered fd
      | false => exact hregistered fd
    refine (loses_send_or_depart (hresponse _ _ _) _ _ _ fun trace => loses_announce ?_).congr htold
    exact (show MessageType.NEW_USER ∈ public_types by decide)
  | set_status user status text htype hsender hread hchange =>
    refine (loses_announce (show MessageType.NEW_STATUS ∈ public_types by decide)).congr fun fd => ?_
    simp only [Reaction.audience, mem_recipients_iff_registered, hserver.registered_set_status]
  | publish user text htype hsender htext =>
    exact loses_announce (show MessageType.PUBLIC_TEXT_FROM ∈ public_types by decide)
  | create user requested named htype hsender hroomname hfree =>
    exact loses_send_or_depart (hresponse _ _ _) _ _ _ fun trace => loses_idle true
  | invite user roomname room usernames invited_users htype hsender hroomname husernames hroom hmember hinvited =>
    exact loses_invite_all (show MessageType.INVITATION ∉ public_types by decide) _ _
  | join user roomname room htype hsender hroomname hroom houtside hguest =>
    exact loses_send_or_depart (hresponse _ _ _) _ _ _ fun trace =>
      loses_tell_members (show MessageType.JOINED_ROOM ∉ public_types by decide) roomname
  | tell_room user roomname room text htype hsender hroomname hroom hmember htext =>
    exact loses_tell_members (show MessageType.ROOM_TEXT_FROM ∉ public_types by decide) roomname
  | quit user roomname room htype hsender hroomname hroom hmember =>
    exact loses_tell_members (show MessageType.LEFT_ROOM ∉ public_types by decide) roomname

end Losses

section Farewells

variable {failed : Fd → Bool} {server : Server} {client_fd fd : Fd}

/-- Nobody is a bystander of its own departure. -/
theorem not_mem_bystanders_self : client_fd ∉ server.bystanders client_fd := by
  unfold Server.bystanders
  cases server.users.find_by_client_fd client_fd with
  | none => exact List.not_mem_nil
  | some user => exact fun hmem => (mem_recipients.mp hmem).1 rfl

/-- Bystanders are registered. -/
theorem registered_of_mem_bystanders (hmem : fd ∈ server.bystanders client_fd) :
    ∃ username, server.Registered fd username := by
  unfold Server.bystanders at hmem
  cases hfound : server.users.find_by_client_fd client_fd with
  | none =>
    rw [hfound] at hmem
    cases hmem
  | some user =>
    rw [hfound] at hmem
    exact (mem_recipients_iff_registered.mp hmem).2

theorem closed_invitations_failing {roomname : CString} {invitation : Message} {invited_users : List User}
    {trace : List Effect} :
    closed_invitations (failing failed) roomname invitation invited_users server trace =
      (uninvited failed roomname invited_users server).toList := by
  induction invited_users generalizing server trace with
  | nil => rfl
  | cons user rest ih =>
    unfold closed_invitations uninvited
    split
    · rfl
    · simp only [failing, ih]
      cases failed user.socket_fd <;> rfl

/-- The audience of a request is registered, and keeps its connections. -/
theorem Reaction.mem_audience {reaction : Reaction} {trace : List Effect}
    (hmem : fd ∈ reaction.audience failed client_fd server) :
    (∃ username, server.Registered fd username) ∧ fd ∉ reaction.closed (failing failed) client_fd server trace := by
  have hself : ∀ departing, fd ∈ server.bystanders departing →
      (∃ username, server.Registered fd username) ∧ fd ∉ [departing] := by
    intro departing hbystander
    refine ⟨registered_of_mem_bystanders hbystander, fun hsame => ?_⟩
    rw [List.mem_singleton.mp hsame] at hbystander
    exact not_mem_bystanders_self hbystander
  have hall : fd ∈ recipients server.users.entries client_fd →
      (∃ username, server.Registered fd username) ∧ fd ≠ client_fd :=
    fun hrecipient => (mem_recipients_iff_registered.mp hrecipient).symm
  have hanswer : ∀ target departing message, fd ∈ (if failed target then server.bystanders departing else []) →
      (∃ username, server.Registered fd username) ∧
        fd ∉ closed_unanswered (failing failed) target message departing trace := by
    intro target departing message htold
    unfold closed_unanswered failing
    cases hfailed : failed target with
    | true =>
      rw [hfailed] at htold
      exact hself departing htold
    | false =>
      rw [hfailed] at htold
      cases htold
  cases reaction with
  | reply target message => exact hanswer target client_fd message hmem
  | refuse message => exact hself client_fd hmem
  | leave => exact hself client_fd hmem
  | register user =>
    obtain ⟨hregistered, hother⟩ := hall hmem
    refine ⟨hregistered, fun hclosed => ?_⟩
    simp only [Reaction.closed, closed_unanswered] at hclosed
    split at hclosed
    · cases hclosed
    · exact hother (List.mem_singleton.mp hclosed)
  | set_status user status text => exact ⟨(hall hmem).1, List.not_mem_nil⟩
  | publish message => exact ⟨(hall hmem).1, List.not_mem_nil⟩
  | create room creator => exact hanswer client_fd client_fd _ hmem
  | invite roomname invited_users invitation =>
    rw [Reaction.closed, closed_invitations_failing]
    simp only [Reaction.audience] at hmem
    cases huninvited : uninvited failed roomname invited_users server with
    | none =>
      rw [huninvited] at hmem
      cases hmem
    | some departing =>
      rw [huninvited] at hmem
      exact hself departing hmem
  | join roomname user => exact hanswer client_fd client_fd _ hmem
  | _ => cases hmem

/-- Whoever is lost while an event is served belongs to its audience and cannot be
reached. -/
theorem loses_serve (failed : Fd → Bool) (trace : List Effect) (hserver : server.Consistent) (event : Event) :
    ∃ effects, (final_world ((serve (failing failed) event).run (.idle server trace))).trace = trace ++ effects ∧
      ∀ fd, Lost effects fd ↔
        fd ∈ (event.reaction server).audience failed event.client_fd server ∧ failed fd = true := by
  rw [final_world_serve _ trace hserver]
  cases event with
  | accept client_fd =>
    exact ⟨_, rfl, fun fd => iff_of_false (by simp [Lost]) (by simp [Event.reaction, Reaction.audience])⟩
  | request client_fd msg_in => exact (Event.permitted (.request client_fd msg_in) hserver).loses hserver
  | invalid client_fd => exact (Event.permitted (.invalid client_fd) hserver).loses hserver

/-- Whoever is lost keeps its connection, and so gets no farewell. -/
theorem not_farewells_follow {trace : List Effect} (hserver : server.Consistent) {event : Event}
    (haudience : fd ∈ (event.reaction server).audience failed event.client_fd server) (hfailed : failed fd = true) :
    ¬ FarewellsFollow failed (.idle server trace) event := by
  intro hfarewells
  obtain ⟨effects, htrace, hlost⟩ := loses_serve failed trace hserver event
  obtain ⟨others, hothertrace, hclosed, -⟩ := closes_serve (failing failed) trace hserver event
  obtain rfl := List.append_cancel_left (hothertrace.symm.trans htrace)
  obtain ⟨⟨username, hregistered⟩, hopen⟩ := Reaction.mem_audience haudience
  have hfarewell := hfarewells others htrace fd username hregistered ((hlost fd).mpr ⟨haudience, hfailed⟩)
  rw [← hclosed, mem_closed] at hopen
  exact hopen hfarewell.closed

end Farewells

/-- A user whom a broadcast does not reach never gets a farewell: the socket stays
open. So all such users get one just when there are none. -/
theorem farewells_follow_iff {net : Net} {history : List (World × Event)} {world : World}
    (hrun : ServerRun net history world) (event : Event) (failed : Fd → Bool) :
    FarewellsFollow failed world event ↔
      ∀ fd ∈ (event.reaction world.server).audience failed event.client_fd world.server, failed fd = false := by
  obtain ⟨hidle, hserver⟩ := run_ready hrun
  constructor
  · intro hfarewells fd haudience
    by_contra hfailed
    rw [hidle] at hfarewells
    exact not_farewells_follow hserver haudience (Bool.not_eq_false _ ▸ hfailed) hfarewells
  · intro hreached effects htrace fd username hregistered hlostfd
    obtain ⟨others, hothertrace, hlost⟩ := loses_serve failed world.trace hserver event
    rw [← hidle] at hothertrace
    obtain rfl := List.append_cancel_left (htrace.symm.trans hothertrace)
    obtain ⟨haudience, hfailed⟩ := (hlost fd).mp hlostfd
    rw [hreached fd haudience] at hfailed
    cases hfailed

/-- A text for everybody in a meeting. -/
def text_for_all : Event := .request 4 { message_init with type := .PUBLIC_TEXT, text := some (.lit "hola") }

/-- The one who cannot be reached is not told anyway. -/
theorem farewells_follow_iff_in_meeting :
    ∃ world, world.server.Registered 5 (.lit "luis") ∧ FarewellsFollow (· == 4) world text_for_all := by
  obtain ⟨history, world, hrun, htest⟩ := exists_run_of_serve_all reliable meeting
    (fun _ world => world.server.Registered 5 (.lit "luis") &&
      decide ((text_for_all.reaction world.server).audience (· == 4) 4 world.server = [5])) (by decide +kernel)
  simp only [Bool.and_eq_true, decide_eq_true_eq] at htest
  refine ⟨world, htest.1, (farewells_follow_iff hrun text_for_all (· == 4)).mpr fun fd hmem => ?_⟩
  rw [show (text_for_all.reaction world.server).audience (· == 4) text_for_all.client_fd world.server = [5] from
    htest.2, List.mem_singleton] at hmem
  rw [hmem]
  decide

/-- The other one cannot be reached. -/
theorem lost_user_gets_no_farewell :
    ¬ ∀ history world, ServerRun reliable history world → ∀ event failed, FarewellsFollow failed world event := by
  intro halways
  obtain ⟨history, world, hrun, htest⟩ := exists_run_of_serve_all reliable meeting
    (fun _ world => (text_for_all.reaction world.server).audience (· == 5) 4 world.server = [5]) (by decide +kernel)
  obtain ⟨hidle, hserver⟩ := run_ready hrun
  have hfarewells := halways history world hrun text_for_all (· == 5)
  have haudience : 5 ∈ (text_for_all.reaction world.server).audience (· == 5) 4 world.server := by
    rw [of_decide_eq_true htest]
    exact List.mem_singleton_self 5
  rw [hidle] at hfarewells
  exact not_farewells_follow hserver haudience rfl hfarewells

end ojalvo
