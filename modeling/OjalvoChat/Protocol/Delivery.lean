import OjalvoChat.Protocol.Recipients
import OjalvoChat.Protocol.Runs

namespace ojalvo

/-- One message sent to several descriptors, without failure. -/
def sends (message : Message) (fds : List Fd) : List Effect := fds.map fun fd => .send fd message true

/-- The messages that reach a descriptor, in order. -/
def received (fd : Fd) (effects : List Effect) : List Message :=
  effects.filterMap fun effect =>
    match effect with
    | .send other message true => if other = fd then some message else none
    | _ => none

/-- The message that reaches a descriptor with the effect at `index`, and the effects after it. -/
def received_at (fd : Fd) (effects : List Effect) (index : Nat) : Option (Message × List Effect) :=
  match effects.drop index with
  | .send other message true :: later => if other = fd then some (message, later) else none
  | _ => none

section Received

variable (fd : Fd) (message : Message)

@[simp] theorem received_nil : received fd [] = [] := rfl

/-- What was received first and what was received then. -/
theorem received_append (first second : List Effect) :
    received fd (first ++ second) = received fd first ++ received fd second := List.filterMap_append ..

@[simp] theorem received_close (other : Fd) : received fd [.close other] = [] := rfl

@[simp] theorem received_accept (other : Fd) : received fd [.accept other] = [] := rfl

@[simp] theorem received_send (other : Fd) :
    received fd [.send other message true] = if other = fd then [message] else [] := by
  by_cases hsame : other = fd
  · simp [received, hsame]
  · simp [received, hsame]

/-- Different recipients get one message each and nobody else gets any. -/
theorem received_sends {fds : List Fd} (hnodup : fds.Nodup) :
    received fd (sends message fds) = if fd ∈ fds then [message] else [] := by
  induction fds with
  | nil => rfl
  | cons other rest ih =>
    obtain ⟨hfresh, hrest⟩ := List.nodup_cons.mp hnodup
    change received fd ([.send other message true] ++ sends message rest) = _
    rw [received_append, received_send, ih hrest]
    by_cases hsame : other = fd
    · subst hsame
      simp [hfresh]
    · simp [hsame, Ne.symm hsame]

/-- The effects up to a message, the message and the effects after it. -/
theorem eq_append_of_received_at {effects later : List Effect} {index : Nat} {fd : Fd} {message : Message}
    (hfound : received_at fd effects index = some (message, later)) :
    ∃ earlier, earlier.length = index ∧ effects = earlier ++ .send fd message true :: later := by
  unfold received_at at hfound
  split at hfound
  · rename_i other sent rest hdrop
    by_cases hsame : other = fd
    · rw [if_pos hsame] at hfound
      cases hfound
      subst hsame
      have hshort : index ≤ effects.length := by
        have hlength := congrArg List.length hdrop
        simp only [List.length_drop, List.length_cons] at hlength
        omega
      refine ⟨effects.take index, List.length_take_of_le hshort, ?_⟩
      rw [← hdrop, List.take_append_drop]
    · rw [if_neg hsame] at hfound
      cases hfound
  · cases hfound

end Received

section Reliable

variable (server : Server) (trace : List Effect) (client_fd : Fd) (message : Message)

/-- If no send fails everybody gets a broadcast. -/
theorem broadcast_reliable (fds : List Fd) : broadcast reliable message trace fds = sends message fds := by
  induction fds generalizing trace with
  | nil => rfl
  | cons fd rest ih =>
    rw [broadcast, ih]
    rfl

@[simp] theorem failures_sends (fds : List Fd) : failures (sends message fds) = [] := by
  simp [failures, sends]

/-- If no send fails an announcement reaches everybody, and nobody is removed. -/
theorem announce_reliable :
    announce reliable client_fd message server trace =
      .ok true (.idle server (trace ++ sends message (recipients server.users.entries client_fd))) := by
  simp [announce, broadcast_reliable, Server.evict_all]

/-- If no send fails all members of the room are told. -/
theorem tell_members_reliable (roomname : CString) :
    tell_members reliable client_fd roomname message server trace =
      .ok true (.idle server (trace ++ sends message (server.room_recipients roomname client_fd))) := by
  simp [tell_members, broadcast_reliable]

/-- If no send fails nobody departs for it. -/
theorem send_or_depart_reliable (failed_fd : Fd) (continuation : List Effect → Outcome) :
    send_or_depart reliable client_fd message failed_fd server trace continuation =
      continuation (trace ++ [.send client_fd message true]) := rfl

/-- If no send fails everybody who is added to the guests is told. -/
theorem invite_all_reliable (roomname : CString) (invitation : Message) (invited_users : List User) :
    ∃ fds, invite_all reliable roomname invitation invited_users server trace =
      .ok true (.idle (settle_invitations reliable roomname invitation invited_users server trace).1
        (trace ++ sends invitation fds)) := by
  induction invited_users generalizing server trace with
  | nil => exact ⟨[], by simp [invite_all, settle_invitations, sends]⟩
  | cons user rest ih =>
    unfold invite_all settle_invitations
    split
    · exact ⟨[], by simp [sends]⟩
    · obtain ⟨fds, hrest⟩ := ih (server.add_guest roomname user) (trace ++ [.send user.socket_fd invitation true])
      refine ⟨user.socket_fd :: fds, ?_⟩
      rw [send_or_depart_reliable, hrest]
      simp [sends, reliable]

end Reliable

section Causes

/-- The messages that carry the name of the user behind them. -/
def signed_types : List MessageType := [.TEXT_FROM, .PUBLIC_TEXT_FROM, .ROOM_TEXT_FROM, .INVITATION, .NEW_STATUS]

/-- Why a message is sent. The messages that name a user are caused by requests
of that user. -/
inductive Caused (server : Server) (client_fd : Fd) (msg_in : Message) : Message → Prop where
  | text_from (user : User) (text : CString) (htype : msg_in.type = .TEXT) (hsender : server.Sender client_fd user) :
    Caused server client_fd msg_in (text_from_notice user.username text)
  | public_text_from (user : User) (text : CString) (htype : msg_in.type = .PUBLIC_TEXT)
    (hsender : server.Sender client_fd user) :
    Caused server client_fd msg_in (public_text_from_notice user.username text)
  | room_text_from (user : User) (roomname : CString) (room : Room) (text : CString)
    (htype : msg_in.type = .ROOM_TEXT) (hsender : server.Sender client_fd user)
    (hroomname : msg_in.roomname = some roomname) (hroom : server.rooms.lookup roomname = some room)
    (hmember : user ∈ room.members) :
    Caused server client_fd msg_in (room_text_from_notice roomname user.username text)
  | invitation (user : User) (roomname : CString) (htype : msg_in.type = .INVITE)
    (hsender : server.Sender client_fd user) :
    Caused server client_fd msg_in (invitation_notice user.username roomname)
  | new_status (user : User) (text : CString) (htype : msg_in.type = .STATUS)
    (hsender : server.Sender client_fd user) :
    Caused server client_fd msg_in (new_status_notice user.username text)
  | user_list (user : User) (htype : msg_in.type = .USERS) (hsender : server.Sender client_fd user) :
    Caused server client_fd msg_in (user_list_message server.users)
  | other (message : Message) (hunsigned : message.type ∉ signed_types) (hlist : message.type ≠ .USER_LIST) :
    Caused server client_fd msg_in message

/-- The world in which an outcome leaves the thread, stuck or not. -/
def final_world {A : Type} (outcome : EStateM.Result Stop World A) : World :=
  match outcome with
  | .ok _ world => world
  | .error _ world => world

/-- Every message sent between a trace and the end of an outcome has a
property. -/
def Outcome.Emits (allowed : Message → Prop) (trace : List Effect) (outcome : Outcome) : Prop :=
  ∃ effects, (final_world outcome).trace = trace ++ effects ∧
    ∀ fd message sent, Effect.send fd message sent ∈ effects → allowed message

variable {net : Net} {server : Server} {trace : List Effect} {client_fd : Fd} {msg_in : Message}
  {allowed : Message → Prop}

theorem emits_idle (answer : Bool) : Outcome.Emits allowed trace (.ok answer (.idle server trace)) :=
  ⟨[], by simp [final_world], by simp⟩

/-- A broadcast sends one message. -/
theorem emits_broadcast {message : Message} (hallowed : allowed message) (fds : List Fd) :
    ∀ fd other sent, Effect.send fd other sent ∈ broadcast net message trace fds → allowed other := by
  intro fd other sent hmem
  obtain ⟨_, _, _, heq⟩ := exists_of_mem_broadcast hmem
  cases heq
  exact hallowed

theorem emits_announce {message : Message} (hallowed : allowed message) :
    (announce net client_fd message server trace).Emits allowed trace :=
  ⟨_, rfl, emits_broadcast hallowed _⟩

theorem emits_tell_members {message : Message} (hallowed : allowed message) (roomname : CString) :
    (tell_members net client_fd roomname message server trace).Emits allowed trace := by
  unfold tell_members
  dsimp only
  split
  · exact ⟨_, rfl, emits_broadcast hallowed _⟩
  · exact ⟨_, rfl, emits_broadcast hallowed _⟩

/-- A departure sends the notice of it at most. -/
theorem emits_departed (hallowed : ∀ user, server.users.find_by_client_fd client_fd = some user →
      allowed (disconnected_notice user.username)) (answer : Bool) :
    Outcome.Emits allowed trace (.ok answer (departed net server trace client_fd)) := by
  refine ⟨departure_notices net server trace client_fd ++ [.close client_fd], by simp [final_world, departed], ?_⟩
  intro fd message sent hmem
  simp only [List.mem_append, List.mem_singleton, reduceCtorEq, or_false] at hmem
  unfold departure_notices at hmem
  cases hfound : server.users.find_by_client_fd client_fd with
  | none => simp [hfound] at hmem
  | some user =>
    rw [hfound] at hmem
    exact emits_broadcast (hallowed user hfound) _ fd message sent hmem

/-- A send before the rest has to be allowed, too. -/
theorem Outcome.Emits.after_send {outcome : Outcome} {message : Message} {fd : Fd} {sent : Bool}
    (hrest : outcome.Emits allowed (trace ++ [.send fd message sent])) (hallowed : allowed message) :
    outcome.Emits allowed trace := by
  obtain ⟨effects, htrace, hemits⟩ := hrest
  refine ⟨.send fd message sent :: effects, by simpa using htrace, fun other sending flag hmem => ?_⟩
  rcases List.mem_cons.mp hmem with heq | hlater
  · cases heq
    exact hallowed
  · exact hemits other sending flag hlater

theorem emits_send_or_depart {message : Message} (hallowed : allowed message) {failed_fd : Fd}
    (hnotices : ∀ user, server.users.find_by_client_fd failed_fd = some user →
      allowed (disconnected_notice user.username))
    (continuation : List Effect → Outcome) (hcontinuation : ∀ trace, (continuation trace).Emits allowed trace) :
    (send_or_depart net client_fd message failed_fd server trace continuation).Emits allowed trace := by
  unfold send_or_depart
  dsimp only
  split
  · exact (hcontinuation _).after_send hallowed
  · exact (emits_departed hnotices true).after_send hallowed

theorem emits_invite_all {invitation : Message} (hallowed : allowed invitation) {server : Server} {trace : List Effect}
    (hnotices : ∀ fd user, server.users.find_by_client_fd fd = some user → allowed (disconnected_notice user.username))
    (roomname : CString) (invited_users : List User) :
    (invite_all net roomname invitation invited_users server trace).Emits allowed trace := by
  induction invited_users generalizing server trace with
  | nil => exact emits_idle true
  | cons user rest ih =>
    unfold invite_all
    split
    · exact emits_idle true
    · refine emits_send_or_depart hallowed ?_ _ fun trace => ih ?_
      · exact hnotices user.socket_fd
      · exact hnotices

/-- The message of a reply or a refusal. -/
def Reaction.verdict (reaction : Reaction) : Option Message :=
  match reaction with
  | .reply _ message => some message
  | .refuse message => some message
  | _ => none

/-- The messages that a reaction can send. A user who cannot be reached is said to
be disconnected. -/
inductive Reaction.Sends (server : Server) : Reaction → Message → Prop where
  | verdict (reaction : Reaction) (message : Message) (hverdict : reaction.verdict = some message) :
    Sends server reaction message
  | farewell (reaction : Reaction) (fd : Fd) (user : User) (hfound : server.users.find_by_client_fd fd = some user) :
    Sends server reaction (disconnected_notice user.username)
  | unregistered (user : User) (fd : Fd) (found : User)
    (hfound : (server.register user).users.find_by_client_fd fd = some found) :
    Sends server (.register user) (disconnected_notice found.username)
  | registered (user : User) :
    Sends server (.register user) (response (.lit "IDENTIFY") (.lit "SUCCESS") user.username)
  | new_user (user : User) : Sends server (.register user) (new_user_notice user.username)
  | new_status (user : User) (status : UserStatus) (text : CString) :
    Sends server (.set_status user status text) (new_status_notice user.username text)
  | published (message : Message) : Sends server (.publish message) message
  | created (room : Room) (creator : User) :
    Sends server (.create room creator) (response (.lit "NEW_ROOM") (.lit "SUCCESS") room.roomname)
  | invited (roomname : CString) (invited_users : List User) (invitation : Message) :
    Sends server (.invite roomname invited_users invitation) invitation
  | let_in (roomname : CString) (user : User) :
    Sends server (.join roomname user) (response (.lit "JOIN_ROOM") (.lit "SUCCESS") roomname)
  | joined (roomname : CString) (user : User) :
    Sends server (.join roomname user) (joined_room_notice roomname user.username)
  | told (roomname : CString) (message : Message) : Sends server (.tell_room roomname message) message
  | left (roomname : CString) (user : User) :
    Sends server (.quit roomname user) (left_room_notice roomname user.username)

/-- A reaction sends only its own messages and notices of departures. -/
theorem Reaction.emits_sends (reaction : Reaction) (net : Net) (client_fd : Fd) (server : Server)
    (trace : List Effect) :
    (reaction.perform net client_fd server trace).Emits (reaction.Sends server) trace := by
  have hnotices : ∀ fd user, server.users.find_by_client_fd fd = some user →
      reaction.Sends server (disconnected_notice user.username) := .farewell reaction
  cases reaction with
  | ignore answer => exact emits_idle answer
  | crash => exact emits_idle true
  | reply fd message =>
    exact emits_send_or_depart (.verdict _ message rfl) (hnotices client_fd) _ fun trace => emits_idle true
  | refuse message => exact (emits_departed (hnotices client_fd) true).after_send (.verdict _ message rfl)
  | leave => exact emits_departed (hnotices client_fd) true
  | register user =>
    exact emits_send_or_depart (.registered user) (.unregistered user client_fd) _ fun trace =>
      emits_announce (.new_user user)
  | set_status user status text => exact emits_announce (.new_status user status text)
  | publish message => exact emits_announce (.published message)
  | create room creator =>
    refine emits_send_or_depart (.created room creator) ?_ _ fun trace => emits_idle true
    exact hnotices client_fd
  | invite roomname invited_users invitation =>
    exact emits_invite_all (.invited roomname invited_users invitation) hnotices roomname invited_users
  | join roomname user =>
    refine emits_send_or_depart (.let_in roomname user) ?_ _ fun trace =>
      emits_tell_members (.joined roomname user) roomname
    exact hnotices client_fd
  | tell_room roomname message => exact emits_tell_members (.told roomname message) roomname
  | quit roomname user => exact emits_tell_members (.left roomname user) roomname

/-- More may be allowed. -/
theorem Outcome.Emits.mono {outcome : Outcome} {wider : Message → Prop} (hemits : outcome.Emits allowed trace)
    (hwider : ∀ message, allowed message → wider message) : outcome.Emits wider trace := by
  obtain ⟨effects, htrace, hallowed⟩ := hemits
  exact ⟨effects, htrace, fun fd message sent hmem => hwider message (hallowed fd message sent hmem)⟩

/-- Every message that a reaction sends has its cause. -/
theorem Permitted.caused {reaction : Reaction} {message : Message}
    (hpermitted : Permitted server client_fd msg_in reaction) (hsends : reaction.Sends server message) :
    Caused server client_fd msg_in message := by
  have hother : ∀ (message : Message) (type : MessageType), message.type = type →
      type ∉ signed_types → type ≠ .USER_LIST → Caused server client_fd msg_in message := by
    rintro message type rfl hunsigned hlist
    exact .other message hunsigned hlist
  cases hsends with
  | verdict _ _ hverdict =>
    cases hpermitted with
    | answer operation result extra =>
      cases hverdict
      exact hother _ .RESPONSE rfl (by decide) (by decide)
    | refuse operation result extra =>
      cases hverdict
      exact hother _ .RESPONSE rfl (by decide) (by decide)
    | user_list user htype hsender =>
      cases hverdict
      exact .user_list user htype hsender
    | room_user_list roomname room htype hroom =>
      cases hverdict
      exact hother _ .ROOM_USER_LIST rfl (by decide) (by decide)
    | text user user_to text htype hsender haddressee hdifferent htext =>
      cases hverdict
      exact .text_from user text htype hsender
    | _ => cases hverdict
  | farewell _ fd user hfound => exact hother _ .DISCONNECTED rfl (by decide) (by decide)
  | unregistered user fd found hfound => exact hother _ .DISCONNECTED rfl (by decide) (by decide)
  | registered user => exact hother _ .RESPONSE rfl (by decide) (by decide)
  | new_user user => exact hother _ .NEW_USER rfl (by decide) (by decide)
  | created room creator => exact hother _ .RESPONSE rfl (by decide) (by decide)
  | let_in roomname user => exact hother _ .RESPONSE rfl (by decide) (by decide)
  | joined roomname user => exact hother _ .JOINED_ROOM rfl (by decide) (by decide)
  | left roomname user => exact hother _ .LEFT_ROOM rfl (by decide) (by decide)
  | new_status user status text =>
    cases hpermitted with
    | set_status _ _ _ htype hsender hread hchange => exact .new_status user text htype hsender
  | published message =>
    cases hpermitted with
    | publish user text htype hsender htext => exact .public_text_from user text htype hsender
  | invited roomname invited_users invitation =>
    cases hpermitted with
    | invite user _ room usernames _ htype hsender hroomname husernames hroom hmember hinvited =>
      exact .invitation user roomname htype hsender
  | told roomname message =>
    cases hpermitted with
    | tell_room user _ room text htype hsender hroomname hroom hmember htext =>
      exact .room_text_from user roomname room text htype hsender hroomname hroom hmember

/-- Where an event leaves the server, also when it stops: as its reaction does. -/
theorem final_world_serve (net : Net) (trace : List Effect) (hserver : server.Consistent) (event : Event) :
    final_world ((serve net event).run (.idle server trace)) =
      match event with
      | .accept client_fd => .idle server (trace ++ [.accept client_fd])
      | _ => final_world ((event.reaction server).perform net event.client_fd server trace) := by
  cases event with
  | accept client_fd => rfl
  | request client_fd msg_in =>
    simp only [serve, Program.run_bind, run_message_handler_process net server trace client_fd msg_in hserver,
      Event.reaction, Event.client_fd]
    cases (reaction server client_fd msg_in).perform net client_fd server trace <;> rfl
  | invalid client_fd =>
    rw [serve, run_handle_invalid_line hserver]
    rfl

/-- What an event sends, also when it stops, is what its reaction sends. -/
theorem serve_sends (net : Net) (trace : List Effect) (hserver : server.Consistent) (event : Event) :
    ∃ effects, (final_world ((serve net event).run (.idle server trace))).trace = trace ++ effects ∧
      ∀ fd message sent, Effect.send fd message sent ∈ effects → (event.reaction server).Sends server message := by
  rw [final_world_serve net trace hserver]
  have hemits := (event.reaction server).emits_sends net event.client_fd server trace
  cases event with
  | accept client_fd => exact ⟨[.accept client_fd], rfl, by simp⟩
  | request client_fd msg_in => exact hemits
  | invalid client_fd => exact hemits

/-- The messages of an event have their causes. -/
theorem serve_emits (net : Net) (trace : List Effect) (hserver : server.Consistent) (event : Event) :
    ∃ effects, (final_world ((serve net event).run (.idle server trace))).trace = trace ++ effects ∧
      ∀ fd message sent, Effect.send fd message sent ∈ effects →
        Caused server event.client_fd event.message message := by
  obtain ⟨effects, htrace, hsends⟩ := serve_sends net trace hserver event
  exact ⟨effects, htrace, fun fd message sent hmem => (event.permitted hserver).caused (hsends fd message sent hmem)⟩

/-- Everything that is sent while an event is served is caused by it. -/
theorem served_emits {event : Event} {after : World} (hserver : server.Consistent)
    (hserved : Served net (.idle server trace) event after) :
    ∃ effects, after.trace = trace ++ effects ∧ ∀ fd message sent, Effect.send fd message sent ∈ effects →
      Caused server event.client_fd event.message message := by
  have hemits := serve_emits net trace hserver event
  rw [hserved] at hemits
  exact hemits

end Causes

end ojalvo
