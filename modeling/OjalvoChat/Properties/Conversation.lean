import OjalvoChat.Client.Streams
import OjalvoChat.Properties.Agreement
import OjalvoChat.Properties.Coexistence
import OjalvoChat.Properties.Framing
import OjalvoChat.Properties.Routing
import OjalvoChat.Properties.Sanitized

namespace ojalvo

/-- What a user can say. -/
inductive Talk where
  | public_text (text : String)
  | private_text (recipient text : String)
  | room_text (roomname text : String)

/-- What the user types after the command. -/
def Talk.words (talk : Talk) : List String :=
  match talk with
  | .public_text text => [text]
  | .private_text recipient text => [recipient, text]
  | .room_text roomname text => [roomname, text]

def Talk.command (talk : Talk) : String :=
  match talk with
  | .public_text _ => "public"
  | .private_text .. => "text"
  | .room_text .. => "room text"

/-- The object that the client serialises. -/
def Talk.request (talk : Talk) : JsonElement :=
  match talk with
  | .public_text text => .object [("type", .string "PUBLIC_TEXT"), ("text", .string text)]
  | .private_text recipient text =>
    .object [("type", .string "TEXT"), ("username", .string recipient), ("text", .string text)]
  | .room_text roomname text =>
    .object [("type", .string "ROOM_TEXT"), ("roomname", .string roomname), ("text", .string text)]

/-- What is said is short enough for every answer to it. -/
def Talk.Short (talk : Talk) : Prop :=
  (talk.words.map fun word => escaped_length (.lit word)).sum + 256 ≤ SERVER_BUFFER_SIZE

/-- A room in which both users are. -/
def Server.joins (server : Server) (roomname : CString) (first second : User) : Bool :=
  match server.rooms.lookup roomname with
  | none => false
  | some room =>
    room.members.contains_by_client_fd first.socket_fd && room.members.contains_by_client_fd second.socket_fd

/-- What the server tells the listener. -/
def Talk.notices (server : Server) (sender listener : User) (talk : Talk) : List Message :=
  match talk with
  | .public_text text => [public_text_from_notice sender.username (.lit text)]
  | .private_text recipient text =>
    if .lit recipient = listener.username then [text_from_notice sender.username (.lit text)] else []
  | .room_text roomname text =>
    if server.joins (.lit roomname) sender listener then
      [room_text_from_notice (.lit roomname) sender.username (.lit text)]
    else []

/-- What the client of the listener shows, with the name of the sender. -/
def Talk.shown (server : Server) (sender listener : User) (name : String) (talk : Talk) : List ServerMessage :=
  match talk with
  | .public_text text => [.PublicTextFromMessage name text]
  | .private_text recipient text => if .lit recipient = listener.username then [.TextFromMessage name text] else []
  | .room_text roomname text =>
    if server.joins (.lit roomname) sender listener then [.RoomTextFromMessage roomname name text] else []

section Typed

variable {ToLower ToUpper Trim : String → String}

/-- The client sends what the user has typed. -/
theorem SendLoopAsync_typed (talks : List Talk)
    (hcommands : ∀ command ∈ ["public", "text", "room text"], ToLower (Trim command) = command) :
    Controller.SendLoopAsync ToLower ToUpper Trim talks.length
      (talks.flatMap fun talk => talk.command :: talk.words) = talks.map fun talk => (talk.command, talk.request) := by
  obtain ⟨hpublic, hprivate, hroom⟩ : ToLower (Trim "public") = "public" ∧ ToLower (Trim "text") = "text" ∧
      ToLower (Trim "room text") = "room text" := by simpa using hcommands
  induction talks with
  | nil => rfl
  | cons talk rest ih =>
    rw [List.length_cons, Controller.SendLoopAsync, List.flatMap_cons]
    have hpass (later : List String) :
        (Controller.SendLoopPass ToLower ToUpper Trim).run (talk.command :: talk.words ++ later) =
          ((talk.command, some talk.request), later) := by
      have htyped : ToLower (Trim
          ((View.AskMessageType.run (talk.command :: talk.words ++ later)).1.getD "")) = talk.command := by
        cases talk with
        | public_text text => exact hpublic
        | private_text recipient text => exact hprivate
        | room_text roomname text => exact hroom
      unfold Controller.SendLoopPass
      rw [StateT.run_bind]
      change StateT.run _ (talk.words ++ later) = _
      simp only [htyped]
      cases talk <;> rfl
    rw [hpass]
    have hother : talk.command ≠ "disconnect" := by cases talk <;> simp [Talk.command]
    simp only [if_neg hother, ih, List.map_cons]

end Typed

section Decoded

theorem CString.eq_lit_of_unicode {text : CString} {value : String} (hunicode : text.unicode = some value) :
    text = .lit value := by
  have hbytes := CString.unicode_eq_some_iff.mp hunicode
  refine CString.unicode_inj hunicode (CString.unicode_lit ?_)
  rw [hbytes]
  exact text.nul_free

theorem Same.eq_lit {properties : List (JsonString × JsonElement)} {name : String} {field : Option CString}
    (hsame : Same (.object properties) name field) (value : String) (hvalue : property properties name = some (.string value)) :
    field = some (.lit value) ∧ (CString.lit value).unicode = some value := by
  obtain ⟨others, other, hobject, hother, text, rfl, hunicode⟩ := hsame
  cases hobject
  rw [hvalue, Option.some.injEq, JsonElement.string.injEq, utf16_units_inj] at hother
  subst hother
  obtain rfl := CString.eq_lit_of_unicode hunicode
  exact ⟨rfl, hunicode⟩

/-- The request of something that is said. -/
def Talk.Asks (talk : Talk) (msg_in : Message) : Prop :=
  match talk with
  | .public_text text => msg_in.type = .PUBLIC_TEXT ∧ msg_in.text = some (.lit text)
  | .private_text recipient text =>
    msg_in.type = .TEXT ∧ msg_in.username = some (.lit recipient) ∧ msg_in.text = some (.lit text)
  | .room_text roomname text =>
    msg_in.type = .ROOM_TEXT ∧ msg_in.roomname = some (.lit roomname) ∧ msg_in.text = some (.lit text)

/-- The words come through. -/
theorem Talk.asks_of_conveys {talk : Talk} {msg_in : Message} (hconveys : Conveys talk.command talk.request msg_in) :
    talk.Asks msg_in ∧ ∀ word ∈ talk.words, (CString.lit word).unicode = some word := by
  cases talk with
  | public_text text =>
    obtain ⟨htype, htext⟩ := hconveys
    obtain ⟨htext, hword⟩ := htext.eq_lit text (by simp [property])
    exact ⟨⟨htype, htext⟩, List.forall_mem_singleton.mpr hword⟩
  | private_text recipient text =>
    obtain ⟨htype, husername, htext⟩ := hconveys
    obtain ⟨husername, hname⟩ := husername.eq_lit recipient (by simp [property])
    obtain ⟨htext, hword⟩ := htext.eq_lit text (by simp [property])
    exact ⟨⟨htype, husername, htext⟩, List.forall_mem_cons.mpr ⟨hname, List.forall_mem_singleton.mpr hword⟩⟩
  | room_text roomname text =>
    obtain ⟨htype, hroomname, htext⟩ := hconveys
    obtain ⟨hroomname, hname⟩ := hroomname.eq_lit roomname (by simp [property])
    obtain ⟨htext, hword⟩ := htext.eq_lit text (by simp [property])
    exact ⟨⟨htype, hroomname, htext⟩, List.forall_mem_cons.mpr ⟨hname, List.forall_mem_singleton.mpr hword⟩⟩

end Decoded

section Whole

/-- A message that fits the buffer of `server_send` with its newline. -/
def Message.Whole (message : Message) : Prop :=
  (cJSON_PrintUnformatted (message_object message)).length + 1 < SERVER_BUFFER_SIZE

/-- A message that arrives whole was sent whole. -/
theorem Message.Whole.fits {message : Message} (hwhole : message.Whole) : message.Fits :=
  message_to_json_isSome_iff.mpr (Nat.lt_of_succ_lt hwhole)

/-- The size of the fields decides. -/
theorem whole_of_fields {message : Message} {first : CString × CString} {rest : List (CString × CString)}
    (hfields : message_object message = string_object (first :: rest))
    (hsize : ((first :: rest).map fun field => escaped_length field.1 + escaped_length field.2 + 6).sum + 2 <
      SERVER_BUFFER_SIZE) : message.Whole := by
  rw [Message.Whole, hfields, length_print_string_object]
  exact hsize

/-- A name has at most eight bytes, and each grows to six at most. -/
theorem escaped_length_username_le (user : User) : escaped_length user.username ≤ 48 := by
  have hescaped := escaped_length_le user.username
  have hnamed : strlen user.username ≤ 8 := user.named.2
  omega

section Notices

variable (sender : User) (text roomname : CString)

/-- A text that is passed on with the name of its sender. -/
theorem whole_signed_text {message : Message} {kind : CString}
    (hfields : message_object message = string_object
      [(.lit "type", kind), (.lit "username", sender.username), (.lit "text", text)])
    (hkind : escaped_length kind ≤ 16) (hshort : escaped_length text + 256 ≤ SERVER_BUFFER_SIZE) :
    message.Whole := by
  have hname := escaped_length_username_le sender
  have hliterals : escaped_length (.lit "type") = 4 ∧ escaped_length (.lit "username") = 8 ∧
      escaped_length (.lit "text") = 4 := by decide +kernel
  obtain ⟨htype, husername, htext⟩ := hliterals
  refine whole_of_fields hfields ?_
  simp only [List.map_cons, List.map_nil, List.sum_cons, List.sum_nil, htype, husername, htext]
  omega

theorem whole_text_from (hshort : escaped_length text + 256 ≤ SERVER_BUFFER_SIZE) :
    (text_from_notice sender.username text).Whole :=
  whole_signed_text sender text rfl (by decide +kernel) hshort

theorem whole_public_text_from (hshort : escaped_length text + 256 ≤ SERVER_BUFFER_SIZE) :
    (public_text_from_notice sender.username text).Whole :=
  whole_signed_text sender text rfl (by decide +kernel) hshort

theorem whole_room_text_from (hshort : escaped_length roomname + escaped_length text + 256 ≤ SERVER_BUFFER_SIZE) :
    (room_text_from_notice roomname sender.username text).Whole := by
  have hname := escaped_length_username_le sender
  have hfields : message_object (room_text_from_notice roomname sender.username text) = string_object
      [(.lit "type", .lit "ROOM_TEXT_FROM"), (.lit "username", sender.username), (.lit "text", text),
        (.lit "roomname", roomname)] := rfl
  have hliterals : escaped_length (.lit "type") = 4 ∧ escaped_length (.lit "ROOM_TEXT_FROM") = 14 ∧
      escaped_length (.lit "username") = 8 ∧ escaped_length (.lit "text") = 4 ∧
      escaped_length (.lit "roomname") = 8 := by decide +kernel
  obtain ⟨htype, hvalue, husername, htext, hroom⟩ := hliterals
  refine whole_of_fields hfields ?_
  simp only [List.map_cons, List.map_nil, List.sum_cons, List.sum_nil, htype, hvalue, husername, htext, hroom]
  omega

/-- The answers that name what was not found. -/
theorem whole_response {operation result : CString} (hoperation : strlen operation ≤ 16) (hresult : strlen result ≤ 16)
    (hshort : escaped_length text + 256 ≤ SERVER_BUFFER_SIZE) : (response operation result text).Whole := by
  have hfields : message_object (response operation result text) = string_object
      [(.lit "type", .lit "RESPONSE"), (.lit "operation", operation), (.lit "result", result),
        (.lit "extra", text)] := rfl
  have hliterals : escaped_length (.lit "type") = 4 ∧ escaped_length (.lit "RESPONSE") = 8 ∧
      escaped_length (.lit "operation") = 9 ∧ escaped_length (.lit "result") = 6 ∧
      escaped_length (.lit "extra") = 5 := by decide +kernel
  obtain ⟨htype, hvalue, hfirst, hsecond, hextra⟩ := hliterals
  have hoperationsize := escaped_length_le operation
  have hresultsize := escaped_length_le result
  refine whole_of_fields hfields ?_
  simp only [List.map_cons, List.map_nil, List.sum_cons, List.sum_nil, htype, hvalue, hfirst, hsecond, hextra]
  omega

end Notices

end Whole

section Handled

variable {server : Server} {trace : List Effect} {client_fd : Fd} {msg_in message : Message} {sender listener : User}
  {talk : Talk}

/-- Over open sockets a message that fits is sent as over a net without failures. -/
theorem broadcast_sockets (hfits : message.Fits) {fds : List Fd} (hopen : ∀ fd ∈ fds, is_open trace fd = true) :
    broadcast sockets message trace fds = sends message fds := by
  induction fds generalizing trace with
  | nil => rfl
  | cons fd rest ih =>
    have hsent : sockets trace fd message = true := by rw [sockets_of_fits hfits, hopen fd List.mem_cons_self]
    rw [broadcast, hsent, ih fun other hmem => ?_]
    · rfl
    · rw [is_open_append_send]
      exact hopen other (List.mem_cons_of_mem fd hmem)

theorem World.Connected.is_open (hconnected : World.Connected (.idle server trace)) {user : User}
    (huser : user ∈ server.users) (hindexed : server.users.Indexed) : ojalvo.is_open trace user.socket_fd = true :=
  hconnected user.socket_fd user.username (hindexed.lists_iff.mpr ⟨user, huser, rfl, rfl⟩)

/-- How a request ends that sends one message, if any, to users. -/
def Answered (server : Server) (trace : List Effect) (client_fd : Fd) (msg_in message : Message) (fds : List Fd) :
    Prop :=
  (serve sockets (.request client_fd msg_in)).run (.idle server trace) =
    .ok () (.idle server (trace ++ sends message fds))

/-- A reaction that only sends answers the request. -/
theorem answered_of_perform (hserver : server.Consistent) {fds : List Fd} {answer : Bool}
    (hperform : (reaction server client_fd msg_in).perform sockets client_fd server trace =
      .ok answer (.idle server (trace ++ sends message fds))) :
    Answered server trace client_fd msg_in message fds := by
  rw [Answered, serve, Program.run_bind, run_message_handler_process sockets server trace client_fd msg_in hserver,
    hperform]
  rfl

/-- A reply that fits reaches its client. -/
theorem answered_of_reply (hserver : server.Consistent) (hconnected : World.Connected (.idle server trace))
    {user : User} (huser : user ∈ server.users) (hfits : message.Fits)
    (hreply : reaction server client_fd msg_in = .reply user.socket_fd message) :
    Answered server trace client_fd msg_in message [user.socket_fd] := by
  have hsent : sockets trace user.socket_fd message = true := by
    rw [sockets_of_fits hfits, hconnected.is_open huser hserver.users]
  have hperform : (reaction server client_fd msg_in).perform sockets client_fd server trace =
      .ok true (.idle server (trace ++ sends message [user.socket_fd])) := by
    rw [hreply, Reaction.perform, send_or_depart, hsent]
    rfl
  exact answered_of_perform hserver hperform

theorem answered_of_ignore (hserver : server.Consistent) {answer : Bool}
    (hignore : reaction server client_fd msg_in = .ignore answer) (message : Message) :
    Answered server trace client_fd msg_in message [] := by
  have hperform : (reaction server client_fd msg_in).perform sockets client_fd server trace =
      .ok answer (.idle server (trace ++ sends message [])) := by
    rw [hignore, Reaction.perform]
    simp [sends]
  exact answered_of_perform hserver hperform

/-- A public text that fits reaches everybody else. -/
theorem answered_of_publish (hserver : server.Consistent) (hconnected : World.Connected (.idle server trace))
    (hfits : message.Fits) (hpublish : reaction server client_fd msg_in = .publish message) :
    Answered server trace client_fd msg_in message (recipients server.users.entries client_fd) := by
  have hopen : ∀ fd ∈ recipients server.users.entries client_fd, is_open trace fd = true := by
    intro fd hmem
    obtain ⟨-, user, huser, rfl⟩ := mem_recipients.mp hmem
    exact hconnected.is_open (hserver.users.mem_entries.mp huser) hserver.users
  have hperform : (reaction server client_fd msg_in).perform sockets client_fd server trace =
      .ok true (.idle server (trace ++ sends message (recipients server.users.entries client_fd))) := by
    rw [hpublish, Reaction.perform, announce, broadcast_sockets hfits hopen]
    simp [Server.evict_all]
  exact answered_of_perform hserver hperform

/-- A text to a room that fits reaches its other members. -/
theorem answered_of_tell_room (hserver : server.Consistent) (hconnected : World.Connected (.idle server trace))
    {roomname : CString} {room : Room} (hroom : server.rooms.lookup roomname = some room)
    (hfits : message.Fits) (htell : reaction server client_fd msg_in = .tell_room roomname message) :
    Answered server trace client_fd msg_in message (recipients room.members.entries client_fd) := by
  have hcopies := hserver.rooms roomname room hroom
  have hopen : ∀ fd ∈ recipients room.members.entries client_fd, is_open trace fd = true := by
    intro fd hmem
    obtain ⟨-, user, huser, rfl⟩ := mem_recipients.mp hmem
    exact hconnected.is_open (hcopies.members_users user (hcopies.members.mem_entries.mp huser)) hserver.users
  have hperform : (reaction server client_fd msg_in).perform sockets client_fd server trace =
      .ok true (.idle server (trace ++ sends message (recipients room.members.entries client_fd))) := by
    rw [htell, Reaction.perform, tell_members, Server.room_recipients, hroom]
    simp [broadcast_sockets hfits hopen]
  exact answered_of_perform hserver hperform

section Talks

variable (hserver : server.Consistent) (hconnected : World.Connected (.idle server trace))
  (hsender : server.Sender client_fd sender) (hlistener : listener ∈ server.users) (hother : listener ≠ sender)
include hserver hsender hlistener hother

/-- The listener has a descriptor of their own. -/
theorem socket_fd_ne_sender : listener.socket_fd ≠ sender.socket_fd := fun hfd =>
  hother (hserver.users.eq_of_socket_fd_eq hlistener hsender.registered hfd)

/-- An answer to the sender is nothing to the listener. -/
theorem received_sends_sender (message : Message) :
    received listener.socket_fd (sends message [sender.socket_fd]) = [] := by
  rw [received_sends _ _ (List.nodup_singleton _),
    if_neg (by simpa using socket_fd_ne_sender hserver hsender hlistener hother)]

include hconnected

variable {recipient roomname text : String}

/-- The listener gets every public text. -/
theorem answered_public_text (hshort : (Talk.public_text text).Short) (hasks : (Talk.public_text text).Asks msg_in) :
    ∃ message fds, Answered server trace client_fd msg_in message fds ∧
      received listener.socket_fd (sends message fds) = (Talk.public_text text).notices server sender listener := by
  obtain ⟨htype, htext⟩ := hasks
  have hwhole := whole_public_text_from sender (.lit text) (by simpa [Talk.Short, Talk.words] using hshort)
  have hpublish : reaction server client_fd msg_in =
      .publish (public_text_from_notice sender.username (.lit text)) := by
    rw [reaction_of_sender hserver hsender (by simp [htype])]
    simp only [registered_reaction, htype, public_text_reaction, htext]
  refine ⟨_, _, answered_of_publish hserver hconnected hwhole.fits hpublish, ?_⟩
  have hlisted := hserver.users.mem_entries.mpr hlistener
  exact (received_recipients hserver.users hserver.users (fun _ hmem => hmem) hsender.registered hsender.connected _).1
    _ ⟨listener, hlisted, hother, rfl⟩

/-- A private text to somebody who is not known is answered, and the listener hears
nothing. -/
theorem answered_unknown_recipient (hshort : (Talk.private_text recipient text).Short)
    (hfound : server.users.find_by_username (.lit recipient) = none)
    (hreaction : reaction server client_fd msg_in =
      .reply sender.socket_fd (response (.lit "TEXT") (.lit "NO_SUCH_USER") (CString.lit recipient))) :
    ∃ message fds, Answered server trace client_fd msg_in message fds ∧
      received listener.socket_fd (sends message fds) =
        (Talk.private_text recipient text).notices server sender listener := by
  have hwords : escaped_length (.lit recipient) + escaped_length (.lit text) + 256 ≤ SERVER_BUFFER_SIZE := by
    simpa [Talk.Short, Talk.words] using hshort
  have hnobody : .lit recipient ≠ listener.username := by
    intro hname
    rw [hname, hserver.users.find_by_username_iff.mpr ⟨hlistener, rfl⟩] at hfound
    cases hfound
  have hwhole : (response (.lit "TEXT") (.lit "NO_SUCH_USER") (CString.lit recipient)).Whole :=
    whole_response (.lit recipient) (by decide) (by decide) (by omega)
  refine ⟨_, _, answered_of_reply hserver hconnected hsender.registered hwhole.fits hreaction, ?_⟩
  rw [Talk.notices, if_neg hnobody, received_sends_sender hserver hsender hlistener hother]

omit hsender hother in
/-- A private text to a user. -/
theorem answered_recipient {user_to : User} (hshort : (Talk.private_text recipient text).Short)
    (hfound : server.users.find_by_username (.lit recipient) = some user_to)
    (hreaction : reaction server client_fd msg_in =
      .reply user_to.socket_fd (text_from_notice sender.username (.lit text))) :
    ∃ message fds, Answered server trace client_fd msg_in message fds ∧
      received listener.socket_fd (sends message fds) =
        (Talk.private_text recipient text).notices server sender listener := by
  have hwords : escaped_length (.lit recipient) + escaped_length (.lit text) + 256 ≤ SERVER_BUFFER_SIZE := by
    simpa [Talk.Short, Talk.words] using hshort
  obtain ⟨haddressee, hname⟩ := hserver.users.find_by_username_iff.mp hfound
  have hwhole := whole_text_from sender (.lit text) (by omega)
  refine ⟨_, _, answered_of_reply hserver hconnected haddressee hwhole.fits hreaction, ?_⟩
  rw [Talk.notices, received_sends _ _ (List.nodup_singleton _)]
  refine if_congr ?_ rfl rfl
  rw [List.mem_singleton, ← hname]
  constructor
  · exact fun hfd => congrArg User.username (hserver.users.eq_of_socket_fd_eq haddressee hlistener hfd.symm)
  · exact fun hsame => congrArg User.socket_fd (UsersTable.eq_of_username_eq hlistener haddressee hsame.symm)

/-- The listener gets a private text exactly if it is addressed to it. -/
theorem answered_private_text (hshort : (Talk.private_text recipient text).Short)
    (hasks : (Talk.private_text recipient text).Asks msg_in) :
    ∃ message fds, Answered server trace client_fd msg_in message fds ∧
      received listener.socket_fd (sends message fds) =
        (Talk.private_text recipient text).notices server sender listener := by
  obtain ⟨htype, husername, htext⟩ := hasks
  have hreaction : reaction server client_fd msg_in = text_reaction server sender msg_in := by
    rw [reaction_of_sender hserver hsender (by simp [htype])]
    simp only [registered_reaction, htype]
  simp only [text_reaction, husername, htext] at hreaction
  cases hfound : server.users.find_by_username (.lit recipient) with
  | none =>
    simp only [hfound] at hreaction
    exact answered_unknown_recipient hserver hconnected hsender hlistener hother hshort hfound hreaction
  | some user_to =>
    simp only [hfound] at hreaction
    by_cases hself : sender.username = user_to.username
    · rw [if_pos hself] at hreaction
      obtain ⟨-, hname⟩ := hserver.users.find_by_username_iff.mp hfound
      have hnobody : .lit recipient ≠ listener.username := by
        intro hlistened
        refine hother (UsersTable.eq_of_username_eq hlistener hsender.registered ?_)
        rw [← hlistened, ← hname, hself]
      refine ⟨message_init, [], answered_of_ignore hserver hreaction message_init, ?_⟩
      rw [Talk.notices, if_neg hnobody]
      rfl
    · rw [if_neg hself] at hreaction
      exact answered_recipient hserver hconnected hlistener hshort hfound hreaction

/-- A text to a room of which the sender is no member. -/
theorem answered_refused_room {result : String} (hresult : strlen (.lit result) ≤ 16)
    (hshort : (Talk.room_text roomname text).Short) (hapart : server.joins (.lit roomname) sender listener = false)
    (hreaction : reaction server client_fd msg_in =
      .reply sender.socket_fd (response (.lit "ROOM_TEXT") (.lit result) (CString.lit roomname))) :
    ∃ message fds, Answered server trace client_fd msg_in message fds ∧
      received listener.socket_fd (sends message fds) =
        (Talk.room_text roomname text).notices server sender listener := by
  have hwords : escaped_length (.lit roomname) + escaped_length (.lit text) + 256 ≤ SERVER_BUFFER_SIZE := by
    simpa [Talk.Short, Talk.words] using hshort
  have hwhole : (response (.lit "ROOM_TEXT") (.lit result) (CString.lit roomname)).Whole :=
    whole_response (.lit roomname) (by decide) hresult (by omega)
  refine ⟨_, _, answered_of_reply hserver hconnected hsender.registered hwhole.fits hreaction, ?_⟩
  rw [received_sends_sender hserver hsender hlistener hother, Talk.notices, hapart]
  rfl

/-- A text to a room of the sender. -/
theorem answered_joined_room {room : Room} (hshort : (Talk.room_text roomname text).Short)
    (hroom : server.rooms.lookup (.lit roomname) = some room)
    (hinside : room.members.contains_by_client_fd sender.socket_fd = true)
    (hreaction : reaction server client_fd msg_in =
      .tell_room (.lit roomname) (room_text_from_notice (.lit roomname) sender.username (.lit text))) :
    ∃ message fds, Answered server trace client_fd msg_in message fds ∧
      received listener.socket_fd (sends message fds) =
        (Talk.room_text roomname text).notices server sender listener := by
  have hwords : escaped_length (.lit roomname) + escaped_length (.lit text) + 256 ≤ SERVER_BUFFER_SIZE := by
    simpa [Talk.Short, Talk.words] using hshort
  have hcopies := hserver.rooms _ room hroom
  have hwhole := whole_room_text_from sender (.lit text) (.lit roomname) hwords
  refine ⟨_, _, answered_of_tell_room hserver hconnected hroom hwhole.fits hreaction, ?_⟩
  have hreached := received_recipients hserver.users hcopies.members hcopies.members_users hsender.registered
    hsender.connected (room_text_from_notice (.lit roomname) sender.username (.lit text))
  have hjoins : server.joins (.lit roomname) sender listener =
      room.members.contains_by_client_fd listener.socket_fd := by
    rw [Server.joins, hroom]
    simp [hinside]
  rw [Talk.notices, hjoins]
  cases hheard : room.members.contains_by_client_fd listener.socket_fd with
  | true =>
    have hmember := (hcopies.mem_members_iff hserver.users hlistener).mpr hheard
    exact hreached.1 _ ⟨listener, hcopies.members.mem_entries.mpr hmember, hother, rfl⟩
  | false =>
    refine hreached.2 _ ?_
    rintro ⟨member, hmember, -, hfd⟩
    have hcopy := hcopies.members.mem_entries.mp hmember
    obtain rfl := hserver.users.eq_of_socket_fd_eq (hcopies.members_users member hcopy) hlistener hfd
    rw [(hcopies.mem_members_iff hserver.users hlistener).mp hcopy] at hheard
    cases hheard

/-- The listener gets a text to a room exactly if both are members. -/
theorem answered_room_text (hshort : (Talk.room_text roomname text).Short)
    (hasks : (Talk.room_text roomname text).Asks msg_in) :
    ∃ message fds, Answered server trace client_fd msg_in message fds ∧
      received listener.socket_fd (sends message fds) =
        (Talk.room_text roomname text).notices server sender listener := by
  obtain ⟨htype, hroomname, htext⟩ := hasks
  have hreaction : reaction server client_fd msg_in = room_text_reaction server sender msg_in := by
    rw [reaction_of_sender hserver hsender (by simp [htype])]
    simp only [registered_reaction, htype]
  simp only [room_text_reaction, htext, room_reaction, hroomname] at hreaction
  cases hroom : server.rooms.lookup (.lit roomname) with
  | none =>
    simp only [hroom] at hreaction
    have hapart : server.joins (.lit roomname) sender listener = false := by rw [Server.joins, hroom]
    exact answered_refused_room hserver hconnected hsender hlistener hother (by decide) hshort hapart
      hreaction
  | some room =>
    simp only [hroom] at hreaction
    cases hinside : room.members.contains_by_client_fd sender.socket_fd with
    | false =>
      simp only [hinside, Bool.false_eq_true, if_false] at hreaction
      have hapart : server.joins (.lit roomname) sender listener = false := by
        rw [Server.joins, hroom]
        simp [hinside]
      exact answered_refused_room hserver hconnected hsender hlistener hother (by decide) hshort hapart hreaction
    | true =>
      simp only [hinside, if_true] at hreaction
      exact answered_joined_room hserver hconnected hsender hlistener hother hshort hroom hinside hreaction

/-- What is said is told to the listener if it is meant for them. -/
theorem Talk.answered (hshort : talk.Short) (hasks : talk.Asks msg_in) :
    ∃ message fds, Answered server trace client_fd msg_in message fds ∧
      received listener.socket_fd (sends message fds) = talk.notices server sender listener := by
  cases talk with
  | public_text text => exact answered_public_text hserver hconnected hsender hlistener hother hshort hasks
  | private_text recipient text => exact answered_private_text hserver hconnected hsender hlistener hother hshort hasks
  | room_text roomname text => exact answered_room_text hserver hconnected hsender hlistener hother hshort hasks

end Talks

end Handled

section Lines

variable {JsonSerializer_Serialize : JsonElement → String} {cJSON_Parse : CString → Option CJson}

/-- The client writes a request as one line that fits the buffer of the server, and the server parses it as
what was written. -/
structure Talk.Transmitted (JsonSerializer_Serialize : JsonElement → String) (cJSON_Parse : CString → Option CJson)
    (talk : Talk) : Prop where
  nonempty : (JsonSerializer_Serialize talk.request).toUTF8.data.toList ≠ []
  printable : ∀ byte ∈ (JsonSerializer_Serialize talk.request).toUTF8.data.toList, 32 ≤ byte
  fits : (JsonSerializer_Serialize talk.request).toUTF8.data.toList.length ≤ SERVER_BUFFER_SIZE - RECV_CHUNK_SIZE
  parsed : ∃ json, cJSON_Parse (.lit (JsonSerializer_Serialize talk.request)) = some json ∧
    json.document = some talk.request

/-- The server decodes the line as the request. -/
theorem Talk.Transmitted.decoded {talk : Talk}
    (htransmitted : talk.Transmitted JsonSerializer_Serialize cJSON_Parse) :
    ∃ msg_in, message_from_json cJSON_Parse (.lit (JsonSerializer_Serialize talk.request)) = some msg_in ∧
      talk.Asks msg_in ∧ ∀ word ∈ talk.words, (CString.lit word).unicode = some word := by
  obtain ⟨-, -, -, json, hparse, hdocument⟩ := htransmitted
  have htyped : Controller.SendLoopAsync id id id 1 (talk.command :: talk.words) = [(talk.command, talk.request)] := by
    simpa using SendLoopAsync_typed [talk] fun command _ => show id (id command) = command from rfl
  have hmem : (talk.command, talk.request) ∈ Controller.SendLoopAsync id id id 1 (talk.command :: talk.words) := by
    rw [htyped]
    exact List.mem_singleton_self _
  obtain ⟨msg_in, haccepted, hconveys⟩ := conveys_of_loop hmem hparse hdocument
  exact ⟨msg_in, haccepted, Talk.asks_of_conveys hconveys⟩

/-- The line is handled as the request. -/
theorem Talk.Transmitted.line_event {talk : Talk} (htransmitted : talk.Transmitted JsonSerializer_Serialize cJSON_Parse)
    (client_fd : Fd) :
    ∃ msg_in, ojalvo.line_event cJSON_Parse (JsonSerializer_Serialize talk.request).toUTF8.data.toList
        (JsonSerializer_Serialize talk.request).toUTF8.data.toList.length client_fd =
          some (.request client_fd msg_in) ∧ talk.Asks msg_in := by
  obtain ⟨msg_in, haccepted, hasks, -⟩ := htransmitted.decoded
  have hsanitized : message_buffer_sanitize (JsonSerializer_Serialize talk.request).toUTF8.data.toList
      (JsonSerializer_Serialize talk.request).toUTF8.data.toList.length =
        (JsonSerializer_Serialize talk.request).toUTF8.data.toList := by
    rw [message_buffer_sanitize_eq_filter, List.filter_eq_self]
    exact fun byte hbyte => stripped_eq_false (htransmitted.printable byte hbyte)
  refine ⟨msg_in, ?_, hasks⟩
  rw [CString.lit] at haccepted
  rw [ojalvo.line_event, hsanitized, if_neg (mt List.length_eq_zero_iff.mp htransmitted.nonempty), haccepted]

variable {server : Server} {client_fd : Fd} {sender listener : User}

/-- The lines of all that is said, handled one after another. -/
theorem handle_talks (hserver : server.Consistent) (hsender : server.Sender client_fd sender)
    (hlistener : listener ∈ server.users) (hother : listener ≠ sender) {talks : List Talk}
    (hshort : ∀ talk ∈ talks, talk.Short)
    (htransmitted : ∀ talk ∈ talks, talk.Transmitted JsonSerializer_Serialize cJSON_Parse) {trace : List Effect}
    (hconnected : World.Connected (.idle server trace)) :
    ∃ effects, handle_lines cJSON_Parse sockets client_fd
        ((talks.map fun talk => (JsonSerializer_Serialize talk.request).toUTF8.data.toList).map
          fun line => (line, line.length)) (.idle server trace) = some (.idle server (trace ++ effects)) ∧
      received listener.socket_fd effects = talks.flatMap fun talk => talk.notices server sender listener := by
  induction talks generalizing trace with
  | nil => exact ⟨[], by rw [List.append_nil]; rfl, rfl⟩
  | cons talk rest ih =>
    obtain ⟨hfirst, hlater⟩ := List.forall_mem_cons.mp hshort
    obtain ⟨hline, hlines⟩ := List.forall_mem_cons.mp htransmitted
    obtain ⟨msg_in, hevent, hasks⟩ := hline.line_event client_fd
    obtain ⟨message, fds, hanswered, hreceived⟩ :=
      Talk.answered hserver hconnected hsender hlistener hother hfirst hasks
    have hstill : World.Connected (.idle server (trace ++ sends message fds)) := by
      intro fd username hregistered
      exact is_open_append (hconnected fd username hregistered) (by simp [sends])
    obtain ⟨effects, hhandled, hheard⟩ := ih hlater hlines hstill
    refine ⟨sends message fds ++ effects, ?_, ?_⟩
    · rw [List.map_cons, List.map_cons, handle_lines, run_handle_line, hevent]
      simp only [show (serve sockets (.request client_fd msg_in)).run (.idle server trace) = _ from hanswered]
      have hgoes : (Event.request client_fd msg_in).goes_on = true := rfl
      rw [hgoes]
      dsimp only
      rw [hhandled, List.append_assoc]
    · rw [received_append, hreceived, hheard, List.flatMap_cons]

end Lines

section Shown

variable {JsonDocument_Parse : String → Option JsonElement}

/-- The bytes of some messages on the wire. -/
def wire (messages : List Message) : List UInt8 :=
  messages.flatMap fun message =>
    match message_to_json message SERVER_BUFFER_SIZE with
    | none => []
    | some response => response_line response

/-- The client parses the text of a message as the message. -/
def Message.Parsed (JsonDocument_Parse : String → Option JsonElement) (message : Message) : Prop :=
  ∀ text : String, text.toUTF8.data.toList = cJSON_PrintUnformatted (message_object message) →
    JsonDocument_Parse text = (message_object message).document

theorem exists_document {message : Message} (hspoken : Spoken (fun _ => True) message) (hreadable : message.Readable) :
    ∃ element, (message_object message).document = some element := by
  cases hdocument : (message_object message).document with
  | none =>
    -- A parser that reads everything as this message finds a type in it.
    have hread : ReadAsSent (fun _ _ => true) (fun _ => none) "" message :=
      parse_spoken hspoken hreadable hdocument.symm
    obtain ⟨parsed, hparsed, -⟩ := hread
    cases hparsed
  | some element => exact ⟨element, rfl⟩

/-- The texts of some messages, as the client reads them. -/
theorem exists_lines {messages : List Message} (hmessages : ∀ message ∈ messages, Spoken (fun _ => True) message ∧
      message.Readable ∧ message.Whole) :
    ∃ lines, wire messages = WriteLines lines ∧ List.Forall₂ (fun message line =>
      line.toUTF8.data.toList = cJSON_PrintUnformatted (message_object message)) messages lines ∧
      ∀ line ∈ lines, ∀ byte ∈ line.toUTF8.data.toList, 32 ≤ byte := by
  induction messages with
  | nil => exact ⟨[], rfl, .nil, List.forall_mem_nil _⟩
  | cons message rest ih =>
    obtain ⟨⟨hspoken, hreadable, hwhole⟩, hrest⟩ := List.forall_mem_cons.mp hmessages
    obtain ⟨lines, hwire, hlines, hprintable⟩ := ih hrest
    obtain ⟨element, hdocument⟩ := exists_document hspoken hreadable
    obtain ⟨line, hline⟩ : ∃ line : String,
        line.toUTF8.data.toList = cJSON_PrintUnformatted (message_object message) :=
      ⟨_, fromUTF8_eq_some_iff.mp (dif_pos (utf8_print hdocument))⟩
    have hencode : message_to_json message SERVER_BUFFER_SIZE =
        some (cJSON_PrintUnformatted (message_object message)) :=
      message_to_json_eq_some_iff.mpr ⟨rfl, Nat.lt_of_succ_lt hwhole⟩
    refine ⟨line :: lines, ?_, .cons hline hlines, List.forall_mem_cons.mpr ⟨?_, hprintable⟩⟩
    · rw [wire, List.flatMap_cons, ← wire, hwire, hencode]
      have hroom : (cJSON_PrintUnformatted (message_object message)).length + 1 < SERVER_BUFFER_SIZE := hwhole
      dsimp only
      rw [response_line, if_pos hroom, WriteLines, WriteLines, List.flatMap_cons, hline]
    · rw [hline]
      exact printable_cJSON_PrintUnformatted _

/-- The client shows every message that the server sends, in order, each with the values of its fields. -/
theorem shows_wire (unescapes : JsonString → String → Bool) {messages : List Message}
    (hmessages : ∀ message ∈ messages, Spoken (fun _ => True) message ∧ message.Readable ∧ message.Whole ∧
      message.Parsed JsonDocument_Parse) :
    ∃ lines shown, read_lines (wire messages) = some lines ∧
      Controller.ReceiveLoopAsync unescapes JsonDocument_Parse lines =
        (shown.map .Display ++ [.ShowServerClosed], none) ∧
      List.Forall₂ (fun message parsed => ServerMessage.Carries parsed message) messages shown := by
  obtain ⟨lines, hwire, hlines, hprintable⟩ := exists_lines fun message hmessage =>
    ⟨(hmessages message hmessage).1, (hmessages message hmessage).2.1, (hmessages message hmessage).2.2.1⟩
  refine ⟨lines, ?_⟩
  rw [hwire, read_lines_write_lines lines hprintable]
  clear hwire hprintable
  induction hlines with
  | nil => exact ⟨[], rfl, rfl, .nil⟩
  | @cons message line messages lines hprinted hrest ih =>
    obtain ⟨⟨hspoken, hreadable, hwhole, hparsed⟩, hlater⟩ := List.forall_mem_cons.mp hmessages
    obtain ⟨shown, -, hloop, hcarries⟩ := ih hlater
    have hread : ReadAsSent unescapes JsonDocument_Parse line message :=
      parse_spoken hspoken hreadable (hparsed line hprinted)
    obtain ⟨parsed, hparse, hcarried⟩ := hread
    have hnonempty : line.length ≠ 0 := by
      intro hempty
      rw [String.length_eq_zero_iff.mp hempty, message_object_eq] at hprinted
      cases hprinted
    refine ⟨parsed :: shown, rfl, ?_, .cons hcarried hcarries⟩
    rw [Controller.ReceiveLoopAsync, if_neg hnonempty, hparse, hloop]
    rfl

variable {server : Server} {sender listener : User} {name : String} {talk : Talk}

/-- What the listener gets are readable messages that arrive whole. -/
theorem Talk.spoken (hname : sender.username.unicode = some name) (hshort : talk.Short) :
    ∀ message ∈ talk.notices server sender listener,
      Spoken (fun _ => True) message ∧ message.Readable ∧ message.Whole := by
  have hreadable : sender.username.Readable := CString.utf8_of_unicode hname
  cases talk with
  | public_text text =>
    refine List.forall_mem_singleton.mpr ⟨.public_text_from _ _ trivial trivial, ?_, ?_⟩
    · exact List.forall_mem_cons.mpr ⟨hreadable, List.forall_mem_singleton.mpr (CString.readable_lit text)⟩
    · exact whole_public_text_from sender _ (by simpa [Talk.Short, Talk.words] using hshort)
  | private_text recipient text =>
    have hwords : escaped_length (.lit recipient) + escaped_length (.lit text) + 256 ≤ SERVER_BUFFER_SIZE := by
      simpa [Talk.Short, Talk.words] using hshort
    rw [Talk.notices]
    split_ifs
    · refine List.forall_mem_singleton.mpr ⟨.text_from _ _ trivial trivial, ?_, ?_⟩
      · exact List.forall_mem_cons.mpr ⟨hreadable, List.forall_mem_singleton.mpr (CString.readable_lit text)⟩
      · exact whole_text_from sender _ (by omega)
    · exact List.forall_mem_nil _
  | room_text roomname text =>
    rw [Talk.notices]
    split_ifs
    · refine List.forall_mem_singleton.mpr ⟨.room_text_from _ _ _ trivial trivial trivial, ?_, ?_⟩
      · exact List.forall_mem_cons.mpr ⟨hreadable, List.forall_mem_cons.mpr ⟨CString.readable_lit text,
          List.forall_mem_singleton.mpr (CString.readable_lit roomname)⟩⟩
      · exact whole_room_text_from sender _ _ (by simpa [Talk.Short, Talk.words] using hshort)
    · exact List.forall_mem_nil _

/-- A field has one value. -/
theorem Holds.eq {text : CString} {first second : String} (hholds : Holds (some text) first)
    (hunicode : text.unicode = some second) : first = second := by
  obtain ⟨other, hother, hvalue⟩ := hholds
  cases hother
  rw [hunicode] at hvalue
  exact (Option.some.inj hvalue).symm

/-- What carries the notices is what is to be shown. -/
theorem Talk.shown_of_carries (hname : sender.username.unicode = some name)
    (hwords : ∀ word ∈ talk.words, (CString.lit word).unicode = some word) :
    List.Forall₂ (fun message shown => ∀ parsed : ServerMessage, parsed.Carries message → parsed = shown)
      (talk.notices server sender listener) (talk.shown server sender listener name) := by
  cases talk with
  | public_text text =>
    have htext := List.forall_mem_singleton.mp hwords
    refine .cons (fun parsed hcarries => ?_) .nil
    cases parsed with
    | PublicTextFromMessage username said =>
      obtain ⟨-, husername, hsaid⟩ := hcarries
      rw [husername.eq hname, hsaid.eq htext]
    | _ => cases hcarries.1
  | private_text recipient text =>
    have htext := hwords text (by simp [Talk.words])
    rw [Talk.notices, Talk.shown]
    split_ifs
    · refine .cons (fun parsed hcarries => ?_) .nil
      cases parsed with
      | TextFromMessage username said =>
        obtain ⟨-, husername, hsaid⟩ := hcarries
        rw [husername.eq hname, hsaid.eq htext]
      | _ => cases hcarries.1
    · exact .nil
  | room_text roomname text =>
    have hroomname := hwords roomname (by simp [Talk.words])
    have htext := hwords text (by simp [Talk.words])
    rw [Talk.notices, Talk.shown]
    split_ifs
    · refine .cons (fun parsed hcarries => ?_) .nil
      cases parsed with
      | RoomTextFromMessage room username said =>
        obtain ⟨-, hroom, husername, hsaid⟩ := hcarries
        rw [hroom.eq hroomname, husername.eq hname, hsaid.eq htext]
      | _ => cases hcarries.1
    · exact .nil

end Shown

/-- The bytes that the client of a user who says something writes. -/
def typed_bytes (ToLower ToUpper Trim : String → String) (JsonSerializer_Serialize : JsonElement → String)
    (talks : List Talk) : List UInt8 :=
  WriteLines ((Controller.SendLoopAsync ToLower ToUpper Trim talks.length
    (talks.flatMap fun talk => talk.command :: talk.words)).map fun request => JsonSerializer_Serialize request.2)

theorem eq_of_forall₂_carries {messages : List Message} {shown parsed : List ServerMessage}
    (hshown : List.Forall₂ (fun message shown => ∀ parsed : ServerMessage, parsed.Carries message → parsed = shown)
      messages shown)
    (hparsed : List.Forall₂ (fun message parsed => ServerMessage.Carries parsed message) messages parsed) :
    parsed = shown := by
  induction hshown generalizing parsed with
  | nil =>
    cases hparsed
    rfl
  | cons hfirst hrest ih =>
    cases hparsed with
    | cons hcarries hlater => rw [hfirst _ hcarries, ih hlater]

theorem shown_of_carries_all {server : Server} {sender listener : User} {name : String} {talks : List Talk}
    {JsonSerializer_Serialize : JsonElement → String} {cJSON_Parse : CString → Option CJson}
    (hname : sender.username.unicode = some name)
    (htransmitted : ∀ talk ∈ talks, talk.Transmitted JsonSerializer_Serialize cJSON_Parse) :
    List.Forall₂ (fun message shown => ∀ parsed : ServerMessage, parsed.Carries message → parsed = shown)
      (talks.flatMap fun talk => talk.notices server sender listener)
      (talks.flatMap fun talk => talk.shown server sender listener name) := by
  induction talks with
  | nil => exact .nil
  | cons talk rest ih =>
    obtain ⟨hfirst, hrest⟩ := List.forall_mem_cons.mp htransmitted
    obtain ⟨msg_in, -, -, hwords⟩ := hfirst.decoded
    exact List.rel_append (Talk.shown_of_carries hname hwords) (ih hrest)

section Greeting

/-- What the client of ana writes, and what the client of luis reads. -/
def public_greeting : String := "\x7b\"type\":\"PUBLIC_TEXT\",\"text\":\"hola\"\x7d"

def public_greeting_from_ana : String := "\x7b\"type\":\"PUBLIC_TEXT_FROM\",\"username\":\"ana\",\"text\":\"hola\"\x7d"

def public_greeting_object : CJson := string_object [(.lit "type", .lit "PUBLIC_TEXT"), (.lit "text", .lit "hola")]

theorem transmitted_greeting : Talk.Transmitted (fun _ => public_greeting)
    (fun raw => parse_known [public_greeting_object] raw.bytes) (.public_text "hola") where
  nonempty := by decide +kernel
  printable := by decide +kernel
  fits := by decide +kernel
  parsed := by
    have hspelled : Spelled [(.lit "type", .lit "PUBLIC_TEXT"), (.lit "text", .lit "hola")]
        [("type", "PUBLIC_TEXT"), ("text", "hola")] :=
      .cons_lit (by decide) (CString.unicode_lit (by decide))
        (.cons_lit (by decide) (CString.unicode_lit (by decide)) .nil)
    exact ⟨_, rfl, document_string_object hspelled⟩

theorem parsed_greeting :
    (public_text_from_notice (.lit "ana") (.lit "hola")).Parsed fun text =>
      if text = public_greeting_from_ana then
        (message_object (public_text_from_notice (.lit "ana") (.lit "hola"))).document
      else none := by
  intro text htext
  have hprinted : public_greeting_from_ana.toUTF8.data.toList =
      cJSON_PrintUnformatted (message_object (public_text_from_notice (.lit "ana") (.lit "hola"))) := by decide +kernel
  exact if_pos (toUTF8_inj (htext.trans hprinted.symm))

end Greeting

end ojalvo
