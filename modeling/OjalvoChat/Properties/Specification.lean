import OjalvoChat.Descriptors
import OjalvoChat.Properties.Invitations
import OjalvoChat.Protocol.Abstraction

namespace ojalvo

/-- The users of a list, each once and in any order. -/
def Enumerates (users : Set (CString × UserStatus)) (object : CJson) : Prop :=
  ∃ entries : List (CString × UserStatus), (entries.map Prod.fst).Nodup ∧ users = { entry | entry ∈ entries } ∧
    object = .object (entries.map fun entry => (entry.1, .string (user_status_to_string entry.2)))

def RoomOperation.text (operation : RoomOperation) : CString :=
  match operation with
  | .INVITE => .lit "INVITE"
  | .JOIN_ROOM => .lit "JOIN_ROOM"
  | .ROOM_USERS => .lit "ROOM_USERS"
  | .ROOM_TEXT => .lit "ROOM_TEXT"
  | .LEAVE_ROOM => .lit "LEAVE_ROOM"

/-- The message that tells a client something. -/
def Notice.Spelled (notice : Notice CString CString UserStatus CString) (message : Message) : Prop :=
  match notice with
  | .identified name => message = response (.lit "IDENTIFY") (.lit "SUCCESS") name
  | .user_already_exists name => message = response (.lit "IDENTIFY") (.lit "USER_ALREADY_EXISTS") name
  | .not_identified => message = response (.lit "INVALID") (.lit "NOT_IDENTIFIED") none
  | .invalid => message = invalid_response
  | .user_list users =>
    ∃ object, Enumerates users object ∧ message = { message_init with type := .USER_LIST, users := some object }
  | .no_such_user name => message = response (.lit "TEXT") (.lit "NO_SUCH_USER") name
  | .room_created place => message = response (.lit "NEW_ROOM") (.lit "SUCCESS") place
  | .room_already_exists place => message = response (.lit "NEW_ROOM") (.lit "ROOM_ALREADY_EXISTS") place
  | .no_such_room operation place => message = response operation.text (.lit "NO_SUCH_ROOM") place
  | .not_joined operation place => message = response operation.text (.lit "NOT_JOINED") place
  | .no_such_invited name => message = response (.lit "INVITE") (.lit "NO_SUCH_USER") name
  | .not_invited place => message = response (.lit "JOIN_ROOM") (.lit "NOT_INVITED") place
  | .joined place => message = response (.lit "JOIN_ROOM") (.lit "SUCCESS") place
  | .room_user_list place users =>
    ∃ object, Enumerates users object ∧
      message = { message_init with type := .ROOM_USER_LIST, roomname := some place, users := some object }
  | .new_user name => message = new_user_notice name
  | .new_status name status => message = new_status_notice name (user_status_to_string status)
  | .text_from name text => message = text_from_notice name text
  | .public_text_from name text => message = public_text_from_notice name text
  | .invitation name place => message = invitation_notice name place
  | .joined_room place name => message = joined_room_notice place name
  | .room_text_from place name text => message = room_text_from_notice place name text
  | .left_room place name => message = left_room_notice place name
  | .disconnected name => message = disconnected_notice name

/-- What a message asks for. Nothing comes of IDENTIFY without a name, not even
before the client is known. -/
def Message.request (msg_in : Message) : Option (Request CString CString UserStatus CString) :=
  match msg_in.type with
  | .UNKNOWN => none
  | .DISCONNECT => some .disconnect
  | .IDENTIFY => msg_in.username.map fun requested => .identify (requested.cut 8)
  | .STATUS => some (msg_in.status.elim .incomplete fun text => .set_status (user_status_from_string (some text)))
  | .USERS => some .list_users
  | .TEXT => some (msg_in.username.elim .incomplete fun username => .text username msg_in.text)
  | .PUBLIC_TEXT => some (msg_in.text.elim .incomplete .public_text)
  | .NEW_ROOM =>
    some (msg_in.roomname.elim .incomplete fun requested =>
      .new_room (requested.cut 16) (decide (requested.cut 16 ≠ requested)))
  | .INVITE =>
    some (msg_in.roomname.elim .incomplete fun roomname => msg_in.usernames.elim .incomplete (.invite roomname))
  | .JOIN_ROOM => some (msg_in.roomname.elim .incomplete .join_room)
  | .ROOM_USERS => some (msg_in.roomname.elim .incomplete .room_users)
  | .ROOM_TEXT =>
    some (msg_in.text.elim .incomplete fun text => msg_in.roomname.elim .incomplete fun roomname =>
      .room_text roomname text)
  | .LEAVE_ROOM => some (msg_in.roomname.elim .incomplete .leave_room)
  | _ => some .incomplete

def Event.sent (event : Event) : Option (Fd × Request CString CString UserStatus CString) :=
  match event with
  | .accept _ => none
  | .request client_fd msg_in => msg_in.request.map fun request => (client_fd, request)
  | .invalid client_fd => some (client_fd, .garbage)

/-- The requests of a run, oldest first. -/
def requests (history : List (World × Event)) : List (Fd × Request CString CString UserStatus CString) :=
  history.reverse.filterMap fun moment => moment.2.sent

def chat_rules : Rules CString CString UserStatus where
  nameable := { name | 0 < strlen name ∧ strlen name ≤ USER_USERNAME_MAX_LENGTH }
  openable := { place | 0 < strlen place ∧ strlen place ≤ ROOM_ROOMNAME_MAX_LENGTH }
  initial := .ACTIVE

/-- A reaction goes through, and it does to the tables and to the clients what the
chat says. -/
def Reaction.Meets (reaction : Reaction) (client_fd : Fd) (server : Server)
    (outcome : Chat Fd CString CString UserStatus × (Fd → List (Notice CString CString UserStatus CString))) : Prop :=
  ∀ trace, ∃ answer after effects,
    reaction.perform reliable client_fd server trace = .ok answer (.idle after (trace ++ effects)) ∧
      after.chat = outcome.1 ∧ ∀ fd, List.Forall₂ Notice.Spelled (outcome.2 fd) (received fd effects)

section Audiences

variable {contents : UsersTable} {notice : Notice CString CString UserStatus CString} {message : Message}
  {client_fd : Fd}

/-- A message to one client spells a notice to it. -/
theorem spelled_to_one (hspelled : notice.Spelled message) (fd : Fd) :
    List.Forall₂ Notice.Spelled (to_one client_fd notice fd) (received fd [.send client_fd message true]) := by
  rw [received_send, to_one]
  by_cases hself : fd = client_fd
  · rw [if_pos hself, if_pos hself.symm]
    exact .cons hspelled .nil
  · rw [if_neg hself, if_neg (Ne.symm hself)]
    exact .nil

/-- One message to each of different clients. -/
theorem spelled_sends {fds : List Fd} (hspelled : notice.Spelled message) (hnodup : fds.Nodup) (fd : Fd) :
    (fd ∈ fds → List.Forall₂ Notice.Spelled [notice] (received fd (sends message fds))) ∧
      (fd ∉ fds → List.Forall₂ Notice.Spelled [] (received fd (sends message fds))) := by
  rw [received_sends fd message hnodup]
  constructor
  · intro hmem
    rw [if_pos hmem]
    exact .cons hspelled .nil
  · intro hmissing
    rw [if_neg hmissing]
    exact .nil

/-- A broadcast spells a notice to the others. -/
theorem spelled_to_others (hindexed : contents.Indexed) (hspelled : notice.Spelled message) (fd : Fd) :
    List.Forall₂ Notice.Spelled (to_others client_fd notice contents.sockets fd)
      (received fd (sends message (recipients contents.entries client_fd))) := by
  obtain ⟨htold, huntold⟩ := spelled_sends hspelled (nodup_recipients hindexed client_fd) fd
  rw [hindexed.mem_recipients_iff] at htold huntold
  rw [to_others]
  split
  · exact htold ‹_›
  · exact huntold ‹_›

end Audiences

section Reactions

variable {server : Server} {client_fd : Fd} {notice : Notice CString CString UserStatus CString} {message : Message}
  {user : User}

theorem meets_ignore (answer : Bool) : (Reaction.ignore answer).Meets client_fd server (server.chat, to_nobody) :=
  fun trace => ⟨answer, server, [], by rw [List.append_nil]; rfl, rfl, fun _ => .nil⟩

theorem meets_reply (notice : Notice CString CString UserStatus CString) (hspelled : notice.Spelled message) (fd : Fd) :
    (Reaction.reply fd message).Meets client_fd server (server.chat, to_one fd notice) :=
  fun _ => ⟨true, server, [.send fd message true], rfl, rfl, spelled_to_one hspelled⟩

variable (hserver : server.Consistent)
include hserver

/-- A departure on a network that delivers. -/
theorem departed_reliable (client_fd : Fd) (trace : List Effect) :
    ∃ after notices, departed reliable server trace client_fd = .idle after (trace ++ notices ++ [.close client_fd]) ∧
      after.chat = server.chat.without client_fd ∧
      ∀ fd, List.Forall₂ Notice.Spelled (server.chat.farewell client_fd fd) (received fd notices) := by
  cases hfound : server.users.find_by_client_fd client_fd with
  | none =>
    have hprofile : server.chat.profile client_fd = none := by simp only [Server.chat, hfound, Option.map_none]
    refine ⟨server, [], ?_, (hserver.without_unknown hfound).symm, fun fd => ?_⟩
    · simp [departed, departure_notices, Server.depart, hfound]
    · rw [Chat.farewell, hprofile]
      exact .nil
  | some user =>
    have hspelled : Notice.Spelled (.disconnected user.username) (disconnected_notice user.username) := rfl
    obtain ⟨huser, rfl⟩ := hserver.users.find_by_client_fd_iff.mp hfound
    refine ⟨server.forget user.username,
      sends (disconnected_notice user.username) (recipients server.users.entries user.socket_fd), ?_,
      hserver.chat_forget huser, fun fd => ?_⟩
    · simp [departed, departure_notices, Server.depart, hfound, broadcast_reliable, Server.evict_all]
    · rw [Chat.farewell, hserver.profile_of_mem huser, hserver.chat_users]
      exact spelled_to_others hserver.users hspelled fd

/-- A departure is what the chat says of it. -/
theorem meets_leave :
    Reaction.leave.Meets client_fd server (server.chat.without client_fd, server.chat.farewell client_fd) := by
  intro trace
  obtain ⟨after, notices, hdeparted, hchat, hheard⟩ := departed_reliable hserver client_fd trace
  refine ⟨true, after, notices ++ [.close client_fd], ?_, hchat, fun fd => ?_⟩
  · rw [← List.append_assoc, ← hdeparted]
    rfl
  · rw [received_append, received_close, List.append_nil]
    exact hheard fd

/-- A refusal is what the chat says of it. -/
theorem meets_refuse (hspelled : notice.Spelled message) :
    (Reaction.refuse message).Meets client_fd server (server.chat.refuse client_fd notice) := by
  intro trace
  obtain ⟨after, notices, hdeparted, hchat, hheard⟩ := departed_reliable hserver client_fd
    (trace ++ [.send client_fd message true])
  refine ⟨true, after, [.send client_fd message true] ++ (notices ++ [.close client_fd]), ?_, hchat, fun fd => ?_⟩
  · rw [← List.append_assoc, ← List.append_assoc, ← hdeparted]
    rfl
  · rw [received_append, received_append, received_close, List.append_nil]
    exact List.rel_append (spelled_to_one hspelled fd) (hheard fd)

/-- A broadcast to the users, once the tables are as they should be. -/
theorem announce_spelled (client_fd : Fd) (hspelled : notice.Spelled message) (trace : List Effect) :
    ∃ effects, announce reliable client_fd message server trace = .ok true (.idle server (trace ++ effects)) ∧
      ∀ fd, List.Forall₂ Notice.Spelled (to_others client_fd notice server.chat.users fd) (received fd effects) := by
  refine ⟨_, announce_reliable .., fun fd => ?_⟩
  rw [hserver.chat_users]
  exact spelled_to_others hserver.users hspelled fd

end Reactions

section Answers

variable {server : Server} {user : User} {msg_in : Message} (hserver : server.Consistent) (huser : user ∈ server.users)
include hserver huser

/-- STATUS does what the chat says. -/
theorem meets_status :
    (status_reaction user msg_in).Meets user.socket_fd server
      (server.chat.answer chat_rules user.socket_fd user.username user.status
        (msg_in.status.elim .incomplete fun text => .set_status (user_status_from_string (some text)))) := by
  unfold status_reaction
  cases msg_in.status with
  | none => exact meets_ignore false
  | some text =>
    simp only [Option.elim_some]
    cases hread : user_status_from_string (some text) with
    | none => exact meets_refuse hserver rfl
    | some wanted =>
      dsimp only
      by_cases hchange : user.status ≠ wanted
      · rw [if_pos hchange, Chat.answer, if_pos hchange]
        intro trace
        have hlater := hserver.set_status user.socket_fd wanted
        have hspelled : Notice.Spelled (.new_status user.username wanted) (new_status_notice user.username text) := by
          rw [Notice.Spelled, user_status_to_string_of_from_string hread]
        obtain ⟨effects, hannounce, hheard⟩ := announce_spelled hlater user.socket_fd hspelled trace
        have husers : (server.set_status user.socket_fd wanted).chat.users = server.chat.users := by
          rw [hlater.chat_users, hserver.chat_users]
          exact hserver.users.sockets_change_status user.socket_fd wanted
        exact ⟨true, _, effects, hannounce, hserver.chat_set_status huser wanted, husers ▸ hheard⟩
      · rw [if_neg hchange, Chat.answer, if_neg hchange]
        exact meets_ignore true

omit huser in
/-- TEXT does what the chat says, unless a field is missing. -/
theorem meets_text :
    text_reaction server user msg_in = .crash ∨
      (text_reaction server user msg_in).Meets user.socket_fd server
        (server.chat.answer chat_rules user.socket_fd user.username user.status
          (msg_in.username.elim .incomplete fun username => .text username msg_in.text)) := by
  unfold text_reaction
  cases msg_in.username with
  | none => exact Or.inl rfl
  | some username =>
    simp only [Option.elim_some, Chat.answer]
    cases hfind : server.users.find_by_username username with
    | none =>
      have hfree : ¬ server.chat.Taken username := by simp [hserver.taken_iff, hfind]
      rw [if_pos hfree]
      exact Or.inr (meets_reply (.no_such_user username) rfl user.socket_fd)
    | some user_to =>
      have htaken : server.chat.Taken username := hserver.taken_iff.mpr ⟨user_to, hfind⟩
      obtain ⟨haddressee, rfl⟩ := hserver.users.find_by_username_iff.mp hfind
      rw [if_neg (not_not.mpr htaken)]
      dsimp only
      by_cases hself : user.username = user_to.username
      · rw [if_pos hself, if_pos hself]
        exact Or.inr (meets_ignore true)
      · rw [if_neg hself, if_neg hself]
        cases msg_in.text with
        | none => exact Or.inl rfl
        | some text =>
          have hone := Chat.to_named_eq_to_one (fun _ => hserver.known_iff_of_mem haddressee)
            (.text_from user.username text : Notice CString CString UserStatus CString)
          rw [Option.map_some, Option.toList_some, hone]
          exact Or.inr (meets_reply (.text_from user.username text) rfl user_to.socket_fd)

omit huser in
/-- PUBLIC_TEXT does what the chat says, unless the text is missing. -/
theorem meets_public_text :
    public_text_reaction user msg_in = .crash ∨
      (public_text_reaction user msg_in).Meets user.socket_fd server
        (server.chat.answer chat_rules user.socket_fd user.username user.status
          (msg_in.text.elim .incomplete .public_text)) := by
  unfold public_text_reaction
  cases msg_in.text with
  | none => exact Or.inl rfl
  | some text =>
    refine Or.inr fun trace => ?_
    have hspelled : Notice.Spelled (.public_text_from user.username text)
        (public_text_from_notice user.username text) := rfl
    obtain ⟨effects, hannounce, hheard⟩ := announce_spelled hserver user.socket_fd hspelled trace
    exact ⟨true, server, effects, hannounce, rfl, hheard⟩

omit huser in
/-- USERS does what the chat says. -/
theorem meets_users :
    (Reaction.reply user.socket_fd (user_list_message server.users)).Meets user.socket_fd server
      (server.chat.answer chat_rules user.socket_fd user.username user.status .list_users) := by
  have hlist : Enumerates (server.chat.profiles Set.univ) (users_object server.users) := by
    refine ⟨server.users.entries.map User.profile, ?_, hserver.profiles_univ, ?_⟩
    · rw [List.map_map]
      exact hserver.users.nodup_usernames
    · rw [users_object_eq, List.map_map]
      rfl
  exact meets_reply (.user_list _) ⟨_, hlist, rfl⟩ user.socket_fd

end Answers

section Rooms

variable {server : Server} {user : User} {msg_in : Message} {roomname : CString} {room : Room}
  (hserver : server.Consistent)
include hserver

omit hserver in
/-- A request about a room that may not exist. -/
theorem meets_about (operation : RoomOperation) {react : CString → Room → Reaction}
    {respond : CString → Hall Fd → Chat Fd CString CString UserStatus ×
      (Fd → List (Notice CString CString UserStatus CString))}
    (requested : Option CString) (request : CString → Request CString CString UserStatus CString)
    (hrequest : ∀ roomname, server.chat.answer chat_rules user.socket_fd user.username user.status (request roomname) =
      server.chat.about user.socket_fd operation roomname (respond roomname))
    (hreact : ∀ roomname room, server.rooms.lookup roomname = some room →
      (react roomname room).Meets user.socket_fd server (respond roomname room.hall)) :
    (room_reaction server user operation.text requested react).Meets user.socket_fd server
      (server.chat.answer chat_rules user.socket_fd user.username user.status
        (requested.elim .incomplete request)) := by
  unfold room_reaction
  cases requested with
  | none => exact meets_ignore false
  | some roomname =>
    simp only [Option.elim_some, hrequest, Chat.about, hall_chat]
    cases hroom : server.rooms.lookup roomname with
    | none => exact meets_reply (.no_such_room operation roomname) rfl user.socket_fd
    | some room => exact hreact roomname room hroom

theorem mem_hall_members_iff (hroom : server.rooms.lookup roomname = some room) {fd : Fd} :
    fd ∈ room.hall.members ↔ room.members.contains_by_client_fd fd = true :=
  (hserver.rooms roomname room hroom).members.mem_sockets_iff

theorem mem_hall_guests_iff (hroom : server.rooms.lookup roomname = some room) {fd : Fd} :
    fd ∈ room.hall.guests ↔ room.guests.contains_by_client_fd fd = true :=
  (hserver.rooms roomname room hroom).guests.mem_sockets_iff

/-- A broadcast to the members of a room, once the tables are as they should be. -/
theorem told_members {later : Server} {notice : Notice CString CString UserStatus CString} {message : Message}
    {client_fd : Fd} (hroom : server.rooms.lookup roomname = some room) (hspelled : notice.Spelled message)
    (hrecipients : later.room_recipients roomname client_fd = recipients room.members.entries client_fd)
    (trace : List Effect) :
    ∃ effects,
      tell_members reliable client_fd roomname message later trace = .ok true (.idle later (trace ++ effects)) ∧
      ∀ fd, List.Forall₂ Notice.Spelled (to_others client_fd notice room.hall.members fd) (received fd effects) := by
  refine ⟨_, tell_members_reliable .., fun fd => ?_⟩
  rw [hrecipients]
  exact spelled_to_others (hserver.rooms roomname room hroom).members hspelled fd

/-- ROOM_USERS does what the chat says. -/
theorem meets_room_users :
    (room_users_reaction server user msg_in).Meets user.socket_fd server
      (server.chat.answer chat_rules user.socket_fd user.username user.status
        (msg_in.roomname.elim .incomplete .room_users)) := by
  refine meets_about .ROOM_USERS msg_in.roomname .room_users (fun _ => rfl) fun roomname room hroom => ?_
  have hcopies := hserver.rooms roomname room hroom
  rw [mem_hall_members_iff hserver hroom]
  split
  · have hlist : Enumerates (server.chat.profiles room.hall.members) (users_object room.members) := by
      refine ⟨room.members.entries.map User.profile, ?_,
        hserver.profiles_sockets hcopies.members hcopies.members_users, ?_⟩
      · rw [List.map_map]
        exact hcopies.members.nodup_usernames
      · rw [users_object_eq, List.map_map]
        rfl
    exact meets_reply (.room_user_list roomname _) ⟨_, hlist, rfl⟩ user.socket_fd
  · exact meets_reply (.not_joined .ROOM_USERS roomname) rfl user.socket_fd

/-- ROOM_TEXT does what the chat says. -/
theorem meets_room_text :
    (room_text_reaction server user msg_in).Meets user.socket_fd server
      (server.chat.answer chat_rules user.socket_fd user.username user.status
        (msg_in.text.elim .incomplete fun text => msg_in.roomname.elim .incomplete fun roomname =>
          .room_text roomname text)) := by
  unfold room_text_reaction
  cases msg_in.text with
  | none => exact meets_ignore false
  | some text =>
    simp only [Option.elim_some]
    refine meets_about .ROOM_TEXT msg_in.roomname (fun roomname => .room_text roomname text)
      (fun _ => rfl) fun roomname room hroom => ?_
    rw [mem_hall_members_iff hserver hroom]
    split
    · intro trace
      have hspelled : Notice.Spelled (.room_text_from roomname user.username text)
          (room_text_from_notice roomname user.username text) := rfl
      have hrecipients : server.room_recipients roomname user.socket_fd =
          recipients room.members.entries user.socket_fd := by rw [Server.room_recipients, hroom]
      obtain ⟨effects, htold, hheard⟩ := told_members hserver hroom hspelled hrecipients trace
      exact ⟨true, server, effects, htold, rfl, hheard⟩
    · exact meets_reply (.not_joined .ROOM_TEXT roomname) rfl user.socket_fd

variable (huser : user ∈ server.users)
include huser

/-- LEAVE_ROOM does what the chat says. -/
theorem meets_leave_room :
    (leave_room_reaction server user msg_in).Meets user.socket_fd server
      (server.chat.answer chat_rules user.socket_fd user.username user.status
        (msg_in.roomname.elim .incomplete .leave_room)) := by
  refine meets_about .LEAVE_ROOM msg_in.roomname .leave_room (fun _ => rfl) fun roomname room hroom => ?_
  rw [mem_hall_members_iff hserver hroom]
  split
  · intro trace
    have hcopies := hserver.rooms roomname room hroom
    have hmember : user ∈ room.members := (hcopies.mem_members_iff hserver.users huser).mpr ‹_›
    have hspelled : Notice.Spelled (.left_room roomname user.username) (left_room_notice roomname user.username) := rfl
    obtain ⟨effects, htold, hheard⟩ := told_members hserver hroom hspelled (hserver.recipients_quit hroom hmember) trace
    exact ⟨true, _, effects, htold, hserver.chat_quit hroom huser, hheard⟩
  · exact meets_reply (.not_joined .LEAVE_ROOM roomname) rfl user.socket_fd

/-- JOIN_ROOM does what the chat says. -/
theorem meets_join_room :
    (join_room_reaction server user msg_in).Meets user.socket_fd server
      (server.chat.answer chat_rules user.socket_fd user.username user.status
        (msg_in.roomname.elim .incomplete .join_room)) := by
  refine meets_about .JOIN_ROOM msg_in.roomname .join_room (fun _ => rfl) fun roomname room hroom => ?_
  rw [mem_hall_members_iff hserver hroom, mem_hall_guests_iff hserver hroom]
  by_cases hmember : room.members.contains_by_client_fd user.socket_fd = true
  · rw [if_pos hmember, if_pos hmember]
    exact meets_ignore true
  · rw [if_neg hmember, if_neg hmember]
    split
    · intro trace
      have houtside : room.members.contains_by_client_fd user.socket_fd = false := Bool.not_eq_true _ ▸ hmember
      have hspelled : Notice.Spelled (.joined_room roomname user.username)
          (joined_room_notice roomname user.username) := rfl
      have hjoined : Notice.Spelled (.joined roomname)
          (response (.lit "JOIN_ROOM") (.lit "SUCCESS") (some roomname)) := rfl
      have hrecipients := hserver.recipients_let_in hroom huser houtside
      obtain ⟨effects, htold, hheard⟩ := told_members hserver hroom hspelled hrecipients
        (trace ++ [.send user.socket_fd (response (.lit "JOIN_ROOM") (.lit "SUCCESS") (some roomname)) true])
      refine ⟨true, _, [.send user.socket_fd (response (.lit "JOIN_ROOM") (.lit "SUCCESS") (some roomname)) true] ++
        effects, ?_, hserver.chat_let_in hroom huser houtside, fun fd => ?_⟩
      · rw [← List.append_assoc]
        exact htold
      · rw [received_append]
        exact List.rel_append (spelled_to_one hjoined fd) (hheard fd)
    · exact meets_reply (.not_invited roomname) rfl user.socket_fd

omit huser in
/-- NEW_ROOM does what the chat says. -/
theorem meets_new_room :
    (new_room_reaction server user msg_in).Meets user.socket_fd server
      (server.chat.answer chat_rules user.socket_fd user.username user.status
        (msg_in.roomname.elim .incomplete fun requested =>
          .new_room (requested.cut 16) (decide (requested.cut 16 ≠ requested)))) := by
  unfold new_room_reaction
  cases msg_in.roomname with
  | none => exact meets_ignore false
  | some requested =>
    simp only [Option.elim_some, Chat.answer, hall_chat]
    cases hexact : server.rooms.lookup requested with
    | some room =>
      -- no room has a name that is shortened
      have hshort : requested.cut 16 = requested := by
        have hkey := hserver.keyed requested room hexact
        exact CString.cut_of_strlen_le (hkey ▸ room.named.2)
      rw [hshort, hexact]
      have hreply : (Reaction.reply user.socket_fd
          (response (.lit "NEW_ROOM") (.lit "ROOM_ALREADY_EXISTS") (some requested))).Meets user.socket_fd server
            (server.chat, to_one user.socket_fd (.room_already_exists requested)) :=
        meets_reply (.room_already_exists requested) rfl user.socket_fd
      simpa [hshort] using hreply
    | none =>
      cases hroom : server.rooms.lookup (requested.cut 16) with
      | some room =>
        have hlong : requested.cut 16 ≠ requested := by
          intro hshort
          rw [hshort, hexact] at hroom
          cases hroom
        have hignore : (Reaction.ignore false).Meets user.socket_fd server (server.chat, to_nobody) :=
          meets_ignore false
        simpa [hlong] using hignore
      | none =>
        dsimp only [Option.map_none]
        by_cases hnamed : 0 < strlen (requested.cut 16) ∧ strlen (requested.cut 16) ≤ ROOM_ROOMNAME_MAX_LENGTH
        · have hopenable : requested.cut 16 ∈ chat_rules.openable := hnamed
          rw [dif_pos hnamed, if_pos hopenable]
          intro trace
          have hspelled : Notice.Spelled (.room_created (requested.cut 16))
              (response (.lit "NEW_ROOM") (.lit "SUCCESS") (some (requested.cut 16))) := rfl
          exact ⟨true, _, _, rfl, Server.Consistent.chat_create_room hnamed, spelled_to_one hspelled⟩
        · have hclosed : requested.cut 16 ∉ chat_rules.openable := hnamed
          rw [dif_neg hnamed, if_neg hclosed]
          exact meets_ignore false

/-- In a room are those who are inside the hall. -/
theorem chat_in_room_iff (hroom : server.rooms.lookup roomname = some room) :
    server.in_room roomname user = true ↔ user.username ∈ server.chat.inside room.hall := by
  have hcopies := hserver.rooms roomname room hroom
  have hown : (user.socket_fd ∈ room.hall.members ∨ user.socket_fd ∈ room.hall.guests) ↔
      user.username ∈ server.chat.inside room.hall := by
    simp only [Chat.inside, Set.mem_ofPred_eq, hserver.known_iff_of_mem huser, exists_eq_right]
  rw [← hown, mem_hall_members_iff hserver hroom, mem_hall_guests_iff hserver hroom, Server.in_room, hroom,
    Bool.or_eq_true]

omit huser hserver in
/-- Without newcomers a room stays as it is. -/
theorem chat_without_newcomers (hroom : server.rooms.lookup roomname = some room) :
    server.chat = server.chat.set_hall roomname (some { room.hall with
      guests := room.hall.guests ∪ { fd | ∃ listed ∈ ([] : List CString), server.chat.Known fd listed } }) := by
  simp only [List.not_mem_nil, false_and, exists_false, Set.ofPred_false, Set.union_empty]
  exact (Chat.set_hall_eq_self _ (by rw [hall_chat, hroom]; rfl)).symm

omit huser hserver in
theorem lookup_add_guest (hroom : server.rooms.lookup roomname = some room) (invited : User) :
    (server.add_guest roomname invited).rooms.lookup roomname =
      some (room.change_guests fun guests => guests.add invited) := by
  simp [Server.add_guest, hroom]

/-- A guest of the room is a guest of the hall. -/
theorem hall_add_guest (hroom : server.rooms.lookup roomname = some room)
    (houtside : server.in_room roomname user = false) :
    (room.change_guests fun guests => guests.add user).hall =
      { room.hall with guests := insert user.socket_fd room.hall.guests } := by
  have hplace := congrArg (fun chat => chat.hall roomname) (hserver.chat_add_guest hroom huser houtside)
  simpa only [Chat.hall_set_hall, hall_chat, lookup_add_guest hroom, Option.map_some, Option.some.injEq] using hplace

/-- Whoever is added to the guests is inside. -/
theorem chat_inside_add_guest (hroom : server.rooms.lookup roomname = some room)
    (houtside : server.in_room roomname user = false) :
    (server.add_guest roomname user).chat.inside (room.change_guests fun guests => guests.add user).hall =
      insert user.username (server.chat.inside room.hall) := by
  rw [hserver.chat_add_guest hroom huser houtside, hall_add_guest hserver huser hroom houtside]
  exact Chat.inside_insert_guest (fun _ => hserver.known_iff_of_mem huser) room.hall

omit huser hserver in
/-- The second loop of INVITE. -/
theorem invites_newcomers {server : Server} {room : Room} {message : Message} (hserver : server.Consistent)
    (hroom : server.rooms.lookup roomname = some room) (trace : List Effect) {invited_users : List User}
    (hinvited : ∀ invited ∈ invited_users, invited ∈ server.users) :
    ∃ after fds, invite_all reliable roomname message invited_users server trace =
        .ok true (.idle after (trace ++ sends message fds)) ∧
      after.chat = server.chat.set_hall roomname (some { room.hall with
        guests := room.hall.guests ∪ { fd | ∃ listed ∈ newcomers (server.chat.inside room.hall)
          (invited_users.map User.username), server.chat.Known fd listed } }) ∧
      fds.Nodup ∧ ∀ fd, fd ∈ fds ↔ ∃ listed ∈ newcomers (server.chat.inside room.hall)
        (invited_users.map User.username), server.chat.Known fd listed := by
  induction invited_users generalizing server room trace with
  | nil =>
    rw [List.map_nil, newcomers_nil]
    exact ⟨server, [], by simp [invite_all, sends], chat_without_newcomers hroom, List.nodup_nil, fun fd => by simp⟩
  | cons invited rest ih =>
    have huser := hinvited invited List.mem_cons_self
    unfold invite_all
    by_cases hinside : server.in_room roomname invited
    · have hknown := (chat_in_room_iff hserver huser hroom).mp hinside
      rw [if_pos hinside, List.map_cons, newcomers_cons_of_mem hknown]
      exact ⟨server, [], by simp [sends], chat_without_newcomers hroom, List.nodup_nil, fun fd => by simp⟩
    · have houtside : server.in_room roomname invited = false := Bool.not_eq_true _ ▸ hinside
      have hnew := mt (chat_in_room_iff hserver huser hroom).mpr hinside
      rw [if_neg hinside, List.map_cons, newcomers_cons_of_notMem hnew]
      have hchat := hserver.chat_add_guest hroom huser houtside
      have hadded := hserver.add_guest huser houtside
      obtain ⟨after, fds, hrun, hafter, hnodup, hmem⟩ := ih hadded (lookup_add_guest hroom invited)
        (trace ++ [.send invited.socket_fd message true])
        fun other hother => hinvited other (List.mem_cons_of_mem invited hother)
      have howner : ∀ other, server.chat.Known other invited.username ↔ other = invited.socket_fd := fun _ =>
        hserver.known_iff_of_mem huser
      rw [chat_inside_add_guest hserver huser hroom houtside] at hafter hmem
      have hknown : ∀ fd listed, (server.add_guest roomname invited).chat.Known fd listed ↔
          server.chat.Known fd listed := by
        intro fd listed
        rw [hchat]
        rfl
      simp only [hknown] at hafter hmem
      refine ⟨after, invited.socket_fd :: fds, ?_, ?_, List.nodup_cons.mpr ⟨?_, hnodup⟩, fun fd => ?_⟩
      · rw [send_or_depart_reliable, hrun, List.append_assoc]
        rfl
      · rw [hafter, hchat, Chat.set_hall_set_hall, hall_add_guest hserver huser hroom houtside]
        refine congrArg (fun guests => server.chat.set_hall roomname (some { room.hall with guests }))
          (Set.ext fun fd => ?_)
        simp only [Set.mem_union, Set.mem_insert_iff, Set.mem_ofPred_eq, List.mem_cons, exists_eq_or_imp, howner]
        rw [or_assoc, or_left_comm]
      · rw [hmem]
        rintro ⟨listed, hlisted, hown⟩
        have hsame := Chat.known_unique hown ((howner _).mpr rfl)
        exact notMem_of_mem_newcomers hlisted (Or.inl hsame)
      · simp only [List.mem_cons, hmem, exists_eq_or_imp, howner]

omit huser in
/-- Where all invited users are found all of their names are taken. -/
theorem taken_of_invited_records {usernames : List CString} {invited_users : List User}
    (hinvited : invited_records server usernames = .ok invited_users) :
    (∀ username ∈ usernames, server.chat.Taken username) ∧ invited_users.map User.username = usernames := by
  have hfound : ∀ username ∈ usernames, ∃ user, server.users.find_by_username username = some user := by
    intro username hmem
    have hlisted : server.users.find_by_username username ∈ invited_users.map some :=
      invited_records_eq_ok_iff.mp hinvited ▸ List.mem_map_of_mem hmem
    obtain ⟨user, -, hfound⟩ := List.mem_map.mp hlisted
    exact ⟨user, hfound.symm⟩
  refine ⟨fun username hmem => hserver.taken_iff.mpr (hfound username hmem), ?_⟩
  obtain ⟨same, hsame, hnames⟩ := exists_invited_records hserver fun username hmem =>
    hserver.users.exists_lists_iff.mpr (hfound username hmem)
  rw [hinvited] at hsame
  cases hsame
  exact hnames

omit huser in
/-- INVITE does what the chat says. -/
theorem meets_invite :
    (invite_reaction server user msg_in).Meets user.socket_fd server
      (server.chat.answer chat_rules user.socket_fd user.username user.status
        (msg_in.roomname.elim .incomplete fun roomname => msg_in.usernames.elim .incomplete (.invite roomname))) := by
  unfold invite_reaction
  cases msg_in.roomname with
  | none => exact meets_ignore false
  | some roomname =>
    cases msg_in.usernames with
    | none => exact meets_ignore false
    | some usernames =>
      simp only [Option.elim_some, Chat.answer, Chat.about, hall_chat]
      cases hroom : server.rooms.lookup roomname with
      | none => exact meets_reply (.no_such_room .INVITE roomname) rfl user.socket_fd
      | some room =>
        simp only [Option.map_some, mem_hall_members_iff hserver hroom]
        by_cases hmember : room.members.contains_by_client_fd user.socket_fd = true
        · rw [if_pos hmember, if_neg (not_not.mpr hmember)]
          cases hinvited : invited_records server usernames with
          | error missing =>
            obtain ⟨known, rest, rfl, hknown, hmissing⟩ := exists_of_invited_records_error hinvited
            have hfree : ¬ server.chat.Taken missing := by simp [hserver.taken_iff, hmissing]
            rw [Chat.first_free_append (fun listed hlisted => hserver.taken_iff.mpr (hknown listed hlisted)) hfree]
            exact meets_reply (.no_such_invited missing) rfl user.socket_fd
          | ok invited_users =>
            obtain ⟨htaken, hnames⟩ := taken_of_invited_records hserver hinvited
            rw [Chat.first_free_eq_none htaken]
            intro trace
            have hspelled : Notice.Spelled (.invitation user.username roomname)
                (invitation_notice user.username roomname) := rfl
            obtain ⟨after, fds, hrun, hafter, hnodup, hmem⟩ := invites_newcomers hserver hroom trace
              fun invited hmem => (invited_records_ok hserver.users hinvited invited hmem).1
            rw [hnames] at hafter hmem
            refine ⟨true, after, _, hrun, hafter, fun fd => ?_⟩
            obtain ⟨htold, huntold⟩ := spelled_sends hspelled hnodup fd
            rw [hmem] at htold huntold
            simp only [Chat.invite]
            split
            · exact htold ‹_›
            · exact huntold ‹_›
        · rw [if_neg hmember, if_pos hmember]
          exact meets_refuse hserver rfl

end Rooms

section Requests

variable {server : Server} {client_fd : Fd} {msg_in : Message} (hserver : server.Consistent)

theorem exists_plain_request (hunknown : msg_in.type ≠ .UNKNOWN) (hdisconnect : msg_in.type ≠ .DISCONNECT)
    (hidentify : msg_in.type ≠ .IDENTIFY) : ∃ request, msg_in.request = some request ∧ request.Plain := by
  have helim {A : Type} (field : Option A) (request : A → Request CString CString UserStatus CString)
      (hplain : ∀ value, (request value).Plain) : (field.elim .incomplete request).Plain := by
    cases field with
    | none => trivial
    | some value => exact hplain value
  unfold Message.request
  split
  · exact absurd ‹_› hunknown
  · exact absurd ‹_› hdisconnect
  · exact absurd ‹_› hidentify
  · exact ⟨_, rfl, helim _ _ fun _ => trivial⟩
  · exact ⟨_, rfl, trivial⟩
  · exact ⟨_, rfl, helim _ _ fun _ => trivial⟩
  · exact ⟨_, rfl, helim _ _ fun _ => trivial⟩
  · exact ⟨_, rfl, helim _ _ fun _ => trivial⟩
  · exact ⟨_, rfl, helim _ _ fun _ => helim _ _ fun _ => trivial⟩
  · exact ⟨_, rfl, helim _ _ fun _ => trivial⟩
  · exact ⟨_, rfl, helim _ _ fun _ => trivial⟩
  · exact ⟨_, rfl, helim _ _ fun _ => helim _ _ fun _ => trivial⟩
  · exact ⟨_, rfl, helim _ _ fun _ => trivial⟩
  · exact ⟨_, rfl, trivial⟩

include hserver

/-- Every request of a registered client does what the chat says, unless a field is
missing. -/
theorem meets_registered {user : User} (huser : user ∈ server.users)
    {request : Request CString CString UserStatus CString} (hrequest : msg_in.request = some request)
    (hplain : request.Plain) :
    registered_reaction server user msg_in = .crash ∨
      (registered_reaction server user msg_in).Meets user.socket_fd server
        (server.chat.answer chat_rules user.socket_fd user.username user.status request) := by
  unfold Message.request at hrequest
  unfold registered_reaction
  cases htype : msg_in.type with
  | STATUS =>
    simp only [htype] at hrequest ⊢
    cases hrequest
    exact Or.inr (meets_status hserver huser)
  | USERS =>
    simp only [htype] at hrequest ⊢
    cases hrequest
    exact Or.inr (meets_users hserver)
  | TEXT =>
    simp only [htype] at hrequest ⊢
    cases hrequest
    exact meets_text hserver
  | PUBLIC_TEXT =>
    simp only [htype] at hrequest ⊢
    cases hrequest
    exact meets_public_text hserver
  | NEW_ROOM =>
    simp only [htype] at hrequest ⊢
    cases hrequest
    exact Or.inr (meets_new_room hserver)
  | INVITE =>
    simp only [htype] at hrequest ⊢
    cases hrequest
    exact Or.inr (meets_invite hserver)
  | JOIN_ROOM =>
    simp only [htype] at hrequest ⊢
    cases hrequest
    exact Or.inr (meets_join_room hserver huser)
  | ROOM_USERS =>
    simp only [htype] at hrequest ⊢
    cases hrequest
    exact Or.inr (meets_room_users hserver)
  | ROOM_TEXT =>
    simp only [htype] at hrequest ⊢
    cases hrequest
    exact Or.inr (meets_room_text hserver)
  | LEAVE_ROOM =>
    simp only [htype] at hrequest ⊢
    cases hrequest
    exact Or.inr (meets_leave_room hserver huser)
  | IDENTIFY =>
    simp only [htype] at hrequest
    obtain ⟨requested, -, rfl⟩ := Option.map_eq_some_iff.mp hrequest
    cases hplain
  | DISCONNECT =>
    simp only [htype] at hrequest
    cases hrequest
    cases hplain
  | UNKNOWN =>
    simp only [htype] at hrequest
    cases hrequest
  | _ =>
    simp only [htype] at hrequest ⊢
    cases hrequest
    exact Or.inr (meets_ignore true)

/-- A registration is what the chat says of it. -/
theorem meets_register {user : User} (hname : server.users.find_by_username user.username = none)
    (hfd : server.users.find_by_client_fd user.socket_fd = none) (hactive : user.status = .ACTIVE) :
    (Reaction.register user).Meets user.socket_fd server
      (server.chat.set_profile user.socket_fd user.username chat_rules.initial, fun other =>
        to_one user.socket_fd (.identified user.username) other ++
          to_others user.socket_fd (.new_user user.username) server.chat.users other) := by
  intro trace
  have hidentified : Notice.Spelled (.identified user.username)
      (response (.lit "IDENTIFY") (.lit "SUCCESS") (some user.username)) := rfl
  have hnew : Notice.Spelled (.new_user user.username) (new_user_notice user.username) := rfl
  have hlater := hserver.register hname hfd
  obtain ⟨effects, hannounce, hheard⟩ := announce_spelled hlater user.socket_fd hnew
    (trace ++ [.send user.socket_fd (response (.lit "IDENTIFY") (.lit "SUCCESS") (some user.username)) true])
  have husers : (server.register user).chat.users = insert user.socket_fd server.chat.users := by
    rw [hlater.chat_users, hserver.chat_users]
    exact hserver.users.sockets_add (hserver.users.find_by_username_eq_none_iff.mp hname)
  rw [husers, to_others_insert] at hheard
  refine ⟨true, server.register user,
    [.send user.socket_fd (response (.lit "IDENTIFY") (.lit "SUCCESS") (some user.username)) true] ++ effects, ?_, ?_,
    fun fd => ?_⟩
  · rw [← List.append_assoc]
    exact hannounce
  · rw [hserver.chat_register hname hfd, hactive]
    rfl
  · rw [received_append]
    exact List.rel_append (spelled_to_one hidentified fd) (hheard fd)

/-- IDENTIFY does what the chat says of the name that it is cut to. -/
theorem meets_identify {requested : CString} (hrequested : msg_in.username = some requested) :
    (identify_reaction server client_fd msg_in).Meets client_fd server
      (server.chat.identify chat_rules client_fd (requested.cut 8)) := by
  unfold identify_reaction
  simp only [hrequested]
  cases hfound : server.users.find_by_client_fd client_fd with
  | some user =>
    obtain ⟨huser, rfl⟩ := hserver.users.find_by_client_fd_iff.mp hfound
    simp only [Chat.identify, hserver.profile_of_mem huser, User.profile]
    split
    · exact meets_refuse hserver rfl
    · exact meets_ignore true
  | none =>
    have hprofile : server.chat.profile client_fd = none := by simp only [Server.chat, hfound, Option.map_none]
    simp only [Chat.identify, hprofile]
    cases htaken : server.users.find_by_username (requested.cut 8) with
    | some user =>
      obtain ⟨huser, hname⟩ := hserver.users.find_by_username_iff.mp htaken
      have hother : user.socket_fd ≠ client_fd := fun hfd =>
        hserver.users.find_by_client_fd_eq_none_iff.mp hfound user huser hfd
      rw [if_pos (hserver.taken_iff.mpr ⟨user, htaken⟩)]
      dsimp only
      rw [if_pos hother]
      exact meets_refuse hserver rfl
    | none =>
      have hfree : ¬ server.chat.Taken (requested.cut 8) := by simp [hserver.taken_iff, htaken]
      rw [if_neg hfree]
      dsimp only
      cases hinit : user_init (requested.cut 8) client_fd with
      | none =>
        have hunnameable : requested.cut 8 ∉ chat_rules.nameable := by
          rintro ⟨hlow, hhigh⟩
          rcases user_init_eq_none_iff.mp hinit with hempty | hlong
          · omega
          · omega
        rw [if_neg hunnameable]
        exact meets_ignore false
      | some user =>
        obtain ⟨hname, rfl, hactive⟩ := user_init_eq_some_iff.mp hinit
        have hnameable : requested.cut 8 ∈ chat_rules.nameable := hname ▸ user.named
        rw [if_pos hnameable, ← hname]
        exact meets_register hserver (hname ▸ htaken) hfound hactive

/-- Every reaction either uses a field that its request lacks or does what the chat
says about the request. -/
theorem reaction_meets :
    reaction server client_fd msg_in = .crash ∨
      (reaction server client_fd msg_in).Meets client_fd server
        (msg_in.request.elim (server.chat, to_nobody) (server.chat.serve chat_rules client_fd)) := by
  unfold reaction
  by_cases hunknown : msg_in.type = .UNKNOWN
  · have hnone : msg_in.request = none := by simp [Message.request, hunknown]
    rw [if_pos hunknown, hnone]
    exact Or.inr (meets_ignore false)
  by_cases hdisconnect : msg_in.type = .DISCONNECT
  · have hleave : msg_in.request = some .disconnect := by simp [Message.request, hdisconnect]
    rw [if_neg hunknown, if_pos hdisconnect, hleave]
    exact Or.inr (meets_leave hserver)
  by_cases hidentify : msg_in.type = .IDENTIFY
  · rw [if_neg hunknown, if_neg hdisconnect, if_pos hidentify]
    right
    cases hrequested : msg_in.username with
    | none =>
      have hnone : msg_in.request = none := by simp [Message.request, hidentify, hrequested]
      rw [hnone, identify_reaction, hrequested]
      exact meets_ignore false
    | some requested =>
      have hname : msg_in.request = some (.identify (requested.cut 8)) := by
        simp [Message.request, hidentify, hrequested]
      rw [hname]
      exact meets_identify hserver hrequested
  obtain ⟨request, hrequest, hplain⟩ := exists_plain_request hunknown hdisconnect hidentify
  rw [if_neg hunknown, if_neg hdisconnect, if_neg hidentify, hrequest, Option.elim_some]
  cases hfound : server.users.find_by_client_fd client_fd with
  | none =>
    have hprofile : server.chat.profile client_fd = none := by simp only [Server.chat, hfound, Option.map_none]
    rw [Chat.serve_unknown hplain hprofile]
    exact Or.inr (meets_refuse hserver rfl)
  | some user =>
    obtain ⟨huser, rfl⟩ := hserver.users.find_by_client_fd_iff.mp hfound
    rw [Chat.serve_known hplain (hserver.profile_of_mem huser)]
    exact meets_registered hserver huser hrequest hplain

end Requests

section Events

variable {server : Server} {trace : List Effect} {event : Event}

/-- What the chat makes of an event. -/
noncomputable def Event.outcome (event : Event) (chat : Chat Fd CString CString UserStatus) :
    Chat Fd CString CString UserStatus × (Fd → List (Notice CString CString UserStatus CString)) :=
  event.sent.elim (chat, to_nobody) fun sent => chat.serve chat_rules sent.1 sent.2

/-- Every event does what the chat says, unless a field is missing. -/
theorem event_meets (hserver : server.Consistent) (event : Event) :
    event.reaction server = .crash ∨
      (event.reaction server).Meets event.client_fd server (event.outcome server.chat) := by
  cases event with
  | accept client_fd => exact Or.inr (meets_ignore true)
  | invalid client_fd => exact Or.inr (meets_refuse hserver rfl)
  | request client_fd msg_in =>
    have houtcome : (Event.request client_fd msg_in).outcome server.chat =
        msg_in.request.elim (server.chat, to_nobody) (server.chat.serve chat_rules client_fd) := by
      cases hrequest : msg_in.request <;> simp [Event.outcome, Event.sent, hrequest]
    rw [houtcome]
    exact reaction_meets hserver

/-- One event does what the chat says. -/
theorem served_meets (hserver : server.Consistent) {after : World}
    (hserved : Served reliable (.idle server trace) event after) :
    after.server.chat = (event.outcome server.chat).1 ∧ ∃ effects, after.trace = trace ++ effects ∧
      ∀ fd, List.Forall₂ Notice.Spelled ((event.outcome server.chat).2 fd) (received fd effects) := by
  rcases served_cases hserver hserved with ⟨client_fd, rfl, rfl⟩ | ⟨answer, hok⟩
  · exact ⟨rfl, [.accept client_fd], rfl, fun _ => .nil⟩
  · rcases event_meets hserver event with hcrash | hmeets
    · rw [hcrash] at hok
      cases hok
    · obtain ⟨_, later, effects, hperform, hchat, hheard⟩ := hmeets trace
      rw [hperform] at hok
      cases hok
      exact ⟨hchat, effects, rfl, hheard⟩

/-- On a network that delivers, only a field that is missing keeps an event from
being served. -/
theorem exists_served (hserver : server.Consistent) (trace : List Effect) (event : Event) :
    (∃ after, Served reliable (.idle server trace) event after) ∨
      UsesAbsentField server event.client_fd event.message := by
  rcases event_meets hserver event with hcrash | hmeets
  · have hpermitted := event.permitted hserver
    rw [hcrash] at hpermitted
    cases hpermitted with
    | crash habsent => exact Or.inr habsent
  · obtain ⟨answer, after, effects, hperform, -⟩ := hmeets trace
    left
    cases event with
    | accept client_fd => exact ⟨_, rfl⟩
    | invalid client_fd => exact ⟨_, run_handle_invalid_line hserver⟩
    | request client_fd msg_in =>
      refine ⟨.idle after (trace ++ effects), ?_⟩
      have hprocess := run_message_handler_process reliable server trace client_fd msg_in hserver
      have hreaction : (reaction server client_fd msg_in).perform reliable client_fd server trace = _ := hperform
      simp only [Served, serve, Program.run_bind, hprocess, hreaction]
      rfl

theorem requests_cons (history : List (World × Event)) (world : World) (event : Event) :
    requests ((world, event) :: history) = requests history ++ event.sent.toList := by
  rw [requests, List.reverse_cons, List.filterMap_append]
  cases hsent : event.sent with
  | none => simp [hsent, requests]
  | some sent => simp [hsent, requests]

end Events

/-- On a network that delivers, the server is the chat: its tables mean what the
requests make of an empty chat, every client has received what the chat tells him
and nothing else, and the next event is served unless it uses a field that it
lacks. -/
theorem server_keeps_to_the_chat {history : List (World × Event)} {world : World}
    (hrun : ServerRun reliable history world) :
    world.server.chat = (Chat.serve_all chat_rules (requests history)).1 ∧
      (∀ fd, List.Forall₂ Notice.Spelled ((Chat.serve_all chat_rules (requests history)).2 fd)
        (received fd world.trace)) ∧
      ∀ event, (∃ after, Served reliable world event after) ∨
        UsesAbsentField world.server event.client_fd event.message := by
  obtain ⟨hidle, hserver⟩ := run_ready hrun
  suffices hkept : world.server.chat = (Chat.serve_all chat_rules (requests history)).1 ∧
      ∀ fd, List.Forall₂ Notice.Spelled ((Chat.serve_all chat_rules (requests history)).2 fd)
        (received fd world.trace) by
    exact ⟨hkept.1, hkept.2, fun event => hidle ▸ exists_served hserver world.trace event⟩
  clear hidle hserver
  refine hrun.history_invariant (I := fun history world =>
    world.server.chat = (Chat.serve_all chat_rules (requests history)).1 ∧
      ∀ fd, List.Forall₂ Notice.Spelled ((Chat.serve_all chat_rules (requests history)).2 fd)
        (received fd world.trace)) ⟨chat_init, fun _ => .nil⟩ ?_
  rintro history before event after hprefix ⟨hchat, hheard⟩ hserved
  obtain ⟨hidle, hserver⟩ := run_ready hprefix
  rw [hidle] at hserved
  obtain ⟨hlater, effects, htrace, htold⟩ := served_meets hserver hserved
  rw [hchat] at hlater htold
  rw [requests_cons, htrace]
  unfold Event.outcome at hlater htold
  cases hsent : event.sent with
  | none =>
    rw [hsent] at hlater htold
    rw [Option.toList_none, List.append_nil]
    refine ⟨hlater, fun fd => ?_⟩
    rw [received_append, ← List.append_nil ((Chat.serve_all chat_rules (requests history)).2 fd)]
    exact List.rel_append (hheard fd) (htold fd)
  | some sent =>
    rw [hsent] at hlater htold
    rw [Option.toList_some, ← Prod.eta sent, Chat.serve_all_append]
    refine ⟨hlater, fun fd => ?_⟩
    rw [received_append]
    exact List.rel_append (hheard fd) (htold fd)

/-- A meeting to which somebody comes under a name that is taken, and from which the
other member of the room goes after a text to it. -/
def eventful_meeting : List Event :=
  [.accept 4, .accept 5] ++ meeting ++ [
    .accept 6,
    .request 6 { message_init with type := .IDENTIFY, username := some (.lit "luis") },
    .request 5 { message_init with
      type := .ROOM_TEXT, roomname := some (.lit "sala"), text := some (.lit "hola") },
    .request 5 { message_init with type := .DISCONNECT }]

/-- Two connections are closed in it. -/
theorem server_keeps_to_the_chat_in_meeting :
    ∃ history world, ServerRun reliable history world ∧ history.length = 11 ∧ closed world.trace = [6, 5] ∧
      world.server.Registered 4 (.lit "ana") ∧
      world.server.chat = (Chat.serve_all chat_rules (requests history)).1 ∧
      (∀ fd, List.Forall₂ Notice.Spelled ((Chat.serve_all chat_rules (requests history)).2 fd)
        (received fd world.trace)) ∧
      ∀ event, (∃ after, Served reliable world event after) ∨
        UsesAbsentField world.server event.client_fd event.message := by
  obtain ⟨history, world, hrun, htest⟩ := exists_run_of_serve_all reliable eventful_meeting
    (fun history world => decide (history.length = 11) && decide (closed world.trace = [6, 5]) &&
      decide (world.server.Registered 4 (.lit "ana")))
    (by decide +kernel)
  simp only [Bool.and_eq_true, decide_eq_true_eq] at htest
  obtain ⟨⟨hlength, hclosed⟩, hregistered⟩ := htest
  exact ⟨history, world, hrun, hlength, hclosed, hregistered, server_keeps_to_the_chat hrun⟩

end ojalvo
