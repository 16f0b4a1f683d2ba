import OjalvoChat.Protocol.Arrivals

namespace ojalvo

mutual

/-- The strings in a value, with the names of the fields. -/
def CJson.strings (value : CJson) : List CString :=
  match value with
  | .string valuestring => [valuestring]
  | .array items => item_strings items
  | .object fields => field_strings fields
  | _ => []

def item_strings (items : List CJson) : List CString :=
  match items with
  | [] => []
  | item :: rest => item.strings ++ item_strings rest

def field_strings (fields : List (CString × CJson)) : List CString :=
  match fields with
  | [] => []
  | (name, value) :: rest => name :: value.strings ++ field_strings rest

end

/-- The strings in the fields of a message. -/
def Message.strings (msg : Message) : List CString :=
  msg.username.toList ++ msg.operation.toList ++ msg.result.toList ++ msg.extra.toList ++ msg.status.toList ++
    (match msg.users with
    | none => []
    | some users => users.strings) ++
    msg.text.toList ++ msg.roomname.toList ++ msg.usernames.getD []

/-- The messages that the server composes, from texts that have a property. -/
inductive Spoken (P : CString → Prop) : Message → Prop where
  | reply (operation result : CString) (extra : Option CString) (hoperation : P operation) (hresult : P result)
    (hextra : ∀ text ∈ extra, P text) : Spoken P (response operation result extra)
  | new_user (username : CString) (husername : P username) : Spoken P (new_user_notice username)
  | new_status (username status : CString) (husername : P username) (hstatus : P status) :
    Spoken P (new_status_notice username status)
  | user_list (contents : UsersTable) (hindexed : contents.Indexed) (husers : ∀ user ∈ contents, P user.username)
    (hstatuses : ∀ status, P (user_status_to_string status)) : Spoken P (user_list_message contents)
  | text_from (username text : CString) (husername : P username) (htext : P text) :
    Spoken P (text_from_notice username text)
  | public_text_from (username text : CString) (husername : P username) (htext : P text) :
    Spoken P (public_text_from_notice username text)
  | invitation (username roomname : CString) (husername : P username) (hroomname : P roomname) :
    Spoken P (invitation_notice username roomname)
  | joined_room (roomname username : CString) (hroomname : P roomname) (husername : P username) :
    Spoken P (joined_room_notice roomname username)
  | room_user_list (roomname : CString) (contents : UsersTable) (hroomname : P roomname) (hindexed : contents.Indexed)
    (husers : ∀ user ∈ contents, P user.username) (hstatuses : ∀ status, P (user_status_to_string status)) :
    Spoken P (room_user_list_message roomname contents)
  | room_text_from (roomname username text : CString) (hroomname : P roomname) (husername : P username)
    (htext : P text) : Spoken P (room_text_from_notice roomname username text)
  | left_room (roomname username : CString) (hroomname : P roomname) (husername : P username) :
    Spoken P (left_room_notice roomname username)
  | disconnected (username : CString) (husername : P username) : Spoken P (disconnected_notice username)

section Strings

variable {P : CString → Prop} {message : Message}

/-- The strings of a response are its three texts. -/
theorem strings_response (operation result : CString) (extra : Option CString) :
    (response operation result extra).strings = operation :: result :: extra.toList := by
  cases extra <;> rfl

/-- The strings of a user list are the names of the users and their statuses. -/
theorem strings_users_object (contents : UsersTable) :
    (users_object contents).strings =
      contents.entries.flatMap fun user => [user.username, user_status_to_string user.status] := by
  rw [users_object_eq, CJson.strings]
  induction contents.entries with
  | nil => rfl
  | cons user rest ih => simp [field_strings, CJson.strings, ih]

/-- A user list says what is true of all names and of all statuses. -/
theorem forall_strings_users_object {contents : UsersTable} (hindexed : contents.Indexed)
    (husers : ∀ user ∈ contents, P user.username) (hstatuses : ∀ status, P (user_status_to_string status)) :
    ∀ text ∈ (users_object contents).strings, P text := by
  rw [strings_users_object]
  intro text hmem
  obtain ⟨user, huser, htext⟩ := List.mem_flatMap.mp hmem
  rcases List.mem_pair.mp htext with rfl | rfl
  · exact husers user (hindexed.mem_entries.mp huser)
  · exact hstatuses user.status

/-- All strings of such a message have the property. -/
theorem Spoken.strings (hspoken : Spoken P message) : ∀ text ∈ message.strings, P text := by
  cases hspoken with
  | user_list contents hindexed husers hstatuses =>
    have hobject := forall_strings_users_object hindexed husers hstatuses
    simpa [Message.strings, user_list_message, message_init] using hobject
  | room_user_list roomname contents hroomname hindexed husers hstatuses =>
    have hobject := forall_strings_users_object hindexed husers hstatuses
    simp only [Message.strings, room_user_list_message, message_init, Option.toList_none, List.nil_append,
      Option.getD_none, List.append_nil, List.forall_mem_append, Option.toList_some, List.forall_mem_singleton]
    exact ⟨hobject, hroomname⟩
  | reply operation result extra hoperation hresult hextra =>
    rw [strings_response, List.forall_mem_cons, List.forall_mem_cons]
    exact ⟨hoperation, hresult, fun text hmem => hextra text (Option.mem_toList.mp hmem)⟩
  | _ => simp_all [Message.strings, new_user_notice, new_status_notice, text_from_notice, public_text_from_notice,
      invitation_notice, joined_room_notice, room_text_from_notice, left_room_notice, disconnected_notice, message_init]

end Strings

/-- The texts that a request can make the server use have a property: those of the
source, the names of the users, the fields of the request, and the names in it that
are cut. -/
structure Repeatable (P : CString → Prop) (server : Server) (client_fd : Fd) (msg_in : Message) : Prop where
  literals : ∀ text : String, P (.lit text)
  users : ∀ user ∈ server.users, P user.username
  fields : ∀ text ∈ msg_in.strings, P text
  identified : msg_in.type = .IDENTIFY → server.users.find_by_client_fd client_fd = none →
    ∀ requested, msg_in.username = some requested → P (requested.cut 8)
  created : ∀ user, msg_in.type = .NEW_ROOM → server.Sender client_fd user →
    ∀ requested, msg_in.roomname = some requested → P (requested.cut 16)

/-- A reply or a refusal is composed from texts with a property. -/
def Reaction.Speaks (P : CString → Prop) (reaction : Reaction) : Prop :=
  ∀ message, reaction.verdict = some message → Spoken P message

/-- A reaction with nothing to send says nothing wrong. -/
theorem speaks_of_silent {P : CString → Prop} {reaction : Reaction} (hsilent : reaction.verdict = none) :
    reaction.Speaks P := by
  intro message hverdict
  cases hsilent.symm.trans hverdict

section Verdicts

variable {P : CString → Prop} {server : Server} {client_fd : Fd} {msg_in : Message}
  (hrepeatable : Repeatable P server client_fd msg_in)
include hrepeatable

/-- Every status that a user can have may be repeated. -/
theorem Repeatable.status (status : UserStatus) : P (user_status_to_string status) := by
  cases status <;> exact hrepeatable.literals _

/-- The name in a request may be repeated. -/
theorem Repeatable.username {username : CString} (husername : msg_in.username = some username) : P username :=
  hrepeatable.fields username (by simp [Message.strings, husername])

/-- The room in a request may be repeated. -/
theorem Repeatable.roomname {roomname : CString} (hroomname : msg_in.roomname = some roomname) : P roomname :=
  hrepeatable.fields roomname (by simp [Message.strings, hroomname])

/-- The text in a request may be repeated. -/
theorem Repeatable.text {text : CString} (htext : msg_in.text = some text) : P text :=
  hrepeatable.fields text (by simp [Message.strings, htext])

/-- A response with words of the protocol may be said if its third text may. -/
theorem Repeatable.response (operation result : String) {extra : Option CString} (hextra : ∀ text ∈ extra, P text) :
    Spoken P (response (.lit operation) (.lit result) extra) :=
  .reply _ _ extra (hrepeatable.literals operation) (hrepeatable.literals result) hextra

/-- A reply with words of the protocol may be said if its third text may. -/
theorem speaks_reply_response (fd : Fd) (operation result : String) {extra : CString} (hextra : P extra) :
    (Reaction.reply fd (response (.lit operation) (.lit result) extra)).Speaks P := by
  intro message hverdict
  cases hverdict
  refine hrepeatable.response operation result fun text hmem => ?_
  cases hmem
  exact hextra

theorem speaks_refuse_invalid : (Reaction.refuse invalid_response).Speaks P := by
  intro message hverdict
  cases hverdict
  exact hrepeatable.response "INVALID" "INVALID" nofun

/-- The answers to IDENTIFY repeat the requested name at most. -/
theorem identify_reaction_speaks (htype : msg_in.type = .IDENTIFY) :
    (identify_reaction server client_fd msg_in).Speaks P := by
  unfold identify_reaction
  cases husername : msg_in.username with
  | none => exact speaks_of_silent rfl
  | some requested =>
    dsimp only
    split
    · split
      · exact speaks_refuse_invalid hrepeatable
      · exact speaks_of_silent rfl
    · rename_i hunknown htaken
      split
      · intro message hverdict
        cases hverdict
        refine hrepeatable.response "IDENTIFY" "USER_ALREADY_EXISTS" fun text hmem => ?_
        cases hmem
        exact hrepeatable.identified htype hunknown requested husername
      · exact speaks_of_silent rfl
    · split <;> exact speaks_of_silent rfl

/-- The notice of a new status repeats the name of the user and a status. -/
theorem status_reaction_speaks (user : User) : (status_reaction user msg_in).Speaks P := by
  unfold status_reaction
  split
  · exact speaks_of_silent rfl
  · split
    · exact speaks_refuse_invalid hrepeatable
    · split <;> exact speaks_of_silent rfl

/-- A private text is passed on with the name of its sender, or refused with the
name of its addressee. -/
theorem text_reaction_speaks {user : User} (hsender : server.Sender client_fd user) :
    (text_reaction server user msg_in).Speaks P := by
  unfold text_reaction
  cases husername : msg_in.username with
  | none => exact speaks_of_silent rfl
  | some username =>
    dsimp only
    split
    · exact speaks_reply_response hrepeatable _ "TEXT" "NO_SUCH_USER" (hrepeatable.username husername)
    · split
      · exact speaks_of_silent rfl
      · cases htext : msg_in.text with
        | none => exact speaks_of_silent rfl
        | some text =>
          intro message hverdict
          cases hverdict
          exact .text_from _ _ (hrepeatable.users user hsender.registered) (hrepeatable.text htext)

/-- The answers to NEW_ROOM repeat the requested name, cut or not. -/
theorem new_room_reaction_speaks {user : User} (htype : msg_in.type = .NEW_ROOM)
    (hsender : server.Sender client_fd user) : (new_room_reaction server user msg_in).Speaks P := by
  unfold new_room_reaction
  cases hroomname : msg_in.roomname with
  | none => exact speaks_of_silent rfl
  | some requested =>
    have hcut := hrepeatable.created user htype hsender requested hroomname
    dsimp only
    split
    · exact speaks_reply_response hrepeatable _ "NEW_ROOM" "ROOM_ALREADY_EXISTS" hcut
    · exact speaks_of_silent rfl
    · split <;> exact speaks_of_silent rfl

/-- An invitation repeats names and the room, a refusal the first name that nobody
has. -/
theorem invite_reaction_speaks (user : User) : (invite_reaction server user msg_in).Speaks P := by
  unfold invite_reaction
  cases hroomname : msg_in.roomname with
  | none => exact speaks_of_silent rfl
  | some roomname =>
    cases husernames : msg_in.usernames with
    | none => exact speaks_of_silent rfl
    | some usernames =>
      dsimp only
      split
      · exact speaks_reply_response hrepeatable _ "INVITE" "NO_SUCH_ROOM" (hrepeatable.roomname hroomname)
      · split
        · split
          · rename_i missing hmissing
            obtain ⟨known, rest, hsplit, -, -⟩ := exists_of_invited_records_error hmissing
            have hlisted : missing ∈ usernames := hsplit ▸ List.mem_append_cons_self
            exact speaks_reply_response hrepeatable _ "INVITE" "NO_SUCH_USER"
              (hrepeatable.fields missing (by simp [Message.strings, husernames, hlisted]))
          · exact speaks_of_silent rfl
        · exact speaks_refuse_invalid hrepeatable

/-- The tests that the requests for a room share repeat the name of the room. -/
theorem room_reaction_speaks (user : User) (operation : String) {react : CString → Room → Reaction}
    (hreact : ∀ roomname room, P roomname → server.rooms.lookup roomname = some room →
      (react roomname room).Speaks P) :
    (room_reaction server user (.lit operation) msg_in.roomname react).Speaks P := by
  unfold room_reaction
  cases hroomname : msg_in.roomname with
  | none => exact speaks_of_silent rfl
  | some roomname =>
    dsimp only
    split
    · exact speaks_reply_response hrepeatable _ operation "NO_SUCH_ROOM" (hrepeatable.roomname hroomname)
    · rename_i room hroom
      exact hreact roomname room (hrepeatable.roomname hroomname) hroom

/-- The answers to JOIN_ROOM and the notice of it repeat the room and the name of
the user. -/
theorem join_room_reaction_speaks (user : User) : (join_room_reaction server user msg_in).Speaks P := by
  refine room_reaction_speaks hrepeatable user "JOIN_ROOM" fun roomname room hroomname hroom => ?_
  split
  · exact speaks_of_silent rfl
  · split
    · exact speaks_of_silent rfl
    · exact speaks_reply_response hrepeatable _ "JOIN_ROOM" "NOT_INVITED" hroomname

/-- The list of a room repeats names of registered users, for its members are
registered. -/
theorem room_users_reaction_speaks (hserver : server.Consistent) (user : User) :
    (room_users_reaction server user msg_in).Speaks P := by
  refine room_reaction_speaks hrepeatable user "ROOM_USERS" fun roomname room hroomname hroom => ?_
  split
  · have hcopies := hserver.rooms roomname room hroom
    have hmembers := fun member hmem => hrepeatable.users member (hcopies.members_users member hmem)
    intro message hverdict
    cases hverdict
    exact .room_user_list roomname room.members hroomname hcopies.members hmembers hrepeatable.status
  · exact speaks_reply_response hrepeatable _ "ROOM_USERS" "NOT_JOINED" hroomname

/-- A text to a room is passed on with the room and the name of its sender. -/
theorem room_text_reaction_speaks (user : User) : (room_text_reaction server user msg_in).Speaks P := by
  unfold room_text_reaction
  split
  · exact speaks_of_silent rfl
  · refine room_reaction_speaks hrepeatable user "ROOM_TEXT" fun roomname room hroomname hroom => ?_
    split
    · exact speaks_of_silent rfl
    · exact speaks_reply_response hrepeatable _ "ROOM_TEXT" "NOT_JOINED" hroomname

/-- The notice of a member who leaves repeats the room and the name. -/
theorem leave_room_reaction_speaks (user : User) : (leave_room_reaction server user msg_in).Speaks P := by
  refine room_reaction_speaks hrepeatable user "LEAVE_ROOM" fun roomname room hroomname hroom => ?_
  split
  · exact speaks_of_silent rfl
  · exact speaks_reply_response hrepeatable _ "LEAVE_ROOM" "NOT_JOINED" hroomname

/-- Whatever a registered client asks for, the reaction repeats what may be
repeated. -/
theorem registered_reaction_speaks (hserver : server.Consistent) {user : User}
    (hsender : server.Sender client_fd user) : (registered_reaction server user msg_in).Speaks P := by
  unfold registered_reaction
  cases htype : msg_in.type
  case STATUS => exact status_reaction_speaks hrepeatable user
  case USERS =>
    intro message hverdict
    cases hverdict
    exact .user_list server.users hserver.users hrepeatable.users hrepeatable.status
  case TEXT => exact text_reaction_speaks hrepeatable hsender
  case PUBLIC_TEXT =>
    change (public_text_reaction user msg_in).Speaks P
    unfold public_text_reaction
    split <;> exact speaks_of_silent rfl
  case NEW_ROOM => exact new_room_reaction_speaks hrepeatable htype hsender
  case INVITE => exact invite_reaction_speaks hrepeatable user
  case JOIN_ROOM => exact join_room_reaction_speaks hrepeatable user
  case ROOM_USERS => exact room_users_reaction_speaks hrepeatable hserver user
  case ROOM_TEXT => exact room_text_reaction_speaks hrepeatable user
  case LEAVE_ROOM => exact leave_room_reaction_speaks hrepeatable user
  all_goals exact speaks_of_silent rfl

/-- Whoever asks and for whatever, the reaction repeats what may be repeated. -/
theorem reaction_speaks (hserver : server.Consistent) : (reaction server client_fd msg_in).Speaks P := by
  unfold reaction
  split
  · exact speaks_of_silent rfl
  · split
    · exact speaks_of_silent rfl
    · split
      · rename_i hidentify
        exact identify_reaction_speaks hrepeatable hidentify
      · split
        · intro message hverdict
          cases hverdict
          exact hrepeatable.response "INVALID" "NOT_IDENTIFIED" nofun
        · rename_i user hfound
          obtain ⟨hregistered, hconnected⟩ := hserver.users.find_by_client_fd_iff.mp hfound
          exact registered_reaction_speaks hrepeatable hserver ⟨hregistered, hconnected⟩

end Verdicts

section Spoken

variable {P : CString → Prop} {server : Server} {event : Event}

/-- Also a line that is no message only brings words of the protocol. -/
theorem Event.reaction_speaks (hrepeatable : Repeatable P server event.client_fd event.message)
    (hserver : server.Consistent) : (event.reaction server).Speaks P := by
  cases event with
  | accept client_fd => exact speaks_of_silent rfl
  | request client_fd msg_in => exact ojalvo.reaction_speaks hrepeatable hserver
  | invalid client_fd => exact speaks_refuse_invalid hrepeatable

/-- The server says nothing that is not in its vocabulary. -/
theorem Event.spoken_of_sends (hrepeatable : Repeatable P server event.client_fd event.message)
    (hserver : server.Consistent) {message : Message} (hsends : (event.reaction server).Sends server message) :
    Spoken P message := by
  have hpermitted := event.permitted hserver
  have hspeaks := event.reaction_speaks hrepeatable hserver
  generalize hreaction : event.reaction server = reaction at hpermitted hspeaks hsends
  have hregister : ∀ user, reaction = .register user → P user.username := by
    rintro user rfl
    cases event with
    | accept client_fd => cases hreaction
    | invalid client_fd => cases hreaction
    | request client_fd msg_in =>
      obtain ⟨hunknown, -, htype, requested, husername, hname⟩ := identify_of_register hserver hreaction
      rw [hname]
      exact hrepeatable.identified htype hunknown requested husername
  cases hsends with
  | verdict _ _ hverdict => exact hspeaks message hverdict
  | farewell _ fd user hfound =>
    exact .disconnected _ (hrepeatable.users user (hserver.users.find_by_client_fd_iff.mp hfound).1)
  | unregistered user fd found hfound =>
    cases hpermitted with
    | register _ hfd hactive hname hunknown =>
      have hfresh := hserver.users.find_by_username_eq_none_iff.mp hname
      have hthere := ((hserver.register hname hunknown).users.find_by_client_fd_iff.mp hfound).1
      rcases (UsersTable.mem_add hserver.users hfresh).mp hthere with rfl | hold
      · exact .disconnected _ (hregister _ rfl)
      · exact .disconnected _ (hrepeatable.users found hold)
  | registered user =>
    refine hrepeatable.response "IDENTIFY" "SUCCESS" fun text hmem => ?_
    cases hmem
    exact hregister user rfl
  | new_user user => exact .new_user _ (hregister user rfl)
  | new_status user status text =>
    cases hpermitted with
    | set_status _ _ _ htype hsender hread hchange =>
      rw [← user_status_to_string_of_from_string hread]
      exact .new_status _ _ (hrepeatable.users user hsender.registered) (hrepeatable.status status)
  | published message =>
    cases hpermitted with
    | publish user text htype hsender htext =>
      exact .public_text_from _ _ (hrepeatable.users user hsender.registered) (hrepeatable.text htext)
  | created room creator =>
    cases hpermitted with
    | create _ requested named htype hsender hroomname hfree =>
      refine hrepeatable.response "NEW_ROOM" "SUCCESS" fun text hmem => ?_
      cases hmem
      exact hrepeatable.created creator htype hsender requested hroomname
  | invited roomname invited_users invitation =>
    cases hpermitted with
    | invite user _ room usernames _ htype hsender hroomname husernames hroom hmember hinvited =>
      exact .invitation _ _ (hrepeatable.users user hsender.registered) (hrepeatable.roomname hroomname)
  | let_in roomname user =>
    cases hpermitted with
    | join _ _ room htype hsender hroomname hroom houtside hguest =>
      refine hrepeatable.response "JOIN_ROOM" "SUCCESS" fun text hmem => ?_
      cases hmem
      exact hrepeatable.roomname hroomname
  | joined roomname user =>
    cases hpermitted with
    | join _ _ room htype hsender hroomname hroom houtside hguest =>
      exact .joined_room _ _ (hrepeatable.roomname hroomname) (hrepeatable.users user hsender.registered)
  | told roomname message =>
    cases hpermitted with
    | tell_room user _ room text htype hsender hroomname hroom hmember htext =>
      exact .room_text_from _ _ _ (hrepeatable.roomname hroomname) (hrepeatable.users user hsender.registered)
        (hrepeatable.text htext)
  | left roomname user =>
    cases hpermitted with
    | quit _ _ room htype hsender hroomname hroom hmember =>
      exact .left_room _ _ (hrepeatable.roomname hroomname) (hrepeatable.users user hsender.registered)

/-- Everything that is sent while an event is served repeats what may be repeated.
-/
theorem serve_speaks (net : Net) (trace : List Effect) (hserver : server.Consistent)
    (hrepeatable : Repeatable P server event.client_fd event.message) :
    ∃ effects, (final_world ((serve net event).run (.idle server trace))).trace = trace ++ effects ∧
      ∀ fd message sent, Effect.send fd message sent ∈ effects → Spoken P message := by
  obtain ⟨effects, htrace, hsends⟩ := serve_sends net trace hserver event
  exact ⟨effects, htrace, fun fd message sent hmem =>
    event.spoken_of_sends hrepeatable hserver (hsends fd message sent hmem)⟩

end Spoken

end ojalvo
