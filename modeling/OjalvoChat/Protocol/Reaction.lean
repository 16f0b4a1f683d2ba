import OjalvoChat.MessageHandler.Process
import OjalvoChat.MessageHandler.Departure

namespace ojalvo

/-- What the protocol makes of one request, without locks, copies or
allocations. -/
inductive Reaction where
  /-- Nothing happens besides the returned value. -/
  | ignore (answer : Bool)
  /-- A field that the request lacks is used. -/
  | crash
  /-- One message; the requester departs when it cannot be sent. -/
  | reply (fd : Fd) (message : Message)
  /-- One message to the requester, who departs. -/
  | refuse (message : Message)
  | leave
  | register (user : User)
  | set_status (user : User) (status : UserStatus) (text : CString)
  | publish (message : Message)
  | create (room : Room) (creator : User)
  | invite (roomname : CString) (invited_users : List User) (invitation : Message)
  | join (roomname : CString) (user : User)
  | tell_room (roomname : CString) (message : Message)
  | quit (roomname : CString) (user : User)

def text_from_notice (username text : CString) : Message :=
  { message_init with type := .TEXT_FROM, username := some username, text := some text }

def public_text_from_notice (username text : CString) : Message :=
  { message_init with type := .PUBLIC_TEXT_FROM, username := some username, text := some text }

def room_text_from_notice (roomname username text : CString) : Message :=
  { message_init with
    type := .ROOM_TEXT_FROM, roomname := some roomname, username := some username, text := some text }

def new_user_notice (username : CString) : Message :=
  { message_init with type := .NEW_USER, username := some username }

def new_status_notice (username status : CString) : Message :=
  { message_init with type := .NEW_STATUS, username := some username, status := some status }

def invitation_notice (username roomname : CString) : Message :=
  { message_init with type := .INVITATION, username := some username, roomname := some roomname }

def joined_room_notice (roomname username : CString) : Message :=
  { message_init with type := .JOINED_ROOM, roomname := some roomname, username := some username }

def left_room_notice (roomname username : CString) : Message :=
  { message_init with type := .LEFT_ROOM, roomname := some roomname, username := some username }

def users_object (contents : UsersTable) : CJson := contents.entries.foldl add_user_to_object cJSON_CreateObject

/-- The fields of a user list, in the order of a traversal. -/
theorem users_object_eq (users : UsersTable) :
    users_object users =
      .object (users.entries.map fun user => (user.username, .string (user_status_to_string user.status))) := by
  have hfold : ∀ (entries : List User) (fields : List (CString × CJson)),
      entries.foldl add_user_to_object (.object fields) =
        .object (fields ++ entries.map fun user => (user.username, .string (user_status_to_string user.status))) := by
    intro entries
    induction entries with
    | nil => simp
    | cons user rest ih =>
      intro fields
      simp [add_user_to_object, cJSON_AddStringToObject, cJSON_AddItemToObject, ih]
  simpa [users_object, cJSON_CreateObject] using hfold users.entries []

def user_list_message (contents : UsersTable) : Message :=
  { message_init with type := .USER_LIST, users := some (users_object contents) }

def room_user_list_message (roomname : CString) (contents : UsersTable) : Message :=
  { message_init with type := .ROOM_USER_LIST, roomname := some roomname, users := some (users_object contents) }

section Folds

variable (username text roomname status : CString) (contents : UsersTable)

@[simp] theorem text_from_notice_fold :
    { message_init with type := .TEXT_FROM, username := some username, text := some text } =
      text_from_notice username text := rfl

@[simp] theorem public_text_from_notice_fold :
    { message_init with type := .PUBLIC_TEXT_FROM, username := some username, text := some text } =
      public_text_from_notice username text := rfl

@[simp] theorem room_text_from_notice_fold :
    { message_init with
      type := .ROOM_TEXT_FROM, roomname := some roomname, username := some username, text := some text } =
      room_text_from_notice roomname username text := rfl

@[simp] theorem new_user_notice_fold :
    { message_init with type := .NEW_USER, username := some username } = new_user_notice username := rfl

@[simp] theorem new_status_notice_fold :
    { message_init with type := .NEW_STATUS, username := some username, status := some status } =
      new_status_notice username status := rfl

@[simp] theorem invitation_notice_fold :
    { message_init with type := .INVITATION, username := some username, roomname := some roomname } =
      invitation_notice username roomname := rfl

@[simp] theorem joined_room_notice_fold :
    { message_init with type := .JOINED_ROOM, roomname := some roomname, username := some username } =
      joined_room_notice roomname username := rfl

@[simp] theorem left_room_notice_fold :
    { message_init with type := .LEFT_ROOM, roomname := some roomname, username := some username } =
      left_room_notice roomname username := rfl

@[simp] theorem user_list_message_fold :
    { message_init with
      type := .USER_LIST, users := some (contents.entries.foldl add_user_to_object cJSON_CreateObject) } =
      user_list_message contents := rfl

@[simp] theorem room_user_list_message_fold :
    { message_init with type := .ROOM_USER_LIST, roomname := some roomname, users := some (users_object contents) } =
      room_user_list_message roomname contents := rfl

end Folds

def identify_reaction (server : Server) (client_fd : Fd) (msg_in : Message) : Reaction :=
  match msg_in.username with
  | none => .ignore false
  | some requested =>
    let username := requested.cut 8
    match server.users.find_by_client_fd client_fd, server.users.find_by_username username with
    | some user, _ => if user.username ≠ username then .refuse invalid_response else .ignore true
    | none, some user =>
      if user.socket_fd ≠ client_fd then
        .refuse (response (.lit "IDENTIFY") (.lit "USER_ALREADY_EXISTS") username)
      else .ignore true
    | none, none =>
      match user_init username client_fd with
      | none => .ignore false
      | some user => .register user

def status_reaction (user : User) (msg_in : Message) : Reaction :=
  match msg_in.status with
  | none => .ignore false
  | some text =>
    match user_status_from_string (some text) with
    | none => .refuse invalid_response
    | some status => if user.status ≠ status then .set_status user status text else .ignore true

def text_reaction (server : Server) (user : User) (msg_in : Message) : Reaction :=
  match msg_in.username with
  | none => .crash
  | some username =>
    match server.users.find_by_username username with
    | none => .reply user.socket_fd (response (.lit "TEXT") (.lit "NO_SUCH_USER") username)
    | some user_to =>
      if user.username = user_to.username then .ignore true
      else
        match msg_in.text with
        | none => .crash
        | some text => .reply user_to.socket_fd (text_from_notice user.username text)

def public_text_reaction (user : User) (msg_in : Message) : Reaction :=
  match msg_in.text with
  | none => .crash
  | some text => .publish (public_text_from_notice user.username text)

def new_room_reaction (server : Server) (user : User) (msg_in : Message) : Reaction :=
  match msg_in.roomname with
  | none => .ignore false
  | some requested =>
    let roomname := requested.cut 16
    match server.rooms.lookup requested, server.rooms.lookup roomname with
    | some _, _ => .reply user.socket_fd (response (.lit "NEW_ROOM") (.lit "ROOM_ALREADY_EXISTS") roomname)
    | none, some _ => .ignore false
    | none, none =>
      if h : 0 < strlen roomname ∧ strlen roomname ≤ ROOM_ROOMNAME_MAX_LENGTH then .create (room_new roomname h) user
      else .ignore false

/-- The records of all listed users, or the first name that nobody has. -/
def invited_records (server : Server) (usernames : List CString) : Except CString (List User) :=
  match usernames with
  | [] => .ok []
  | username :: rest =>
    match server.users.find_by_username username with
    | none => .error username
    | some user => (invited_records server rest).map fun users => user :: users

def invite_reaction (server : Server) (user : User) (msg_in : Message) : Reaction :=
  match msg_in.roomname, msg_in.usernames with
  | some roomname, some usernames =>
    match server.rooms.lookup roomname with
    | none => .reply user.socket_fd (response (.lit "INVITE") (.lit "NO_SUCH_ROOM") roomname)
    | some room =>
      if room.members.contains_by_client_fd user.socket_fd then
        match invited_records server usernames with
        | .error missing => .reply user.socket_fd (response (.lit "INVITE") (.lit "NO_SUCH_USER") missing)
        | .ok invited_users => .invite roomname invited_users (invitation_notice user.username roomname)
      else .refuse invalid_response
  | _, _ => .ignore false

/-- A request about a room, answered NO_SUCH_ROOM when there is none. -/
def room_reaction (server : Server) (user : User) (operation : CString) (roomname : Option CString)
    (react : CString → Room → Reaction) : Reaction :=
  match roomname with
  | none => .ignore false
  | some roomname =>
    match server.rooms.lookup roomname with
    | none => .reply user.socket_fd (response operation (.lit "NO_SUCH_ROOM") roomname)
    | some room => react roomname room

def join_room_reaction (server : Server) (user : User) (msg_in : Message) : Reaction :=
  room_reaction server user (.lit "JOIN_ROOM") msg_in.roomname fun roomname room =>
    if room.members.contains_by_client_fd user.socket_fd then .ignore true
    else if room.guests.contains_by_client_fd user.socket_fd then .join roomname user
    else .reply user.socket_fd (response (.lit "JOIN_ROOM") (.lit "NOT_INVITED") roomname)

def room_users_reaction (server : Server) (user : User) (msg_in : Message) : Reaction :=
  room_reaction server user (.lit "ROOM_USERS") msg_in.roomname fun roomname room =>
    if room.members.contains_by_client_fd user.socket_fd then
      .reply user.socket_fd (room_user_list_message roomname room.members)
    else .reply user.socket_fd (response (.lit "ROOM_USERS") (.lit "NOT_JOINED") roomname)

def room_text_reaction (server : Server) (user : User) (msg_in : Message) : Reaction :=
  match msg_in.text with
  | none => .ignore false
  | some text =>
    room_reaction server user (.lit "ROOM_TEXT") msg_in.roomname fun roomname room =>
      if room.members.contains_by_client_fd user.socket_fd then
        .tell_room roomname (room_text_from_notice roomname user.username text)
      else .reply user.socket_fd (response (.lit "ROOM_TEXT") (.lit "NOT_JOINED") roomname)

def leave_room_reaction (server : Server) (user : User) (msg_in : Message) : Reaction :=
  room_reaction server user (.lit "LEAVE_ROOM") msg_in.roomname fun roomname room =>
    if room.members.contains_by_client_fd user.socket_fd then .quit roomname user
    else .reply user.socket_fd (response (.lit "LEAVE_ROOM") (.lit "NOT_JOINED") roomname)

/-- The reaction to a request of a registered user. -/
def registered_reaction (server : Server) (user : User) (msg_in : Message) : Reaction :=
  match msg_in.type with
  | .STATUS => status_reaction user msg_in
  | .USERS => .reply user.socket_fd (user_list_message server.users)
  | .TEXT => text_reaction server user msg_in
  | .PUBLIC_TEXT => public_text_reaction user msg_in
  | .NEW_ROOM => new_room_reaction server user msg_in
  | .INVITE => invite_reaction server user msg_in
  | .JOIN_ROOM => join_room_reaction server user msg_in
  | .ROOM_USERS => room_users_reaction server user msg_in
  | .ROOM_TEXT => room_text_reaction server user msg_in
  | .LEAVE_ROOM => leave_room_reaction server user msg_in
  | _ => .ignore true

def reaction (server : Server) (client_fd : Fd) (msg_in : Message) : Reaction :=
  if msg_in.type = .UNKNOWN then .ignore false
  else if msg_in.type = .DISCONNECT then .leave
  else if msg_in.type = .IDENTIFY then identify_reaction server client_fd msg_in
  else
    match server.users.find_by_client_fd client_fd with
    | none => .refuse (response (.lit "INVALID") (.lit "NOT_IDENTIFIED") none)
    | some user => registered_reaction server user msg_in

end ojalvo
