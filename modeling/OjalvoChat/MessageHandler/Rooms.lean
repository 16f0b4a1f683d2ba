import OjalvoChat.MessageHandler.Users

namespace ojalvo

structure RoomVisitorContext where
  user : User
  is_in_room : Bool
  is_empty_now : Bool

def room_add_creator (room : RoomPtr) (context : RoomVisitorContext) : Action RoomVisitorContext := do
  let _ ← users_table_add_with_status (.members room) context.user.username context.user.socket_fd
    context.user.status
  return context

def room_add_to_guests (room : RoomPtr) (context : RoomVisitorContext) : Action RoomVisitorContext := do
  let _ ← users_table_add_with_status (.guests room) context.user.username context.user.socket_fd
    context.user.status
  return context

def process_new_room (net : Net) (msg_in : Message) (client_fd : Fd) : Handler Bool := do
  match msg_in.roomname with
  | none => return false
  | some roomname =>
    let rm_name ← strndup roomname 16
    match rm_name with
    | none => return false
    | some rm_name =>
      let operation ← strdup (CString.lit "NEW_ROOM")
      let extra ← strdup rm_name
      if operation.isNone ∨ extra.isNone then return false
      let exists_already ← room_table_contains roomname
      if exists_already then
        let result ← strdup (CString.lit "ROOM_ALREADY_EXISTS")
        if result.isNone then return false
        let response := { message_init with type := .RESPONSE, operation, result, extra }
        send_or_disconnect net client_fd response client_fd
      else
        let result ← strdup (CString.lit "SUCCESS")
        if result.isNone then return false
        let added ← room_table_add rm_name
        if added then
          let found ← users_table_find_by_client_fd .server_users client_fd
          match found with
          | none => return false
          | some room_creator =>
            let _ ← room_table_with rm_name room_add_creator
              { user := room_creator, is_in_room := false, is_empty_now := false }
            let response := { message_init with type := .RESPONSE, operation, result, extra }
            send_or_disconnect net client_fd response client_fd
        else return false

def room_is_a_member (room : RoomPtr) (context : RoomVisitorContext) : Action RoomVisitorContext := do
  let found ← users_table_contains_by_client_fd (.members room) context.user.socket_fd
  return if found then { context with is_in_room := true } else context

def room_is_a_guest (room : RoomPtr) (context : RoomVisitorContext) : Action RoomVisitorContext := do
  let found ← users_table_contains_by_client_fd (.guests room) context.user.socket_fd
  return if found then { context with is_in_room := true } else context

/-- The first loop of INVITE: the records of all invited users, or the first
name that nobody has. -/
def find_invited_users (usernames : List CString) : Handler (Except CString (List User)) :=
  match usernames with
  | [] => return .ok []
  | username :: rest => do
    let found ← users_table_find_by_username .server_users username
    match found with
    | none => return .error username
    | some user =>
      let others ← find_invited_users rest
      return others.map fun users => user :: users

/-- The second loop of INVITE. It answers with the value to return when it
leaves the handler early. -/
def invite_users (net : Net) (roomname : CString) (invitation : Message) (invited_users : List User) :
    Handler (Option Bool) :=
  match invited_users with
  | [] => return none
  | invited_user :: rest => do
    let context : RoomVisitorContext := { user := invited_user, is_in_room := false, is_empty_now := false }
    let context ← room_table_with roomname room_is_a_member context
    let context ← room_table_with roomname room_is_a_guest context
    if context.is_in_room then return some true
    let _ ← room_table_with roomname room_add_to_guests context
    let sent ← server_send net invited_user.socket_fd invitation
    if sent then invite_users net roomname invitation rest
    else
      let disconnected ← process_disconnect net invited_user.socket_fd
      return some disconnected

def process_invite (net : Net) (msg_in : Message) (client_fd : Fd) : Handler Bool := do
  match msg_in.roomname, msg_in.usernames with
  | some roomname, some usernames =>
    let operation ← strdup (CString.lit "INVITE")
    if operation.isNone then return false
    let room_exists ← room_table_contains roomname
    if !room_exists then
      let result ← strdup (CString.lit "NO_SUCH_ROOM")
      let extra ← strdup roomname
      if result.isNone ∨ extra.isNone then return false
      let response := { message_init with type := .RESPONSE, operation, result, extra }
      send_or_disconnect net client_fd response client_fd
    else
      let found ← users_table_find_by_client_fd .server_users client_fd
      match found with
      | none => send_invalid_and_disconnect net client_fd
      | some user_from =>
        let context ← room_table_with roomname room_is_a_member
          { user := user_from, is_in_room := false, is_empty_now := false }
        if context.is_in_room then
          let invited ← find_invited_users usernames
          match invited with
          | .error missing =>
            let result ← strdup (CString.lit "NO_SUCH_USER")
            let extra ← strdup missing
            if result.isNone ∨ extra.isNone then return false
            let response := { message_init with type := .RESPONSE, operation, result, extra }
            send_or_disconnect net client_fd response client_fd
          | .ok invited_users =>
            let username ← strdup user_from.username
            let invitation_room ← strdup roomname
            let invitation := { message_init with type := .INVITATION, username, roomname := invitation_room }
            if username.isNone ∨ invitation_room.isNone then return false
            let left ← invite_users net roomname invitation invited_users
            return left.getD true
        else send_invalid_and_disconnect net client_fd
  | _, _ => return false

def room_from_guest_to_member (room : RoomPtr) (context : RoomVisitorContext) : Action RoomVisitorContext := do
  let _ ← users_table_remove (.guests room) context.user.username
  let _ ← users_table_add_with_status (.members room) context.user.username context.user.socket_fd
    context.user.status
  return context

/-- The broadcast runs inside the visitor, so `server->rooms` stays locked. -/
def room_notify_members (net : Net) (message : Message) (client_fd : Fd) (room : RoomPtr) (_ : Unit) : Action Unit :=
  (notify_all_but_self net (.members room) message client_fd).run

def process_join_room (net : Net) (msg_in : Message) (client_fd : Fd) : Handler Bool := do
  match msg_in.roomname with
  | none => return false
  | some roomname =>
    let operation ← strdup (CString.lit "JOIN_ROOM")
    let extra ← strdup roomname
    if operation.isNone ∨ extra.isNone then return false
    let room_exists ← room_table_contains roomname
    if !room_exists then
      let result ← strdup (CString.lit "NO_SUCH_ROOM")
      if result.isNone then return false
      let response := { message_init with type := .RESPONSE, operation, result, extra }
      send_or_disconnect net client_fd response client_fd
    else
      let found ← users_table_find_by_client_fd .server_users client_fd
      match found with
      | none => send_invalid_and_disconnect net client_fd
      | some user_from =>
        let context ← room_table_with roomname room_is_a_member
          { user := user_from, is_in_room := false, is_empty_now := false }
        if context.is_in_room then return true
        let context ← room_table_with roomname room_is_a_guest context
        if context.is_in_room then
          let _ ← room_table_with roomname room_from_guest_to_member context
          let result ← strdup (CString.lit "SUCCESS")
          if result.isNone then return false
          let response := { message_init with type := .RESPONSE, operation, result, extra }
          let sent ← server_send net client_fd response
          if sent then
            let joined_name ← strdup roomname
            let username ← strdup user_from.username
            let joined_room := { message_init with type := .JOINED_ROOM, roomname := joined_name, username }
            room_table_with roomname (room_notify_members net joined_room client_fd) ()
            return true
          else process_disconnect net client_fd
        else
          let result ← strdup (CString.lit "NOT_INVITED")
          if result.isNone then return false
          let response := { message_init with type := .RESPONSE, operation, result, extra }
          send_or_disconnect net client_fd response client_fd

def room_users (room : RoomPtr) (users_obj : CJson) : Action CJson :=
  users_table_iterate (.members room) add_user_to_object users_obj

def process_room_users (net : Net) (msg_in : Message) (client_fd : Fd) : Handler Bool := do
  match msg_in.roomname with
  | none => return false
  | some roomname =>
    let operation ← strdup (CString.lit "ROOM_USERS")
    let extra ← strdup roomname
    if operation.isNone ∨ extra.isNone then return false
    let room_exists ← room_table_contains roomname
    if !room_exists then
      let result ← strdup (CString.lit "NO_SUCH_ROOM")
      if result.isNone then return false
      let response := { message_init with type := .RESPONSE, operation, result, extra }
      send_or_disconnect net client_fd response client_fd
    else
      let found ← users_table_find_by_client_fd .server_users client_fd
      match found with
      | none => send_invalid_and_disconnect net client_fd
      | some user_from =>
        let context ← room_table_with roomname room_is_a_member
          { user := user_from, is_in_room := false, is_empty_now := false }
        if context.is_in_room then
          let list_name ← strdup roomname
          if list_name.isNone then return false
          let users ← room_table_with roomname room_users cJSON_CreateObject
          let user_list := { message_init with type := .ROOM_USER_LIST, roomname := list_name, users := some users }
          send_or_disconnect net client_fd user_list client_fd
        else
          let result ← strdup (CString.lit "NOT_JOINED")
          if result.isNone then return false
          let response := { message_init with type := .RESPONSE, operation, result, extra }
          send_or_disconnect net client_fd response client_fd

def process_room_text (net : Net) (msg_in : Message) (client_fd : Fd) : Handler Bool := do
  match msg_in.roomname, msg_in.text with
  | some roomname, some text =>
    let operation ← strdup (CString.lit "ROOM_TEXT")
    let extra ← strdup roomname
    if operation.isNone ∨ extra.isNone then return false
    let room_exists ← room_table_contains roomname
    if !room_exists then
      let result ← strdup (CString.lit "NO_SUCH_ROOM")
      if result.isNone then return false
      let response := { message_init with type := .RESPONSE, operation, result, extra }
      send_or_disconnect net client_fd response client_fd
    else
      let found ← users_table_find_by_client_fd .server_users client_fd
      match found with
      | none => send_invalid_and_disconnect net client_fd
      | some user_from =>
        let context ← room_table_with roomname room_is_a_member
          { user := user_from, is_in_room := false, is_empty_now := false }
        if context.is_in_room then
          let text_room ← strdup roomname
          let username ← strdup user_from.username
          let room_text ← strdup text
          if text_room.isNone ∨ username.isNone ∨ room_text.isNone then return false
          let room_text_from := { message_init with
            type := .ROOM_TEXT_FROM, roomname := text_room, username, text := room_text }
          room_table_with roomname (room_notify_members net room_text_from client_fd) ()
          return true
        else
          let result ← strdup (CString.lit "NOT_JOINED")
          if result.isNone then return false
          let response := { message_init with type := .RESPONSE, operation, result, extra }
          send_or_disconnect net client_fd response client_fd
  | _, _ => return false

def room_leave (room : RoomPtr) (context : RoomVisitorContext) : Action RoomVisitorContext := do
  let _ ← users_table_remove (.members room) context.user.username
  let size ← users_table_size (.members room)
  return if size = 0 then { context with is_empty_now := true } else context

def process_leave_room (net : Net) (msg_in : Message) (client_fd : Fd) : Handler Bool := do
  match msg_in.roomname with
  | none => return false
  | some roomname =>
    let operation ← strdup (CString.lit "LEAVE_ROOM")
    let extra ← strdup roomname
    if operation.isNone ∨ extra.isNone then return false
    let room_exists ← room_table_contains roomname
    if !room_exists then
      let result ← strdup (CString.lit "NO_SUCH_ROOM")
      if result.isNone then return false
      let response := { message_init with type := .RESPONSE, operation, result, extra }
      send_or_disconnect net client_fd response client_fd
    else
      let found ← users_table_find_by_client_fd .server_users client_fd
      match found with
      | none => send_invalid_and_disconnect net client_fd
      | some user_from =>
        let context ← room_table_with roomname room_is_a_member
          { user := user_from, is_in_room := false, is_empty_now := false }
        if context.is_in_room then
          let context ← room_table_with roomname room_leave context
          if context.is_empty_now then let _ ← room_table_remove roomname
          let left_name ← strdup roomname
          let username ← strdup user_from.username
          let left_room := { message_init with type := .LEFT_ROOM, roomname := left_name, username }
          room_table_with roomname (room_notify_members net left_room client_fd) ()
          return true
        else
          let result ← strdup (CString.lit "NOT_JOINED")
          if result.isNone then return false
          let response := { message_init with type := .RESPONSE, operation, result, extra }
          send_or_disconnect net client_fd response client_fd

end ojalvo
