import OjalvoChat.MessageHandler.Disconnect

namespace ojalvo

def process_identify (net : Net) (msg_in : Message) (client_fd : Fd) : Handler Bool := do
  if msg_in.username.isNone then return false
  let username ← strndup msg_in.username 8
  match username with
  | none => return false
  | some username =>
    let registered ← users_table_find_by_client_fd .server_users client_fd
    match registered with
    | some user =>
      if user.username ≠ username then send_invalid_and_disconnect net client_fd
      else return true
    | none =>
      let taken ← users_table_find_by_username .server_users username
      match taken with
      | some user =>
        if user.socket_fd ≠ client_fd then
          let operation ← strdup (CString.lit "IDENTIFY")
          let result ← strdup (CString.lit "USER_ALREADY_EXISTS")
          let extra ← strdup username
          let response := { message_init with type := .RESPONSE, operation, result, extra }
          let _ ← server_send net client_fd response
          let _ ← process_disconnect net client_fd
          return true
        else return true
      | none =>
        let added ← users_table_add .server_users username client_fd
        if added then
          let operation ← strdup (CString.lit "IDENTIFY")
          let result ← strdup (CString.lit "SUCCESS")
          let extra ← strdup username
          let response := { message_init with type := .RESPONSE, operation, result, extra }
          let sent ← server_send net client_fd response
          if sent then
            let name ← strdup username
            let notify_users := { message_init with type := .NEW_USER, username := name }
            notify_all_but_self net .server_users notify_users client_fd
            return true
          else process_disconnect net client_fd
        else return false

def room_update_status (user : User) (new_status : UserStatus) (room : RoomPtr) : Action Unit := do
  let _ ← users_table_change_status_by_client_fd (.members room) user.socket_fd new_status
  let _ ← users_table_change_status_by_client_fd (.guests room) user.socket_fd new_status

def process_status (net : Net) (msg_in : Message) (client_fd : Fd) : Handler Bool := do
  if msg_in.status.isNone then return false
  let text ← strdup msg_in.status
  match user_status_from_string text with
  | some msg_status =>
    let found ← users_table_find_by_client_fd .server_users client_fd
    match found with
    | some user =>
      if user.status ≠ msg_status then
        let _ ← users_table_change_status_by_client_fd .server_users client_fd msg_status
        room_table_for_each (room_update_status user msg_status)
        let username ← strdup user.username
        let status ← strdup msg_in.status
        let notify_users := { message_init with type := .NEW_STATUS, username, status }
        notify_all_but_self net .server_users notify_users client_fd
        return true
      else return true
    | none => return true
  | none => send_invalid_and_disconnect net client_fd

/-- The object that both user lists send: one field for each record. -/
def add_user_to_object (users : CJson) (user : User) : CJson :=
  cJSON_AddStringToObject users user.username (user_status_to_string user.status)

def process_users (net : Net) (client_fd : Fd) : Handler Bool := do
  let users ← users_table_iterate .server_users add_user_to_object cJSON_CreateObject
  let user_list := { message_init with type := .USER_LIST, users := some users }
  send_or_disconnect net client_fd user_list client_fd

def process_text (net : Net) (msg_in : Message) (client_fd : Fd) : Handler Bool := do
  let addressee ← users_table_find_by_username .server_users msg_in.username
  match addressee with
  | some user_to =>
    let user_from_cmp ← users_table_find_by_client_fd .server_users client_fd
    if user_from_cmp.map User.username = some user_to.username then return true
    let sender ← users_table_find_by_client_fd .server_users client_fd
    match sender with
    | none => return false
    | some user_from =>
      let username ← strdup user_from.username
      let text ← strdup msg_in.text
      let text_from := { message_init with type := .TEXT_FROM, username, text }
      if username.isNone ∨ text.isNone then return false
      send_or_disconnect net user_to.socket_fd text_from client_fd
  | none =>
    let operation ← strdup (CString.lit "TEXT")
    let result ← strdup (CString.lit "NO_SUCH_USER")
    let extra ← strdup msg_in.username
    let response := { message_init with type := .RESPONSE, operation, result, extra }
    if operation.isNone ∨ result.isNone ∨ extra.isNone then return false
    send_or_disconnect net client_fd response client_fd

def process_public_text (net : Net) (msg_in : Message) (client_fd : Fd) : Handler Bool := do
  let sender ← users_table_find_by_client_fd .server_users client_fd
  match sender with
  | none => return false
  | some user_from =>
    let username ← strdup user_from.username
    let text ← strdup msg_in.text
    let public_text_from := { message_init with type := .PUBLIC_TEXT_FROM, username, text }
    if username.isNone ∨ text.isNone then return false
    notify_all_but_self net .server_users public_text_from client_fd
    return true

end ojalvo
