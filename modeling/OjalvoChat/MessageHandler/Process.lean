import OjalvoChat.MessageHandler.Rooms

namespace ojalvo

/-- Requests other than DISCONNECT and IDENTIFY need a registered sender. -/
def message_handler_process (net : Net) (msg_in : Message) (client_fd : Fd) : Handler Bool := do
  if msg_in.type = .UNKNOWN then return false
  if msg_in.type = .DISCONNECT then return ← process_disconnect net client_fd
  if msg_in.type = .IDENTIFY then return ← process_identify net msg_in client_fd
  let identified ← users_table_contains_by_client_fd .server_users client_fd
  if !identified then
    let operation ← strdup (CString.lit "INVALID")
    let result ← strdup (CString.lit "NOT_IDENTIFIED")
    let not_identified := { message_init with type := .RESPONSE, operation, result }
    if operation.isNone ∨ result.isNone then return false
    let _ ← server_send net client_fd not_identified
    let _ ← process_disconnect net client_fd
    return true
  match msg_in.type with
  | .STATUS => process_status net msg_in client_fd
  | .USERS => process_users net client_fd
  | .TEXT => process_text net msg_in client_fd
  | .PUBLIC_TEXT => process_public_text net msg_in client_fd
  | .NEW_ROOM => process_new_room net msg_in client_fd
  | .INVITE => process_invite net msg_in client_fd
  | .JOIN_ROOM => process_join_room net msg_in client_fd
  | .ROOM_USERS => process_room_users net msg_in client_fd
  | .ROOM_TEXT => process_room_text net msg_in client_fd
  | .LEAVE_ROOM => process_leave_room net msg_in client_fd
  | _ => return true

end ojalvo
