import OjalvoChat.RoomTable

namespace ojalvo

/-- What the visitor of a broadcast shares with its caller: the array of failed
descriptors, in which -1 marks a free cell, and the next free position. -/
structure SendContext where
  client_fds_to_disconnect : List Int
  index : Nat

def room_remove_data (user : User) (room : RoomPtr) : Action Unit := do
  let _ ← users_table_remove (.guests room) user.username
  let _ ← users_table_remove (.members room) user.username

def send_if_is_not_self (net : Net) (message : Message) (client_fd : Fd) (user : User) (context : SendContext) :
    Action SendContext := do
  if user.socket_fd = client_fd then return context
  let sent ← server_send net user.socket_fd message
  if sent then return context
  if context.index < context.client_fds_to_disconnect.length then
    return {
      client_fds_to_disconnect := context.client_fds_to_disconnect.set context.index user.socket_fd
      index := context.index + 1 }
  stop .out_of_bounds

/-- The loop over the failed descriptors. It ends at the first -1. -/
def disconnect_failed (users : UsersTablePtr) (fds_to_disconnect : List Int) : Handler Unit :=
  match fds_to_disconnect with
  | [] => liftM (stop .out_of_bounds : Action Unit)
  | fd :: rest =>
    if fd = -1 then return
    else do
      let found ← users_table_find_by_client_fd users fd.toNat
      match found with
      | some user =>
        room_table_for_each (room_remove_data user)
        let _ ← users_table_remove users user.username
      | none => pure ()
      disconnect_failed users rest

def notify_all_but_self (net : Net) (users : UsersTablePtr) (message : Message) (client_fd : Fd) : Handler Unit := do
  let mx_users ← users_table_size users
  let context : SendContext := { client_fds_to_disconnect := List.replicate (mx_users + 1) (-1), index := 0 }
  let context ← users_table_for_each users (send_if_is_not_self net message client_fd) context
  disconnect_failed users context.client_fds_to_disconnect

def process_disconnect (net : Net) (client_fd : Fd) : Handler Bool := do
  let found ← users_table_find_by_client_fd .server_users client_fd
  match found with
  | some user =>
    let username ← strdup user.username
    let notify_users := { message_init with type := .DISCONNECTED, username }
    notify_all_but_self net .server_users notify_users client_fd
    room_table_for_each (room_remove_data user)
    let _ ← users_table_remove .server_users user.username
  | none => pure ()
  server_disconnect_client client_fd
  return true

/-- The end of most handlers: one send, and `failed_fd` is disconnected when it
fails. -/
def send_or_disconnect (net : Net) (client_fd : Fd) (message : Message) (failed_fd : Fd) : Handler Bool := do
  let sent ← server_send net client_fd message
  if sent then return true
  else process_disconnect net failed_fd

def send_invalid_and_disconnect (net : Net) (client_fd : Fd) : Handler Bool := do
  let operation ← strdup (CString.lit "INVALID")
  let result ← strdup (CString.lit "INVALID")
  let invalid := { message_init with type := .RESPONSE, operation, result }
  if operation.isNone ∨ result.isNone then return false
  let _ ← server_send net client_fd invalid
  process_disconnect net client_fd

end ojalvo
