import OjalvoChat.MessageHandler.Process

namespace ojalvo

/-- The branch of `handle_client` for a line that `message_from_json` refuses.
The thread returns after it. -/
def handle_invalid_line (net : Net) (client_fd : Fd) : Handler Unit := do
  let operation ← strdup (CString.lit "INVALID")
  let result ← strdup (CString.lit "INVALID")
  let invalid := { message_init with type := .RESPONSE, operation, result }
  if operation.isNone ∨ result.isNone then return
  let _ ← server_send net client_fd invalid
  let registered ← users_table_contains_by_client_fd .server_users client_fd
  if registered then
    let disconnect_msg := { message_init with type := .DISCONNECT }
    let _ ← message_handler_process net disconnect_msg client_fd
  else server_disconnect_client client_fd

end ojalvo
