import OjalvoChat.ClientHandler.Invalid
import OjalvoChat.MessageBuffer
import OjalvoChat.MessageJson

namespace ojalvo

/-- What `handle_client` does with a line that it has extracted: whether the
thread goes on afterwards. -/
def handle_line (cJSON_Parse : CString → Option CJson) (net : Net) (message : List UInt8) (message_length : Nat)
    (client_fd : Fd) : Handler Bool := do
  let message := message_buffer_sanitize message message_length
  if message.length = 0 then return true
  match message_from_json cJSON_Parse (.of_bytes message) with
  | none =>
    handle_invalid_line net client_fd
    return false
  | some msg_in =>
    let _ ← message_handler_process net msg_in client_fd
    return true

end ojalvo
