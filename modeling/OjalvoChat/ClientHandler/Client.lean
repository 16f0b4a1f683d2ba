import OjalvoChat.ClientHandler.Line

namespace ojalvo

def RECV_CHUNK_SIZE : Nat := 1024

/-- Where a thread is in `handle_client`: at the call of `recv`, in the loop that
extracts lines, or done. -/
inductive ClientThread where
  | receiving (buffer : MessageBuffer)
  | extracting (buffer : MessageBuffer)
  | returned

/-- What the thread does next: `recv` gives some bytes, or none at the end or on
an error, or the inner loop takes a turn. -/
inductive ClientStep where
  | receive (chunk : List UInt8)
  | hang_up
  | extract

/-- Bytes that have arrived. The thread returns when they do not fit. -/
def client_receive (buffer : MessageBuffer) (chunk : List UInt8) : ClientThread :=
  match message_buffer_append buffer chunk with
  | none => .returned
  | some buffer => .extracting buffer

def handle_client (cJSON_Parse : CString → Option CJson) (net : Net) (client_fd : Fd) (step : ClientStep)
    (world : World) (thread : ClientThread) : Option (World × ClientThread) :=
  match step, thread with
  | .receive chunk, .receiving buffer =>
    if 0 < chunk.length ∧ chunk.length ≤ RECV_CHUNK_SIZE then some (world, client_receive buffer chunk) else none
  | .hang_up, .receiving _ => some (world, .returned)
  | .extract, .extracting buffer =>
    match message_buffer_extract buffer SERVER_BUFFER_SIZE with
    | none => some (world, .receiving buffer)
    | some (message, message_length, rest) =>
      match (handle_line cJSON_Parse net message message_length client_fd).run world with
      | .ok true after => some (after, .extracting rest)
      | .ok false after => some (after, .returned)
      | .error _ _ => none
  | _, _ => none

end ojalvo
