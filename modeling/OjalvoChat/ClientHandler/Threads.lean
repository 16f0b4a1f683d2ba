import OjalvoChat.ClientHandler.Client
import OjalvoChat.Descriptors

namespace ojalvo

/-- What a thread is at: its own code, or the handling of a line. -/
inductive Phase where
  | between (thread : ClientThread)
  | processing (message : List UInt8) (message_length : Nat) (program : Handler Bool) (rest : MessageBuffer)

/-- A thread that runs `handle_client`. `sources` tells for every byte of its
buffer on which connection it was sent. -/
structure Thread where
  client_fd : Fd
  sources : List Nat
  phase : Phase

/-- All threads, one for each connection that was ever accepted, in that order.
`owners` tells which connection a descriptor belongs to while it is open. -/
structure System where
  world : World
  threads : List Thread
  owners : Fd → Option Nat

def system_init : System where
  world := .idle server_init []
  threads := []
  owners := fun _ => none

/-- The steps of the main thread and of the threads of the connections. -/
inductive Move where
  | accept (client_fd : Fd)
  | receive (thread : Nat) (chunk : List UInt8)
  | hang_up (thread : Nat)
  | extract (thread : Nat)
  | act (thread : Nat)

/-- The descriptors that are closed between two worlds. -/
def closed_between (before after : World) : List Fd := closed (after.trace.drop before.trace.length)

/-- The owners of the descriptors after some have been closed. -/
def release (fds : List Fd) (owners : Fd → Option Nat) : Fd → Option Nat := fun fd =>
  if fd ∈ fds then none else owners fd

def System.set_thread (system : System) (index : Nat) (thread : Thread) : System :=
  { system with threads := system.threads.set index thread }

/-- One turn of the loop that extracts lines. -/
def Thread.extract (cJSON_Parse : CString → Option CJson) (net : Net) (thread : Thread) (buffer : MessageBuffer) :
    Thread :=
  match message_buffer_extract buffer SERVER_BUFFER_SIZE with
  | none => { thread with phase := .between (.receiving buffer) }
  | some (message, message_length, rest) =>
    { thread with
      sources := thread.sources.drop (message_length + 1)
      phase := .processing message message_length
        (handle_line cJSON_Parse net message message_length thread.client_fd) rest }

/-- One step. `accept` hands out a descriptor that is not open, `recv` gives
bytes of the connection that owns the descriptor, and a thread that waits for a
mutex takes no step. -/
def system_step (cJSON_Parse : CString → Option CJson) (net : Net) (system : System) (move : Move) : Option System :=
  match move with
  | .accept client_fd =>
    match system.owners client_fd with
    | some _ => none
    | none => some {
        world := { system.world with trace := system.world.trace ++ [.accept client_fd] }
        threads := system.threads ++
          [{ client_fd, sources := [], phase := .between (.receiving message_buffer_init) }]
        owners := fun fd => if fd = client_fd then some system.threads.length else system.owners fd }
  | .receive index chunk => do
    let thread ← system.threads[index]?
    match thread.phase, system.owners thread.client_fd with
    | .between (.receiving buffer), some source =>
      if 0 < chunk.length ∧ chunk.length ≤ RECV_CHUNK_SIZE then
        some (system.set_thread index { thread with
          sources := thread.sources ++ List.replicate chunk.length source
          phase := .between (client_receive buffer chunk) })
      else none
    | _, _ => none
  | .hang_up index => do
    let thread ← system.threads[index]?
    match thread.phase with
    | .between (.receiving _) => some (system.set_thread index { thread with phase := .between .returned })
    | _ => none
  | .extract index => do
    let thread ← system.threads[index]?
    match thread.phase with
    | .between (.extracting buffer) => some (system.set_thread index (thread.extract cJSON_Parse net buffer))
    | _ => none
  | .act index => do
    let thread ← system.threads[index]?
    match thread.phase with
    | .processing _ _ (.ret goes_on) rest =>
      some (system.set_thread index
        { thread with phase := .between (if goes_on then .extracting rest else .returned) })
    | .processing message message_length (.act body next) rest =>
      match body.run system.world with
      | .ok value after => some {
          world := after
          threads := system.threads.set index
            { thread with phase := .processing message message_length (next value) rest }
          owners := release (closed_between system.world after) system.owners }
      | .error _ _ => none
    | _ => none

end ojalvo
