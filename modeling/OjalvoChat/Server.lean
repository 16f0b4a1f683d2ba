import OjalvoChat.Library.HashTable
import OjalvoChat.Library.Program
import OjalvoChat.User
import OjalvoChat.Message

namespace ojalvo

/-- The two indices of a user table. The record of a user lives in `table` and
belongs to it; an entry of `table_by_fd` points to that record, and the pointer
is kept as the key under which `table` owns it. -/
structure UsersTable where
  table : HashTable CString User
  table_by_fd : HashTable Fd CString

def users_table_init : UsersTable where
  table := ∅
  table_by_fd := ∅

def ROOM_ROOMNAME_MAX_LENGTH : Nat := 16

/-- As with users, only `room_init` builds rooms, under a name it accepts. -/
structure Room where
  roomname : CString
  members : UsersTable
  guests : UsersTable
  named : 0 < strlen roomname ∧ strlen roomname ≤ ROOM_ROOMNAME_MAX_LENGTH

abbrev RoomTable := HashTable CString Room

/-- The two tables that the handlers share. -/
structure Server where
  users : UsersTable
  rooms : RoomTable

def server_init : Server where
  users := users_table_init
  rooms := ∅

/-- A `Room*` that a traversal or a lookup of `server->rooms` hands out, as the
key of the room. -/
abbrev RoomPtr := CString

/-- A `Users_Table*`. -/
inductive UsersTablePtr where
  | server_users
  | members (room : RoomPtr)
  | guests (room : RoomPtr)
  deriving DecidableEq

inductive Mutex where
  | users_table (table : UsersTablePtr)
  | rooms
  deriving DecidableEq

/-- Why a thread gets stuck: it locks a mutex that it holds, passes NULL where
a string is needed, leaves the bounds of an array, or follows a pointer to a
room that is gone. -/
inductive Stop where
  | blocked (mutex : Mutex)
  | null
  | out_of_bounds
  | dangling
  deriving DecidableEq

/-- What happens on the sockets. A send records the result of `server_send`:
whether the number it returned is not negative. -/
inductive Effect where
  | accept (fd : Fd)
  | send (fd : Fd) (message : Message) (sent : Bool)
  | close (fd : Fd)

/-- The state that actions read and change. `trace` lists the effects so far,
oldest first, and `alloc` tells for each allocation to come whether it succeeds. -/
structure World where
  server : Server
  held : List Mutex
  trace : List Effect
  alloc : Nat → Bool

/-- Every allocation succeeds. -/
def allocating : Nat → Bool := fun _ => true

/-- A world between two requests: no lock is held and allocation works. -/
abbrev World.idle (server : Server) (trace : List Effect) : World := ⟨server, [], trace, allocating⟩

/-- Results of `server_send` given the effects so far, the descriptor and the
message. -/
abbrev Net := List Effect → Fd → Message → Bool

abbrev Action := EStateM Stop World

abbrev Handler := Program Stop World

section Primitives

def stop {A : Type} (why : Stop) : Action A := fun world => .error why world

def g_mutex_lock (mutex : Mutex) : Action Unit := fun world =>
  if mutex ∈ world.held then .error (.blocked mutex) world
  else .ok () { world with held := mutex :: world.held }

def g_mutex_unlock (mutex : Mutex) : Action Unit :=
  modify fun world => { world with held := world.held.erase mutex }

/-- One allocation: whether the pointer it returns is not NULL. -/
def malloc : Action Bool :=
  modifyGet fun world => (world.alloc 0, { world with alloc := fun later => world.alloc (later + 1) })

def strdup (text : Option CString) : Action (Option CString) :=
  match text with
  | none => stop .null
  | some text => do
    let allocated ← malloc
    return if allocated then some text else none

def strndup (text : Option CString) (limit : Nat) : Action (Option CString) :=
  match text with
  | none => stop .null
  | some text => strdup (text.cut limit)

def server_send (net : Net) (client_fd : Fd) (message : Message) : Action Bool :=
  modifyGet fun world =>
    let sent := net world.trace client_fd message
    (sent, { world with trace := world.trace ++ [.send client_fd message sent] })

/-- `accept` hands out a descriptor. -/
def server_accept_client (client_fd : Fd) : Action Unit :=
  modify fun world => { world with trace := world.trace ++ [.accept client_fd] }

def server_disconnect_client (client_fd : Fd) : Action Unit :=
  modify fun world => { world with trace := world.trace ++ [.close client_fd] }

end Primitives

section PrimitiveRuns

variable (server : Server) (held : List Mutex) (trace : List Effect) (alloc : Nat → Bool)

@[simp] theorem run_stop {A : Type} (why : Stop) (world : World) :
    (stop why : Action A).run world = .error why world := rfl

@[simp] theorem run_g_mutex_lock (mutex : Mutex) :
    (g_mutex_lock mutex).run ⟨server, held, trace, alloc⟩ =
      if mutex ∈ held then .error (.blocked mutex) ⟨server, held, trace, alloc⟩
      else .ok () ⟨server, mutex :: held, trace, alloc⟩ := rfl

@[simp] theorem run_g_mutex_unlock (mutex : Mutex) :
    (g_mutex_unlock mutex).run ⟨server, held, trace, alloc⟩ =
      .ok () ⟨server, held.erase mutex, trace, alloc⟩ := rfl

@[simp] theorem run_malloc :
    malloc.run ⟨server, held, trace, allocating⟩ = .ok true ⟨server, held, trace, allocating⟩ := rfl

@[simp] theorem run_strdup_some (text : CString) :
    (strdup (some text)).run ⟨server, held, trace, allocating⟩ =
      .ok (some text) ⟨server, held, trace, allocating⟩ := rfl

@[simp] theorem run_strdup_none (world : World) : (strdup none).run world = .error .null world := rfl

@[simp] theorem run_strndup_some (text : CString) (limit : Nat) :
    (strndup (some text) limit).run ⟨server, held, trace, allocating⟩ =
      .ok (some (text.cut limit)) ⟨server, held, trace, allocating⟩ := rfl

@[simp] theorem run_server_send (net : Net) (client_fd : Fd) (message : Message) :
    (server_send net client_fd message).run ⟨server, held, trace, alloc⟩ =
      .ok (net trace client_fd message)
        ⟨server, held, trace ++ [.send client_fd message (net trace client_fd message)], alloc⟩ := rfl

@[simp] theorem run_server_disconnect_client (client_fd : Fd) :
    (server_disconnect_client client_fd).run ⟨server, held, trace, alloc⟩ =
      .ok () ⟨server, held, trace ++ [.close client_fd], alloc⟩ := rfl

end PrimitiveRuns

end ojalvo
