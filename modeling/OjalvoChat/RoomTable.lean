import OjalvoChat.UsersTable

namespace ojalvo

def room_init (roomname : Option CString) : Action (Option Room) :=
  match roomname with
  | none => return none
  | some roomname =>
    if h : 0 < strlen roomname ∧ strlen roomname ≤ ROOM_ROOMNAME_MAX_LENGTH then do
      let copied ← strdup roomname
      match copied with
      | none => return none
      | some _ => return some { roomname, members := users_table_init, guests := users_table_init, named := h }
    else return none

def room_table_add (roomname : CString) : Action Bool := do
  let allocated ← malloc
  if allocated then
    let initialised ← room_init roomname
    match initialised with
    | none => return false
    | some room =>
      g_mutex_lock .rooms
      let world ← get
      match world.server.rooms.lookup roomname with
      | some _ =>
        g_mutex_unlock .rooms
        return false
      | none =>
        set { world with server := { world.server with rooms := world.server.rooms.insert roomname room } }
        g_mutex_unlock .rooms
        return true
  else return false

def room_table_contains (roomname : CString) : Action Bool := do
  g_mutex_lock .rooms
  let world ← get
  g_mutex_unlock .rooms
  return (world.server.rooms.lookup roomname).isSome

/-- Runs the action on the room, if it exists, while the mutex is held. The
action hands its context on. -/
def room_table_with {C : Type} (roomname : CString) (action : RoomPtr → C → Action C) (context : C) : Action C := do
  g_mutex_lock .rooms
  let world ← get
  let context ←
    match world.server.rooms.lookup roomname with
    | some _ => action roomname context
    | none => pure context
  g_mutex_unlock .rooms
  return context

def room_table_remove (roomname : CString) : Action Bool := do
  g_mutex_lock .rooms
  let world ← get
  set { world with server := { world.server with rooms := world.server.rooms.erase roomname } }
  g_mutex_unlock .rooms
  return (world.server.rooms.lookup roomname).isSome

def visit_rooms (visitor : RoomPtr → Action Unit) (rooms : List RoomPtr) : Action Unit :=
  match rooms with
  | [] => return
  | room :: rest => do
    visitor room
    visit_rooms visitor rest

def room_table_for_each (visitor : RoomPtr → Action Unit) : Action Unit := do
  g_mutex_lock .rooms
  let world ← get
  visit_rooms visitor world.server.rooms.keys
  g_mutex_unlock .rooms

end ojalvo
