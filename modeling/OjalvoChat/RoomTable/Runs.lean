import OjalvoChat.RoomTable
import OjalvoChat.UsersTable.Runs

namespace ojalvo

/-- Changes one room in place. -/
def Server.adjust_room (server : Server) (roomname : CString) (change : Room → Room) : Server :=
  { server with rooms := HashTable.adjust roomname change server.rooms }

/-- Changes every room in place. -/
def Server.adjust_rooms (server : Server) (change : Room → Room) : Server :=
  { server with rooms := HashTable.mapEntries (fun _ => change) server.rooms }

def Room.change_members (change : UsersTable → UsersTable) (room : Room) : Room :=
  { room with members := change room.members }

def Room.change_guests (change : UsersTable → UsersTable) (room : Room) : Room :=
  { room with guests := change room.guests }

section Projections

variable (server : Server) (roomname : CString) (change : Room → Room)

@[simp] theorem Server.adjust_room_rooms :
    (server.adjust_room roomname change).rooms = HashTable.adjust roomname change server.rooms := rfl

@[simp] theorem Server.adjust_rooms_users : (server.adjust_rooms change).users = server.users := rfl

@[simp] theorem UsersTablePtr.modify_members (update : UsersTable → UsersTable) :
    (UsersTablePtr.members roomname).modify update server =
      server.adjust_room roomname (Room.change_members update) := rfl

@[simp] theorem UsersTablePtr.modify_guests (update : UsersTable → UsersTable) :
    (UsersTablePtr.guests roomname).modify update server =
      server.adjust_room roomname (Room.change_guests update) := rfl

@[simp] theorem UsersTablePtr.modify_server_users (update : UsersTable → UsersTable) :
    UsersTablePtr.server_users.modify update server = { server with users := update server.users } := rfl

/-- Two changes of one room in a row. -/
theorem Server.adjust_room_adjust_room (later : Room → Room) :
    (server.adjust_room roomname change).adjust_room roomname later =
      server.adjust_room roomname fun room => later (change room) := by
  simp only [Server.adjust_room, HashTable.adjust, HashTable.mapEntries_mapEntries]
  congr 2
  funext key room
  by_cases heq : key = roomname
  · simp [heq]
  · simp [heq]

end Projections

section Actions

variable (server : Server) (held : List Mutex) (trace : List Effect) (alloc : Nat → Bool)

@[simp] theorem run_room_table_contains (roomname : CString) :
    (room_table_contains roomname).run ⟨server, held, trace, alloc⟩ =
      if .rooms ∈ held then .error (.blocked .rooms) ⟨server, held, trace, alloc⟩
      else .ok (server.rooms.lookup roomname).isSome ⟨server, held, trace, alloc⟩ := by
  by_cases hheld : .rooms ∈ held
  · simp [room_table_contains, hheld]
  · simp [room_table_contains, hheld]

@[simp] theorem run_room_table_remove (roomname : CString) :
    (room_table_remove roomname).run ⟨server, held, trace, alloc⟩ =
      if .rooms ∈ held then .error (.blocked .rooms) ⟨server, held, trace, alloc⟩
      else .ok (server.rooms.lookup roomname).isSome
        ⟨{ server with rooms := server.rooms.erase roomname }, held, trace, alloc⟩ := by
  by_cases hheld : .rooms ∈ held
  · simp [room_table_remove, hheld]
  · simp [room_table_remove, hheld]

/-- The room that `room_table_add` stores. -/
def room_new (roomname : CString)
    (named : 0 < strlen roomname ∧ strlen roomname ≤ ROOM_ROOMNAME_MAX_LENGTH) : Room where
  roomname
  members := users_table_init
  guests := users_table_init
  named

@[simp] theorem room_new_roomname (roomname : CString)
    (named : 0 < strlen roomname ∧ strlen roomname ≤ ROOM_ROOMNAME_MAX_LENGTH) :
    (room_new roomname named).roomname = roomname := rfl

theorem run_room_table_add (roomname : CString) :
    (room_table_add roomname).run ⟨server, [], trace, allocating⟩ =
      if h : 0 < strlen roomname ∧ strlen roomname ≤ ROOM_ROOMNAME_MAX_LENGTH then
        match server.rooms.lookup roomname with
        | some _ => .ok false ⟨server, [], trace, allocating⟩
        | none =>
          .ok true ⟨{ server with rooms := server.rooms.insert roomname (room_new roomname h) }, [], trace, allocating⟩
      else .ok false ⟨server, [], trace, allocating⟩ := by
  by_cases hnamed : 0 < strlen roomname ∧ strlen roomname ≤ ROOM_ROOMNAME_MAX_LENGTH
  · cases hlookup : server.rooms.lookup roomname with
    | none => simp [room_table_add, room_init, hnamed, hlookup, room_new]
    | some room => simp [room_table_add, room_init, hnamed, hlookup]
  · simp [room_table_add, room_init, hnamed]

/-- Without the mutex, the action runs on the room that exists, with the mutex
held. -/
theorem run_room_table_with {C : Type} (roomname : CString) (action : RoomPtr → C → Action C) (context : C) :
    (room_table_with roomname action context).run ⟨server, [], trace, alloc⟩ =
      match server.rooms.lookup roomname with
      | none => .ok context ⟨server, [], trace, alloc⟩
      | some _ =>
        match (action roomname context).run ⟨server, [.rooms], trace, alloc⟩ with
        | .ok context world => .ok context { world with held := world.held.erase .rooms }
        | .error why world => .error why world := by
  cases hlookup : server.rooms.lookup roomname with
  | none => simp [room_table_with, hlookup]
  | some room =>
    simp only [room_table_with, EStateM.run_bind, run_g_mutex_lock, List.not_mem_nil, if_false, EStateM.run_get,
      hlookup]
    cases (action roomname context).run ⟨server, [.rooms], trace, alloc⟩ with
    | ok value world => simp [g_mutex_unlock]
    | error why world => simp

/-- A visitor that changes the room it is given, and nothing else, visits the
rooms one after another. -/
theorem run_visit_rooms (visitor : RoomPtr → Action Unit) (change : Room → Room)
    (hvisit : ∀ (server : Server) (room : RoomPtr), room ∈ server.rooms →
      (visitor room).run ⟨server, held, trace, alloc⟩ =
        .ok () ⟨server.adjust_room room change, held, trace, alloc⟩)
    (rooms : List RoomPtr) (hrooms : ∀ room ∈ rooms, room ∈ server.rooms) :
    (visit_rooms visitor rooms).run ⟨server, held, trace, alloc⟩ =
      .ok ()
        ⟨{ server with rooms := rooms.foldl (fun table room => HashTable.adjust room change table) server.rooms },
          held, trace, alloc⟩ := by
  induction rooms generalizing server with
  | nil => rfl
  | cons room rest ih =>
    have hroom := hrooms room List.mem_cons_self
    simp only [visit_rooms, EStateM.run_bind, hvisit server room hroom]
    rw [ih]
    · rfl
    · intro other hother
      simpa using hrooms other (List.mem_cons_of_mem room hother)

/-- A whole traversal of the rooms by such a visitor. -/
theorem run_room_table_for_each (visitor : RoomPtr → Action Unit) (change : Room → Room)
    (hvisit : ∀ (server : Server) (room : RoomPtr), room ∈ server.rooms →
      (visitor room).run ⟨server, [.rooms], trace, alloc⟩ =
        .ok () ⟨server.adjust_room room change, [.rooms], trace, alloc⟩) :
    (room_table_for_each visitor).run ⟨server, [], trace, alloc⟩ =
      .ok () ⟨server.adjust_rooms change, [], trace, alloc⟩ := by
  simp only [room_table_for_each, EStateM.run_bind, run_g_mutex_lock, List.not_mem_nil, if_false, EStateM.run_get]
  rw [run_visit_rooms server [.rooms] trace alloc visitor change hvisit server.rooms.keys
    fun room hroom => AList.mem_keys.mpr hroom]
  simp [Server.adjust_rooms, HashTable.foldl_adjust_keys]

/-- With the mutex already held the traversal blocks before the first visit. -/
theorem run_room_table_for_each_blocked (visitor : RoomPtr → Action Unit) (hheld : .rooms ∈ held) :
    (room_table_for_each visitor).run ⟨server, held, trace, alloc⟩ =
      .error (.blocked .rooms) ⟨server, held, trace, alloc⟩ := by
  simp [room_table_for_each, hheld]

end Actions

end ojalvo
