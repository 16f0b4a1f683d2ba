import OjalvoChat.Protocol.Reaction

namespace ojalvo

/-- How a request ends. -/
abbrev Outcome := EStateM.Result Stop World Bool

/-- A broadcast to all users except the requester, with the eviction of those
who cannot be reached. -/
def announce (net : Net) (client_fd : Fd) (message : Message) (server : Server) (trace : List Effect) : Outcome :=
  let effects := broadcast net message trace (recipients server.users.entries client_fd)
  .ok true (.idle (server.evict_all (failures effects)) (trace ++ effects))

/-- The descriptors of the members of a room other than the requester. -/
def Server.room_recipients (server : Server) (roomname : CString) (client_fd : Fd) : List Fd :=
  match server.rooms.lookup roomname with
  | none => []
  | some room => recipients room.members.entries client_fd

/-- A broadcast to the members of a room, which a failed send never finishes. -/
def tell_members (net : Net) (client_fd : Fd) (roomname : CString) (message : Message) (server : Server)
    (trace : List Effect) : Outcome :=
  let effects := broadcast net message trace (server.room_recipients roomname client_fd)
  if failures effects = [] then .ok true (.idle server (trace ++ effects))
  else .error (.blocked .rooms) ⟨server, [.rooms], trace ++ effects, allocating⟩

/-- A send whose failure makes a descriptor depart. -/
def send_or_depart (net : Net) (client_fd : Fd) (message : Message) (failed_fd : Fd) (server : Server)
    (trace : List Effect) (continuation : List Effect → Outcome) : Outcome :=
  let sent := net trace client_fd message
  let trace := trace ++ [.send client_fd message sent]
  if sent then continuation trace else .ok true (departed net server trace failed_fd)

def Server.in_room (server : Server) (roomname : CString) (user : User) : Bool :=
  match server.rooms.lookup roomname with
  | none => false
  | some room => room.members.contains_by_client_fd user.socket_fd || room.guests.contains_by_client_fd user.socket_fd

def Server.add_guest (server : Server) (roomname : CString) (user : User) : Server :=
  server.adjust_room roomname (Room.change_guests fun guests => guests.add user)

def Server.register (server : Server) (user : User) : Server := { server with users := server.users.add user }

def Room.update_status (client_fd : Fd) (status : UserStatus) (room : Room) : Room :=
  { room with
    members := room.members.change_status_by_client_fd client_fd status
    guests := room.guests.change_status_by_client_fd client_fd status }

def Server.set_status (server : Server) (client_fd : Fd) (status : UserStatus) : Server :=
  { server.adjust_rooms (Room.update_status client_fd status) with
    users := server.users.change_status_by_client_fd client_fd status }

def Server.create_room (server : Server) (room : Room) (creator : User) : Server :=
  { server with
    rooms := server.rooms.insert room.roomname (room.change_members fun members => members.add creator) }

def Room.let_in (user : User) (room : Room) : Room :=
  { room with guests := room.guests.remove user.username, members := room.members.add user }

def Server.let_in (server : Server) (roomname : CString) (user : User) : Server :=
  server.adjust_room roomname (Room.let_in user)

/-- The room without the user, and without the room itself once nobody is left
in it. -/
def Server.quit (server : Server) (roomname : CString) (user : User) : Server :=
  let left := server.adjust_room roomname (Room.change_members fun members => members.remove user.username)
  match left.rooms.lookup roomname with
  | none => left
  | some room =>
    if room.members.entries.length = 0 then { left with rooms := left.rooms.erase roomname } else left

/-- Invites one user after another, up to the first who is in the room already
or cannot be reached. -/
def invite_all (net : Net) (roomname : CString) (invitation : Message) (invited_users : List User)
    (server : Server) (trace : List Effect) : Outcome :=
  match invited_users with
  | [] => .ok true (.idle server trace)
  | user :: rest =>
    if server.in_room roomname user then .ok true (.idle server trace)
    else
      let server := server.add_guest roomname user
      send_or_depart net user.socket_fd invitation user.socket_fd server trace
        (invite_all net roomname invitation rest server)

/-- The effect of a reaction on an idle world. -/
def Reaction.perform (net : Net) (client_fd : Fd) (server : Server) (trace : List Effect) (reaction : Reaction) :
    Outcome :=
  match reaction with
  | .ignore answer => .ok answer (.idle server trace)
  | .crash => .error .null (.idle server trace)
  | .reply fd message => send_or_depart net fd message client_fd server trace fun trace => .ok true (.idle server trace)
  | .refuse message =>
    .ok true (departed net server (trace ++ [.send client_fd message (net trace client_fd message)]) client_fd)
  | .leave => .ok true (departed net server trace client_fd)
  | .register user =>
    let server := server.register user
    send_or_depart net client_fd (response (.lit "IDENTIFY") (.lit "SUCCESS") user.username) client_fd server trace
      (announce net client_fd (new_user_notice user.username) server)
  | .set_status user status text =>
    announce net client_fd (new_status_notice user.username text) (server.set_status client_fd status) trace
  | .publish message => announce net client_fd message server trace
  | .create room creator =>
    let server := server.create_room room creator
    send_or_depart net client_fd (response (.lit "NEW_ROOM") (.lit "SUCCESS") room.roomname) client_fd server trace
      fun trace => .ok true (.idle server trace)
  | .invite roomname invited_users invitation => invite_all net roomname invitation invited_users server trace
  | .join roomname user =>
    let server := server.let_in roomname user
    send_or_depart net client_fd (response (.lit "JOIN_ROOM") (.lit "SUCCESS") roomname) client_fd server trace
      (tell_members net client_fd roomname (joined_room_notice roomname user.username) server)
  | .tell_room roomname message => tell_members net client_fd roomname message server trace
  | .quit roomname user =>
    tell_members net client_fd roomname (left_room_notice roomname user.username) (server.quit roomname user) trace

end ojalvo
