import OjalvoChat.Protocol.Consistent

namespace ojalvo

section Membership

variable {server : Server} {roomname : CString}

/-- A room without the user who is forgotten. -/
theorem Server.lookup_forget (server : Server) (username roomname : CString) :
    (server.forget username).rooms.lookup roomname =
      (server.rooms.lookup roomname).map (Room.forget username) :=
  HashTable.lookup_mapEntries _ server.rooms roomname

/-- What remains of a table when the users with the given descriptors are gone. -/
def UsersTable.Without (contents : UsersTable) (fds : List Fd) (later : UsersTable) : Prop :=
  ∀ user, user ∈ later ↔ user ∈ contents ∧ user.socket_fd ∉ fds

/-- The same for a room. -/
structure Room.Without (room : Room) (fds : List Fd) (later : Room) : Prop where
  members : room.members.Without fds later.members
  guests : room.guests.Without fds later.guests

theorem UsersTable.Without.nil (contents : UsersTable) : contents.Without [] contents := fun user => by simp

/-- Descriptors may go one after the other. -/
theorem UsersTable.Without.cons {contents middle later : UsersTable} {fd : Fd} {rest : List Fd}
    (hfirst : contents.Without [fd] middle) (hrest : middle.Without rest later) :
    contents.Without (fd :: rest) later := by
  intro user
  rw [hrest user, hfirst user, List.mem_singleton, List.mem_cons, not_or, and_assoc]

/-- Removing a user by name is removing them by descriptor, for a table that
copies entries of a table with both indices in agreement. -/
theorem UsersTable.without_remove {users contents : UsersTable} (hindexed : users.Indexed)
    (hcopies : ∀ user ∈ contents, user ∈ users) {user : User} (huser : user ∈ users) :
    contents.Without [user.socket_fd] (contents.remove user.username) := by
  intro other
  rw [UsersTable.mem_remove, List.mem_singleton]
  refine and_congr_right fun hmem => not_congr ?_
  constructor
  · intro hname
    rw [UsersTable.eq_of_username_eq (hcopies other hmem) huser hname]
  · intro hfd
    rw [hindexed.eq_of_socket_fd_eq (hcopies other hmem) huser hfd]

/-- The tables of a server when the users with the given descriptors are gone. -/
structure Server.Without (server : Server) (fds : List Fd) (later : Server) : Prop where
  users : server.users.Without fds later.users
  rooms : ∀ roomname room, server.rooms.lookup roomname = some room →
    ∃ left, later.rooms.lookup roomname = some left ∧ room.Without fds left
  same_rooms : ∀ roomname left, later.rooms.lookup roomname = some left →
    ∃ room, server.rooms.lookup roomname = some room ∧ room.Without fds left

theorem Server.Without.nil (server : Server) : server.Without [] server where
  users := .nil server.users
  rooms _ room hroom := ⟨room, hroom, .nil room.members, .nil room.guests⟩
  same_rooms _ room hroom := ⟨room, hroom, .nil room.members, .nil room.guests⟩

/-- Users may be evicted one after the other. -/
theorem Server.Without.cons {server middle later : Server} {fd : Fd} {rest : List Fd}
    (hfirst : server.Without [fd] middle) (hrest : middle.Without rest later) : server.Without (fd :: rest) later where
  users := hfirst.users.cons hrest.users
  rooms roomname room hroom := by
    obtain ⟨between, hbetween, hgone⟩ := hfirst.rooms roomname room hroom
    obtain ⟨left, hleft, hrestgone⟩ := hrest.rooms roomname between hbetween
    exact ⟨left, hleft, hgone.members.cons hrestgone.members, hgone.guests.cons hrestgone.guests⟩
  same_rooms roomname left hleft := by
    obtain ⟨between, hbetween, hrestgone⟩ := hrest.same_rooms roomname left hleft
    obtain ⟨room, hroom, hgone⟩ := hfirst.same_rooms roomname between hbetween
    exact ⟨room, hroom, hgone.members.cons hrestgone.members, hgone.guests.cons hrestgone.guests⟩

/-- Who is forgotten by name is gone with its descriptor, and nobody else is. -/
theorem Server.Consistent.without_forget (hserver : server.Consistent) {user : User} (huser : user ∈ server.users) :
    server.Without [user.socket_fd] (server.forget user.username) where
  users := UsersTable.without_remove hserver.users (fun _ hmem => hmem) huser
  rooms roomname room hroom := by
    have hcopies := hserver.rooms roomname room hroom
    refine ⟨room.forget user.username, by rw [Server.lookup_forget, hroom]; rfl, ?_, ?_⟩
    · exact UsersTable.without_remove hserver.users hcopies.members_users huser
    · exact UsersTable.without_remove hserver.users hcopies.guests_users huser
  same_rooms roomname left hleft := by
    rw [Server.lookup_forget] at hleft
    obtain ⟨room, hroom, rfl⟩ := Option.map_eq_some_iff.mp hleft
    have hcopies := hserver.rooms roomname room hroom
    refine ⟨room, hroom, ?_, ?_⟩
    · exact UsersTable.without_remove hserver.users hcopies.members_users huser
    · exact UsersTable.without_remove hserver.users hcopies.guests_users huser

/-- An eviction removes one descriptor everywhere. -/
theorem Server.Consistent.without_evict (hserver : server.Consistent) (fd : Fd) :
    server.Without [fd] (server.evict fd) := by
  unfold Server.evict
  cases hfound : server.users.find_by_client_fd fd with
  | some user =>
    obtain ⟨huser, rfl⟩ := hserver.users.find_by_client_fd_iff.mp hfound
    exact hserver.without_forget huser
  | none =>
    have hfree := hserver.users.find_by_client_fd_eq_none_iff.mp hfound
    have hcopies : ∀ contents : UsersTable, (∀ user ∈ contents, user ∈ server.users) →
        contents.Without [fd] contents := by
      intro contents hcopies user
      rw [List.mem_singleton, iff_self_and]
      exact fun hmem => hfree user (hcopies user hmem)
    have hrooms : ∀ roomname room, server.rooms.lookup roomname = some room → room.Without [fd] room := by
      intro roomname room hroom
      have hcopied := hserver.rooms roomname room hroom
      exact ⟨hcopies room.members hcopied.members_users, hcopies room.guests hcopied.guests_users⟩
    constructor
    · exact hcopies server.users fun _ hmem => hmem
    · exact fun roomname room hroom => ⟨room, hroom, hrooms roomname room hroom⟩
    · exact fun roomname room hroom => ⟨room, hroom, hrooms roomname room hroom⟩

/-- Eviction takes away the users with the given descriptors and nobody else. -/
theorem Server.Consistent.without_evict_all {server : Server} (hserver : server.Consistent) (fds : List Fd) :
    server.Without fds (server.evict_all fds) := by
  induction fds generalizing server with
  | nil => exact .nil server
  | cons fd rest ih => exact (hserver.without_evict fd).cons (ih (hserver.evict fd))

end Membership

/-- Who is gone after a departure: those who could not be told, and the one who
departs. -/
def departing (net : Net) (server : Server) (trace : List Effect) (client_fd : Fd) : List Fd :=
  failures (departure_notices net server trace client_fd) ++ [client_fd]

theorem Server.evict_all_append (server : Server) (first second : List Fd) :
    server.evict_all (first ++ second) = (server.evict_all first).evict_all second := List.foldl_append

/-- A departure is an eviction whose last victim is the departing user. -/
theorem Server.Consistent.depart_eq {server : Server} (hserver : server.Consistent) (net : Net) (trace : List Effect)
    (client_fd : Fd) :
    server.depart net trace client_fd = server.evict_all (departing net server trace client_fd) := by
  rw [departing, Server.evict_all_append, Server.depart]
  change _ = (server.evict_all _).evict client_fd
  cases hfound : server.users.find_by_client_fd client_fd with
  | none =>
    have hquiet : departure_notices net server trace client_fd = [] := by simp [departure_notices, hfound]
    rw [hquiet]
    change server = server.evict client_fd
    simp [Server.evict, hfound]
  | some user =>
    obtain ⟨huser, hfd⟩ := hserver.users.find_by_client_fd_iff.mp hfound
    have hspared : client_fd ∉ failures (departure_notices net server trace client_fd) := by
      intro hfailed
      simp only [departure_notices, hfound] at hfailed
      exact (mem_recipients.mp (mem_of_mem_failures_broadcast hfailed)).1 rfl
    have hleft := hserver.evict_all (failures (departure_notices net server trace client_fd))
    have hstays := ((hserver.without_evict_all _).users user).mpr ⟨huser, by rwa [hfd]⟩
    have hstillfound := hleft.users.find_by_client_fd_iff.mpr ⟨hstays, hfd⟩
    simp only [Server.evict, hstillfound]

end ojalvo
