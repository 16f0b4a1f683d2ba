import OjalvoChat.Protocol.Perform
import OjalvoChat.UsersTable.Indexed

namespace ojalvo

/-- The copies of users in a room: each is a current user, as a member or as a
guest and never both. -/
structure Room.Consistent (users : UsersTable) (room : Room) : Prop where
  members : room.members.Indexed
  guests : room.guests.Indexed
  members_users : ∀ user ∈ room.members, user ∈ users
  guests_users : ∀ user ∈ room.guests, user ∈ users
  disjoint : ∀ user ∈ room.members, user ∉ room.guests

structure Server.Consistent (server : Server) : Prop where
  users : server.users.Indexed
  keyed : ∀ roomname room, server.rooms.lookup roomname = some room → room.roomname = roomname
  rooms : ∀ roomname room, server.rooms.lookup roomname = some room → room.Consistent server.users

/-- The empty server is consistent. -/
theorem Server.consistent_init : server_init.Consistent where
  users := UsersTable.indexed_init
  keyed roomname room hroom := by simp [server_init] at hroom
  rooms roomname room hroom := by simp [server_init] at hroom

section Copies

variable {users contents : UsersTable} {user : User} (hcontents : contents.Indexed)
  (hcopies : ∀ other ∈ contents, other ∈ users)
include hcopies

namespace UsersTable

/-- Copies of users stay copies when a name is removed from both tables. -/
theorem copies_remove (username : CString) : ∀ other ∈ contents.remove username, other ∈ users.remove username := by
  intro other hother
  obtain ⟨hmem, hname⟩ := mem_remove.mp hother
  exact mem_remove.mpr ⟨hcopies other hmem, hname⟩

include hcontents

/-- A user whom a table does not hold shares no name and no descriptor with one of
its users. -/
theorem fresh_of_outside (huser : user ∈ users) (houtside : contents.contains_by_client_fd user.socket_fd = false) :
    (∀ other ∈ contents, other.username ≠ user.username) ∧
      ∀ other ∈ contents, other.socket_fd ≠ user.socket_fd := by
  have hfd : ∀ other ∈ contents, other.socket_fd ≠ user.socket_fd := by
    intro other hother heq
    rw [hcontents.contains_by_client_fd_iff.mpr ⟨other, hother, heq⟩] at houtside
    cases houtside
  refine ⟨fun other hother hname => ?_, hfd⟩
  have heq := eq_of_username_eq (hcopies other hother) huser hname
  exact hfd other hother (by rw [heq])

/-- The test by descriptor finds the user's own copy. -/
theorem mem_iff_contains_copy (hindexed : users.Indexed) (huser : user ∈ users) :
    user ∈ contents ↔ contents.contains_by_client_fd user.socket_fd = true := by
  rw [hcontents.contains_by_client_fd_iff]
  constructor
  · intro hmem
    exact ⟨user, hmem, rfl⟩
  · rintro ⟨other, hother, hfd⟩
    rwa [hindexed.eq_of_socket_fd_eq huser (hcopies other hother) hfd.symm]

/-- Copies of users stay copies when the status changes in both tables. -/
theorem copies_change_status (hindexed : users.Indexed) (client_fd : Fd) (status : UserStatus) :
    ∀ other ∈ contents.change_status_by_client_fd client_fd status,
      other ∈ users.change_status_by_client_fd client_fd status := by
  intro other hother
  obtain ⟨old, hold, heq⟩ := (mem_change_status_by_client_fd hcontents).mp hother
  exact (mem_change_status_by_client_fd hindexed).mpr ⟨old, hcopies old hold, heq⟩

/-- A registered user may be copied. -/
theorem copies_add (huser : user ∈ users) (houtside : contents.contains_by_client_fd user.socket_fd = false) :
    ∀ other ∈ contents.add user, other ∈ users := by
  obtain ⟨hname, -⟩ := fresh_of_outside hcontents hcopies huser houtside
  intro other hother
  rcases (mem_add hcontents hname).mp hother with rfl | hold
  · exact huser
  · exact hcopies other hold

end UsersTable

end Copies

section Room

variable {users : UsersTable} {room : Room} {user : User}

namespace Room.Consistent

variable (hroom : room.Consistent users)
include hroom

/-- A user whose descriptor is not among the members has a name that is not, either.
-/
theorem members_fresh (huser : user ∈ users) (houtside : room.members.contains_by_client_fd user.socket_fd = false) :
    (∀ other ∈ room.members, other.username ≠ user.username) ∧
      ∀ other ∈ room.members, other.socket_fd ≠ user.socket_fd :=
  UsersTable.fresh_of_outside hroom.members hroom.members_users huser houtside

/-- A user whose descriptor is not among the guests has a name that is not, either.
-/
theorem guests_fresh (huser : user ∈ users) (houtside : room.guests.contains_by_client_fd user.socket_fd = false) :
    (∀ other ∈ room.guests, other.username ≠ user.username) ∧
      ∀ other ∈ room.guests, other.socket_fd ≠ user.socket_fd :=
  UsersTable.fresh_of_outside hroom.guests hroom.guests_users huser houtside

/-- A user is a member exactly if the room has its descriptor. -/
theorem mem_members_iff (hindexed : users.Indexed) (huser : user ∈ users) :
    user ∈ room.members ↔ room.members.contains_by_client_fd user.socket_fd = true :=
  UsersTable.mem_iff_contains_copy hroom.members hroom.members_users hindexed huser

/-- A user is a guest exactly if the guest list has its descriptor. -/
theorem mem_guests_iff (hindexed : users.Indexed) (huser : user ∈ users) :
    user ∈ room.guests ↔ room.guests.contains_by_client_fd user.socket_fd = true :=
  UsersTable.mem_iff_contains_copy hroom.guests hroom.guests_users hindexed huser

/-- A room stays consistent when a user is forgotten there and unregistered. -/
theorem forget (username : CString) : (room.forget username).Consistent (users.remove username) where
  members := hroom.members.remove
  guests := hroom.guests.remove
  members_users := UsersTable.copies_remove hroom.members_users username
  guests_users := UsersTable.copies_remove hroom.guests_users username
  disjoint member hmember hguest :=
    hroom.disjoint member (UsersTable.mem_remove.mp hmember).1 (UsersTable.mem_remove.mp hguest).1

/-- A room stays consistent when a status changes there and among the users. -/
theorem update_status (hindexed : users.Indexed) (client_fd : Fd) (status : UserStatus) :
    (room.update_status client_fd status).Consistent (users.change_status_by_client_fd client_fd status) where
  members := hroom.members.change_status_by_client_fd
  guests := hroom.guests.change_status_by_client_fd
  members_users := UsersTable.copies_change_status hroom.members hroom.members_users hindexed client_fd status
  guests_users := UsersTable.copies_change_status hroom.guests hroom.guests_users hindexed client_fd status
  disjoint user hmember hguest := by
    obtain ⟨member, hold, hchanged⟩ := (UsersTable.mem_change_status_by_client_fd hroom.members).mp hmember
    obtain ⟨guest, hguestold, hsame⟩ := (UsersTable.mem_change_status_by_client_fd hroom.guests).mp hguest
    have hname : member.username = guest.username := by
      have hmembername : user.username = member.username := by rw [hchanged]; split <;> rfl
      have hguestname : user.username = guest.username := by rw [hsame]; split <;> rfl
      exact hmembername.symm.trans hguestname
    have heq := UsersTable.eq_of_username_eq (hroom.members_users member hold) (hroom.guests_users guest hguestold)
      hname
    subst heq
    exact hroom.disjoint member hold hguestold

/-- A registered user who is neither member nor guest may become a guest. -/
theorem add_guest (huser : user ∈ users)
    (hmember : room.members.contains_by_client_fd user.socket_fd = false)
    (hguest : room.guests.contains_by_client_fd user.socket_fd = false) :
    (room.change_guests fun guests => guests.add user).Consistent users := by
  obtain ⟨hname, hfd⟩ := hroom.guests_fresh huser hguest
  have hmem : ∀ other, other ∈ room.guests.add user ↔ other = user ∨ other ∈ room.guests := fun other =>
    UsersTable.mem_add hroom.guests hname
  constructor
  · exact hroom.members
  · exact hroom.guests.add hname hfd
  · exact hroom.members_users
  · exact UsersTable.copies_add hroom.guests hroom.guests_users huser hguest
  · intro other hother hadded
    rcases (hmem other).mp hadded with rfl | hold
    · exact (hroom.members_fresh huser hmember).2 other hother rfl
    · exact hroom.disjoint other hother hold

/-- A registered user who is no member may become one, and is no guest any more. -/
theorem let_in (huser : user ∈ users)
    (hmember : room.members.contains_by_client_fd user.socket_fd = false) : (room.let_in user).Consistent users := by
  obtain ⟨hname, hfd⟩ := hroom.members_fresh huser hmember
  have hmem : ∀ other, other ∈ room.members.add user ↔ other = user ∨ other ∈ room.members := fun other =>
    UsersTable.mem_add hroom.members hname
  constructor
  · exact hroom.members.add hname hfd
  · exact hroom.guests.remove
  · exact UsersTable.copies_add hroom.members hroom.members_users huser hmember
  · intro other hother
    exact hroom.guests_users other (UsersTable.mem_remove.mp hother).1
  · intro other hother hguest
    obtain ⟨hold, hne⟩ := UsersTable.mem_remove.mp hguest
    rcases (hmem other).mp hother with rfl | hmember
    · exact hne rfl
    · exact hroom.disjoint other hmember hold

/-- Members may leave. -/
theorem leave (username : CString) : (room.change_members fun members => members.remove username).Consistent users where
  members := hroom.members.remove
  guests := hroom.guests
  members_users member hmember := hroom.members_users member (UsersTable.mem_remove.mp hmember).1
  guests_users := hroom.guests_users
  disjoint member hmember := hroom.disjoint member (UsersTable.mem_remove.mp hmember).1

/-- Guests may be taken off the list. -/
theorem uninvite (username : CString) : (room.change_guests fun guests => guests.remove username).Consistent users where
  members := hroom.members
  guests := hroom.guests.remove
  members_users := hroom.members_users
  guests_users guest hguest := hroom.guests_users guest (UsersTable.mem_remove.mp hguest).1
  disjoint member hmember hguest := hroom.disjoint member hmember (UsersTable.mem_remove.mp hguest).1

/-- A room keeps up with a user table that only grows. -/
theorem mono {later : UsersTable} (hgrows : ∀ user ∈ users, user ∈ later) : room.Consistent later where
  members := hroom.members
  guests := hroom.guests
  members_users member hmember := hgrows member (hroom.members_users member hmember)
  guests_users guest hguest := hgrows guest (hroom.guests_users guest hguest)
  disjoint := hroom.disjoint

end Room.Consistent

/-- A new room with its creator as the only member. -/
theorem Room.consistent_created (huser : user ∈ users) (roomname : CString)
    (named : 0 < strlen roomname ∧ strlen roomname ≤ ROOM_ROOMNAME_MAX_LENGTH) :
    ((room_new roomname named).change_members fun members => members.add user).Consistent users := by
  have hmem : ∀ other, other ∈ users_table_init.add user ↔ other = user := by
    intro other
    rw [UsersTable.mem_add UsersTable.indexed_init fun other hother => absurd hother (UsersTable.not_mem_init other)]
    simp [UsersTable.not_mem_init]
  constructor
  · exact UsersTable.indexed_init.add (fun other hother => absurd hother (UsersTable.not_mem_init other))
      fun other hother => absurd hother (UsersTable.not_mem_init other)
  · exact UsersTable.indexed_init
  · intro other hother
    rwa [(hmem other).mp hother]
  · intro other hother
    exact absurd hother (UsersTable.not_mem_init other)
  · intro other _
    exact UsersTable.not_mem_init other

end Room

/-- A new room is consistent with all users. -/
theorem Room.consistent_new (users : UsersTable) (roomname : CString)
    (named : 0 < strlen roomname ∧ strlen roomname ≤ ROOM_ROOMNAME_MAX_LENGTH) :
    (room_new roomname named).Consistent users where
  members := UsersTable.indexed_init
  guests := UsersTable.indexed_init
  members_users other hother := absurd hother (UsersTable.not_mem_init other)
  guests_users other hother := absurd hother (UsersTable.not_mem_init other)
  disjoint other _ := UsersTable.not_mem_init other

theorem Server.users_quit (server : Server) (roomname : CString) (user : User) :
    (server.quit roomname user).users = server.users := by
  simp only [Server.quit]
  split
  · rfl
  · split <;> rfl

namespace Server.Consistent

variable {server : Server} {user : User} {roomname : CString} (hserver : server.Consistent)
include hserver

/-- A server stays consistent when one of its rooms changes consistently and keeps
its name. -/
theorem adjust_room {change : Room → Room} (hname : ∀ room, (change room).roomname = room.roomname)
    (hchange : ∀ room, server.rooms.lookup roomname = some room → room.Consistent server.users →
      (change room).Consistent server.users) :
    (server.adjust_room roomname change).Consistent := by
  constructor
  · exact hserver.users
  · intro other room hlookup
    obtain ⟨old, hold, heq⟩ := Option.map_eq_some_iff.mp ((HashTable.lookup_adjust ..).symm.trans hlookup)
    have hkey := hserver.keyed other old hold
    split at heq
    · rw [← heq, hname]
      exact hkey
    · rwa [← heq]
  · intro other room hlookup
    obtain ⟨old, hold, heq⟩ := Option.map_eq_some_iff.mp ((HashTable.lookup_adjust ..).symm.trans hlookup)
    have hroom := hserver.rooms other old hold
    split at heq
    · subst other
      rw [← heq]
      exact hchange old hold hroom
    · rw [← heq]
      exact hroom

/-- A server stays consistent when all rooms change together with the users. -/
theorem adjust_rooms {change : Room → Room} {users : UsersTable} (husers : users.Indexed)
    (hname : ∀ room, (change room).roomname = room.roomname)
    (hchange : ∀ room, room.Consistent server.users → (change room).Consistent users) :
    ({ server.adjust_rooms change with users := users } : Server).Consistent := by
  constructor
  · exact husers
  · intro other room hlookup
    obtain ⟨old, hold, rfl⟩ := Option.map_eq_some_iff.mp ((HashTable.lookup_mapEntries ..).symm.trans hlookup)
    rw [hname]
    exact hserver.keyed other old hold
  · intro other room hlookup
    obtain ⟨old, hold, rfl⟩ := Option.map_eq_some_iff.mp ((HashTable.lookup_mapEntries ..).symm.trans hlookup)
    exact hchange old (hserver.rooms other old hold)

theorem forget (username : CString) : (server.forget username).Consistent :=
  hserver.adjust_rooms hserver.users.remove (fun _ => rfl) fun _ hroom => hroom.forget username

/-- A server stays consistent without one of its users. -/
theorem evict (fd : Fd) : (server.evict fd).Consistent := by
  unfold Server.evict
  cases server.users.find_by_client_fd fd with
  | none => exact hserver
  | some user => exact hserver.forget user.username

omit hserver in
/-- A server stays consistent without some of its users. -/
theorem evict_all {server : Server} (hserver : server.Consistent) (fds : List Fd) :
    (server.evict_all fds).Consistent := by
  induction fds generalizing server with
  | nil => exact hserver
  | cons fd rest ih => exact ih (hserver.evict fd)

/-- A server stays consistent when a status changes everywhere. -/
theorem set_status (client_fd : Fd) (status : UserStatus) : (server.set_status client_fd status).Consistent :=
  hserver.adjust_rooms hserver.users.change_status_by_client_fd (fun _ => rfl)
    fun _ hroom => hroom.update_status hserver.users client_fd status

/-- A new user may register under a name and with a descriptor that nobody has. -/
theorem register (hname : server.users.find_by_username user.username = none)
    (hfd : server.users.find_by_client_fd user.socket_fd = none) : (server.register user).Consistent := by
  rw [hserver.users.find_by_username_eq_none_iff] at hname
  rw [hserver.users.find_by_client_fd_eq_none_iff] at hfd
  constructor
  · exact hserver.users.add hname hfd
  · exact hserver.keyed
  · intro roomname room hroom
    exact (hserver.rooms roomname room hroom).mono fun other hother =>
      (UsersTable.mem_add hserver.users hname).mpr (Or.inr hother)

/-- A consistent room may be stored under its name. -/
theorem store_room {room : Room} (hroom : room.Consistent server.users) :
    ({ server with rooms := server.rooms.insert room.roomname room } : Server).Consistent := by
  constructor
  · exact hserver.users
  · intro other found hlookup
    simp only [HashTable.lookup_insert_eq] at hlookup
    split at hlookup
    · cases hlookup
      exact Eq.symm ‹_›
    · exact hserver.keyed other found hlookup
  · intro other found hlookup
    simp only [HashTable.lookup_insert_eq] at hlookup
    split at hlookup
    · cases hlookup
      exact hroom
    · exact hserver.rooms other found hlookup

/-- A registered user may open a room with a name of a good length. -/
theorem create_room (huser : user ∈ server.users)
    (named : 0 < strlen roomname ∧ strlen roomname ≤ ROOM_ROOMNAME_MAX_LENGTH) :
    (server.create_room (room_new roomname named) user).Consistent :=
  hserver.store_room (Room.consistent_created huser roomname named)

theorem add_guest (huser : user ∈ server.users) (houtside : server.in_room roomname user = false) :
    (server.add_guest roomname user).Consistent := by
  refine hserver.adjust_room (fun _ => rfl) fun room hlookup hroom => ?_
  simp only [Server.in_room, hlookup, Bool.or_eq_false_iff] at houtside
  exact hroom.add_guest huser houtside.1 houtside.2

theorem let_in (huser : user ∈ server.users)
    (houtside : ∀ room, server.rooms.lookup roomname = some room →
      room.members.contains_by_client_fd user.socket_fd = false) :
    (server.let_in roomname user).Consistent :=
  hserver.adjust_room (fun _ => rfl) fun room hlookup hroom =>
    hroom.let_in huser (houtside room hlookup)

/-- A server stays consistent without one of its rooms. -/
theorem remove_room : ({ server with rooms := server.rooms.erase roomname } : Server).Consistent := by
  constructor
  · exact hserver.users
  · intro other room hlookup
    simp only [HashTable.lookup_erase_eq] at hlookup
    split at hlookup
    · cases hlookup
    · exact hserver.keyed other room hlookup
  · intro other room hlookup
    simp only [HashTable.lookup_erase_eq] at hlookup
    split at hlookup
    · cases hlookup
    · exact hserver.rooms other room hlookup

/-- A server stays consistent when a member leaves, with or without the room. -/
theorem quit (roomname : CString) (user : User) : (server.quit roomname user).Consistent := by
  have hleft : (server.adjust_room roomname
      (Room.change_members fun members => members.remove user.username)).Consistent :=
    hserver.adjust_room (fun _ => rfl) fun room _ hroom => hroom.leave user.username
  simp only [Server.quit]
  split
  · exact hleft
  · split
    · exact hleft.remove_room
    · exact hleft

end Server.Consistent

end ojalvo
