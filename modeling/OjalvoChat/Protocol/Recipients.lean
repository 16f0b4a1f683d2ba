import OjalvoChat.Protocol.Permitted

namespace ojalvo

section Entries

variable {contents : UsersTable} {user : User}

/-- A new record is visited first. -/
theorem UsersTable.entries_add (hindexed : contents.Indexed)
    (hname : ∀ other ∈ contents, other.username ≠ user.username) :
    (contents.add user).entries = user :: contents.entries := by
  have hfresh := hindexed.find_by_username_eq_none_iff.mpr hname
  have hlookup : contents.table.lookup user.username = none := hfresh
  have habsent : user.username ∉ contents.table.entries.keys := AList.lookup_eq_none.mp hlookup
  simp only [entries, add, hlookup, HashTable.values, AList.entries_insert, List.map_cons,
    List.kerase_of_notMem_keys habsent]

/-- Removing the client itself leaves the recipients of a broadcast as they
are. -/
theorem recipients_remove (hmem : user ∈ contents) :
    recipients (contents.remove user.username).entries user.socket_fd = recipients contents.entries user.socket_fd := by
  have hlookup : contents.table.lookup user.username = some user := hmem
  simp only [UsersTable.remove, hlookup, UsersTable.entries, recipients]
  rw [HashTable.filter_values_erase]
  intro found hfound
  rw [hlookup] at hfound
  cases hfound
  simp

theorem nodup_recipients (hindexed : contents.Indexed) (client_fd : Fd) :
    (recipients contents.entries client_fd).Nodup :=
  hindexed.nodup_socket_fds.sublist (List.filter_sublist.map User.socket_fd)

end Entries

section Rooms

variable {server : Server} {roomname : CString} {room : Room} {user : User} (hserver : server.Consistent)
  (hroom : server.rooms.lookup roomname = some room)
include hserver hroom

theorem Server.Consistent.recipients_let_in (huser : user ∈ server.users)
    (houtside : room.members.contains_by_client_fd user.socket_fd = false) :
    (server.let_in roomname user).room_recipients roomname user.socket_fd =
      recipients room.members.entries user.socket_fd := by
  have hcopies := hserver.rooms roomname room hroom
  obtain ⟨hname, _⟩ := hcopies.members_fresh huser houtside
  simp [Server.room_recipients, Server.let_in, hroom, Room.let_in, UsersTable.entries_add hcopies.members hname,
    recipients]

theorem Server.Consistent.recipients_quit (hmember : user ∈ room.members) :
    (server.quit roomname user).room_recipients roomname user.socket_fd =
      recipients room.members.entries user.socket_fd := by
  have hcopies := hserver.rooms roomname room hroom
  rw [← recipients_remove hmember]
  by_cases hempty : (room.members.remove user.username).entries.length = 0
  · have hnobody : (room.members.remove user.username).entries = [] := List.eq_nil_of_length_eq_zero hempty
    simp [Server.quit, Server.room_recipients, hroom, Room.change_members, hnobody, recipients]
  · simp [Server.quit, Server.room_recipients, hroom, Room.change_members, List.length_eq_zero_iff.not.mp hempty]

end Rooms

end ojalvo
