import OjalvoChat.Protocol.Runs

namespace ojalvo

/-- Both lookups of a table find its entries, each under its own name and under
its own descriptor, and nothing else. -/
structure UsersTable.Agrees (contents : UsersTable) : Prop where
  by_username : ∀ username user,
    contents.find_by_username username = some user ↔ user ∈ contents.entries ∧ user.username = username
  by_client_fd : ∀ fd user,
    contents.find_by_client_fd fd = some user ↔ user ∈ contents.entries ∧ user.socket_fd = fd

theorem UsersTable.Indexed.agrees {contents : UsersTable} (hindexed : contents.Indexed) : contents.Agrees where
  by_username username user := by rw [hindexed.find_by_username_iff, hindexed.mem_entries]
  by_client_fd fd user := by rw [hindexed.find_by_client_fd_iff, hindexed.mem_entries]

/-- Rooms hold copies of registered users, and a user is a member or a guest of
a room but never both. -/
structure Room.Copies (users : UsersTable) (room : Room) : Prop where
  members : ∀ member ∈ room.members.entries, member ∈ users.entries
  guests : ∀ guest ∈ room.guests.entries, guest ∈ users.entries
  disjoint : ∀ member ∈ room.members.entries, ∀ guest ∈ room.guests.entries,
    member.username ≠ guest.username ∧ member.socket_fd ≠ guest.socket_fd

theorem Room.Consistent.copies {users : UsersTable} {room : Room} (hroom : room.Consistent users)
    (hindexed : users.Indexed) : room.Copies users where
  members member hmember :=
    hindexed.mem_entries.mpr (hroom.members_users member (hroom.members.mem_entries.mp hmember))
  guests guest hguest := hindexed.mem_entries.mpr (hroom.guests_users guest (hroom.guests.mem_entries.mp hguest))
  disjoint member hmember guest hguest := by
    have hin := hroom.members.mem_entries.mp hmember
    have hinvited := hroom.guests.mem_entries.mp hguest
    constructor
    · intro hname
      have heq := UsersTable.eq_of_username_eq (hroom.members_users member hin) (hroom.guests_users guest hinvited)
        hname
      exact hroom.disjoint member hin (heq ▸ hinvited)
    · intro hfd
      have heq := hindexed.eq_of_socket_fd_eq (hroom.members_users member hin) (hroom.guests_users guest hinvited) hfd
      exact hroom.disjoint member hin (heq ▸ hinvited)

/-- After every run all tables agree with each other. -/
theorem tables_agree_after_run {net : Net} {history : List (World × Event)} {world : World}
    (hrun : ServerRun net history world) :
    world.server.users.Agrees ∧
      ∀ roomname room, world.server.rooms.lookup roomname = some room →
        room.Copies world.server.users ∧ room.members.Agrees ∧ room.guests.Agrees := by
  have hserver := (run_ready hrun).consistent
  refine ⟨hserver.users.agrees, fun roomname room hroom => ?_⟩
  have hcopies := hserver.rooms roomname room hroom
  exact ⟨hcopies.copies hserver.users, hcopies.members.agrees, hcopies.guests.agrees⟩

/-- A room with a member who is away and a guest. -/
theorem tables_agree_after_invitation :
    ∃ world : World,
      ((world.server.rooms.lookup (.lit "sala")).any fun room =>
        room.members.entries.length = 1 ∧ room.guests.entries.length = 1) = true ∧
      world.server.users.Agrees ∧
        ∀ roomname room, world.server.rooms.lookup roomname = some room →
          room.Copies world.server.users ∧ room.members.Agrees ∧ room.guests.Agrees := by
  obtain ⟨history, world, hrun, htest⟩ := exists_run_of_serve_all reliable
    [
      .request 4 { message_init with type := .IDENTIFY, username := some (.lit "ana") },
      .request 5 { message_init with type := .IDENTIFY, username := some (.lit "luis") },
      .request 4 { message_init with type := .NEW_ROOM, roomname := some (.lit "sala") },
      .request 4 { message_init with
        type := .INVITE, roomname := some (.lit "sala"), usernames := some [.lit "luis"] },
      .request 4 { message_init with type := .STATUS, status := some (.lit "AWAY") }]
    (fun _ world => (world.server.rooms.lookup (.lit "sala")).any fun room =>
      room.members.entries.length = 1 ∧ room.guests.entries.length = 1)
    (by decide +kernel)
  exact ⟨world, htest, tables_agree_after_run hrun⟩

end ojalvo
