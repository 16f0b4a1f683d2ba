import OjalvoChat.Protocol.Presence
import OjalvoChat.Protocol.Starving

namespace ojalvo

/-- A request that fails, under some pattern of allocation failures, has changed
nothing and sent nothing. -/
def Atomic (net : Net) (world : World) (alloc : Nat → Bool) (client_fd : Fd) (msg_in : Message) : Prop :=
  ∀ after, (message_handler_process net msg_in client_fd).run { world with alloc } = .ok false after →
    after.server = world.server ∧ after.trace = world.trace

/-- A guest accepts an invitation, and the allocation of the confirmation fails: it
is the fourth, after two for the response and one for the new record. -/
def StarvedJoin (server : Server) (alloc : Nat → Bool) (client_fd : Fd) (msg_in : Message) : Prop :=
  msg_in.type = .JOIN_ROOM ∧ (alloc 0 = true ∧ alloc 1 = true ∧ alloc 3 = false) ∧
    ∃ roomname username, msg_in.roomname = some roomname ∧ server.Guest roomname client_fd username

section Join

variable {net : Net} {server : Server} {trace : List Effect} {alloc : Nat → Bool} {client_fd : Fd} {msg_in : Message}

variable {roomname : CString} {room : Room} {user : User}

section Found

variable (hroomname : msg_in.roomname = some roomname) (hroom : server.rooms.lookup roomname = some room)
  (hfound : server.users.find_by_client_fd client_fd = some user)
include hroomname hroom hfound

/-- JOIN_ROOM by a guest: the guest has been moved before the confirmation is
allocated. -/
theorem run_process_join_room_of_guest (hmember : room.members.contains_by_client_fd user.socket_fd = false)
    (hguest : room.guests.contains_by_client_fd user.socket_fd = true) (hfirst : alloc 0 = true)
    (hsecond : alloc 1 = true) :
    ∃ confirmed : Handler Bool, confirmed.Succeeds ∧ ∃ later,
      (process_join_room net msg_in client_fd).run ⟨server, [], trace, alloc⟩ =
        if alloc 3 then confirmed.run ⟨server.adjust_room roomname (Room.move user (alloc 2)), [], trace, later⟩
        else .ok false ⟨server.adjust_room roomname (Room.move user (alloc 2)), [], trace, later⟩ := by
  refine ⟨do
      let sent ← server_send net client_fd (response (.lit "JOIN_ROOM") (.lit "SUCCESS") roomname)
      if sent then
        let joined_name ← strdup roomname
        let username ← strdup user.username
        let joined_room := { message_init with type := .JOINED_ROOM, roomname := joined_name, username }
        room_table_with roomname (room_notify_members net joined_room client_fd) ()
        return true
      else process_disconnect net client_fd, ?_, fun later => alloc (later + 4), ?_⟩
  · refine succeeds_bind fun sent => ?_
    cases sent with
    | true => exact succeeds_bind fun _ => succeeds_bind fun _ => succeeds_bind fun _ => succeeds_return
    | false => exact succeeds_process_disconnect net client_fd
  · unfold process_join_room
    cases hthird : alloc 3 with
    | true =>
      simp [run_strdup_any, hroomname, hfirst, hsecond, hthird, hroom, users_table_find_by_client_fd, hfound,
        run_with_room_is_a_member, run_with_room_is_a_guest, hmember, hguest, run_with_room_from_guest_to_member_any]
    | false =>
      simp [run_strdup_any, hroomname, hfirst, hsecond, hthird, hroom, users_table_find_by_client_fd, hfound,
        run_with_room_is_a_member, run_with_room_is_a_guest, hmember, hguest, run_with_room_from_guest_to_member_any]

end Found

theorem Server.Consistent.uninvited_iff (hserver : server.Consistent) :
    server.Uninvited client_fd msg_in ↔
      ¬ ∃ roomname username, msg_in.roomname = some roomname ∧ server.Guest roomname client_fd username := by
  constructor
  · rintro huninvited ⟨roomname, username, hroomname, room, hroom, hlists⟩
    have hcopies := hserver.rooms roomname room hroom
    obtain ⟨user, hguest, hname, hfd⟩ := hcopies.guests.lists_iff.mp hlists
    have huser := hcopies.guests_users user hguest
    have hfound := hserver.users.find_by_client_fd_iff.mpr ⟨huser, hfd⟩
    have hcases := huninvited roomname user hroomname hfound
    simp only [hroom, Option.any_some] at hcases
    cases hcases with
    | inl hmember => exact hcopies.disjoint user ((hcopies.mem_members_iff hserver.users huser).mpr hmember) hguest
    | inr houtside =>
      rw [(hcopies.mem_guests_iff hserver.users huser).mp hguest] at houtside
      cases houtside
  · intro hnobody roomname user hroomname hfound
    obtain ⟨huser, hfd⟩ := hserver.users.find_by_client_fd_iff.mp hfound
    refine Or.inr (Bool.eq_false_iff.mpr fun hinside => hnobody ?_)
    obtain ⟨room, hroom, hcontains⟩ := (Option.any_eq_true _ _).mp hinside
    have hcopies := hserver.rooms roomname room hroom
    have hguest := (hcopies.mem_guests_iff hserver.users huser).mpr hcontains
    exact ⟨roomname, user.username, hroomname, room, hroom, hcopies.guests.lists_iff.mpr ⟨user, hguest, rfl, hfd⟩⟩

/-- Without his guest the room is another one. -/
theorem adjust_room_move_ne (hroom : server.rooms.lookup roomname = some room)
    (hguest : user ∈ room.guests) (allocated : Bool) :
    server.adjust_room roomname (Room.move user allocated) ≠ server := by
  intro hsame
  have hlookup : (server.adjust_room roomname (Room.move user allocated)).rooms.lookup roomname =
      some (Room.move user allocated room) := by
    rw [Server.adjust_room_rooms, HashTable.lookup_adjust_self, hroom, Option.map_some]
  rw [hsame, hroom] at hlookup
  have hguests : room.guests = room.guests.remove user.username := by
    have hmoved := congrArg Room.guests (Option.some.inj hlookup)
    unfold Room.move at hmoved
    split at hmoved
    · exact hmoved
    · exact hmoved
  rw [hguests] at hguest
  exact (UsersTable.mem_remove.mp hguest).2 rfl

/-- A guest's JOIN_ROOM reaches its handler. -/
theorem run_message_handler_process_of_join (hserver : server.Consistent) (hjoin : msg_in.type = .JOIN_ROOM)
    (hfound : server.users.find_by_client_fd client_fd = some user) :
    (message_handler_process net msg_in client_fd).run ⟨server, [], trace, alloc⟩ =
      (process_join_room net msg_in client_fd).run ⟨server, [], trace, alloc⟩ := by
  have hcontains := hserver.users.contains_by_client_fd_eq client_fd
  simp [message_handler_process, hjoin, users_table_contains_by_client_fd, hcontains, hfound]

/-- Without memory for the response nothing happens. -/
theorem run_process_join_room_without_response (hroomname : msg_in.roomname = some roomname)
    (hshort : ¬ (alloc 0 = true ∧ alloc 1 = true)) :
    (process_join_room net msg_in client_fd).run ⟨server, [], trace, alloc⟩ =
      .ok false ⟨server, [], trace, fun later => alloc (later + 2)⟩ := by
  cases hfirst : alloc 0 with
  | false => simp [process_join_room, run_strdup_any, hroomname, hfirst]
  | true =>
    have hsecond : alloc 1 = false := Bool.eq_false_iff.mpr fun hsecond => hshort ⟨hfirst, hsecond⟩
    simp [process_join_room, run_strdup_any, hroomname, hfirst, hsecond]

theorem atomic_iff (hserver : server.Consistent) :
    Atomic net (.idle server trace) alloc client_fd msg_in ↔ ¬ StarvedJoin server alloc client_fd msg_in := by
  by_cases hguest : msg_in.type = .JOIN_ROOM ∧
      ∃ roomname username, msg_in.roomname = some roomname ∧ server.Guest roomname client_fd username
  · obtain ⟨hjoin, roomname, username, hroomname, hseat⟩ := hguest
    obtain ⟨room, hroom, hlists⟩ := id hseat
    have hcopies := hserver.rooms roomname room hroom
    obtain ⟨user, hinside, hname, hfd⟩ := hcopies.guests.lists_iff.mp hlists
    have huser := hcopies.guests_users user hinside
    have hfound := hserver.users.find_by_client_fd_iff.mpr ⟨huser, hfd⟩
    have hmember : room.members.contains_by_client_fd user.socket_fd = false :=
      Bool.eq_false_iff.mpr fun hmember =>
        hcopies.disjoint user ((hcopies.mem_members_iff hserver.users huser).mpr hmember) hinside
    have hcontains := (hcopies.mem_guests_iff hserver.users huser).mp hinside
    have hrun : (message_handler_process net msg_in client_fd).run ⟨server, [], trace, alloc⟩ = _ :=
      run_message_handler_process_of_join hserver hjoin hfound
    by_cases hresponse : alloc 0 = true ∧ alloc 1 = true
    · obtain ⟨confirmed, hsucceeds, later, hjoined⟩ : ∃ confirmed : Handler Bool, confirmed.Succeeds ∧ ∃ later,
          (process_join_room net msg_in client_fd).run ⟨server, [], trace, alloc⟩ = _ :=
        run_process_join_room_of_guest hroomname hroom hfound hmember hcontains hresponse.1 hresponse.2
      rw [hjoined] at hrun
      cases hfourth : alloc 3 with
      | true =>
        rw [hfourth, if_pos rfl] at hrun
        refine iff_of_true (fun after hafter => ?_) fun hstarved => ?_
        · cases hsucceeds.result (hrun.symm.trans hafter)
        · cases hfourth.symm.trans hstarved.2.1.2.2
      | false =>
        rw [hfourth, if_neg Bool.false_ne_true] at hrun
        refine iff_of_false (fun hatomic => ?_) fun hnot => hnot ?_
        · exact adjust_room_move_ne hroom hinside (alloc 2) (hatomic _ hrun).1
        · exact ⟨hjoin, ⟨hresponse.1, hresponse.2, hfourth⟩, roomname, username, hroomname, hseat⟩
    · refine iff_of_true (fun after hafter => ?_) fun hstarved => hresponse ⟨hstarved.2.1.1, hstarved.2.1.2.1⟩
      rw [run_process_join_room_without_response hroomname hresponse] at hrun
      cases hrun.symm.trans hafter
      exact ⟨rfl, rfl⟩
  · refine iff_of_true (fun after hafter => ?_) fun hstarved => hguest ⟨hstarved.1, hstarved.2.2⟩
    have hrestores := restores_message_handler_process net msg_in client_fd ⟨server, [], trace, alloc⟩ after
    refine hrestores ⟨fun hcontains => ?_, fun hjoin => ?_⟩ hafter
    · rwa [hserver.users.contains_by_client_fd_eq] at hcontains
    · exact hserver.uninvited_iff.mpr fun hinvited => hguest ⟨hjoin, hinvited⟩

end Join

/-- A request that fails has done nothing, under every pattern of allocation
failures, except that a guest who joins can be lost. -/
theorem failures_are_atomic_iff {net : Net} {history : List (World × Event × (Nat → Bool))} {world : World}
    (hrun : StarvedRun net history world) (alloc : Nat → Bool) (client_fd : Fd) (msg_in : Message) :
    Atomic net world alloc client_fd msg_in ↔ ¬ StarvedJoin world.server alloc client_fd msg_in := by
  obtain ⟨hheld, hserver⟩ := starved_run_ready hrun
  obtain ⟨server, held, trace, spent⟩ := world
  cases hheld
  exact atomic_iff hserver

/-- The first allocation of a JOIN_ROOM by a guest fails. -/
theorem failures_are_atomic_iff_in_meeting :
    ∃ world, world.server.Registered 5 (.lit "luis") ∧
      Atomic reliable world (fun call => call != 0) 5
        { message_init with type := .JOIN_ROOM, roomname := some (.lit "sala") } := by
  obtain ⟨history, world, hrun, htest⟩ := exists_run_of_serve_all reliable (meeting.take 4)
    (fun _ world => world.server.Registered 5 (.lit "luis")) (by decide +kernel)
  obtain ⟨starved, hstarved⟩ := exists_starved_run hrun
  refine ⟨world, of_decide_eq_true htest, (failures_are_atomic_iff hstarved _ 5 _).mpr ?_⟩
  rintro ⟨-, ⟨hfirst, -⟩, -⟩
  cases hfirst

/-- The confirmation of a JOIN_ROOM cannot be allocated: the request fails, and the
guest is a member. -/
theorem starved_join_is_not_atomic :
    ¬ ∀ history world, StarvedRun reliable history world → ∀ alloc client_fd msg_in,
      Atomic reliable world alloc client_fd msg_in := by
  intro halways
  obtain ⟨history, world, hrun, htest⟩ := exists_run_of_serve_all reliable (meeting.take 4)
    (fun _ world => (world.server.rooms.lookup (.lit "sala")).any fun room =>
      room.guests.Lists 5 (.lit "luis")) (by decide +kernel)
  obtain ⟨room, hroom, hlists⟩ := (Option.any_eq_true _ _).mp htest
  obtain ⟨hidle, hserver⟩ := run_ready hrun
  obtain ⟨starved, hstarved⟩ := exists_starved_run hrun
  have hatomic := halways starved world hstarved (fun call => call != 3) 5
    { message_init with type := .JOIN_ROOM, roomname := some (.lit "sala") }
  rw [hidle] at hatomic
  exact atomic_iff hserver |>.mp hatomic
    ⟨rfl, ⟨rfl, rfl, rfl⟩, .lit "sala", .lit "luis", rfl, room, hroom, of_decide_eq_true hlists⟩

end ojalvo
