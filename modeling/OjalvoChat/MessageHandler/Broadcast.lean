import OjalvoChat.MessageHandler.Disconnect
import OjalvoChat.RoomTable.Runs

namespace ojalvo

/-- The descriptors that a broadcast over these records writes to. -/
def recipients (users : List User) (client_fd : Fd) : List Fd :=
  (users.filter fun user => user.socket_fd ≠ client_fd).map User.socket_fd

/-- The sends of one message to several descriptors, each judged by the network
after those before it. -/
def broadcast (net : Net) (message : Message) (trace : List Effect) (fds : List Fd) : List Effect :=
  match fds with
  | [] => []
  | fd :: rest =>
    let effect := Effect.send fd message (net trace fd message)
    effect :: broadcast net message (trace ++ [effect]) rest

/-- The descriptors of the sends that failed, in order. -/
def failures (effects : List Effect) : List Fd :=
  effects.filterMap fun effect =>
    match effect with
    | .send fd _ false => some fd
    | _ => none

def Room.forget (username : CString) (room : Room) : Room :=
  { room with guests := room.guests.remove username, members := room.members.remove username }

theorem mem_recipients {users : List User} {client_fd fd : Fd} :
    fd ∈ recipients users client_fd ↔ fd ≠ client_fd ∧ ∃ user ∈ users, user.socket_fd = fd := by
  simp only [recipients, List.mem_map, List.mem_filter, ne_eq, decide_eq_true_eq]
  constructor
  · rintro ⟨user, ⟨hmem, hne⟩, rfl⟩
    exact ⟨hne, user, hmem, rfl⟩
  · rintro ⟨hne, user, hmem, rfl⟩
    exact ⟨user, ⟨hmem, hne⟩, rfl⟩

/-- Every effect of a broadcast is a send of its message to a recipient. -/
theorem exists_of_mem_broadcast {net : Net} {message : Message} {trace : List Effect} {fds : List Fd}
    {effect : Effect} (hmem : effect ∈ broadcast net message trace fds) :
    ∃ fd ∈ fds, ∃ sent, effect = .send fd message sent := by
  induction fds generalizing trace with
  | nil => cases hmem
  | cons fd rest ih =>
    rcases List.mem_cons.mp hmem with rfl | hrest
    · exact ⟨fd, List.mem_cons_self, _, rfl⟩
    · obtain ⟨other, hother, sent, rfl⟩ := ih hrest
      exact ⟨other, List.mem_cons_of_mem fd hother, sent, rfl⟩

theorem mem_failures {effects : List Effect} {fd : Fd} :
    fd ∈ failures effects ↔ ∃ message, Effect.send fd message false ∈ effects := by
  simp only [failures, List.mem_filterMap]
  constructor
  · rintro ⟨effect, hmem, heq⟩
    split at heq
    · cases heq
      exact ⟨_, hmem⟩
    · cases heq
  · rintro ⟨message, hmem⟩
    exact ⟨_, hmem, rfl⟩

/-- Only recipients fail. -/
theorem mem_of_mem_failures_broadcast {net : Net} {message : Message} {trace : List Effect} {fds : List Fd} {fd : Fd}
    (hmem : fd ∈ failures (broadcast net message trace fds)) : fd ∈ fds := by
  obtain ⟨_, hsend⟩ := mem_failures.mp hmem
  obtain ⟨other, hother, _, heq⟩ := exists_of_mem_broadcast hsend
  cases heq
  exact hother

theorem recipients_cons_self {user : User} {rest : List User} {client_fd : Fd} (hself : user.socket_fd = client_fd) :
    recipients (user :: rest) client_fd = recipients rest client_fd := by
  simp [recipients, hself]

theorem recipients_cons_other {user : User} {rest : List User} {client_fd : Fd} (hother : user.socket_fd ≠ client_fd) :
    recipients (user :: rest) client_fd = user.socket_fd :: recipients rest client_fd := by
  simp [recipients, hother]

theorem length_recipients_le (users : List User) (client_fd : Fd) :
    (recipients users client_fd).length ≤ users.length := by
  rw [recipients, List.length_map]
  exact List.length_filter_le _ users

section Failures

variable {net : Net} {message : Message} {trace : List Effect} {fd : Fd} {rest : List Fd}

theorem failures_broadcast_cons_sent (hsent : net trace fd message = true) :
    failures (broadcast net message trace (fd :: rest)) =
      failures (broadcast net message (trace ++ [.send fd message true]) rest) := by
  rw [broadcast, hsent]
  rfl

theorem failures_broadcast_cons_failed (hsent : net trace fd message = false) :
    failures (broadcast net message trace (fd :: rest)) =
      fd :: failures (broadcast net message (trace ++ [.send fd message false]) rest) := by
  rw [broadcast, hsent]
  rfl

theorem length_failures_broadcast_le (net : Net) (message : Message) (trace : List Effect) (fds : List Fd) :
    (failures (broadcast net message trace fds)).length ≤ fds.length := by
  induction fds generalizing trace with
  | nil => exact le_rfl
  | cons fd rest ih =>
    cases hsent : net trace fd message with
    | true =>
      rw [failures_broadcast_cons_sent hsent]
      exact (ih _).trans (Nat.le_succ _)
    | false =>
      rw [failures_broadcast_cons_failed hsent]
      exact Nat.succ_le_succ (ih _)

/-- No more sends fail than there are records. -/
theorem length_failures_le (net : Net) (message : Message) (client_fd : Fd) (trace : List Effect) (users : List User) :
    (failures (broadcast net message trace (recipients users client_fd))).length ≤ users.length :=
  (length_failures_broadcast_le net message trace _).trans (length_recipients_le users client_fd)

end Failures

section Cells

variable (failed : List Fd) (free : Nat)

/-- The next position is inside the array while a cell is free. -/
theorem cell_free : failed.length < (failed.map Int.ofNat ++ List.replicate (free + 1) (-1)).length := by
  simp

/-- The next failed descriptor goes to the first free cell. -/
theorem fill_cell (fd : Fd) :
    (⟨(failed.map Int.ofNat ++ List.replicate (free + 1) (-1)).set failed.length fd, failed.length + 1⟩ :
        SendContext) =
      ⟨(failed ++ [fd]).map Int.ofNat ++ List.replicate free (-1), (failed ++ [fd]).length⟩ := by
  rw [List.set_append_right _ _ (by simp), List.length_map, Nat.sub_self, List.replicate_succ,
    List.set_cons_zero, List.map_append, List.append_assoc, List.length_append]
  rfl

end Cells

/-- Removes every record under a name, in the rooms and in `server->users`. -/
def Server.forget (server : Server) (username : CString) : Server :=
  { server.adjust_rooms (Room.forget username) with users := server.users.remove username }

/-- What happens to the tables when a send to a descriptor has failed. -/
def Server.evict (server : Server) (fd : Fd) : Server :=
  match server.users.find_by_client_fd fd with
  | none => server
  | some user => server.forget user.username

def Server.evict_all (server : Server) (fds : List Fd) : Server := fds.foldl Server.evict server

section RunsOfVisitors

variable (server : Server) (held : List Mutex) (trace : List Effect) (alloc : Nat → Bool)

theorem run_room_remove_data (user : User) (room : RoomPtr) (hroom : room ∈ server.rooms) :
    (room_remove_data user room).run ⟨server, [.rooms], trace, alloc⟩ =
      .ok () ⟨server.adjust_room room (Room.forget user.username), [.rooms], trace, alloc⟩ := by
  obtain ⟨found, hfound⟩ := HashTable.exists_lookup_of_mem hroom
  simp only [room_remove_data, users_table_remove, EStateM.run_bind, run_users_table_update, List.mem_singleton,
    reduceCtorEq, if_false, UsersTablePtr.read_guests, UsersTablePtr.read_members, hfound, Option.map_some,
    UsersTablePtr.modify_guests, UsersTablePtr.modify_members, Server.adjust_room_rooms,
    HashTable.lookup_adjust_self, Server.adjust_room_adjust_room, EStateM.run_pure]
  rfl

/-- The visitor of a broadcast, when the array has a free cell for every send that
fails: it sends to the recipients and collects those that fail. -/
theorem run_send_visits (net : Net) (message : Message) (client_fd : Fd) (users : List User) (failed : List Fd)
    (cells : Nat) (hcells : (failures (broadcast net message trace (recipients users client_fd))).length ≤ cells) :
    (visit_all (send_if_is_not_self net message client_fd) users
        ⟨failed.map Int.ofNat ++ List.replicate cells (-1), failed.length⟩).run ⟨server, held, trace, alloc⟩ =
      let effects := broadcast net message trace (recipients users client_fd)
      .ok
        ⟨(failed ++ failures effects).map Int.ofNat ++ List.replicate (cells - (failures effects).length) (-1),
          (failed ++ failures effects).length⟩
        ⟨server, held, trace ++ effects, alloc⟩ := by
  induction users generalizing trace failed cells with
  | nil => simp [visit_all, recipients, broadcast, failures]
  | cons user rest ih =>
    by_cases hself : user.socket_fd = client_fd
    · rw [recipients_cons_self hself] at hcells ⊢
      simp only [visit_all, send_if_is_not_self, if_pos hself, EStateM.run_bind, EStateM.run_pure]
      exact ih trace failed cells hcells
    · rw [recipients_cons_other hself] at hcells ⊢
      simp only [visit_all, send_if_is_not_self, if_neg hself, EStateM.run_bind, run_server_send, broadcast]
      cases hsent : net trace user.socket_fd message with
      | true =>
        rw [failures_broadcast_cons_sent hsent] at hcells
        simp only [if_true, EStateM.run_pure]
        rw [ih _ failed cells hcells]
        simp [failures]
      | false =>
        rw [failures_broadcast_cons_failed hsent] at hcells
        obtain ⟨free, rfl⟩ : ∃ free, cells = free + 1 := ⟨cells - 1, by simp at hcells; omega⟩
        simp only [Bool.false_eq_true, if_false, cell_free failed free, if_true, EStateM.run_pure,
          fill_cell failed free user.socket_fd]
        rw [ih _ (failed ++ [user.socket_fd]) free (by simpa using hcells)]
        simp [failures]

/-- With more failed sends than cells the visitor leaves the array. -/
theorem run_send_visits_overrun (net : Net) (message : Message) (client_fd : Fd) (users : List User) (failed : List Fd)
    (cells : Nat) (hcells : cells < (failures (broadcast net message trace (recipients users client_fd))).length) :
    ∃ stopped, (visit_all (send_if_is_not_self net message client_fd) users
        ⟨failed.map Int.ofNat ++ List.replicate cells (-1), failed.length⟩).run ⟨server, held, trace, alloc⟩ =
      .error .out_of_bounds stopped := by
  induction users generalizing trace failed cells with
  | nil => cases hcells
  | cons user rest ih =>
    by_cases hself : user.socket_fd = client_fd
    · rw [recipients_cons_self hself] at hcells
      simp only [visit_all, send_if_is_not_self, if_pos hself, EStateM.run_bind, EStateM.run_pure]
      exact ih trace failed cells hcells
    · rw [recipients_cons_other hself] at hcells
      simp only [visit_all, send_if_is_not_self, if_neg hself, EStateM.run_bind, run_server_send]
      cases hsent : net trace user.socket_fd message with
      | true =>
        rw [failures_broadcast_cons_sent hsent] at hcells
        simp only [if_true, EStateM.run_pure]
        exact ih _ failed cells hcells
      | false =>
        rw [failures_broadcast_cons_failed hsent] at hcells
        cases cells with
        | zero => simp
        | succ free =>
          simp only [Bool.false_eq_true, if_false, cell_free failed free, if_true, EStateM.run_pure,
            fill_cell failed free user.socket_fd]
          exact ih _ (failed ++ [user.socket_fd]) free (by simpa using hcells)

/-- Over `server->users` the loop removes the failed users from every table. -/
theorem run_disconnect_failed_users (fds : List Fd) (room : Nat) :
    (disconnect_failed .server_users (fds.map Int.ofNat ++ List.replicate (room + 1) (-1))).run
        ⟨server, [], trace, alloc⟩ =
      .ok () ⟨server.evict_all fds, [], trace, alloc⟩ := by
  induction fds generalizing server with
  | nil => simp [disconnect_failed, List.replicate_succ, Server.evict_all]
  | cons fd rest ih =>
    have hcell : Int.ofNat fd ≠ -1 := by
      simp only [Int.ofNat_eq_natCast]
      omega
    have hfd : (Int.ofNat fd).toNat = fd := rfl
    have hvisit := fun (user : User) => run_room_table_for_each server trace alloc (room_remove_data user)
      (Room.forget user.username) fun server room => run_room_remove_data server trace alloc user room
    simp only [List.map_cons, List.cons_append, disconnect_failed, if_neg hcell, hfd, Program.run_bind,
      Program.run_lift, users_table_find_by_client_fd, run_users_table_query, List.not_mem_nil, if_false,
      UsersTablePtr.read_server_users, Server.evict_all, List.foldl_cons, Server.evict]
    cases server.users.find_by_client_fd fd with
    | none => exact ih server
    | some user =>
      simp only [Program.run_bind, Program.run_lift, hvisit, users_table_remove, run_users_table_update,
        List.not_mem_nil, if_false, UsersTablePtr.read_server_users, Server.adjust_rooms_users,
        UsersTablePtr.modify_server_users]
      exact ih (server.forget user.username)

/-- With `server->rooms` locked the first failed descriptor that is found in the
table blocks the loop. -/
theorem run_disconnect_failed_blocked (table : UsersTablePtr) (contents : UsersTable) (fd : Fd) (rest : List Int)
    (hread : table.read server = some contents) (hfound : (contents.find_by_client_fd fd).isSome) :
    (disconnect_failed table (Int.ofNat fd :: rest)).run ⟨server, [.rooms], trace, alloc⟩ =
      .error (.blocked .rooms) ⟨server, [.rooms], trace, alloc⟩ := by
  have hfd : (Int.ofNat fd).toNat = fd := rfl
  obtain ⟨user, huser⟩ := Option.isSome_iff_exists.mp hfound
  simp only [disconnect_failed, hfd, Program.run_bind, Program.run_lift,
    users_table_find_by_client_fd, run_users_table_query, List.mem_singleton, reduceCtorEq, if_false, hread, huser,
    run_room_table_for_each_blocked server [.rooms] trace alloc (room_remove_data user) List.mem_cons_self]

end RunsOfVisitors

section RunsOfNotify

variable (server : Server) (trace : List Effect) (alloc : Nat → Bool) (net : Net) (message : Message)
  (client_fd : Fd)

/-- A broadcast over `server->users`: one send to every recipient, then the
eviction of those that failed. -/
theorem run_notify_users :
    (notify_all_but_self net .server_users message client_fd).run ⟨server, [], trace, alloc⟩ =
      let effects := broadcast net message trace (recipients server.users.entries client_fd)
      .ok () ⟨server.evict_all (failures effects), [], trace ++ effects, alloc⟩ := by
  have hvisits := run_send_visits server [.users_table .server_users] trace alloc net message client_fd
    server.users.entries [] (server.users.entries.length + 1)
    ((length_failures_le net message client_fd trace _).trans (Nat.le_succ _))
  simp only [List.map_nil, List.nil_append, List.length_nil,
    Nat.succ_sub (length_failures_le net message client_fd trace server.users.entries)] at hvisits
  simp only [notify_all_but_self, Program.run_bind, Program.run_lift, run_users_table_size,
    UsersTablePtr.read_server_users, users_table_for_each, EStateM.run_bind, run_g_mutex_lock, List.not_mem_nil,
    if_false, run_users_table_load, hvisits, run_g_mutex_unlock, EStateM.run_pure, List.erase_cons_head,
    run_disconnect_failed_users]

/-- A broadcast over the members of a room, inside the visitor: any failed send
blocks the thread on `server->rooms`. -/
theorem run_notify_members (roomname : CString) (room : Room) (hroom : server.rooms.lookup roomname = some room)
    (hindexed : ∀ user ∈ room.members.entries, (room.members.find_by_client_fd user.socket_fd).isSome) :
    (notify_all_but_self net (.members roomname) message client_fd).run ⟨server, [.rooms], trace, alloc⟩ =
      let effects := broadcast net message trace (recipients room.members.entries client_fd)
      if failures effects = [] then .ok () ⟨server, [.rooms], trace ++ effects, alloc⟩
      else .error (.blocked .rooms) ⟨server, [.rooms], trace ++ effects, alloc⟩ := by
  have hvisits := run_send_visits server [.users_table (.members roomname), .rooms] trace alloc net message client_fd
    room.members.entries [] (room.members.entries.length + 1)
    ((length_failures_le net message client_fd trace _).trans (Nat.le_succ _))
  simp only [List.map_nil, List.nil_append, List.length_nil,
    Nat.succ_sub (length_failures_le net message client_fd trace room.members.entries)] at hvisits
  have hread : (UsersTablePtr.members roomname).read server = some room.members := by simp [hroom]
  simp only [notify_all_but_self, Program.run_bind, Program.run_lift, run_users_table_size, hread,
    users_table_for_each, EStateM.run_bind, run_g_mutex_lock, List.mem_singleton, reduceCtorEq, if_false,
    run_users_table_load, hvisits, run_g_mutex_unlock, EStateM.run_pure, List.erase_cons_head]
  cases hfailed : failures (broadcast net message trace (recipients room.members.entries client_fd)) with
  | nil => simp [disconnect_failed, List.replicate_succ]
  | cons fd rest =>
    have hfd : fd ∈ recipients room.members.entries client_fd :=
      mem_of_mem_failures_broadcast (by rw [hfailed]; exact List.mem_cons_self)
    obtain ⟨_, user, huser, rfl⟩ := mem_recipients.mp hfd
    have hfound := hindexed user huser
    simp only [List.map_cons, List.cons_append, reduceCtorEq, if_false]
    exact run_disconnect_failed_blocked server _ alloc (.members roomname) room.members _ _ hread hfound

end RunsOfNotify

end ojalvo
