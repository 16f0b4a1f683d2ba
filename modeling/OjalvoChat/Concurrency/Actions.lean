import OjalvoChat.Concurrency.Deed
import OjalvoChat.Protocol.Refinement

namespace ojalvo

section Simple

variable {net : Net}

@[simp] theorem Deed.perform_look (world : World) : Deed.perform .look world = world := by
  simp [Deed.perform, Deed.apply, Deed.effects]

/-- A copy of a text is the text. -/
theorem reads_strdup (text : Option CString) : Reads net (strdup text) fun _ value => value = text := by
  cases text with
  | none => exact fun _ _ => trivial
  | some text => exact does_of_ok fun server held trace _ => ⟨some text, .look, by simp, rfl, rfl⟩

theorem reads_strndup (text : Option CString) (limit : Nat) :
    Reads net (strndup text limit) fun _ value => value = text.map fun found => found.cut limit := by
  cases text with
  | none => exact fun _ _ => trivial
  | some text => exact reads_strdup (some (text.cut limit))

/-- A send is one effect, with the answer of the network. -/
theorem does_server_send (client_fd : Fd) (message : Message) :
    Does net (server_send net client_fd message) fun _ value deed =>
      ∃ trace, value = net trace client_fd message ∧ deed = .tell [.send client_fd message value] :=
  does_of_ok fun _ _ trace _ => ⟨_, .tell [_], rfl, trace, rfl, rfl⟩

/-- A disconnection closes its descriptor. -/
theorem does_server_disconnect_client (client_fd : Fd) :
    Does net (server_disconnect_client client_fd) fun _ _ deed => deed = .tell [.close client_fd] :=
  does_of_ok fun _ _ _ _ => ⟨(), .tell [_], rfl, rfl⟩

end Simple

section Users

variable {net : Net}

/-- The mutexes of the users are free between two actions. -/
theorem not_mem_held {held : List Mutex} (hheld : held = [] ∨ held = [.rooms]) (table : UsersTablePtr) :
    .users_table table ∉ held := by
  rcases hheld with rfl | rfl <;> simp

/-- A question to the users is answered from the table of the moment. -/
theorem reads_users_table_query {A : Type} (query : UsersTable → A) :
    Reads net (users_table_query .server_users query) fun server value => value = query server.users :=
  does_of_ok fun server held trace hheld =>
    ⟨query server.users, .look, by simp [not_mem_held hheld], rfl, rfl⟩

theorem reads_users_table_size :
    Reads net (users_table_size .server_users) fun server value => value = server.users.entries.length :=
  does_of_ok fun server held trace _ => ⟨server.users.entries.length, .look, by simp, rfl, rfl⟩

/-- The search needs a name. -/
theorem reads_users_table_find_by_username (username : Option CString) :
    Reads net (users_table_find_by_username .server_users username) fun server value =>
      ∃ name, username = some name ∧ value = server.users.find_by_username name := by
  cases username with
  | none => exact fun _ _ => trivial
  | some name =>
    exact does_of_ok fun server held trace hheld => ⟨server.users.find_by_username name, .look,
      by simp [users_table_find_by_username, not_mem_held hheld], ⟨name, rfl, rfl⟩, rfl⟩

/-- A removal takes the name out of the users. -/
theorem does_users_table_remove (username : CString) :
    Does net (users_table_remove .server_users username) fun _ _ deed => deed = .unregister username :=
  does_of_ok fun server held trace hheld => ⟨(server.users.find_by_username username).isSome, .unregister username,
    by simp [users_table_remove, not_mem_held hheld, Deed.perform, Deed.apply, Deed.effects], rfl⟩

theorem does_users_table_change_status (client_fd : Fd) (status : UserStatus) :
    Does net (users_table_change_status_by_client_fd .server_users client_fd status) fun _ _ deed =>
      deed = .mark client_fd status :=
  does_of_ok fun server held trace hheld => ⟨server.users.contains_by_client_fd client_fd, .mark client_fd status,
    by simp [users_table_change_status_by_client_fd, not_mem_held hheld, Deed.perform, Deed.apply, Deed.effects], rfl⟩

/-- Adding a user either registers a new record or leaves the table alone. -/
theorem does_users_table_add (username : CString) (socket_fd : Fd) :
    Does net (users_table_add .server_users username socket_fd) fun server value deed =>
      (value = true ∧ server.users.find_by_username username = none ∧
        ∃ user, user_init username socket_fd = some user ∧ deed = .register user) ∨
      (value = false ∧ deed = .look ∧
        (user_init username socket_fd = none ∨ (server.users.find_by_username username).isSome)) := by
  refine does_of_ok fun server held trace hheld => ?_
  rw [users_table_add, run_users_table_add_user]
  cases hinit : user_init username socket_fd with
  | none => exact ⟨false, .look, by simp, Or.inr ⟨rfl, rfl, Or.inl rfl⟩⟩
  | some user =>
    obtain ⟨rfl, -, -⟩ := user_init_eq_some_iff.mp hinit
    simp only [run_users_table_update, if_neg (not_mem_held hheld _), UsersTablePtr.read_server_users,
      UsersTablePtr.modify_server_users, id]
    cases hfound : server.users.find_by_username user.username with
    | none =>
      exact ⟨true, .register user, by simp [Deed.perform, Deed.apply, Deed.effects, Server.register],
        Or.inl ⟨rfl, rfl, user, rfl, rfl⟩⟩
    | some found =>
      have hsame := UsersTable.add_of_taken hfound
      exact ⟨false, .look, by simp [hsame], Or.inr ⟨rfl, rfl, Or.inr rfl⟩⟩

end Users

section Rooms

variable {net : Net}

/-- Whether there is a room is answered from the table of the moment. -/
theorem reads_room_table_contains (roomname : CString) :
    Reads net (room_table_contains roomname) fun server value => value = (server.rooms.lookup roomname).isSome :=
  does_of_lock (fun server trace => ⟨_, .look, by simp, rfl, rfl⟩) fun server trace => by simp

/-- A room is removed whoever is in it. -/
theorem does_room_table_remove (roomname : CString) :
    Does net (room_table_remove roomname) fun _ _ deed => deed = .drop roomname :=
  does_of_lock
    (fun server trace => ⟨(server.rooms.lookup roomname).isSome, .drop roomname,
      by simp [Deed.perform, Deed.apply, Deed.effects], rfl⟩)
    fun server trace => by simp

/-- While the rooms are locked only a room with a bad name is refused at once. -/
theorem run_room_table_add_blocked (roomname : CString) (server : Server) (trace : List Effect) :
    (room_table_add roomname).run ⟨server, [.rooms], trace, allocating⟩ =
      if 0 < strlen roomname ∧ strlen roomname ≤ ROOM_ROOMNAME_MAX_LENGTH then
        .error (.blocked .rooms) ⟨server, [.rooms], trace, allocating⟩
      else .ok false ⟨server, [.rooms], trace, allocating⟩ := by
  by_cases hnamed : 0 < strlen roomname ∧ strlen roomname ≤ ROOM_ROOMNAME_MAX_LENGTH
  · simp [room_table_add, room_init, hnamed]
  · simp [room_table_add, room_init, hnamed]

/-- Adding a room either opens a new one or leaves the table alone. -/
theorem does_room_table_add (roomname : CString) :
    Does net (room_table_add roomname) fun server value deed =>
      (value = true ∧ server.rooms.lookup roomname = none ∧ ∃ named, deed = .open_room roomname named) ∨
      (value = false ∧ deed = .look ∧
        (¬ (0 < strlen roomname ∧ strlen roomname ≤ ROOM_ROOMNAME_MAX_LENGTH) ∨
          (server.rooms.lookup roomname).isSome)) := by
  by_cases hnamed : 0 < strlen roomname ∧ strlen roomname ≤ ROOM_ROOMNAME_MAX_LENGTH
  · refine does_of_lock (fun server trace => ?_) fun server trace => by rw [run_room_table_add_blocked, if_pos hnamed]
    rw [run_room_table_add, dif_pos hnamed]
    cases hlookup : server.rooms.lookup roomname with
    | none =>
      exact ⟨true, .open_room roomname hnamed, by simp [Deed.perform, Deed.apply, Deed.effects],
        Or.inl ⟨rfl, rfl, hnamed, rfl⟩⟩
    | some room => exact ⟨false, .look, by simp, Or.inr ⟨rfl, rfl, Or.inr rfl⟩⟩
  · refine does_of_ok fun server held trace hheld => ⟨false, .look, ?_, Or.inr ⟨rfl, rfl, Or.inl hnamed⟩⟩
    rcases hheld with rfl | rfl
    · rw [run_room_table_add, dif_neg hnamed, Deed.perform_look]
    · rw [run_room_table_add_blocked, if_neg hnamed, Deed.perform_look]

/-- While the rooms are locked no action in a room begins. -/
theorem run_room_table_with_blocked {C : Type} (roomname : CString) (visitor : RoomPtr → C → Action C) (context : C)
    (server : Server) (trace : List Effect) :
    (room_table_with roomname visitor context).run ⟨server, [.rooms], trace, allocating⟩ =
      .error (.blocked .rooms) ⟨server, [.rooms], trace, allocating⟩ := by simp [room_table_with]

/-- While the rooms are locked no iteration over them begins. -/
theorem run_room_table_for_each_held (visitor : RoomPtr → Action Unit) (server : Server) (trace : List Effect) :
    (room_table_for_each visitor).run ⟨server, [.rooms], trace, allocating⟩ =
      .error (.blocked .rooms) ⟨server, [.rooms], trace, allocating⟩ :=
  run_room_table_for_each_blocked server [.rooms] trace allocating visitor List.mem_cons_self

/-- A visitor that only reads. -/
theorem reads_room_table_with {C : Type} {visitor : RoomPtr → C → Action C} {roomname : CString} {context : C}
    {answer : Server → C} {spec : Server → C → Prop}
    (hrun : ∀ server trace, (room_table_with roomname visitor context).run (.idle server trace) =
      .ok (answer server) (.idle server trace))
    (hspec : ∀ server, spec server (answer server)) :
    Reads net (room_table_with roomname visitor context) spec :=
  does_of_lock (fun server trace => ⟨answer server, .look, by rw [hrun, Deed.perform_look], hspec server, rfl⟩)
    fun server trace => run_room_table_with_blocked _ _ _ server trace

theorem reads_room_is_a_member (roomname : CString) (context : RoomVisitorContext) :
    Reads net (room_table_with roomname room_is_a_member context) fun _ value =>
      value.user = context.user ∧ value.is_empty_now = context.is_empty_now :=
  reads_room_table_with (fun server trace => run_with_room_is_a_member server trace roomname allocating context)
    fun _ => ⟨rfl, rfl⟩

theorem reads_room_is_a_guest (roomname : CString) (context : RoomVisitorContext) :
    Reads net (room_table_with roomname room_is_a_guest context) fun _ value =>
      value.user = context.user ∧ value.is_empty_now = context.is_empty_now :=
  reads_room_table_with (fun server trace => run_with_room_is_a_guest server trace roomname allocating context)
    fun _ => ⟨rfl, rfl⟩

theorem reads_room_users (roomname : CString) (users_obj : CJson) :
    Reads net (room_table_with roomname room_users users_obj) fun _ _ => True := by
  refine does_of_lock (fun server trace => ?_) fun server trace => run_room_table_with_blocked _ _ _ server trace
  cases hroom : server.rooms.lookup roomname with
  | none => exact ⟨users_obj, .look, by simp [run_room_table_with, hroom], trivial, rfl⟩
  | some room =>
    exact ⟨room.members.entries.foldl add_user_to_object users_obj, .look,
      by simp [run_room_table_with, room_users, users_table_iterate, hroom], trivial, rfl⟩

/-- A visitor with a fixed deed. -/
theorem does_change {action : RoomPtr → RoomVisitorContext → Action RoomVisitorContext} {roomname : CString}
    {context : RoomVisitorContext} (deed : Deed) (hsilent : deed.effects = [])
    (hrun : ∀ server trace, (room_table_with roomname action context).run (.idle server trace) =
      .ok context (.idle (deed.apply server) trace)) :
    Does net (room_table_with roomname action context) fun _ _ done => done = deed :=
  does_of_lock
    (fun server trace => ⟨context, deed, (hrun server trace).trans (by simp [Deed.perform, hsilent]), rfl⟩)
    fun server trace => run_room_table_with_blocked _ _ _ server trace

/-- The creator is seated in the room, if it still exists. -/
theorem does_room_add_creator (roomname : CString) (context : RoomVisitorContext) :
    Does net (room_table_with roomname room_add_creator context) fun _ _ deed => deed = .seat roomname context.user :=
  does_change (.seat roomname context.user) rfl fun server trace =>
    run_with_room_add_creator server trace roomname context

/-- An invited user is added to the guests, if the room still exists. -/
theorem does_room_add_to_guests (roomname : CString) (context : RoomVisitorContext) :
    Does net (room_table_with roomname room_add_to_guests context) fun _ _ deed =>
      deed = .invite roomname context.user :=
  does_change (.invite roomname context.user) rfl fun server trace =>
    run_with_room_add_to_guests server trace roomname context

/-- A guest is let in, if the room still exists. -/
theorem does_room_from_guest_to_member (roomname : CString) (context : RoomVisitorContext) :
    Does net (room_table_with roomname room_from_guest_to_member context) fun _ _ deed =>
      deed = .let_in roomname context.user :=
  does_change (.let_in roomname context.user) rfl fun server trace =>
    run_with_room_from_guest_to_member server trace roomname context

/-- Leaving takes the user out of the room and tells whether anybody is left. -/
theorem does_room_leave (roomname : CString) (context : RoomVisitorContext) (hcontext : context.is_empty_now = false) :
    Does net (room_table_with roomname room_leave context) fun server value deed =>
      deed = .unseat roomname context.user.username ∧
        (value.is_empty_now = true → ∀ room, (deed.apply server).rooms.lookup roomname = some room →
          room.members.entries.length = 0) := by
  refine does_of_lock (fun server trace => ?_) fun server trace => run_room_table_with_blocked _ _ _ server trace
  cases hroom : server.rooms.lookup roomname with
  | none =>
    have habsent : roomname ∉ server.rooms := AList.lookup_eq_none.mp hroom
    refine ⟨context, .unseat roomname context.user.username, ?_, rfl, by simp [hcontext]⟩
    simp [run_room_table_with, hroom, Deed.perform, Deed.apply, Deed.effects, Server.adjust_room,
      HashTable.adjust_of_notMem _ habsent]
  | some room =>
    let left := room.members.remove context.user.username
    refine ⟨{ context with is_empty_now := decide (left.entries.length = 0) }, .unseat roomname context.user.username,
      ?_, rfl, ?_⟩
    · simp [run_with_room_leave server trace roomname allocating room hroom context, hcontext, Deed.perform, Deed.apply,
        Deed.effects, left]
    · intro hempty found hfound
      simp only [Deed.apply, Server.adjust_room_rooms, HashTable.lookup_adjust_self, hroom, Option.map_some,
        Option.some.injEq] at hfound
      subst hfound
      exact of_decide_eq_true hempty

/-- A name is cleared from all rooms in one action. -/
theorem does_room_remove_data (user : User) :
    Does net (room_table_for_each (room_remove_data user)) fun _ _ deed => deed = .clear user.username := by
  refine does_of_lock (fun server trace => ?_) fun server trace => run_room_table_for_each_held _ server trace
  refine ⟨(), .clear user.username, ?_, rfl⟩
  rw [run_room_table_for_each server trace allocating (room_remove_data user) (Room.forget user.username)
    fun server room => run_room_remove_data server trace allocating user room]
  simp [Deed.perform, Deed.apply, Deed.effects]

theorem does_room_update_status (user : User) (status : UserStatus) :
    Does net (room_table_for_each (room_update_status user status)) fun _ _ deed =>
      deed = .mark_rooms user.socket_fd status := by
  refine does_of_lock (fun server trace => ?_) fun server trace => run_room_table_for_each_held _ server trace
  refine ⟨(), .mark_rooms user.socket_fd status, ?_, rfl⟩
  rw [run_room_table_for_each server trace allocating (room_update_status user status)
    (Room.update_status user.socket_fd status) fun server room hroom =>
      run_room_update_status server trace allocating user status room hroom]
  simp [Deed.perform, Deed.apply, Deed.effects]

end Rooms

section Broadcasts

variable {net : Net} (message : Message) (client_fd : Fd)

/-- The cells of the array of failed descriptors after a broadcast: those of
before, and descriptors to which a send of it failed. -/
def Collects (before after : List Int) (effects : List Effect) : Prop :=
  ∀ cell ∈ after, cell ∈ before ∨ ∃ fd : Fd, cell = Int.ofNat fd ∧ Effect.send fd message false ∈ effects

/-- The visitor of a broadcast, whatever the size of the array: it may run out of
cells when users have registered since the size was read. -/
theorem send_visits (net : Net) (users : List User) (context : SendContext) (world : World) :
    (∃ value effects, (visit_all (send_if_is_not_self net message client_fd) users context).run world =
        .ok value { world with trace := world.trace ++ effects } ∧
      (∀ effect ∈ effects, Sends net (fun _ sent => sent = message) effect) ∧
      Collects message context.client_fds_to_disconnect value.client_fds_to_disconnect effects) ∨
    ∃ stopped, (visit_all (send_if_is_not_self net message client_fd) users context).run world =
      .error .out_of_bounds stopped := by
  induction users generalizing context world with
  | nil => exact Or.inl ⟨context, [], by simp [visit_all], List.forall_mem_nil _, fun cell hcell => Or.inl hcell⟩
  | cons user rest ih =>
    by_cases hself : user.socket_fd = client_fd
    · simp only [visit_all, send_if_is_not_self, if_pos hself, EStateM.run_bind, EStateM.run_pure]
      exact ih context world
    · obtain ⟨server, held, trace, alloc⟩ := world
      simp only [visit_all, send_if_is_not_self, if_neg hself, EStateM.run_bind, run_server_send]
      have hsends : Sends net (fun _ sent => sent = message)
          (.send user.socket_fd message (net trace user.socket_fd message)) := ⟨_, _, trace, rfl, rfl⟩
      cases hsent : net trace user.socket_fd message with
      | true =>
        rw [hsent] at hsends
        simp only [if_true, EStateM.run_pure]
        rcases ih context ⟨server, held, trace ++ [.send user.socket_fd message true], alloc⟩ with
          ⟨value, effects, hok, hall, hcells⟩ | hstopped
        · refine Or.inl ⟨value, .send user.socket_fd message true :: effects, by rw [hok]; simp,
            List.forall_mem_cons.mpr ⟨hsends, hall⟩, fun cell hcell => ?_⟩
          rcases hcells cell hcell with hold | ⟨fd, hfd, hmem⟩
          · exact Or.inl hold
          · exact Or.inr ⟨fd, hfd, List.mem_cons_of_mem _ hmem⟩
        · exact Or.inr hstopped
      | false =>
        rw [hsent] at hsends
        by_cases hfree : context.index < context.client_fds_to_disconnect.length
        · simp only [Bool.false_eq_true, if_false, if_pos hfree, EStateM.run_pure]
          rcases ih _ ⟨server, held, trace ++ [.send user.socket_fd message false], alloc⟩ with
            ⟨value, effects, hok, hall, hcells⟩ | hstopped
          · refine Or.inl ⟨value, .send user.socket_fd message false :: effects, by rw [hok]; simp,
              List.forall_mem_cons.mpr ⟨hsends, hall⟩, fun cell hcell => ?_⟩
            rcases hcells cell hcell with hold | ⟨fd, hfd, hmem⟩
            · rcases List.mem_or_eq_of_mem_set hold with hkept | rfl
              · exact Or.inl hkept
              · exact Or.inr ⟨user.socket_fd, rfl, List.mem_cons_self⟩
            · exact Or.inr ⟨fd, hfd, List.mem_cons_of_mem _ hmem⟩
          · exact Or.inr hstopped
        · simp only [Bool.false_eq_true, if_false, if_neg hfree, run_stop]
          exact Or.inr ⟨_, rfl⟩

/-- A broadcast over `server->users`. -/
theorem does_send_visits (context : SendContext) :
    Does net (users_table_for_each .server_users (send_if_is_not_self net message client_fd) context)
      fun _ value deed => ∃ effects, deed = .tell effects ∧
        (∀ effect ∈ effects, Sends net (fun _ sent => sent = message) effect) ∧
        Collects message context.client_fds_to_disconnect value.client_fds_to_disconnect effects := by
  rintro ⟨server, held, trace, alloc⟩ ⟨rfl, hheld⟩
  have hvisits := send_visits message client_fd net server.users.entries context
    ⟨server, .users_table .server_users :: held, trace, allocating⟩
  simp only [users_table_for_each, EStateM.run_bind, run_g_mutex_lock, if_neg (not_mem_held hheld _),
    run_users_table_load, UsersTablePtr.read_server_users]
  rcases hvisits with ⟨value, effects, hok, hall, hcells⟩ | ⟨stopped, hstopped⟩
  · rw [hok]
    simp only [run_g_mutex_unlock, EStateM.run_pure, List.erase_cons_head]
    exact ⟨.tell effects, rfl, effects, rfl, hall, hcells⟩
  · rw [hstopped]
    trivial

/-- The loop over the failed descriptors while the rooms are locked: it finds
nobody, gets stuck on a descriptor, or leaves the array. -/
theorem disconnect_failed_locked (server : Server) (trace : List Effect) (room : RoomPtr) (contents : UsersTable)
    (hread : (UsersTablePtr.members room).read server = some contents) (fds : List Int) :
    let result := (disconnect_failed (.members room) fds).run ⟨server, [.rooms], trace, allocating⟩
    result = .ok () ⟨server, [.rooms], trace, allocating⟩ ∨
      (result = .error (.blocked .rooms) ⟨server, [.rooms], trace, allocating⟩ ∧ ∃ cell ∈ fds, cell ≠ -1) ∨
      ∃ stopped, result = .error .out_of_bounds stopped := by
  induction fds with
  | nil => exact Or.inr (Or.inr ⟨_, rfl⟩)
  | cons cell rest ih =>
    dsimp only at ih ⊢
    unfold disconnect_failed
    split
    · exact Or.inl rfl
    · rename_i hcell
      simp only [Program.run_bind, Program.run_lift, users_table_find_by_client_fd, run_users_table_query,
        List.mem_singleton, reduceCtorEq, if_false, hread]
      cases contents.find_by_client_fd cell.toNat with
      | none =>
        refine ih.imp_right (Or.imp_left (And.imp_right ?_))
        rintro ⟨found, hfound, hused⟩
        exact ⟨found, List.mem_cons_of_mem _ hfound, hused⟩
      | some user =>
        refine Or.inr (Or.inl ⟨?_, cell, List.mem_cons_self, hcell⟩)
        simp only [Program.run_bind, Program.run_lift, run_room_table_for_each_held]

/-- A broadcast to a room with the rooms locked: it completes, gets stuck when a
member who cannot be told is found, or leaves the array. -/
theorem notify_members_locked (net : Net) (server : Server) (trace : List Effect) (roomname : CString) (room : Room)
    (hroom : server.rooms.lookup roomname = some room) :
    let result := (room_notify_members net message client_fd roomname ()).run ⟨server, [.rooms], trace, allocating⟩
    (∃ effects, (∀ effect ∈ effects, Sends net (fun _ sent => sent = message) effect) ∧
      (result = .ok () ⟨server, [.rooms], trace ++ effects, allocating⟩ ∨
        (result = .error (.blocked .rooms) ⟨server, [.rooms], trace ++ effects, allocating⟩ ∧
          ∃ fd : Fd, Effect.send fd message false ∈ effects))) ∨
    ∃ stopped, result = .error .out_of_bounds stopped := by
  have hread : (UsersTablePtr.members roomname).read server = some room.members := by simp [hroom]
  have hvisits := send_visits message client_fd net room.members.entries
    ⟨List.replicate (room.members.entries.length + 1) (-1), 0⟩
    ⟨server, [.users_table (.members roomname), .rooms], trace, allocating⟩
  have hrun : (room_notify_members net message client_fd roomname ()).run ⟨server, [.rooms], trace, allocating⟩ =
    (notify_all_but_self net (.members roomname) message client_fd).run ⟨server, [.rooms], trace, allocating⟩ := rfl
  dsimp only
  rw [hrun]
  simp only [notify_all_but_self, Program.run_bind, Program.run_lift, run_users_table_size, hread,
    users_table_for_each, EStateM.run_bind, run_g_mutex_lock, List.mem_singleton, reduceCtorEq, if_false,
    run_users_table_load]
  rcases hvisits with ⟨value, effects, hok, hall, hcells⟩ | ⟨stopped, hstopped⟩
  · have hloop := disconnect_failed_locked server (trace ++ effects) roomname room.members hread
      value.client_fds_to_disconnect
    rw [hok]
    simp only [run_g_mutex_unlock, EStateM.run_pure, List.erase_cons_head]
    rcases hloop with hdone | ⟨hstuck, cell, hcell, hused⟩ | hout
    · exact Or.inl ⟨effects, hall, Or.inl hdone⟩
    · obtain ⟨fd, -, hfailed⟩ := (hcells cell hcell).resolve_left fun hfree => hused (List.eq_of_mem_replicate hfree)
      exact Or.inl ⟨effects, hall, Or.inr ⟨hstuck, fd, hfailed⟩⟩
    · exact Or.inr hout
  · rw [hstopped]
    exact Or.inr ⟨stopped, rfl⟩

/-- A broadcast to a room only sends, or gets stuck. -/
theorem does_room_notify_members (roomname : CString) (hplain : message.Plain) :
    Does net (room_table_with roomname (room_notify_members net message client_fd) ()) fun _ _ deed =>
      ∃ effects, deed = .tell effects ∧ ∀ effect ∈ effects, Sends net (fun _ sent => sent = message) effect := by
  rintro ⟨server, held, trace, alloc⟩ ⟨rfl, rfl | rfl⟩
  · rw [run_room_table_with]
    cases hroom : server.rooms.lookup roomname with
    | none => exact ⟨.look, by simp, [], rfl, List.forall_mem_nil _⟩
    | some room =>
      have hnotify := notify_members_locked message client_fd net server trace roomname room hroom
      rcases hnotify with ⟨effects, hall, hdone | ⟨hstuck, fd, hfailed⟩⟩ | ⟨stopped, hout⟩
      · rw [hdone]
        exact ⟨.tell effects, rfl, effects, rfl, hall⟩
      · rw [hstuck]
        refine ⟨effects, fun effect hmem => ?_, Or.inr ⟨fd, message, hfailed⟩, rfl⟩
        obtain ⟨fd, sent, earlier, heffect, rfl⟩ := hall effect hmem
        exact ⟨fd, sent, earlier, heffect, hplain⟩
      · rw [hout]
        trivial
  · rw [run_room_table_with_blocked]
    exact ⟨[], List.forall_mem_nil _, Or.inl rfl, by simp⟩

end Broadcasts

end ojalvo
