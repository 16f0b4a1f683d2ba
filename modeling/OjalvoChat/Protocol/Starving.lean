import OjalvoChat.ClientHandler.Invalid
import OjalvoChat.Library.Triple
import OjalvoChat.MessageHandler.Restores
import OjalvoChat.Protocol.Permitted
import OjalvoChat.Protocol.Runs

namespace ojalvo

/-- No lock is held and the tables meet a condition. Nothing is said about the
allocations to come. -/
def Unlocked (condition : Server → Prop) (world : World) : Prop := world.held = [] ∧ condition world.server

/-- Whatever allocations fail, a handler that begins so leaves consistent tables,
without a lock. -/
abbrev Handler.Survives {A : Type} (condition : Server → Prop) (handler : Handler A) : Prop :=
  handler.Ensures (Unlocked condition) fun _ => Unlocked Server.Consistent

section Actions

variable {A : Type} {condition : Server → Prop}

/-- A rule for one action, from what it does to the tables. -/
theorem ensures_action {action : Action A} {answer : A → Server → Prop}
    (haction : ∀ server trace alloc, condition server → ∀ value after,
      action.run ⟨server, [], trace, alloc⟩ = .ok value after → after.held = [] ∧ answer value after.server) :
    (liftM action : Handler A).Ensures (Unlocked condition) fun value => Unlocked (answer value) := by
  refine Program.ensures_lift ?_
  rintro ⟨server, held, trace, alloc⟩ value after ⟨rfl, hcondition⟩ hrun
  exact haction server trace alloc hcondition value after hrun

/-- The rule for an action whose result is known. -/
theorem ensures_known {action : Action A} {answer : A → Server → Prop}
    (haction : ∀ server trace alloc, condition server → ∃ value later effects rest,
      action.run ⟨server, [], trace, alloc⟩ = .ok value ⟨later, [], effects, rest⟩ ∧ answer value later) :
    (liftM action : Handler A).Ensures (Unlocked condition) fun value => Unlocked (answer value) := by
  refine ensures_action fun server trace alloc hcondition value after hrun => ?_
  obtain ⟨result, later, effects, rest, hknown, hanswer⟩ := haction server trace alloc hcondition
  rw [hknown] at hrun
  cases hrun
  exact ⟨rfl, hanswer⟩

/-- A copy changes no table, and needs memory. -/
theorem ensures_strdup (text : Option CString) :
    (liftM (strdup text) : Handler (Option CString)).Ensures (Unlocked condition) fun _ => Unlocked condition := by
  cases text with
  | none => exact ensures_action fun server trace alloc _ value after hrun => by cases hrun
  | some text =>
    exact ensures_known fun server trace alloc hcondition =>
      ⟨_, _, _, _, run_strdup_any text server [] trace alloc, hcondition⟩

theorem ensures_strndup (text : Option CString) (limit : Nat) :
    (liftM (strndup text limit) : Handler (Option CString)).Ensures (Unlocked condition)
      fun _ => Unlocked condition := by
  cases text with
  | none => exact ensures_action fun server trace alloc _ value after hrun => by cases hrun
  | some text => exact ensures_strdup (some (text.cut limit))

/-- A send changes no table. -/
theorem ensures_server_send (net : Net) (fd : Fd) (message : Message) :
    (liftM (server_send net fd message) : Handler Bool).Ensures (Unlocked condition) fun _ => Unlocked condition :=
  ensures_known fun server trace alloc hcondition =>
    ⟨_, _, _, _, run_server_send server [] trace alloc net fd message, hcondition⟩

/-- The answer of a query is known as long as the users do not change. -/
theorem ensures_query (query : UsersTable → A) :
    (liftM (users_table_query .server_users query) : Handler A).Ensures (Unlocked condition)
      fun value => Unlocked fun server => condition server ∧ query server.users = value :=
  ensures_known fun server trace alloc hcondition =>
    ⟨query server.users, server, trace, alloc, by simp, hcondition, rfl⟩

/-- A user is looked up under a name, which must not be NULL. -/
theorem ensures_users_table_find_by_username (username : Option CString) :
    (liftM (users_table_find_by_username .server_users username) : Handler (Option User)).Ensures (Unlocked condition)
      fun value => Unlocked fun server => condition server ∧
        ∃ name, username = some name ∧ server.users.find_by_username name = value := by
  cases username with
  | none => exact ensures_action fun server trace alloc _ value after hrun => by cases hrun
  | some name =>
    refine ensures_known fun server trace alloc hcondition => ?_
    exact ⟨server.users.find_by_username name, server, trace, alloc, by simp [users_table_find_by_username],
      hcondition, name, rfl, rfl⟩

/-- The answer of the rooms may be used. -/
theorem ensures_room_table_contains (roomname : CString) :
    (liftM (room_table_contains roomname) : Handler Bool).Ensures (Unlocked condition)
      fun value => Unlocked fun server => condition server ∧ (server.rooms.lookup roomname).isSome = value :=
  ensures_known fun server trace alloc hcondition =>
    ⟨_, server, trace, alloc, by simp, hcondition, rfl⟩

/-- The answer of a room about its members may be used. -/
theorem ensures_room_is_a_member (roomname : CString) (context : RoomVisitorContext) :
    (liftM (room_table_with roomname room_is_a_member context) : Handler RoomVisitorContext).Ensures
      (Unlocked condition) fun value => Unlocked fun server => condition server ∧ value = { context with
        is_in_room := context.is_in_room || (server.rooms.lookup roomname).any fun room =>
          room.members.contains_by_client_fd context.user.socket_fd } :=
  ensures_known fun server trace alloc hcondition =>
    ⟨_, server, trace, alloc, run_with_room_is_a_member server trace roomname alloc context, hcondition, rfl⟩

/-- The answer of a room about its guests may be used. -/
theorem ensures_room_is_a_guest (roomname : CString) (context : RoomVisitorContext) :
    (liftM (room_table_with roomname room_is_a_guest context) : Handler RoomVisitorContext).Ensures
      (Unlocked condition) fun value => Unlocked fun server => condition server ∧ value = { context with
        is_in_room := context.is_in_room || (server.rooms.lookup roomname).any fun room =>
          room.guests.contains_by_client_fd context.user.socket_fd } :=
  ensures_known fun server trace alloc hcondition =>
    ⟨_, server, trace, alloc, run_with_room_is_a_guest server trace roomname alloc context, hcondition, rfl⟩

end Actions

section Additions

variable {condition : Server → Prop}

/-- A record of one table is added to another one, as far as memory allows. -/
theorem run_users_table_add_with_status_any (table : UsersTablePtr) (user : User) (server : Server)
    (held : List Mutex) (trace : List Effect) (alloc : Nat → Bool) :
    (users_table_add_with_status table user.username user.socket_fd user.status).run ⟨server, held, trace, alloc⟩ =
      if alloc 0 then
        (users_table_update table (fun contents => (contents.find_by_username user.username).isNone)
          fun contents => contents.add user).run ⟨server, held, trace, fun later => alloc (later + 1)⟩
      else .ok false ⟨server, held, trace, fun later => alloc (later + 1)⟩ := by
  simp only [users_table_add_with_status, users_table_add_user, EStateM.run_bind, run_malloc_any, user_init,
    dif_pos user.named]
  cases alloc 0 <;> rfl

/-- A visitor that adds the user of its context to one of the tables of the room. -/
theorem ensures_room_add {pointer : RoomPtr → UsersTablePtr} {table : Room → UsersTable}
    {change : (UsersTable → UsersTable) → Room → Room}
    (hread : ∀ server room, (pointer room).read server = (server.rooms.lookup room).map table)
    (hmodify : ∀ server room update, (pointer room).modify update server = server.adjust_room room (change update))
    (roomname : CString) (context : RoomVisitorContext) :
    (liftM (room_table_with roomname (fun room context => do
        let _ ← users_table_add_with_status (pointer room) context.user.username context.user.socket_fd
          context.user.status
        return context) context) : Handler RoomVisitorContext).Ensures (Unlocked condition)
      fun _ => Unlocked fun later => ∃ server, condition server ∧ (later = server ∨
        later = server.adjust_room roomname (change fun contents => contents.add context.user)) := by
  refine ensures_known fun server trace alloc hcondition => ?_
  cases hroom : server.rooms.lookup roomname with
  | none =>
    exact ⟨context, server, trace, alloc, by simp [run_room_table_with, hroom], server, hcondition, Or.inl rfl⟩
  | some room =>
    cases halloc : alloc 0 with
    | false =>
      refine ⟨context, server, trace, fun later => alloc (later + 1), ?_, server, hcondition, Or.inl rfl⟩
      simp [run_room_table_with, hroom, run_users_table_add_with_status_any, halloc]
    | true =>
      refine ⟨context, _, trace, fun later => alloc (later + 1), ?_, server, hcondition, Or.inr rfl⟩
      simp [run_room_table_with, hroom, run_users_table_add_with_status_any, halloc, hread, hmodify]

/-- The room after its guest has been moved, as far as memory allows. -/
def Room.move (user : User) (allocated : Bool) (room : Room) : Room :=
  if allocated then room.let_in user else room.change_guests fun guests => guests.remove user.username

theorem run_with_room_from_guest_to_member_any {server : Server} {trace : List Effect} {alloc : Nat → Bool}
    {roomname : CString} {room : Room} (context : RoomVisitorContext)
    (hroom : server.rooms.lookup roomname = some room) :
    (room_table_with roomname room_from_guest_to_member context).run ⟨server, [], trace, alloc⟩ =
      .ok context ⟨server.adjust_room roomname (Room.move context.user (alloc 0)), [], trace,
        fun later => alloc (later + 1)⟩ := by
  cases halloc : alloc 0 with
  | true =>
    simp [run_room_table_with, room_from_guest_to_member, users_table_remove, run_users_table_add_with_status_any,
      hroom, halloc, Server.adjust_room_adjust_room]
    rfl
  | false =>
    simp [run_room_table_with, room_from_guest_to_member, users_table_remove, run_users_table_add_with_status_any,
      hroom, halloc]
    rfl

/-- A guest who is no member is moved. -/
theorem ensures_room_from_guest_to_member (roomname : CString) (context : RoomVisitorContext) :
    (liftM (room_table_with roomname room_from_guest_to_member context) : Handler RoomVisitorContext).Ensures
      (Unlocked fun server => server.Consistent ∧ context.user ∈ server.users ∧
        ∀ room, server.rooms.lookup roomname = some room →
          room.members.contains_by_client_fd context.user.socket_fd = false)
      fun _ => Unlocked Server.Consistent := by
  refine ensures_known fun server trace alloc hcondition => ?_
  obtain ⟨hserver, huser, houtside⟩ := hcondition
  cases hroom : server.rooms.lookup roomname with
  | none => exact ⟨context, server, trace, alloc, by simp [run_room_table_with, hroom], hserver⟩
  | some room =>
    refine ⟨_, _, _, _, run_with_room_from_guest_to_member_any context hroom, ?_⟩
    refine hserver.adjust_room (fun _ => ?_) fun room hlookup hconsistent => ?_
    · unfold Room.move
      split <;> rfl
    · unfold Room.move
      split
      · exact hconsistent.let_in huser (houtside room hlookup)
      · exact hconsistent.uninvite context.user.username

/-- A room is stored without members. -/
theorem ensures_room_table_add (roomname : CString) :
    (liftM (room_table_add roomname) : Handler Bool).Ensures (Unlocked Server.Consistent)
      fun added => Unlocked fun server => server.Consistent ∧ (added = true →
        ∃ named, server.rooms.lookup roomname = some (room_new roomname named)) := by
  refine ensures_known fun server trace alloc hserver => ?_
  cases halloc : alloc 0 with
  | false =>
    refine ⟨false, server, trace, fun later => alloc (later + 1), ?_, hserver, nofun⟩
    simp [room_table_add, run_malloc_any, halloc]
  | true =>
    by_cases hnamed : 0 < strlen roomname ∧ strlen roomname ≤ ROOM_ROOMNAME_MAX_LENGTH
    · cases hcopied : alloc 1 with
      | false =>
        refine ⟨false, server, trace, fun later => alloc (later + 2), ?_, hserver, nofun⟩
        simp [room_table_add, room_init, run_malloc_any, run_strdup_any, halloc, hnamed, hcopied]
      | true =>
        cases hlookup : server.rooms.lookup roomname with
        | some room =>
          refine ⟨false, server, trace, fun later => alloc (later + 2), ?_, hserver, nofun⟩
          simp [room_table_add, room_init, run_malloc_any, run_strdup_any, halloc, hnamed, hcopied, hlookup]
        | none =>
          have hstored := hserver.store_room (Room.consistent_new server.users roomname hnamed)
          refine ⟨true, _, trace, fun later => alloc (later + 2), ?_, hstored, fun _ => ⟨hnamed, ?_⟩⟩
          · simp [room_table_add, room_init, run_malloc_any, run_strdup_any, halloc, hnamed, hcopied, hlookup, room_new]
          · simp
    · refine ⟨false, server, trace, fun later => alloc (later + 1), ?_, hserver, nofun⟩
      simp [room_table_add, room_init, run_malloc_any, halloc, hnamed]

end Additions

section Handlers

variable {A : Type} {condition : Server → Prop} (net : Net) (msg_in message : Message) (client_fd fd : Fd)

/-- Under a stronger condition a handler survives as well. -/
theorem Handler.Survives.weaken {weaker : Server → Prop} {handler : Handler A} (hsurvives : handler.Survives weaker)
    (hweaker : ∀ server, condition server → weaker server) : handler.Survives condition :=
  Program.Ensures.weaken hsurvives fun world hworld => ⟨hworld.1, hweaker world.server hworld.2⟩

theorem survives_pure (value : A) : Handler.Survives Server.Consistent (pure value) :=
  Program.ensures_pure fun _ hworld => hworld

/-- A broadcast leaves the tables consistent, whoever is removed for it. -/
theorem survives_notify_users : Handler.Survives Server.Consistent
    (notify_all_but_self net .server_users message client_fd) := by
  rintro ⟨server, held, trace, alloc⟩ value after ⟨rfl, hserver⟩ hrun
  rw [run_notify_users] at hrun
  cases hrun
  exact ⟨rfl, Server.Consistent.evict_all hserver _⟩

theorem ensures_room_remove_data (user : User) :
    (liftM (room_table_for_each (room_remove_data user)) : Handler Unit).Ensures (Unlocked Server.Consistent)
      fun _ => Unlocked fun later => ∃ server : Server, server.Consistent ∧
        later = server.adjust_rooms (Room.forget user.username) :=
  ensures_known fun server trace alloc hserver =>
    ⟨_, _, _, _, run_room_table_for_each server trace alloc (room_remove_data user) (Room.forget user.username)
      fun server room => run_room_remove_data server trace alloc user room, server, hserver, rfl⟩

/-- A disconnection leaves the tables consistent, with or without memory for its
notice. -/
theorem survives_process_disconnect : Handler.Survives Server.Consistent (process_disconnect net client_fd) := by
  have hclose : Handler.Survives Server.Consistent (do
      server_disconnect_client client_fd
      return true : Handler Bool) := by
    refine Program.Ensures.bind (ensures_known fun server trace alloc hserver => ?_) fun _ => survives_pure true
    exact ⟨_, _, _, _, run_server_disconnect_client server [] trace alloc client_fd, hserver⟩
  refine (ensures_query _).bind fun found => ?_
  cases found with
  | none => exact hclose.weaken fun server hknown => hknown.1
  | some user =>
    refine (ensures_strdup _).bind fun username => ?_
    refine Program.Ensures.bind ((survives_notify_users net _ client_fd).weaken fun server hknown => hknown.1) ?_
    -- The user leaves the rooms first, and then the table of all users.
    refine fun _ => (ensures_room_remove_data user).bind fun _ => ?_
    refine Program.Ensures.bind (ensures_known ?_) fun _ => hclose
    rintro _ trace alloc ⟨server, hserver, rfl⟩
    exact ⟨(server.users.find_by_username user.username).isSome, server.forget user.username, trace, alloc,
      by simp [users_table_remove, Server.forget], hserver.forget user.username⟩

/-- A message that cannot be sent leaves the tables consistent. -/
theorem survives_send_or_disconnect :
    Handler.Survives Server.Consistent (send_or_disconnect net client_fd message fd) := by
  refine (ensures_server_send net client_fd message).bind fun sent => ?_
  cases sent with
  | true => exact survives_pure true
  | false => exact survives_process_disconnect net fd

theorem survives_send_invalid_and_disconnect :
    Handler.Survives Server.Consistent (send_invalid_and_disconnect net client_fd) := by
  refine (ensures_strdup _).bind fun operation => (ensures_strdup _).bind fun result => ?_
  refine Program.ensures_ite (fun _ => survives_pure false) fun _ => ?_
  exact (ensures_server_send net client_fd _).bind fun _ => survives_process_disconnect net client_fd

/-- The answer to a request that cannot be granted. -/
theorem survives_reject (operation extra : Option CString) (text : CString) :
    Handler.Survives Server.Consistent (do
      let result ← strdup text
      if result.isNone then return false
      let response := { message_init with type := .RESPONSE, operation, result, extra }
      send_or_disconnect net client_fd response client_fd) := by
  refine (ensures_strdup _).bind fun result => ?_
  exact Program.ensures_ite (fun _ => survives_pure false) fun _ =>
    survives_send_or_disconnect net _ client_fd client_fd

/-- Who is added without a double descriptor leaves the tables consistent, and
without memory nothing changes. -/
theorem ensures_users_table_add (username : CString) :
    (liftM (users_table_add .server_users username client_fd) : Handler Bool).Ensures
      (Unlocked fun server => server.Consistent ∧ server.users.find_by_client_fd client_fd = none ∧
        server.users.find_by_username username = none) fun _ => Unlocked Server.Consistent := by
  refine ensures_action fun server trace alloc hcondition value after hrun => ?_
  obtain ⟨hserver, hunknown, hfree⟩ := hcondition
  simp only [users_table_add, users_table_add_user, EStateM.run_bind, run_malloc_any] at hrun
  cases halloc : alloc 0 with
  | false =>
    rw [halloc] at hrun
    cases hrun
    exact ⟨rfl, hserver⟩
  | true =>
    cases hinit : user_init username client_fd with
    | none =>
      simp only [halloc, if_true, hinit] at hrun
      cases hrun
      exact ⟨rfl, hserver⟩
    | some user =>
      obtain ⟨hname, hfd, -⟩ := user_init_eq_some_iff.mp hinit
      simp only [halloc, if_true, hinit, run_users_table_update, List.not_mem_nil, if_false,
        UsersTablePtr.read_server_users, UsersTablePtr.modify_server_users, id_eq] at hrun
      cases hrun
      exact ⟨rfl, hserver.register (by rwa [hname]) (by rwa [hfd])⟩

/-- IDENTIFY leaves the tables consistent wherever memory runs out. -/
theorem survives_process_identify : Handler.Survives Server.Consistent (process_identify net msg_in client_fd) := by
  unfold process_identify
  refine Program.ensures_ite (fun _ => survives_pure false) fun _ => ?_
  refine (ensures_strndup _ _).bind fun username => ?_
  cases username with
  | none => exact survives_pure false
  | some username =>
    refine (ensures_query _).bind fun registered => ?_
    cases registered with
    | some user =>
      refine Handler.Survives.weaken ?_ fun server hknown => hknown.1
      exact Program.ensures_ite (fun _ => survives_send_invalid_and_disconnect net client_fd) fun _ =>
        survives_pure true
    | none =>
      refine (ensures_users_table_find_by_username _).bind fun taken => ?_
      cases taken with
      | some user =>
        refine Handler.Survives.weaken ?_ fun server hknown => hknown.1.1
        refine Program.ensures_ite (fun _ => ?_) fun _ => survives_pure true
        refine (ensures_strdup _).bind fun operation => (ensures_strdup _).bind fun result => ?_
        refine (ensures_strdup _).bind fun extra => (ensures_server_send net client_fd _).bind fun _ => ?_
        exact (survives_process_disconnect net client_fd).bind fun _ => survives_pure true
      | none =>
        refine Program.Ensures.bind ((ensures_users_table_add client_fd username).weaken ?_) fun added => ?_
        · rintro world ⟨hheld, ⟨hserver, hunknown⟩, name, hname, hfree⟩
          cases hname
          exact ⟨hheld, hserver, hunknown, hfree⟩
        refine Program.ensures_ite (fun _ => ?_) fun _ => survives_pure false
        refine (ensures_strdup _).bind fun operation => (ensures_strdup _).bind fun result => ?_
        refine (ensures_strdup _).bind fun extra => (ensures_server_send net client_fd _).bind fun sent => ?_
        cases sent with
        | true =>
          refine (ensures_strdup _).bind fun name => ?_
          exact (survives_notify_users net _ client_fd).bind fun _ => survives_pure true
        | false => exact survives_process_disconnect net client_fd

/-- A status changes among all users first, and then in the rooms. -/
theorem ensures_change_status (user : User) (status : UserStatus) :
    (liftM (users_table_change_status_by_client_fd .server_users client_fd status) : Handler Bool).Ensures
      (Unlocked fun server => server.Consistent ∧ server.users.find_by_client_fd client_fd = some user)
      fun _ => Unlocked fun later => ∃ server : Server, server.Consistent ∧ user.socket_fd = client_fd ∧
        later = { server with users := server.users.change_status_by_client_fd client_fd status } := by
  refine ensures_known fun server trace alloc hcondition => ?_
  obtain ⟨hserver, hfound⟩ := hcondition
  obtain ⟨-, hfd⟩ := hserver.users.find_by_client_fd_iff.mp hfound
  exact ⟨server.users.contains_by_client_fd client_fd, _, trace, alloc,
    by simp [users_table_change_status_by_client_fd], server, hserver, hfd, rfl⟩

theorem ensures_room_update_status (user : User) (status : UserStatus) :
    (liftM (room_table_for_each (room_update_status user status)) : Handler Unit).Ensures
      (Unlocked fun later => ∃ server : Server, server.Consistent ∧ user.socket_fd = client_fd ∧
        later = { server with users := server.users.change_status_by_client_fd client_fd status })
      fun _ => Unlocked Server.Consistent := by
  refine ensures_known ?_
  rintro _ trace alloc ⟨server, hserver, rfl, rfl⟩
  refine ⟨_, _, _, _, run_room_table_for_each _ trace alloc (room_update_status user status)
    (Room.update_status user.socket_fd status) ?_, hserver.set_status user.socket_fd status⟩
  exact fun server room => run_room_update_status server trace alloc user status room

/-- STATUS leaves the tables consistent wherever memory runs out. -/
theorem survives_process_status : Handler.Survives Server.Consistent (process_status net msg_in client_fd) := by
  unfold process_status
  refine Program.ensures_ite (fun _ => survives_pure false) fun _ => ?_
  refine (ensures_strdup _).bind fun text => ?_
  cases user_status_from_string text with
  | none => exact survives_send_invalid_and_disconnect net client_fd
  | some status =>
    refine (ensures_query _).bind fun found => ?_
    cases found with
    | none => exact (survives_pure true).weaken fun server hknown => hknown.1
    | some user =>
      refine Program.ensures_ite (fun _ => ?_) fun _ => (survives_pure true).weaken fun server hknown => hknown.1
      refine (ensures_change_status client_fd user status).bind fun _ => ?_
      refine (ensures_room_update_status client_fd user status).bind fun _ => ?_
      refine (ensures_strdup _).bind fun username => (ensures_strdup _).bind fun text => ?_
      exact (survives_notify_users net _ client_fd).bind fun _ => survives_pure true

theorem survives_process_users : Handler.Survives Server.Consistent (process_users net client_fd) := by
  refine (ensures_query _).bind fun users => ?_
  exact (survives_send_or_disconnect net _ client_fd client_fd).weaken fun server hknown => hknown.1

/-- TEXT leaves the tables consistent wherever memory runs out. -/
theorem survives_process_text : Handler.Survives Server.Consistent (process_text net msg_in client_fd) := by
  unfold process_text
  refine (ensures_users_table_find_by_username _).bind fun addressee => ?_
  cases addressee with
  | some user_to =>
    refine (ensures_query _).bind fun user_from_cmp => ?_
    refine Program.ensures_ite (fun _ => (survives_pure true).weaken fun server hknown => hknown.1.1) fun _ => ?_
    refine (ensures_query _).bind fun sender => ?_
    refine Handler.Survives.weaken ?_ fun server hknown => hknown.1.1.1
    cases sender with
    | none => exact survives_pure false
    | some user_from =>
      refine (ensures_strdup _).bind fun username => (ensures_strdup _).bind fun text => ?_
      exact Program.ensures_ite (fun _ => survives_pure false) fun _ => survives_send_or_disconnect net _ _ _
  | none =>
    refine Handler.Survives.weaken ?_ fun server hknown => hknown.1
    refine (ensures_strdup _).bind fun operation => (ensures_strdup _).bind fun result => ?_
    refine (ensures_strdup _).bind fun extra => ?_
    exact Program.ensures_ite (fun _ => survives_pure false) fun _ => survives_send_or_disconnect net _ _ _

/-- PUBLIC_TEXT leaves the tables consistent wherever memory runs out. -/
theorem survives_process_public_text :
    Handler.Survives Server.Consistent (process_public_text net msg_in client_fd) := by
  refine (ensures_query _).bind fun sender => ?_
  refine Handler.Survives.weaken ?_ fun server hknown => hknown.1
  cases sender with
  | none => exact survives_pure false
  | some user_from =>
    refine (ensures_strdup _).bind fun username => (ensures_strdup _).bind fun text => ?_
    refine Program.ensures_ite (fun _ => survives_pure false) fun _ => ?_
    exact (survives_notify_users net _ client_fd).bind fun _ => survives_pure true

/-- A broadcast to a room that goes through. -/
theorem ensures_room_notify_members (roomname : CString) :
    (liftM (room_table_with roomname (room_notify_members net message client_fd) ()) : Handler Unit).Survives
      Server.Consistent := by
  refine ensures_action fun server trace alloc hserver value after hrun => ?_
  rw [run_room_table_with] at hrun
  cases hroom : server.rooms.lookup roomname with
  | none =>
    rw [hroom] at hrun
    cases hrun
    exact ⟨rfl, hserver⟩
  | some room =>
    have hmembers := (hserver.rooms roomname room hroom).members
    have hnotify : (room_notify_members net message client_fd roomname ()).run ⟨server, [.rooms], trace, alloc⟩ = _ :=
      run_notify_members server trace alloc net message client_fd roomname room hroom
        fun user huser => Option.isSome_iff_exists.mpr
          ⟨user, hmembers.find_by_client_fd_iff.mpr ⟨hmembers.mem_entries.mp huser, rfl⟩⟩
    simp only [hroom, hnotify] at hrun
    by_cases hfailed : failures (broadcast net message trace (recipients room.members.entries client_fd)) = []
    · rw [if_pos hfailed] at hrun
      cases hrun
      exact ⟨rfl, hserver⟩
    · rw [if_neg hfailed] at hrun
      cases hrun

/-- What precedes the handlers for members of a room. -/
theorem survives_member_only {roomname : CString} {operation extra : Option CString} {welcome : User → Handler Bool}
    (hwelcome : ∀ user, (welcome user).Survives Server.Consistent) :
    Handler.Survives Server.Consistent (do
      let room_exists ← room_table_contains roomname
      if !room_exists then
        let result ← strdup (CString.lit "NO_SUCH_ROOM")
        if result.isNone then return false
        let response := { message_init with type := .RESPONSE, operation, result, extra }
        send_or_disconnect net client_fd response client_fd
      else
        let found ← users_table_find_by_client_fd .server_users client_fd
        match found with
        | none => send_invalid_and_disconnect net client_fd
        | some user_from =>
          let context ← room_table_with roomname room_is_a_member
            { user := user_from, is_in_room := false, is_empty_now := false }
          if context.is_in_room then welcome user_from
          else
            let result ← strdup (CString.lit "NOT_JOINED")
            if result.isNone then return false
            let response := { message_init with type := .RESPONSE, operation, result, extra }
            send_or_disconnect net client_fd response client_fd) := by
  refine (ensures_room_table_contains roomname).bind fun room_exists => ?_
  refine Handler.Survives.weaken ?_ fun server hknown => hknown.1
  refine Program.ensures_ite (fun _ => survives_reject net client_fd operation extra _) fun _ => ?_
  refine (ensures_query _).bind fun found => ?_
  refine Handler.Survives.weaken ?_ fun server hknown => hknown.1
  cases found with
  | none => exact survives_send_invalid_and_disconnect net client_fd
  | some user_from =>
    refine (ensures_room_is_a_member roomname _).bind fun context => ?_
    refine Handler.Survives.weaken ?_ fun server hknown => hknown.1
    exact Program.ensures_ite (fun _ => hwelcome user_from) fun _ => survives_reject net client_fd operation extra _

/-- A list of the users of a room. -/
theorem ensures_room_users (roomname : CString) :
    (liftM (room_table_with roomname room_users cJSON_CreateObject) : Handler CJson).Survives Server.Consistent := by
  refine ensures_known fun server trace alloc hserver => ?_
  cases hroom : server.rooms.lookup roomname with
  | none => exact ⟨cJSON_CreateObject, server, trace, alloc, by simp [run_room_table_with, hroom], hserver⟩
  | some room => exact ⟨_, _, _, _, run_with_room_users server trace roomname alloc room hroom, hserver⟩

theorem survives_process_room_users :
    Handler.Survives Server.Consistent (process_room_users net msg_in client_fd) := by
  unfold process_room_users
  cases msg_in.roomname with
  | none => exact survives_pure false
  | some roomname =>
    refine (ensures_strdup _).bind fun operation => (ensures_strdup _).bind fun extra => ?_
    refine Program.ensures_ite (fun _ => survives_pure false) fun _ => ?_
    refine survives_member_only net client_fd fun user_from => (ensures_strdup _).bind fun list_name => ?_
    refine Program.ensures_ite (fun _ => survives_pure false) fun _ => ?_
    exact (ensures_room_users roomname).bind fun users => survives_send_or_disconnect net _ _ _

theorem survives_process_room_text :
    Handler.Survives Server.Consistent (process_room_text net msg_in client_fd) := by
  unfold process_room_text
  cases msg_in.roomname with
  | none => exact survives_pure false
  | some roomname =>
    cases msg_in.text with
    | none => exact survives_pure false
    | some text =>
      refine (ensures_strdup _).bind fun operation => (ensures_strdup _).bind fun extra => ?_
      refine Program.ensures_ite (fun _ => survives_pure false) fun _ => ?_
      refine survives_member_only net client_fd fun user_from => (ensures_strdup _).bind fun text_room => ?_
      refine (ensures_strdup _).bind fun username => (ensures_strdup _).bind fun room_text => ?_
      refine Program.ensures_ite (fun _ => survives_pure false) fun _ => ?_
      exact (ensures_room_notify_members net _ client_fd roomname).bind fun _ => survives_pure true

theorem ensures_room_leave (roomname : CString) (context : RoomVisitorContext) :
    (liftM (room_table_with roomname room_leave context) : Handler RoomVisitorContext).Survives Server.Consistent := by
  refine ensures_known fun server trace alloc hserver => ?_
  cases hroom : server.rooms.lookup roomname with
  | none => exact ⟨context, server, trace, alloc, by simp [run_room_table_with, hroom], hserver⟩
  | some room =>
    refine ⟨_, _, _, _, run_with_room_leave server trace roomname alloc room hroom context, ?_⟩
    exact hserver.adjust_room (fun _ => rfl) fun room _ hroom => hroom.leave context.user.username

theorem ensures_room_table_remove (roomname : CString) :
    (liftM (room_table_remove roomname) : Handler Bool).Survives Server.Consistent :=
  ensures_known fun server trace alloc hserver =>
    ⟨(server.rooms.lookup roomname).isSome, _, trace, alloc, by simp; rfl, hserver.remove_room⟩

/-- LEAVE_ROOM leaves the tables consistent wherever memory runs out. -/
theorem survives_process_leave_room :
    Handler.Survives Server.Consistent (process_leave_room net msg_in client_fd) := by
  unfold process_leave_room
  cases msg_in.roomname with
  | none => exact survives_pure false
  | some roomname =>
    refine (ensures_strdup _).bind fun operation => (ensures_strdup _).bind fun extra => ?_
    refine Program.ensures_ite (fun _ => survives_pure false) fun _ => ?_
    refine (ensures_room_table_contains roomname).bind fun room_exists => ?_
    refine Handler.Survives.weaken ?_ fun server hknown => hknown.1
    refine Program.ensures_ite (fun _ => survives_reject net client_fd operation extra _) fun _ => ?_
    refine (ensures_query _).bind fun found => ?_
    refine Handler.Survives.weaken ?_ fun server hknown => hknown.1
    cases found with
    | none => exact survives_send_invalid_and_disconnect net client_fd
    | some user_from =>
      refine (ensures_room_is_a_member roomname _).bind fun context => ?_
      refine Handler.Survives.weaken ?_ fun server hknown => hknown.1
      refine Program.ensures_ite (fun _ => ?_) fun _ => survives_reject net client_fd operation extra _
      have htold : ∀ message, Handler.Survives Server.Consistent (do
          room_table_with roomname (room_notify_members net message client_fd) ()
          return true : Handler Bool) :=
        fun message => (ensures_room_notify_members net message client_fd roomname).bind fun _ => survives_pure true
      refine (ensures_room_leave roomname context).bind fun context => Program.ensures_ite (fun _ => ?_) fun _ => ?_
      · refine (ensures_room_table_remove roomname).bind fun _ => ?_
        exact (ensures_strdup _).bind fun left_name => (ensures_strdup _).bind fun username => htold _
      · exact (ensures_strdup _).bind fun left_name => (ensures_strdup _).bind fun username => htold _

/-- NEW_ROOM leaves the tables consistent wherever memory runs out: a room without
members is consistent, too. -/
theorem survives_process_new_room :
    Handler.Survives Server.Consistent (process_new_room net msg_in client_fd) := by
  unfold process_new_room
  cases msg_in.roomname with
  | none => exact survives_pure false
  | some roomname =>
    refine (ensures_strndup _ _).bind fun rm_name => ?_
    cases rm_name with
    | none => exact survives_pure false
    | some rm_name =>
      refine (ensures_strdup _).bind fun operation => (ensures_strdup _).bind fun extra => ?_
      refine Program.ensures_ite (fun _ => survives_pure false) fun _ => ?_
      refine (ensures_room_table_contains roomname).bind fun exists_already => ?_
      refine Handler.Survives.weaken ?_ fun server hknown => hknown.1
      refine Program.ensures_ite (fun _ => survives_reject net client_fd operation extra _) fun _ => ?_
      refine (ensures_strdup _).bind fun result => Program.ensures_ite (fun _ => survives_pure false) fun _ => ?_
      refine (ensures_room_table_add rm_name).bind fun added => ?_
      refine Program.ensures_ite (fun hadded => ?_) fun _ => (survives_pure false).weaken fun server hknown => hknown.1
      refine (ensures_query _).bind fun found => ?_
      cases found with
      | none => exact (survives_pure false).weaken fun server hknown => hknown.1.1
      | some room_creator =>
        refine Program.Ensures.bind (ensures_room_add UsersTablePtr.read_members UsersTablePtr.modify_members rm_name _)
          fun _ => (survives_send_or_disconnect net _ client_fd client_fd).weaken ?_
        rintro _ ⟨server, ⟨⟨hserver, hstored⟩, hfound⟩, rfl | rfl⟩
        · exact hserver
        · obtain ⟨named, hstored⟩ := hstored hadded
          obtain ⟨hcreator, -⟩ := hserver.users.find_by_client_fd_iff.mp hfound
          refine hserver.adjust_room (fun _ => rfl) fun room hroom _ => ?_
          rw [hstored] at hroom
          cases hroom
          exact Room.consistent_created hcreator rm_name named

/-- The users that are found are registered. -/
theorem ensures_find_invited_users (usernames : List CString) :
    (find_invited_users usernames).Ensures (Unlocked Server.Consistent) fun invited => Unlocked fun server =>
      server.Consistent ∧ ∀ users, invited = .ok users → ∀ user ∈ users, user ∈ server.users := by
  rintro ⟨server, held, trace, alloc⟩ invited after ⟨rfl, hserver⟩ hrun
  rw [run_find_invited_users] at hrun
  cases hrun
  refine ⟨rfl, hserver, fun users husers user hmem => ?_⟩
  exact (invited_records_ok hserver.users husers user hmem).1

theorem survives_invite_users (roomname : CString) (invitation : Message) (invited_users : List User) :
    Handler.Survives (fun server => server.Consistent ∧ ∀ user ∈ invited_users, user ∈ server.users)
      (invite_users net roomname invitation invited_users) := by
  induction invited_users with
  | nil => exact (survives_pure none).weaken fun server hknown => hknown.1
  | cons user rest ih =>
    have hrest : Handler.Survives (fun later => later.Consistent ∧ ∀ invited ∈ rest, invited ∈ later.users) (do
        let sent ← server_send net user.socket_fd invitation
        if sent then invite_users net roomname invitation rest
        else
          let disconnected ← process_disconnect net user.socket_fd
          return some disconnected) := by
      refine (ensures_server_send net user.socket_fd invitation).bind fun sent => ?_
      cases sent with
      | true => exact ih
      | false =>
        have hleave := survives_process_disconnect net user.socket_fd
        exact (hleave.weaken fun server hknown => hknown.1).bind fun disconnected => survives_pure (some disconnected)
    unfold invite_users
    refine (ensures_room_is_a_member roomname _).bind fun member => ?_
    refine (ensures_room_is_a_guest roomname _).bind fun context => ?_
    refine Program.ensures_ite (fun _ => (survives_pure _).weaken fun server hknown => hknown.1.1.1) fun houtside => ?_
    refine Program.Ensures.bind
      (ensures_room_add UsersTablePtr.read_guests UsersTablePtr.modify_guests roomname context)
      fun _ => hrest.weaken ?_
    rintro _ ⟨server, ⟨⟨⟨hserver, hinvited⟩, rfl⟩, rfl⟩, hlater⟩
    obtain ⟨huser, hothers⟩ := List.forall_mem_cons.mp hinvited
    have hnew : server.in_room roomname user = false := by
      rw [Server.in_room_eq]
      simpa using houtside
    rcases hlater with rfl | rfl
    · exact ⟨hserver, hothers⟩
    · exact ⟨hserver.add_guest huser hnew, hothers⟩

/-- INVITE leaves the tables consistent wherever memory runs out. -/
theorem survives_process_invite : Handler.Survives Server.Consistent (process_invite net msg_in client_fd) := by
  unfold process_invite
  cases msg_in.roomname with
  | none => exact survives_pure false
  | some roomname =>
    cases msg_in.usernames with
    | none => exact survives_pure false
    | some usernames =>
      refine (ensures_strdup _).bind fun operation => Program.ensures_ite (fun _ => survives_pure false) fun _ => ?_
      refine (ensures_room_table_contains roomname).bind fun room_exists => ?_
      refine Handler.Survives.weaken ?_ fun server hknown => hknown.1
      refine Program.ensures_ite (fun _ => ?_) fun _ => ?_
      · refine (ensures_strdup _).bind fun result => (ensures_strdup _).bind fun extra => ?_
        exact Program.ensures_ite (fun _ => survives_pure false) fun _ => survives_send_or_disconnect net _ _ _
      · refine (ensures_query _).bind fun found => ?_
        refine Handler.Survives.weaken ?_ fun server hknown => hknown.1
        cases found with
        | none => exact survives_send_invalid_and_disconnect net client_fd
        | some user_from =>
          refine (ensures_room_is_a_member roomname _).bind fun context => ?_
          refine Handler.Survives.weaken ?_ fun server hknown => hknown.1
          refine Program.ensures_ite (fun _ => ?_) fun _ => survives_send_invalid_and_disconnect net client_fd
          refine (ensures_find_invited_users usernames).bind fun invited => ?_
          cases invited with
          | error missing =>
            refine Handler.Survives.weaken ?_ fun server hknown => hknown.1
            refine (ensures_strdup _).bind fun result => (ensures_strdup _).bind fun extra => ?_
            exact Program.ensures_ite (fun _ => survives_pure false) fun _ => survives_send_or_disconnect net _ _ _
          | ok invited_users =>
            refine (ensures_strdup _).bind fun username => (ensures_strdup _).bind fun invitation_room => ?_
            refine Program.ensures_ite (fun _ => (survives_pure false).weaken fun server hknown => hknown.1) fun _ => ?_
            refine Program.Ensures.bind ((survives_invite_users net roomname _ invited_users).weaken ?_) ?_
            · exact fun server hknown => ⟨hknown.1, hknown.2 invited_users rfl⟩
            · exact fun left => survives_pure (left.getD true)

/-- JOIN_ROOM leaves the tables consistent wherever memory runs out. -/
theorem survives_process_join_room :
    Handler.Survives Server.Consistent (process_join_room net msg_in client_fd) := by
  unfold process_join_room
  cases msg_in.roomname with
  | none => exact survives_pure false
  | some roomname =>
    refine (ensures_strdup _).bind fun operation => (ensures_strdup _).bind fun extra => ?_
    refine Program.ensures_ite (fun _ => survives_pure false) fun _ => ?_
    refine (ensures_room_table_contains roomname).bind fun room_exists => ?_
    refine Handler.Survives.weaken ?_ fun server hknown => hknown.1
    refine Program.ensures_ite (fun _ => survives_reject net client_fd operation extra _) fun _ => ?_
    refine (ensures_query _).bind fun found => ?_
    cases found with
    | none => exact (survives_send_invalid_and_disconnect net client_fd).weaken fun server hknown => hknown.1
    | some user_from =>
      refine (ensures_room_is_a_member roomname _).bind fun member => ?_
      refine Program.ensures_ite (fun _ => ?_) fun hnomember => ?_
      · exact (survives_pure true).weaken fun server hknown => hknown.1.1
      refine (ensures_room_is_a_guest roomname _).bind fun context => ?_
      refine Program.ensures_ite (fun _ => ?_) fun _ =>
        (survives_reject net client_fd operation extra _).weaken fun server hknown => hknown.1.1.1
      refine Program.Ensures.bind ((ensures_room_from_guest_to_member roomname context).weaken ?_) fun _ => ?_
      · rintro world ⟨hheld, ⟨⟨hserver, hfound⟩, rfl⟩, rfl⟩
        refine ⟨hheld, hserver, (hserver.users.find_by_client_fd_iff.mp hfound).1, fun room hroom => ?_⟩
        simpa [hroom] using hnomember
      · refine (ensures_strdup _).bind fun result => Program.ensures_ite (fun _ => survives_pure false) fun _ => ?_
        refine (ensures_server_send net client_fd _).bind fun sent => ?_
        cases sent with
        | true =>
          refine (ensures_strdup _).bind fun joined_name => (ensures_strdup _).bind fun username => ?_
          exact (ensures_room_notify_members net _ client_fd roomname).bind fun _ => survives_pure true
        | false => exact survives_process_disconnect net client_fd

theorem survives_not_identified : Handler.Survives Server.Consistent (do
    let operation ← strdup (CString.lit "INVALID")
    let result ← strdup (CString.lit "NOT_IDENTIFIED")
    let not_identified := { message_init with type := .RESPONSE, operation, result }
    if operation.isNone ∨ result.isNone then return false
    let _ ← server_send net client_fd not_identified
    let _ ← process_disconnect net client_fd
    return true) := by
  refine (ensures_strdup _).bind fun operation => (ensures_strdup _).bind fun result => ?_
  refine Program.ensures_ite (fun _ => survives_pure false) fun _ => ?_
  refine (ensures_server_send net client_fd _).bind fun _ => ?_
  exact (survives_process_disconnect net client_fd).bind fun _ => survives_pure true

/-- Every request leaves the tables consistent wherever memory runs out. -/
theorem survives_message_handler_process :
    Handler.Survives Server.Consistent (message_handler_process net msg_in client_fd) := by
  unfold message_handler_process
  refine Program.ensures_ite (fun _ => survives_pure false) fun _ => ?_
  refine Program.ensures_ite (fun _ => ?_) fun _ => Program.ensures_ite (fun _ => ?_) fun _ => ?_
  · exact survives_process_disconnect net client_fd
  · exact survives_process_identify net msg_in client_fd
  refine (ensures_query _).bind fun identified => Handler.Survives.weaken ?_ fun server hknown => hknown.1
  refine Program.ensures_ite (fun _ => survives_not_identified net client_fd) fun _ => ?_
  cases msg_in.type with
  | STATUS => exact survives_process_status net msg_in client_fd
  | USERS => exact survives_process_users net client_fd
  | TEXT => exact survives_process_text net msg_in client_fd
  | PUBLIC_TEXT => exact survives_process_public_text net msg_in client_fd
  | NEW_ROOM => exact survives_process_new_room net msg_in client_fd
  | INVITE => exact survives_process_invite net msg_in client_fd
  | JOIN_ROOM => exact survives_process_join_room net msg_in client_fd
  | ROOM_USERS => exact survives_process_room_users net msg_in client_fd
  | ROOM_TEXT => exact survives_process_room_text net msg_in client_fd
  | LEAVE_ROOM => exact survives_process_leave_room net msg_in client_fd
  | _ => exact survives_pure true

theorem survives_disconnect_client :
    Handler.Survives Server.Consistent (liftM (server_disconnect_client client_fd)) :=
  ensures_known fun server _ alloc hserver => ⟨(), server, _, alloc, rfl, hserver⟩

theorem survives_handle_invalid_line : Handler.Survives Server.Consistent (handle_invalid_line net client_fd) := by
  unfold handle_invalid_line
  refine (ensures_strdup _).bind fun operation => (ensures_strdup _).bind fun result => ?_
  refine Program.ensures_ite (fun _ => survives_pure ()) fun _ => (ensures_server_send net client_fd _).bind fun _ => ?_
  refine (ensures_query _).bind fun registered => Handler.Survives.weaken ?_ fun server hknown => hknown.1
  refine Program.ensures_ite (fun _ => ?_) fun _ => survives_disconnect_client client_fd
  exact (survives_message_handler_process net _ client_fd).bind fun _ => survives_pure ()

/-- Every event leaves the tables consistent wherever memory runs out. -/
theorem survives_serve (event : Event) : Handler.Survives Server.Consistent (serve net event) := by
  cases event with
  | accept client_fd => exact ensures_known fun server _ alloc hserver => ⟨(), server, _, alloc, rfl, hserver⟩
  | request client_fd msg_in =>
    exact (survives_message_handler_process net msg_in client_fd).bind fun _ => survives_pure ()
  | invalid client_fd => exact survives_handle_invalid_line net client_fd

end Handlers

/-- One event, processed to its end, with the results of the allocations it asks
for. -/
def StarvedServed (net : Net) (before : World) (event : Event × (Nat → Bool)) (after : World) : Prop :=
  Served net { before with alloc := event.2 } event.1 after

/-- As `ServerRun`, under any pattern of allocation failures as well. -/
abbrev StarvedRun (net : Net) (history : List (World × Event × (Nat → Bool))) (world : World) : Prop :=
  Run (StarvedServed net) (.idle server_init []) history world

section Starved

variable {net : Net} {world : World}

/-- A run in which no allocation fails. -/
theorem exists_starved_run {history : List (World × Event)} (hrun : ServerRun net history world) :
    ∃ starved, StarvedRun net starved world := by
  induction hrun with
  | start => exact ⟨[], .start⟩
  | @step history before after event hprefix hserved ih =>
    obtain ⟨starved, hstarved⟩ := ih
    refine ⟨(before, event, fun _ => true) :: starved, hstarved.step ?_⟩
    obtain ⟨hidle, -⟩ := run_ready hprefix
    rw [hidle] at hserved ⊢
    exact hserved

/-- Failed allocations leave the tables consistent and the locks free. -/
theorem starved_run_ready {history : List (World × Event × (Nat → Bool))} (hrun : StarvedRun net history world) :
    Unlocked Server.Consistent world := by
  refine hrun.invariant ⟨rfl, Server.consistent_init⟩ fun before event after hready hserved => ?_
  exact survives_serve net event.1 { before with alloc := event.2 } () after hready hserved

end Starved

end ojalvo
