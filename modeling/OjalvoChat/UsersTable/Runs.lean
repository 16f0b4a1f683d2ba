import OjalvoChat.UsersTable

namespace ojalvo

variable (server : Server) (held : List Mutex) (trace : List Effect) (alloc : Nat → Bool)

@[simp] theorem UsersTablePtr.read_server_users : UsersTablePtr.server_users.read server = some server.users := rfl

@[simp] theorem UsersTablePtr.read_members (room : RoomPtr) :
    (UsersTablePtr.members room).read server = (server.rooms.lookup room).map Room.members := rfl

@[simp] theorem UsersTablePtr.read_guests (room : RoomPtr) :
    (UsersTablePtr.guests room).read server = (server.rooms.lookup room).map Room.guests := rfl

@[simp] theorem run_users_table_load (table : UsersTablePtr) (world : World) :
    (users_table_load table).run world =
      match table.read world.server with
      | some contents => .ok contents world
      | none => .error .dangling world := rfl

/-- A query leaves the world alone. It needs the mutex of its table and a table
that still exists. -/
@[simp] theorem run_users_table_query {A : Type} (table : UsersTablePtr) (query : UsersTable → A) :
    (users_table_query table query).run ⟨server, held, trace, alloc⟩ =
      if .users_table table ∈ held then .error (.blocked (.users_table table)) ⟨server, held, trace, alloc⟩
      else match table.read server with
        | some contents => .ok (query contents) ⟨server, held, trace, alloc⟩
        | none => .error .dangling ⟨server, .users_table table :: held, trace, alloc⟩ := by
  by_cases hheld : .users_table table ∈ held
  · simp [users_table_query, hheld]
  · cases hread : table.read server with
    | none => simp [users_table_query, hheld, hread]
    | some contents => simp [users_table_query, hheld, hread]

/-- An update changes its own table and nothing else. -/
@[simp] theorem run_users_table_update (table : UsersTablePtr) (answer : UsersTable → Bool)
    (change : UsersTable → UsersTable) :
    (users_table_update table answer change).run ⟨server, held, trace, alloc⟩ =
      if .users_table table ∈ held then .error (.blocked (.users_table table)) ⟨server, held, trace, alloc⟩
      else match table.read server with
        | some contents => .ok (answer contents) ⟨table.modify change server, held, trace, alloc⟩
        | none => .error .dangling ⟨server, .users_table table :: held, trace, alloc⟩ := by
  by_cases hheld : .users_table table ∈ held
  · simp [users_table_update, hheld]
  · cases hread : table.read server with
    | none => simp [users_table_update, hheld, hread]
    | some contents => simp [users_table_update, hheld, hread]

@[simp] theorem run_users_table_size (table : UsersTablePtr) :
    (users_table_size table).run ⟨server, held, trace, alloc⟩ =
      match table.read server with
      | some contents => .ok contents.entries.length ⟨server, held, trace, alloc⟩
      | none => .error .dangling ⟨server, held, trace, alloc⟩ := by
  cases hread : table.read server with
  | none => simp [users_table_size, hread]
  | some contents => simp [users_table_size, hread]

@[simp] theorem run_g_str_key_some (key : CString) (world : World) : (g_str_key (some key)).run world = .ok key world :=
  rfl

@[simp] theorem run_g_str_key_none (world : World) : (g_str_key none).run world = .error .null world := rfl

/-- Adding a user with allocation working: a name that `user_init` refuses
changes nothing, and any other name goes to the table. -/
theorem run_users_table_add_user (table : UsersTablePtr) (username : CString) (socket_fd : Fd)
    (prepare : User → User) :
    (users_table_add_user table username socket_fd prepare).run ⟨server, held, trace, allocating⟩ =
      match user_init username socket_fd with
      | none => .ok false ⟨server, held, trace, allocating⟩
      | some user =>
        (users_table_update table (fun contents => (contents.find_by_username username).isNone)
          fun contents => contents.add (prepare user)).run ⟨server, held, trace, allocating⟩ := by
  unfold users_table_add_user
  simp only [EStateM.run_bind, run_malloc, if_true]
  cases user_init username socket_fd <;> rfl

/-- A record of one table is added to another table under its own name. -/
theorem run_users_table_add_with_status (table : UsersTablePtr) (user : User) :
    (users_table_add_with_status table user.username user.socket_fd user.status).run
        ⟨server, held, trace, allocating⟩ =
      (users_table_update table (fun contents => (contents.find_by_username user.username).isNone)
        fun contents => contents.add user).run ⟨server, held, trace, allocating⟩ := by
  rw [users_table_add_with_status, run_users_table_add_user]
  unfold user_init
  rw [dif_pos user.named]

end ojalvo
