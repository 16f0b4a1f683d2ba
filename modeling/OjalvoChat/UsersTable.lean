import OjalvoChat.Server

namespace ojalvo

namespace UsersTable

def find_by_username (contents : UsersTable) (username : CString) : Option User :=
  contents.table.lookup username

/-- The index answers with a pointer, which is then followed. -/
def find_by_client_fd (contents : UsersTable) (client_fd : Fd) : Option User :=
  (contents.table_by_fd.lookup client_fd).bind fun owner => contents.table.lookup owner

def contains_by_client_fd (contents : UsersTable) (client_fd : Fd) : Bool :=
  (contents.table_by_fd.lookup client_fd).isSome

/-- A name that is taken is refused; a descriptor that is already indexed gets
the new pointer. -/
def add (contents : UsersTable) (user : User) : UsersTable :=
  match contents.table.lookup user.username with
  | some _ => contents
  | none =>
    { table := contents.table.insert user.username user
      table_by_fd := contents.table_by_fd.insert user.socket_fd user.username }

def change_status_by_username (contents : UsersTable) (username : CString) (status : UserStatus) : UsersTable :=
  { contents with table := HashTable.adjust username (fun found => { found with status := status }) contents.table }

def change_status_by_client_fd (contents : UsersTable) (client_fd : Fd) (status : UserStatus) : UsersTable :=
  match contents.table_by_fd.lookup client_fd with
  | none => contents
  | some owner => contents.change_status_by_username owner status

def remove (contents : UsersTable) (username : CString) : UsersTable :=
  match contents.table.lookup username with
  | none => contents
  | some found =>
    { table := contents.table.erase username
      table_by_fd := contents.table_by_fd.erase found.socket_fd }

/-- The records in the order in which a traversal visits them. -/
def entries (contents : UsersTable) : List User := HashTable.values contents.table

section Add

variable {contents : UsersTable} {user found : User}

theorem add_of_taken (htaken : contents.find_by_username user.username = some found) :
    contents.add user = contents := by
  unfold add
  rw [show contents.table.lookup user.username = some found from htaken]

theorem add_of_free (hfree : contents.find_by_username user.username = none) :
    contents.add user =
      { table := contents.table.insert user.username user
        table_by_fd := contents.table_by_fd.insert user.socket_fd user.username } := by
  unfold add
  rw [show contents.table.lookup user.username = none from hfree]

end Add

end UsersTable

namespace UsersTablePtr

def read (pointer : UsersTablePtr) (server : Server) : Option UsersTable :=
  match pointer with
  | .server_users => some server.users
  | .members room => (server.rooms.lookup room).map Room.members
  | .guests room => (server.rooms.lookup room).map Room.guests

/-- Changes the table that the pointer designates, in place. -/
def modify (pointer : UsersTablePtr) (change : UsersTable → UsersTable) (server : Server) : Server :=
  match pointer with
  | .server_users => { server with users := change server.users }
  | .members room =>
    { server with
      rooms := HashTable.adjust room (fun found => { found with members := change found.members }) server.rooms }
  | .guests room =>
    { server with
      rooms := HashTable.adjust room (fun found => { found with guests := change found.guests }) server.rooms }

end UsersTablePtr

section Actions

def users_table_load (table : UsersTablePtr) : Action UsersTable := fun world =>
  match table.read world.server with
  | some contents => .ok contents world
  | none => .error .dangling world

/-- `g_hash_table_size (users->table)`, read without the mutex. -/
def users_table_size (table : UsersTablePtr) : Action Nat := do
  let contents ← users_table_load table
  return contents.entries.length

/-- A query under the mutex of the table. -/
def users_table_query {A : Type} (table : UsersTablePtr) (query : UsersTable → A) : Action A := do
  g_mutex_lock (.users_table table)
  let contents ← users_table_load table
  g_mutex_unlock (.users_table table)
  return query contents

/-- A change under the mutex of the table. The answer depends on the contents
before the change. -/
def users_table_update (table : UsersTablePtr) (answer : UsersTable → Bool) (change : UsersTable → UsersTable) :
    Action Bool := do
  g_mutex_lock (.users_table table)
  let contents ← users_table_load table
  modify fun world => { world with server := table.modify change world.server }
  g_mutex_unlock (.users_table table)
  return answer contents

/-- The common body of both ways to add a user. -/
def users_table_add_user (table : UsersTablePtr) (username : CString) (socket_fd : Fd)
    (prepare : User → User) : Action Bool := do
  let allocated ← malloc
  if allocated then
    match user_init username socket_fd with
    | none => return false
    | some user =>
      users_table_update table (fun contents => (contents.find_by_username username).isNone)
        fun contents => contents.add (prepare user)
  else return false

def users_table_add (table : UsersTablePtr) (username : CString) (socket_fd : Fd) : Action Bool :=
  users_table_add_user table username socket_fd id

def users_table_add_with_status (table : UsersTablePtr) (username : CString) (socket_fd : Fd)
    (status : UserStatus) : Action Bool :=
  users_table_add_user table username socket_fd fun user => { user with status := status }

/-- `g_str_hash` reads the key, so it must not be NULL. -/
def g_str_key (key : Option CString) : Action CString :=
  match key with
  | none => stop .null
  | some key => return key

def users_table_contains_by_username (table : UsersTablePtr) (username : Option CString) : Action Bool := do
  let username ← g_str_key username
  users_table_query table fun contents => (contents.find_by_username username).isSome

def users_table_contains_by_client_fd (table : UsersTablePtr) (client_fd : Fd) : Action Bool :=
  users_table_query table fun contents => contents.contains_by_client_fd client_fd

def users_table_find_by_username (table : UsersTablePtr) (username : Option CString) : Action (Option User) := do
  let username ← g_str_key username
  users_table_query table fun contents => contents.find_by_username username

def users_table_find_by_client_fd (table : UsersTablePtr) (client_fd : Fd) : Action (Option User) :=
  users_table_query table fun contents => contents.find_by_client_fd client_fd

def users_table_change_status_by_username (table : UsersTablePtr) (username : Option CString)
    (status : UserStatus) : Action Bool := do
  let username ← g_str_key username
  users_table_update table (fun contents => (contents.find_by_username username).isSome)
    fun contents => contents.change_status_by_username username status

def users_table_change_status_by_client_fd (table : UsersTablePtr) (client_fd : Fd)
    (status : UserStatus) : Action Bool :=
  users_table_update table (fun contents => contents.contains_by_client_fd client_fd)
    fun contents => contents.change_status_by_client_fd client_fd status

def users_table_remove (table : UsersTablePtr) (username : CString) : Action Bool :=
  users_table_update table (fun contents => (contents.find_by_username username).isSome)
    fun contents => contents.remove username

/-- The loop that begins with `users_table_iter_begin`, takes records from
`users_table_iter_next` and ends with `users_table_iter_end`. -/
def users_table_iterate {C : Type} (table : UsersTablePtr) (body : C → User → C) (context : C) : Action C :=
  users_table_query table fun contents => contents.entries.foldl body context

/-- Calls the visitor on each record, handing its context on. -/
def visit_all {C : Type} (visitor : User → C → Action C) (users : List User) (context : C) : Action C :=
  match users with
  | [] => return context
  | user :: rest => do
    let context ← visitor user context
    visit_all visitor rest context

/-- The visitor runs while the mutex is held. -/
def users_table_for_each {C : Type} (table : UsersTablePtr) (visitor : User → C → Action C) (context : C) :
    Action C := do
  g_mutex_lock (.users_table table)
  let contents ← users_table_load table
  let context ← visit_all visitor contents.entries context
  g_mutex_unlock (.users_table table)
  return context

end Actions

end ojalvo
