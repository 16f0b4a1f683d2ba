import OjalvoChat.Concurrency.Parts
import OjalvoChat.Library.Oblivious

namespace ojalvo

def World.with_trace (trace : List Effect) (world : World) : World := { world with trace }

/-- An action that has nothing to do with the sockets. -/
abbrev Untraced {A : Type} (action : Action A) : Prop := Oblivious World.with_trace action

section Untraced

variable {A : Type}

/-- It stops for the same reason after every trace. -/
theorem untraced_stop (why : Stop) : Untraced (stop why : Action A) := fun _ _ => rfl

/-- Whether a mutex is free does not depend on the trace. -/
theorem untraced_g_mutex_lock (mutex : Mutex) : Untraced (g_mutex_lock mutex) := by
  rintro other ⟨server, held, trace, alloc⟩
  rw [World.with_trace, run_g_mutex_lock, run_g_mutex_lock]
  split_ifs <;> rfl

theorem untraced_g_mutex_unlock (mutex : Mutex) : Untraced (g_mutex_unlock mutex) := fun _ _ => rfl

theorem untraced_malloc : Untraced malloc := fun _ _ => rfl

/-- A copy of a text is the same after every trace. -/
theorem untraced_strdup (text : Option CString) : Untraced (strdup text) := by
  cases text with
  | none => exact untraced_stop .null
  | some text => exact untraced_malloc.bind fun _ => oblivious_pure _

theorem untraced_strndup (text : Option CString) (limit : Nat) : Untraced (strndup text limit) := by
  cases text with
  | none => exact untraced_stop .null
  | some text => exact untraced_strdup (some (text.cut limit))

theorem untraced_users_table_load (table : UsersTablePtr) : Untraced (users_table_load table) := by
  rintro other ⟨server, held, trace, alloc⟩
  rw [World.with_trace, run_users_table_load, run_users_table_load]
  cases table.read server <;> rfl

theorem untraced_users_table_size (table : UsersTablePtr) : Untraced (users_table_size table) :=
  (untraced_users_table_load table).bind fun _ => oblivious_pure _

/-- What a table of users answers does not depend on the trace. -/
theorem untraced_users_table_query (table : UsersTablePtr) (query : UsersTable → A) :
    Untraced (users_table_query table query) :=
  (untraced_g_mutex_lock _).bind fun _ => (untraced_users_table_load table).bind fun _ =>
    (untraced_g_mutex_unlock _).bind fun _ => oblivious_pure _

/-- A table of users changes in the same way after every trace. -/
theorem untraced_users_table_update (table : UsersTablePtr) (answer : UsersTable → Bool)
    (change : UsersTable → UsersTable) : Untraced (users_table_update table answer change) := by
  refine (untraced_g_mutex_lock _).bind fun _ => (untraced_users_table_load table).bind fun _ => ?_
  exact Oblivious.bind (fun _ _ => rfl) fun _ => (untraced_g_mutex_unlock _).bind fun _ => oblivious_pure _

/-- Whether a user can be added does not depend on the trace. -/
theorem untraced_users_table_add_user (table : UsersTablePtr) (username : CString) (socket_fd : Fd)
    (prepare : User → User) : Untraced (users_table_add_user table username socket_fd prepare) := by
  refine untraced_malloc.bind fun allocated => ?_
  cases allocated with
  | false => exact oblivious_pure false
  | true =>
    rw [if_pos rfl]
    cases user_init username socket_fd with
    | none => exact oblivious_pure false
    | some user => exact untraced_users_table_update _ _ _

/-- The search for a name finds the same user after every trace, and fails without a
name. -/
theorem untraced_users_table_find_by_username (table : UsersTablePtr) (username : Option CString) :
    Untraced (users_table_find_by_username table username) := by
  cases username with
  | none => exact (untraced_stop .null).bind fun _ => untraced_users_table_query _ _
  | some username => exact (oblivious_pure username).bind fun _ => untraced_users_table_query _ _

/-- Whether there is a room does not depend on the trace. -/
theorem untraced_room_table_contains (roomname : CString) : Untraced (room_table_contains roomname) :=
  (untraced_g_mutex_lock _).bind fun _ => oblivious_get_bind (fun _ _ => rfl) fun _ =>
    (untraced_g_mutex_unlock _).bind fun _ => oblivious_pure _

/-- A room is removed in the same way after every trace. -/
theorem untraced_room_table_remove (roomname : CString) : Untraced (room_table_remove roomname) := by
  refine (untraced_g_mutex_lock _).bind fun _ => ?_
  rintro other ⟨server, held, trace, alloc⟩
  rfl

theorem untraced_room_init (roomname : Option CString) : Untraced (room_init roomname) := by
  cases roomname with
  | none => exact oblivious_pure none
  | some roomname =>
    unfold room_init
    dsimp only
    split
    · refine (untraced_strdup _).bind fun copied => ?_
      cases copied <;> exact oblivious_pure _
    · exact oblivious_pure none

/-- A room is opened in the same way after every trace. -/
theorem untraced_room_table_add (roomname : CString) : Untraced (room_table_add roomname) := by
  refine untraced_malloc.bind fun allocated => ?_
  cases allocated with
  | false => exact oblivious_pure false
  | true =>
    refine (untraced_room_init _).bind fun initialised => ?_
    cases initialised with
    | none => exact oblivious_pure false
    | some room =>
      refine (untraced_g_mutex_lock _).bind fun _ => ?_
      rintro other ⟨server, held, trace, alloc⟩
      simp only [World.with_trace, EStateM.run_bind, EStateM.run_get]
      cases server.rooms.lookup roomname <;> rfl

/-- An action in a room reads the trace only if its visitor does. -/
theorem untraced_room_table_with {C : Type} (roomname : CString) {action : RoomPtr → C → Action C} {context : C}
    (haction : Untraced (action roomname context)) : Untraced (room_table_with roomname action context) := by
  refine (untraced_g_mutex_lock _).bind fun _ => oblivious_get_bind (fun _ _ => rfl) fun world => ?_
  cases world.server.rooms.lookup roomname with
  | none => exact (oblivious_pure context).bind fun _ => (untraced_g_mutex_unlock _).bind fun _ => oblivious_pure _
  | some room => exact haction.bind fun _ => (untraced_g_mutex_unlock _).bind fun _ => oblivious_pure _

/-- An iteration over the rooms reads the trace only if its visitor does. -/
theorem untraced_room_table_for_each {visitor : RoomPtr → Action Unit} (hvisitor : ∀ room, Untraced (visitor room)) :
    Untraced (room_table_for_each visitor) := by
  have hvisits (rooms : List RoomPtr) : Untraced (visit_rooms visitor rooms) := by
    induction rooms with
    | nil => exact oblivious_pure ()
    | cons room rest ih => exact (hvisitor room).bind fun _ => ih
  exact (untraced_g_mutex_lock _).bind fun _ => oblivious_get_bind (fun _ _ => rfl) fun _ =>
    (hvisits _).bind fun _ => untraced_g_mutex_unlock _

/-- A copy of a record is added in the same way after every trace. -/
theorem untraced_add_with_status (table : UsersTablePtr) (user : User) :
    Untraced (users_table_add_with_status table user.username user.socket_fd user.status) :=
  untraced_users_table_add_user _ _ _ _

/-- What does not read the trace does not write it, if it completes. -/
theorem Untraced.ok {action : Action A} (huntraced : Untraced action) {world after : World} {value : A}
    (hrun : action.run world = .ok value after) : after.trace = world.trace := by
  have hsame := huntraced world.trace world
  have hself : World.with_trace world.trace world = world := rfl
  rw [hself, hrun, onState] at hsame
  injection hsame with _ hafter
  have htrace := congrArg World.trace hafter
  exact htrace

/-- What does not read the trace does not write it, where it stops. -/
theorem Untraced.error {action : Action A} (huntraced : Untraced action) {world stopped : World} {why : Stop}
    (hrun : action.run world = .error why stopped) : stopped.trace = world.trace := by
  have hsame := huntraced world.trace world
  have hself : World.with_trace world.trace world = world := rfl
  rw [hself, hrun, onState] at hsame
  injection hsame with _ hstopped
  have htrace := congrArg World.trace hstopped
  exact htrace

end Untraced

/-- The actions on the sockets that handlers are made of. -/
inductive Socketed (net : Net) (said : MessageType → Prop) : {A : Type} → Action A → Prop where
  | notify_members (roomname : CString) (message : Message) (client_fd : Fd)
    (hmembers : message.type.audience = .members) (hsaid : said message.type) :
    Socketed net said (room_table_with roomname (room_notify_members net message client_fd) ())
  | send (client_fd : Fd) (message : Message) (hone : message.type.audience = .one) (hsaid : said message.type) :
    Socketed net said (server_send net client_fd message)
  | disconnect (client_fd : Fd) : Socketed net said (server_disconnect_client client_fd)

/-- A part has nothing to do with the sockets, or it is one of a few. -/
theorem Part.untraced_or_socketed {net : Net} {given : Option CString → Prop} {said : MessageType → Prop} {A : Type}
    {action : Action A} (hpart : Part net given said action) : Untraced action ∨ Socketed net said action := by
  cases hpart with
  | strdup text hgiven => exact Or.inl (untraced_strdup text)
  | strndup text limit hgiven => exact Or.inl (untraced_strndup text limit)
  | users_table_query query => exact Or.inl (untraced_users_table_query _ query)
  | users_table_find_by_username username hgiven => exact Or.inl (untraced_users_table_find_by_username _ username)
  | users_table_add username client_fd => exact Or.inl (untraced_users_table_add_user _ _ _ _)
  | users_table_remove username => exact Or.inl (untraced_users_table_update _ _ _)
  | users_table_change_status client_fd status => exact Or.inl (untraced_users_table_update _ _ _)
  | room_table_contains roomname => exact Or.inl (untraced_room_table_contains roomname)
  | room_table_add roomname => exact Or.inl (untraced_room_table_add roomname)
  | room_table_remove roomname => exact Or.inl (untraced_room_table_remove roomname)
  | room_remove_data user =>
    exact Or.inl (untraced_room_table_for_each fun room => (untraced_users_table_update _ _ _).bind fun _ =>
      (untraced_users_table_update _ _ _).bind fun _ => oblivious_pure ())
  | room_update_status user status =>
    exact Or.inl (untraced_room_table_for_each fun room => (untraced_users_table_update _ _ _).bind fun _ =>
      (untraced_users_table_update _ _ _).bind fun _ => oblivious_pure ())
  | room_users roomname users_obj =>
    exact Or.inl (untraced_room_table_with roomname (untraced_users_table_query _ _))
  | room_is_a_member roomname context =>
    exact Or.inl (untraced_room_table_with roomname
      ((untraced_users_table_query _ _).bind fun _ => oblivious_pure _))
  | room_is_a_guest roomname context =>
    exact Or.inl (untraced_room_table_with roomname
      ((untraced_users_table_query _ _).bind fun _ => oblivious_pure _))
  | room_add_creator roomname context =>
    exact Or.inl (untraced_room_table_with roomname
      ((untraced_add_with_status _ _).bind fun _ => oblivious_pure _))
  | room_add_to_guests roomname context =>
    exact Or.inl (untraced_room_table_with roomname
      ((untraced_add_with_status _ _).bind fun _ => oblivious_pure _))
  | room_from_guest_to_member roomname context =>
    exact Or.inl (untraced_room_table_with roomname ((untraced_users_table_update _ _ _).bind fun _ =>
      (untraced_add_with_status _ _).bind fun _ => oblivious_pure _))
  | room_leave roomname context =>
    exact Or.inl (untraced_room_table_with roomname ((untraced_users_table_update _ _ _).bind fun _ =>
      (untraced_users_table_size _).bind fun _ => oblivious_pure _))
  | room_notify_members roomname message client_fd hmembers hsaid =>
    exact Or.inr (.notify_members roomname message client_fd hmembers hsaid)
  | server_send client_fd message hone hsaid => exact Or.inr (.send client_fd message hone hsaid)
  | server_disconnect_client client_fd => exact Or.inr (.disconnect client_fd)

end ojalvo
