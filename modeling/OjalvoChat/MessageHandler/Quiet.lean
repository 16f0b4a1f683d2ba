import OjalvoChat.Descriptors
import OjalvoChat.MessageHandler.Process

namespace ojalvo

/-- An action that closes no descriptor. -/
def Quiet {A : Type} (action : Action A) : Prop :=
  ∀ world value after, action.run world = .ok value after →
    ∃ effects, after.trace = world.trace ++ effects ∧ closed effects = []

/-- An action that closes one descriptor and does nothing else. -/
def Closing (client_fd : Fd) {A : Type} (action : Action A) : Prop :=
  ∀ world value after, action.run world = .ok value after → after.trace = world.trace ++ [.close client_fd]

section Actions

variable {A B C : Type}

/-- An action that adds nothing to the trace closes nothing. -/
theorem quiet_of_trace {action : Action A}
    (hsame : ∀ world value after, action.run world = .ok value after → after.trace = world.trace) : Quiet action := by
  intro world value after hrun
  exact ⟨[], by rw [hsame world value after hrun, List.append_nil], rfl⟩

theorem quiet_pure (value : A) : Quiet (pure value : Action A) := quiet_of_trace (by rintro world _ _ ⟨⟩; rfl)

/-- Two quiet actions, one after the other, are quiet. -/
theorem quiet_bind {action : Action A} {next : A → Action B} (haction : Quiet action)
    (hnext : ∀ value, Quiet (next value)) :
    Quiet (action >>= next) := by
  intro world value after hrun
  rw [EStateM.run_bind] at hrun
  cases hfirst : action.run world with
  | error why stopped =>
    rw [hfirst] at hrun
    cases hrun
  | ok middle between =>
    rw [hfirst] at hrun
    obtain ⟨effects, htrace, hclosed⟩ := haction world middle between hfirst
    obtain ⟨more, hmore, hmoreclosed⟩ := hnext middle between value after hrun
    exact ⟨effects ++ more, by rw [hmore, htrace, List.append_assoc], by rw [closed_append, hclosed, hmoreclosed]; rfl⟩

/-- An action that only stops closes nothing. -/
theorem quiet_stop (why : Stop) : Quiet (stop why : Action A) := fun _ _ _ => nofun

theorem quiet_g_mutex_lock (mutex : Mutex) : Quiet (g_mutex_lock mutex) := by
  refine quiet_of_trace fun world value after hrun => ?_
  change (if mutex ∈ world.held then _ else _) = _ at hrun
  split at hrun <;> cases hrun
  rfl

theorem quiet_g_mutex_unlock (mutex : Mutex) : Quiet (g_mutex_unlock mutex) :=
  quiet_of_trace (by rintro world _ _ ⟨⟩; rfl)

theorem quiet_malloc : Quiet malloc := quiet_of_trace (by rintro world _ _ ⟨⟩; rfl)

/-- Copying a text closes nothing, whether or not there is memory for it. -/
theorem quiet_strdup (text : Option CString) : Quiet (strdup text) := by
  cases text with
  | none => exact quiet_stop .null
  | some text => exact quiet_bind quiet_malloc fun _ => quiet_pure _

/-- A message leaves its descriptor open, also when it cannot be sent. -/
theorem quiet_server_send (net : Net) (client_fd : Fd) (message : Message) :
    Quiet (server_send net client_fd message) := by
  rintro world _ _ ⟨⟩
  exact ⟨_, rfl, rfl⟩

/-- The only action that closes a descriptor, and only its own. -/
theorem closing_server_disconnect_client (client_fd : Fd) : Closing client_fd (server_disconnect_client client_fd) := by
  rintro world _ _ ⟨⟩
  rfl

theorem quiet_get : Quiet (get : Action World) := quiet_of_trace (by rintro world _ _ ⟨⟩; rfl)

theorem quiet_users_table_load (table : UsersTablePtr) : Quiet (users_table_load table) := by
  refine quiet_of_trace fun world value after hrun => ?_
  change users_table_load table world = _ at hrun
  rw [users_table_load] at hrun
  cases hread : table.read world.server with
  | none =>
    rw [hread] at hrun
    cases hrun
  | some contents =>
    rw [hread] at hrun
    cases hrun
    rfl

/-- Reading a table of users closes nothing. -/
theorem quiet_users_table_query (table : UsersTablePtr) (query : UsersTable → A) :
    Quiet (users_table_query table query) :=
  quiet_bind (quiet_g_mutex_lock _) fun _ => quiet_bind (quiet_users_table_load table) fun _ =>
    quiet_bind (quiet_g_mutex_unlock _) fun _ => quiet_pure _

theorem quiet_users_table_size (table : UsersTablePtr) : Quiet (users_table_size table) :=
  quiet_bind (quiet_users_table_load table) fun _ => quiet_pure _

/-- No change of a table of users closes a descriptor. -/
theorem quiet_users_table_update (table : UsersTablePtr) (answer : UsersTable → Bool)
    (change : UsersTable → UsersTable) :
    Quiet (users_table_update table answer change) :=
  quiet_bind (quiet_g_mutex_lock _) fun _ => quiet_bind (quiet_users_table_load table) fun _ =>
    quiet_bind (quiet_of_trace (by rintro world _ _ ⟨⟩; rfl)) fun _ =>
      quiet_bind (quiet_g_mutex_unlock _) fun _ => quiet_pure _

/-- Who is removed from a table keeps the descriptor. -/
theorem quiet_users_table_remove (table : UsersTablePtr) (username : CString) :
    Quiet (users_table_remove table username) :=
  quiet_users_table_update table _ _

/-- A visitor that is quiet with each user is quiet with all of them. -/
theorem quiet_visit_all {visitor : User → C → Action C} (hvisitor : ∀ user context, Quiet (visitor user context))
    (users : List User) (context : C) : Quiet (visit_all visitor users context) := by
  induction users generalizing context with
  | nil => exact quiet_pure context
  | cons user rest ih => exact quiet_bind (hvisitor user context) fun context => ih context

/-- An iteration over a table is as quiet as its visitor. -/
theorem quiet_users_table_for_each (table : UsersTablePtr) {visitor : User → C → Action C}
    (hvisitor : ∀ user context, Quiet (visitor user context)) (context : C) :
    Quiet (users_table_for_each table visitor context) :=
  quiet_bind (quiet_g_mutex_lock _) fun _ => quiet_bind (quiet_users_table_load table) fun _ =>
    quiet_bind (quiet_visit_all hvisitor _ _) fun _ => quiet_bind (quiet_g_mutex_unlock _) fun _ => quiet_pure _

/-- A visitor that is quiet in each room is quiet in all of them. -/
theorem quiet_visit_rooms {visitor : RoomPtr → Action Unit} (hvisitor : ∀ room, Quiet (visitor room))
    (rooms : List RoomPtr) :
    Quiet (visit_rooms visitor rooms) := by
  induction rooms with
  | nil => exact quiet_pure ()
  | cons room rest ih => exact quiet_bind (hvisitor room) fun _ => ih

/-- An iteration over the rooms is as quiet as its visitor. -/
theorem quiet_room_table_for_each {visitor : RoomPtr → Action Unit} (hvisitor : ∀ room, Quiet (visitor room)) :
    Quiet (room_table_for_each visitor) :=
  quiet_bind (quiet_g_mutex_lock _) fun _ => quiet_bind quiet_get fun _ =>
    quiet_bind (quiet_visit_rooms hvisitor _) fun _ => quiet_g_mutex_unlock _

/-- Who is taken out of a room keeps the descriptor. -/
theorem quiet_room_remove_data (user : User) (room : RoomPtr) : Quiet (room_remove_data user room) :=
  quiet_bind (quiet_users_table_remove _ _) fun _ => quiet_bind (quiet_users_table_remove _ _) fun _ => quiet_pure ()

/-- The visitor of a broadcast only notes who could not be told. -/
theorem quiet_send_if_is_not_self (net : Net) (message : Message) (client_fd : Fd) (user : User)
    (context : SendContext) :
    Quiet (send_if_is_not_self net message client_fd user context) := by
  unfold send_if_is_not_self
  split
  · exact quiet_pure context
  · refine quiet_bind (quiet_server_send _ _ _) fun sent => ?_
    split
    · exact quiet_pure context
    · split
      · exact quiet_pure _
      · exact quiet_stop _

end Actions

section Departure

/-- Programs without an action that closes a descriptor. -/
abbrev Handler.Quiet {A : Type} (handler : Handler A) : Prop := handler.Each ojalvo.Quiet fun _ => True

variable (net : Net) (client_fd : Fd)

/-- A single quiet action, as a handler. -/
theorem quiet_lift {A : Type} {action : Action A} (haction : ojalvo.Quiet action) :
    Handler.Quiet (liftM action : Handler A) := Program.each_lift haction fun _ => trivial

/-- Two quiet parts of a handler, one after the other, are quiet. -/
theorem Handler.Quiet.bind {A B : Type} {first : Handler A} {next : A → Handler B} (hfirst : first.Quiet)
    (hnext : ∀ value, (next value).Quiet) : Handler.Quiet (first >>= next) :=
  Program.each_bind hfirst fun value _ => hnext value

/-- The users who could not be told are removed, and their descriptors stay open. -/
theorem quiet_disconnect_failed (users : UsersTablePtr) (fds : List Int) :
    Handler.Quiet (disconnect_failed users fds) := by
  induction fds with
  | nil => exact quiet_lift (quiet_stop _)
  | cons fd rest ih =>
    unfold disconnect_failed
    split
    · exact Program.each_pure trivial
    · refine (quiet_lift (quiet_users_table_query _ _)).bind fun found => ?_
      cases found with
      | none => exact ih
      | some user =>
        refine (quiet_lift (quiet_room_table_for_each (quiet_room_remove_data user))).bind fun _ => ?_
        exact (quiet_lift (quiet_users_table_remove users user.username)).bind fun _ => ih

/-- A broadcast closes no descriptor, whoever could not be told. -/
theorem quiet_notify_all_but_self (users : UsersTablePtr) (message : Message) :
    Handler.Quiet (notify_all_but_self net users message client_fd) :=
  (quiet_lift (quiet_users_table_size users)).bind fun _ =>
    (quiet_lift (quiet_users_table_for_each users (quiet_send_if_is_not_self net message client_fd) _)).bind fun _ =>
      quiet_disconnect_failed users _

/-- Programs that close one descriptor, at most once. -/
abbrev Handler.ClosesOnce (fd : Fd) {A : Type} (handler : Handler A) : Prop :=
  handler.Once ojalvo.Quiet (Closing fd) fun _ => True

/-- A departure closes the descriptor of the client who departs, once. -/
theorem closes_once_process_disconnect : Handler.ClosesOnce client_fd (process_disconnect net client_fd) := by
  have hclose : Handler.ClosesOnce client_fd (do
      server_disconnect_client client_fd
      return true : Handler Bool) :=
    Program.Once.bind (Program.once_lift (closing_server_disconnect_client client_fd) fun _ => trivial) fun _ _ =>
      Program.each_pure trivial
  refine Program.Each.once_bind (quiet_lift (quiet_users_table_query _ _)) fun found _ => ?_
  cases found with
  | none => exact hclose
  | some user =>
    refine Program.Each.once_bind (quiet_lift (quiet_strdup _)) fun username _ => ?_
    refine Program.Each.once_bind (quiet_notify_all_but_self net client_fd _ _) fun _ _ => ?_
    refine Program.Each.once_bind (quiet_lift (quiet_room_table_for_each (quiet_room_remove_data user))) fun _ _ => ?_
    exact Program.Each.once_bind (quiet_lift (quiet_users_table_remove _ _)) fun _ _ => hclose

end Departure

end ojalvo
