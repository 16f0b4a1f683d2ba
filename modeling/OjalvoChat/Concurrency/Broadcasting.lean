import OjalvoChat.Library.Run
import OjalvoChat.MessageHandler.Restores

namespace ojalvo

/-- A thread inside a broadcast: the state that it shares with the others, and the
actions that are left of the broadcast. -/
structure Broadcasting where
  world : World
  program : Handler Unit

/-- What happens next: the broadcast takes an action, or another thread adds or
removes a user of `server->users`. -/
inductive BroadcastTurn where
  | act
  | add (username : CString) (socket_fd : Fd)
  | remove (username : CString)
  deriving DecidableEq

/-- The call itself, before its first action. -/
def Broadcasting.start (net : Net) (message : Message) (client_fd : Fd) (world : World) : Broadcasting where
  world
  program := notify_all_but_self net .server_users message client_fd

def broadcast_step (state : Broadcasting) (turn : BroadcastTurn) : Option Broadcasting :=
  match turn with
  | .act =>
    match state.program with
    | .ret _ => none
    | .act body next =>
      match body.run state.world with
      | .ok value after => some { world := after, program := next value }
      | .error _ _ => none
  | .add username socket_fd =>
    match (users_table_add .server_users username socket_fd).run state.world with
    | .ok _ after => some { state with world := after }
    | .error _ _ => none
  | .remove username =>
    match (users_table_remove .server_users username).run state.world with
    | .ok _ after => some { state with world := after }
    | .error _ _ => none

def BroadcastStep (before : Broadcasting) (turn : BroadcastTurn) (after : Broadcasting) : Prop :=
  broadcast_step before turn = some after

/-- The next action of the broadcast writes or reads outside of the array. -/
def Broadcasting.OutOfBounds (state : Broadcasting) : Prop :=
  match state.program with
  | .ret _ => False
  | .act body _ => ∃ stopped, body.run state.world = .error .out_of_bounds stopped

/-- The array for the size that was read, with a guard. -/
def empty_context (mx_users : Nat) : SendContext where
  client_fds_to_disconnect := List.replicate (mx_users + 1) (-1)
  index := 0

/-- What is left of a broadcast when it has read the size of the table. -/
def broadcast_iteration (net : Net) (message : Message) (client_fd : Fd) (mx_users : Nat) : Handler Unit := do
  let context ← users_table_for_each .server_users (send_if_is_not_self net message client_fd) (empty_context mx_users)
  disconnect_failed .server_users context.client_fds_to_disconnect

section InBounds

/-- An action that stays inside the bounds of every array. -/
def InBounds {A : Type} (action : Action A) : Prop :=
  ∀ world stopped, action.run world ≠ .error .out_of_bounds stopped

variable {A B : Type}

/-- An action that always completes uses no array outside of its bounds. -/
theorem in_bounds_of_ok {action : Action A} (haction : ∀ world, ∃ value after, action.run world = .ok value after) :
    InBounds action := by
  intro world stopped hrun
  obtain ⟨value, after, hok⟩ := haction world
  rw [hok] at hrun
  cases hrun

theorem in_bounds_pure (value : A) : InBounds (pure value : Action A) :=
  in_bounds_of_ok fun world => ⟨value, world, rfl⟩

/-- Two actions inside the bounds, one after the other. -/
theorem in_bounds_bind {action : Action A} {next : A → Action B} (haction : InBounds action)
    (hnext : ∀ value, InBounds (next value)) : InBounds (action >>= next) := by
  intro world stopped hrun
  rw [EStateM.run_bind] at hrun
  cases hfirst : action.run world with
  | error why between =>
    rw [hfirst] at hrun
    cases hrun
    exact haction world stopped hfirst
  | ok middle between =>
    rw [hfirst] at hrun
    exact hnext middle between stopped hrun

theorem in_bounds_g_mutex_lock (mutex : Mutex) : InBounds (g_mutex_lock mutex) := by
  intro world stopped hrun
  change (if mutex ∈ world.held then _ else _) = _ at hrun
  split at hrun <;> cases hrun

theorem in_bounds_g_mutex_unlock (mutex : Mutex) : InBounds (g_mutex_unlock mutex) :=
  in_bounds_of_ok fun _ => ⟨_, _, rfl⟩

theorem in_bounds_users_table_load (table : UsersTablePtr) : InBounds (users_table_load table) := by
  intro world stopped hrun
  rw [run_users_table_load] at hrun
  split at hrun <;> cases hrun

/-- Reading a table uses no array. -/
theorem in_bounds_users_table_query (table : UsersTablePtr) (query : UsersTable → A) :
    InBounds (users_table_query table query) :=
  in_bounds_bind (in_bounds_g_mutex_lock _) fun _ => in_bounds_bind (in_bounds_users_table_load table) fun _ =>
    in_bounds_bind (in_bounds_g_mutex_unlock _) fun _ => in_bounds_pure _

theorem in_bounds_users_table_remove (table : UsersTablePtr) (username : CString) :
    InBounds (users_table_remove table username) :=
  in_bounds_bind (in_bounds_g_mutex_lock _) fun _ => in_bounds_bind (in_bounds_users_table_load table) fun _ =>
    in_bounds_bind (in_bounds_of_ok fun _ => ⟨_, _, rfl⟩) fun _ =>
      in_bounds_bind (in_bounds_g_mutex_unlock _) fun _ => in_bounds_pure _

theorem in_bounds_visit_rooms {visitor : RoomPtr → Action Unit} (hvisitor : ∀ room, InBounds (visitor room))
    (rooms : List RoomPtr) : InBounds (visit_rooms visitor rooms) := by
  induction rooms with
  | nil => exact in_bounds_pure ()
  | cons room rest ih => exact in_bounds_bind (hvisitor room) fun _ => ih

/-- An iteration over the rooms stays in bounds if its visitor does. -/
theorem in_bounds_room_table_for_each {visitor : RoomPtr → Action Unit} (hvisitor : ∀ room, InBounds (visitor room)) :
    InBounds (room_table_for_each visitor) :=
  in_bounds_bind (in_bounds_g_mutex_lock _) fun _ => in_bounds_bind (in_bounds_of_ok fun _ => ⟨_, _, rfl⟩) fun _ =>
    in_bounds_bind (in_bounds_visit_rooms hvisitor _) fun _ => in_bounds_g_mutex_unlock _

/-- Taking a user out of a room uses no array. -/
theorem in_bounds_room_remove_data (user : User) (room : RoomPtr) : InBounds (room_remove_data user room) :=
  in_bounds_bind (in_bounds_users_table_remove _ _) fun _ =>
    in_bounds_bind (in_bounds_users_table_remove _ _) fun _ => in_bounds_pure ()

/-- A program of which no action leaves the bounds of an array. -/
abbrev Handler.InBounds {A : Type} (handler : Handler A) : Prop := handler.Each ojalvo.InBounds fun _ => True

/-- The loop over the failed descriptors stays in the array if a guard is in it. -/
theorem in_bounds_disconnect_failed (users : UsersTablePtr) {fds : List Int} (hguard : -1 ∈ fds) :
    Handler.InBounds (disconnect_failed users fds) := by
  induction fds with
  | nil => cases hguard
  | cons fd rest ih =>
    unfold disconnect_failed
    split
    · exact Program.each_pure trivial
    · rename_i hne
      have hrest := ih ((List.mem_cons.mp hguard).resolve_left fun heq => hne heq.symm)
      refine Program.each_bind (Program.each_lift (in_bounds_users_table_query _ _) fun _ => trivial) fun found _ => ?_
      cases found with
      | none => exact hrest
      | some user =>
        have hrooms := in_bounds_room_table_for_each (in_bounds_room_remove_data user)
        have hremove := in_bounds_users_table_remove users user.username
        exact Program.each_bind (Program.each_lift hrooms fun _ => trivial) fun _ _ =>
          Program.each_bind (Program.each_lift hremove fun _ => trivial) fun _ _ => hrest

/-- A program inside the bounds does not leave them next. -/
theorem not_out_of_bounds {state : Broadcasting} (hprogram : state.program.InBounds) : ¬ state.OutOfBounds := by
  obtain ⟨world, program⟩ := state
  cases program with
  | ret value => exact id
  | act body next =>
    rintro ⟨stopped, hrun⟩
    exact hprogram.1 world stopped hrun

end InBounds

section Interleaving

variable {net : Net} {message : Message} {client_fd : Fd} {before after state : Broadcasting} {turn : BroadcastTurn}
  {history : List (Broadcasting × BroadcastTurn)}

/-- A change of a table releases the mutex that it took. -/
theorem held_of_run_users_table_update {table : UsersTablePtr} {answer : UsersTable → Bool}
    {change : UsersTable → UsersTable} {world after : World} {value : Bool}
    (hrun : (users_table_update table answer change).run world = .ok value after) : after.held = world.held := by
  obtain ⟨server, held, trace, alloc⟩ := world
  rw [run_users_table_update] at hrun
  split at hrun
  · cases hrun
  · split at hrun <;> cases hrun
    rfl

/-- An addition releases the mutex that it took. -/
theorem held_of_run_users_table_add {table : UsersTablePtr} {username : CString} {socket_fd : Fd} {world after : World}
    {value : Bool} (hrun : (users_table_add table username socket_fd).run world = .ok value after) :
    after.held = world.held := by
  obtain ⟨server, held, trace, alloc⟩ := world
  simp only [users_table_add, users_table_add_user, EStateM.run_bind, run_malloc_any] at hrun
  split at hrun
  · split at hrun
    · cases hrun
      rfl
    · rw [held_of_run_users_table_update hrun]
  · cases hrun
    rfl

/-- The other threads leave the broadcast where it is, and the locks as they are. -/
theorem BroadcastStep.of_others (hstep : BroadcastStep before turn after) (hturn : turn ≠ .act) :
    after.program = before.program ∧ after.world.held = before.world.held := by
  unfold BroadcastStep broadcast_step at hstep
  cases turn with
  | act => exact absurd rfl hturn
  | add username socket_fd =>
    dsimp only at hstep
    split at hstep
    · rename_i _ _ hrun
      cases hstep
      exact ⟨rfl, held_of_run_users_table_add hrun⟩
    · cases hstep
  | remove username =>
    dsimp only at hstep
    split at hstep
    · rename_i _ _ hrun
      cases hstep
      exact ⟨rfl, held_of_run_users_table_update hrun⟩
    · cases hstep

theorem BroadcastStep.act {A : Type} {body : Action A} {next : A → Handler Unit} {world after : World} {value : A}
    (hrun : body.run world = .ok value after) : BroadcastStep ⟨world, .act body next⟩ .act ⟨after, next value⟩ := by
  simp only [BroadcastStep, broadcast_step, hrun]

/-- An action of the broadcast completes, and the rest of the program is left. -/
theorem BroadcastStep.of_act {A : Type} {body : Action A} {next : A → Handler Unit}
    (hstep : BroadcastStep before .act after) (hprogram : before.program = .act body next) :
    ∃ value, body.run before.world = .ok value after.world ∧ after.program = next value := by
  unfold BroadcastStep broadcast_step at hstep
  rw [hprogram] at hstep
  dsimp only at hstep
  split at hstep
  · rename_i value _ hrun
    cases hstep
    exact ⟨value, hrun, rfl⟩
  · cases hstep

/-- Other threads leave the broadcast where it is, and hold no mutex. -/
theorem of_others_run (hrun : Run BroadcastStep before history after) (hothers : ∀ moment ∈ history, moment.2 ≠ .act) :
    after.program = before.program ∧ after.world.held = before.world.held :=
  hrun.history_invariant_under (I := fun _ state => state.program = before.program ∧
    state.world.held = before.world.held) (C := fun _ turn => turn ≠ .act) hothers ⟨rfl, rfl⟩
    fun _ _ _ _ hkept hturn hstep => by
      obtain ⟨hprogram, hheld⟩ := hstep.of_others hturn
      exact ⟨hprogram.trans hkept.1, hheld.trans hkept.2⟩

/-- A broadcast that stays in its arrays goes on so, whatever the others do. -/
theorem BroadcastStep.in_bounds (hstep : BroadcastStep before turn after) (hbefore : before.program.InBounds) :
    after.program.InBounds := by
  by_cases hturn : turn = .act
  · subst hturn
    obtain ⟨world, program⟩ := before
    cases program with
    | ret value => cases hstep
    | act body next =>
      obtain ⟨value, -, hprogram⟩ := hstep.of_act rfl
      rw [hprogram]
      exact hbefore.2 value
  · rw [(hstep.of_others hturn).1]
    exact hbefore

/-- It leaves no array later on. -/
theorem not_out_of_bounds_of_run (hrun : Run BroadcastStep before history state) (hbefore : before.program.InBounds) :
    ¬ state.OutOfBounds :=
  not_out_of_bounds (hrun.invariant hbefore fun _ _ _ hcurrent hstep => hstep.in_bounds hcurrent)

/-- After its first action the broadcast is about to iterate over the table, with
the size that it has read. -/
theorem iteration_is_next {world : World} {counting iterating : Broadcasting}
    {earlier later : List (Broadcasting × BroadcastTurn)}
    (hrun : Run BroadcastStep (.start net message client_fd world) (later ++ (counting, .act) :: earlier) iterating)
    (hothers : ∀ moment ∈ later ++ earlier, moment.2 ≠ .act) :
    iterating.program = broadcast_iteration net message client_fd counting.world.server.users.entries.length ∧
      iterating.world.held = world.held := by
  obtain ⟨counted, hearlier, hread, hlater⟩ := hrun.split
  have hbefore := of_others_run hearlier fun moment hmem => hothers moment (List.mem_append_right later hmem)
  have hafter := of_others_run hlater fun moment hmem => hothers moment (List.mem_append_left earlier hmem)
  obtain ⟨mx_users, hsize, hprogram⟩ := hread.of_act hbefore.1
  obtain ⟨⟨server, held, trace, alloc⟩, program⟩ := counting
  obtain ⟨next, left⟩ := counted
  change (users_table_size .server_users).run ⟨server, held, trace, alloc⟩ = .ok mx_users next at hsize
  rw [run_users_table_size] at hsize
  cases hsize
  exact ⟨hafter.1.trans hprogram, hafter.2.trans hbefore.2⟩

end Interleaving

end ojalvo
