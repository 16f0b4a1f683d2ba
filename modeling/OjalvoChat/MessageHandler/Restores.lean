import OjalvoChat.MessageHandler.Process
import OjalvoChat.RoomTable.Runs

namespace ojalvo

/-- An action that touches neither the tables nor a socket. -/
def Still {A : Type} (action : Action A) : Prop :=
  ∀ world value after, action.run world = .ok value after → after.server = world.server ∧ after.trace = world.trace

/-- An action that does so unless it answers true. -/
def StillUnlessTrue (action : Action Bool) : Prop :=
  ∀ world after, action.run world = .ok false after → after.server = world.server ∧ after.trace = world.trace

section Actions

variable {A B C : Type}

/-- Each allocation takes one answer from the supply. -/
theorem run_malloc_any (server : Server) (held : List Mutex) (trace : List Effect) (alloc : Nat → Bool) :
    malloc.run ⟨server, held, trace, alloc⟩ =
      .ok (alloc 0) ⟨server, held, trace, fun later => alloc (later + 1)⟩ := rfl

/-- A copy of a text needs one allocation. -/
theorem run_strdup_any (text : CString) (server : Server) (held : List Mutex) (trace : List Effect)
    (alloc : Nat → Bool) :
    (strdup (some text)).run ⟨server, held, trace, alloc⟩ =
      .ok (if alloc 0 then some text else none) ⟨server, held, trace, fun later => alloc (later + 1)⟩ := rfl

theorem still_pure (value : A) : Still (pure value : Action A) := by
  rintro world _ _ ⟨⟩
  exact ⟨rfl, rfl⟩

/-- Two actions that change no table change none together. -/
theorem still_bind {action : Action A} {next : A → Action B} (haction : Still action)
    (hnext : ∀ value, Still (next value)) : Still (action >>= next) := by
  intro world value after hrun
  rw [EStateM.run_bind] at hrun
  cases hfirst : action.run world with
  | error why stopped =>
    rw [hfirst] at hrun
    cases hrun
  | ok middle between =>
    rw [hfirst] at hrun
    obtain ⟨hserver, htrace⟩ := haction world middle between hfirst
    obtain ⟨hafter, hlater⟩ := hnext middle between value after hrun
    exact ⟨hafter.trans hserver, hlater.trans htrace⟩

/-- An action that only stops changes no table. -/
theorem still_stop (why : Stop) : Still (stop why : Action A) := fun _ _ _ => nofun

/-- Locking a mutex changes no table. -/
theorem still_g_mutex_lock (mutex : Mutex) : Still (g_mutex_lock mutex) := by
  intro world value after hrun
  change (if mutex ∈ world.held then _ else _) = _ at hrun
  split at hrun
  · cases hrun
  · cases hrun
    exact ⟨rfl, rfl⟩

theorem still_g_mutex_unlock (mutex : Mutex) : Still (g_mutex_unlock mutex) := by
  rintro world _ _ ⟨⟩
  exact ⟨rfl, rfl⟩

theorem still_malloc : Still malloc := by
  rintro world _ _ ⟨⟩
  exact ⟨rfl, rfl⟩

theorem still_get : Still (get : Action World) := by
  rintro world _ _ ⟨⟩
  exact ⟨rfl, rfl⟩

/-- Copying a text changes no table, whether or not there is memory for it. -/
theorem still_strdup (text : Option CString) : Still (strdup text) := by
  cases text with
  | none => exact still_stop .null
  | some text => exact still_bind still_malloc fun _ => still_pure _

theorem still_strndup (text : Option CString) (limit : Nat) : Still (strndup text limit) := by
  cases text with
  | none => exact still_stop .null
  | some text => exact still_strdup (some (text.cut limit))

theorem still_g_str_key (key : Option CString) : Still (g_str_key key) := by
  cases key with
  | none => exact still_stop .null
  | some key => exact still_pure key

/-- Reading a table changes none. -/
theorem still_users_table_load (table : UsersTablePtr) : Still (users_table_load table) := by
  intro world value after hrun
  rw [run_users_table_load] at hrun
  cases hread : table.read world.server with
  | none =>
    rw [hread] at hrun
    cases hrun
  | some contents =>
    rw [hread] at hrun
    cases hrun
    exact ⟨rfl, rfl⟩

/-- A question to a table of users changes no table. -/
theorem still_users_table_query (table : UsersTablePtr) (query : UsersTable → A) :
    Still (users_table_query table query) :=
  still_bind (still_g_mutex_lock _) fun _ => still_bind (still_users_table_load table) fun _ =>
    still_bind (still_g_mutex_unlock _) fun _ => still_pure _

/-- The search for a name changes no table. -/
theorem still_users_table_find_by_username (table : UsersTablePtr) (username : Option CString) :
    Still (users_table_find_by_username table username) :=
  still_bind (still_g_str_key username) fun _ => still_users_table_query table _

/-- The question for a room changes no table. -/
theorem still_room_table_contains (roomname : CString) : Still (room_table_contains roomname) :=
  still_bind (still_g_mutex_lock _) fun _ => still_bind still_get fun _ =>
    still_bind (still_g_mutex_unlock _) fun _ => still_pure _

/-- An action in a room changes no table if its visitor does not. -/
theorem still_room_table_with (roomname : CString) {action : RoomPtr → C → Action C}
    (haction : ∀ room context, Still (action room context)) (context : C) :
    Still (room_table_with roomname action context) := by
  refine still_bind (still_g_mutex_lock _) fun _ => still_bind still_get fun world => ?_
  cases world.server.rooms.lookup roomname with
  | none => exact still_bind (still_pure context) fun _ => still_bind (still_g_mutex_unlock _) fun _ => still_pure _
  | some room =>
    exact still_bind (haction roomname context) fun _ => still_bind (still_g_mutex_unlock _) fun _ => still_pure _

/-- The test for a member changes no table. -/
theorem still_room_is_a_member (room : RoomPtr) (context : RoomVisitorContext) :
    Still (room_is_a_member room context) :=
  still_bind (still_users_table_query _ _) fun _ => still_pure _

/-- The test for a guest changes no table. -/
theorem still_room_is_a_guest (room : RoomPtr) (context : RoomVisitorContext) : Still (room_is_a_guest room context) :=
  still_bind (still_users_table_query _ _) fun _ => still_pure _

/-- A sequence that does nothing before its last action. -/
theorem Still.bind_stillUnlessTrue {action : Action A} {next : A → Action Bool} (haction : Still action)
    (hnext : ∀ value, StillUnlessTrue (next value)) : StillUnlessTrue (action >>= next) := by
  intro world after hrun
  rw [EStateM.run_bind] at hrun
  cases hfirst : action.run world with
  | error why stopped =>
    rw [hfirst] at hrun
    cases hrun
  | ok middle between =>
    rw [hfirst] at hrun
    obtain ⟨hserver, htrace⟩ := haction world middle between hfirst
    obtain ⟨hafter, hlater⟩ := hnext middle between after hrun
    exact ⟨hafter.trans hserver, hlater.trans htrace⟩

/-- What never changes a table does not change one when it fails. -/
theorem Still.unlessTrue {action : Action Bool} (haction : Still action) : StillUnlessTrue action :=
  fun world after hrun => haction world false after hrun

/-- A user who cannot be added leaves the table alone. -/
theorem stillUnlessTrue_users_table_add (username : CString) (socket_fd : Fd) :
    StillUnlessTrue (users_table_add .server_users username socket_fd) := by
  refine still_malloc.bind_stillUnlessTrue fun allocated => ?_
  cases allocated with
  | false => exact (still_pure false).unlessTrue
  | true =>
    rw [if_pos rfl]
    cases hinit : user_init username socket_fd with
    | none => exact (still_pure false).unlessTrue
    | some user =>
      rintro ⟨server, held, trace, alloc⟩ after hrun
      simp only [run_users_table_update, UsersTablePtr.read_server_users, UsersTablePtr.modify_server_users] at hrun
      split at hrun
      · cases hrun
      · injection hrun with htaken hafter
        obtain ⟨found, hfound⟩ := Option.isSome_iff_exists.mp (Option.isNone_eq_false_iff.mp htaken)
        have hname := (user_init_eq_some_iff.mp hinit).1
        have hsame : server.users.add (id user) = server.users := UsersTable.add_of_taken (hname ▸ hfound)
        rw [← hafter, hsame]
        exact ⟨rfl, rfl⟩

/-- A room that is only prepared is in no table. -/
theorem still_room_init (roomname : Option CString) : Still (room_init roomname) := by
  unfold room_init
  cases roomname with
  | none => exact still_pure none
  | some roomname =>
    dsimp only
    split
    · refine still_bind (still_strdup _) fun copied => ?_
      cases copied with
      | none => exact still_pure none
      | some copy => exact still_pure _
    · exact still_pure none

/-- A room is stored or nothing happens. -/
theorem stillUnlessTrue_room_table_add (roomname : CString) : StillUnlessTrue (room_table_add roomname) := by
  refine still_malloc.bind_stillUnlessTrue fun allocated => ?_
  cases allocated with
  | false => exact (still_pure false).unlessTrue
  | true =>
    rw [if_pos rfl]
    refine (still_room_init (some roomname)).bind_stillUnlessTrue fun initialised => ?_
    cases initialised with
    | none => exact (still_pure false).unlessTrue
    | some room =>
      refine (still_g_mutex_lock .rooms).bind_stillUnlessTrue fun _ => still_get.bind_stillUnlessTrue fun world => ?_
      cases world.server.rooms.lookup roomname with
      | some stored => exact (still_bind (still_g_mutex_unlock .rooms) fun _ => still_pure false).unlessTrue
      | none => exact fun before after hrun => by cases hrun

/-- The users do not change with a new room. -/
theorem users_room_table_add {roomname : CString} {world after : World} {answer : Bool}
    (hrun : (room_table_add roomname).run world = .ok answer after) : after.server.users = world.server.users := by
  obtain ⟨server, held, trace, alloc⟩ := world
  simp only [room_table_add, EStateM.run_bind, run_malloc_any, room_init] at hrun
  cases halloc : alloc 0 with
  | false =>
    simp only [halloc, Bool.false_eq_true, if_false] at hrun
    cases hrun
    rfl
  | true =>
    simp only [halloc, if_true] at hrun
    split at hrun
    · simp only [EStateM.run_bind, run_strdup_any] at hrun
      cases hcopied : alloc 1 with
      | false =>
        simp only [hcopied, Bool.false_eq_true, if_false, EStateM.run_pure] at hrun
        cases hrun
        rfl
      | true =>
        simp only [hcopied, if_true, EStateM.run_pure, EStateM.run_bind, run_g_mutex_lock, EStateM.run_get] at hrun
        by_cases hheld : .rooms ∈ held
        · rw [if_pos hheld] at hrun
          cases hrun
        · rw [if_neg hheld] at hrun
          cases hlookup : server.rooms.lookup roomname with
          | some room =>
            simp only [hlookup] at hrun
            cases hrun
            rfl
          | none =>
            simp only [hlookup] at hrun
            cases hrun
            rfl
    · cases hrun
      rfl

end Actions

section Handlers

/-- A handler that, where a condition holds, answers false only when it has done
nothing. -/
def Restores (condition : Server → Prop) (handler : Handler Bool) : Prop :=
  ∀ world after, condition world.server → handler.run world = .ok false after →
    after.server = world.server ∧ after.trace = world.trace

/-- A handler that never answers false. -/
abbrev Handler.Succeeds (handler : Handler Bool) : Prop := handler.Each (fun _ => True) (· = true)

variable {A B : Type} {condition : Server → Prop}

/-- Every program meets the empty condition. -/
theorem Handler.each_true (handler : Handler A) : handler.Each (fun _ => True) fun _ => True := by
  induction handler with
  | ret value => trivial
  | act body next ih => exact ⟨trivial, ih⟩

/-- What follows decides whether a handler succeeds. -/
theorem succeeds_bind {first : Handler A} {next : A → Handler Bool} (hnext : ∀ value, (next value).Succeeds) :
    Handler.Succeeds (first >>= next) :=
  Program.each_bind first.each_true fun value _ => hnext value

theorem succeeds_return : Handler.Succeeds (pure true : Handler Bool) := rfl

/-- A handler that never fails has nothing to restore. -/
theorem Handler.Succeeds.restores {handler : Handler Bool} (hsucceeds : handler.Succeeds) :
    Restores condition handler := by
  intro world after _ hrun
  cases hsucceeds.result hrun

/-- Giving up at once leaves the tables as they were. -/
theorem restores_pure (answer : Bool) : Restores condition (pure answer : Handler Bool) := by
  rintro world _ _ ⟨⟩
  exact ⟨rfl, rfl⟩

/-- Actions that do nothing may come first. -/
theorem restores_bind {first : Handler A} {next : A → Handler Bool} (hfirst : first.Each Still fun _ => True)
    (hnext : ∀ value, Restores condition (next value)) : Restores condition (first >>= next) := by
  intro world after hcondition hrun
  rw [Program.run_bind] at hrun
  cases hbegun : first.run world with
  | error why stopped =>
    rw [hbegun] at hrun
    cases hrun
  | ok value between =>
    rw [hbegun] at hrun
    have hsame := Program.Each.related (fun world => ⟨rfl, rfl⟩)
      (fun first second third hone htwo => ⟨htwo.1.trans hone.1, htwo.2.trans hone.2⟩) hfirst hbegun
    obtain ⟨hserver, htrace⟩ : between.server = world.server ∧ between.trace = world.trace := hsame
    obtain ⟨hafter, hlater⟩ := hnext value between after (hserver ▸ hcondition) hrun
    exact ⟨hafter.trans hserver, hlater.trans htrace⟩

/-- Before a handler that restores the tables there may be an action that leaves
them alone. -/
theorem restores_lift_bind {action : Action A} {next : A → Handler Bool} (haction : Still action)
    (hnext : ∀ value, Restores condition (next value)) : Restores condition (liftM action >>= next) :=
  restores_bind (Program.each_lift haction fun _ => trivial) hnext

/-- An action whose failure leaves everything as it was. -/
theorem restores_answer_bind {action : Action Bool} {failure success : Handler Bool}
    (haction : StillUnlessTrue action) (hfailure : Restores condition failure) (hsuccess : success.Succeeds) :
    Restores condition (liftM action >>= fun answer => if answer = true then success else failure) := by
  intro world after hcondition hrun
  rw [Program.run_bind, Program.run_lift] at hrun
  cases hbegun : action.run world with
  | error why stopped =>
    rw [hbegun] at hrun
    cases hrun
  | ok answer between =>
    rw [hbegun] at hrun
    cases answer with
    | true => cases hsuccess.result hrun
    | false =>
      obtain ⟨hserver, htrace⟩ := haction world between hbegun
      obtain ⟨hafter, hlater⟩ := hfailure between after (hserver ▸ hcondition) hrun
      exact ⟨hafter.trans hserver, hlater.trans htrace⟩

/-- Both branches have to restore the tables. -/
theorem restores_ite {test : Prop} [Decidable test] {first second : Handler Bool} (hfirst : Restores condition first)
    (hsecond : Restores condition second) : Restores condition (if test then first else second) := by
  split
  · exact hfirst
  · exact hsecond

variable (net : Net) (msg_in message : Message) (client_fd fd : Fd)

/-- A disconnection always succeeds. -/
theorem succeeds_process_disconnect : Handler.Succeeds (process_disconnect net client_fd) := by
  refine succeeds_bind fun found => ?_
  cases found with
  | none => exact succeeds_bind fun _ => succeeds_return
  | some user =>
    exact succeeds_bind fun _ => succeeds_bind fun _ => succeeds_bind fun _ => succeeds_bind fun _ =>
      succeeds_bind fun _ => succeeds_return

/-- A message that cannot be sent ends in a disconnection, which succeeds. -/
theorem succeeds_send_or_disconnect : Handler.Succeeds (send_or_disconnect net client_fd message fd) := by
  refine succeeds_bind fun sent => ?_
  cases sent with
  | true => exact succeeds_return
  | false => exact succeeds_process_disconnect net fd

/-- An INVALID for which there is no memory changes nothing, and one that is sent
succeeds. -/
theorem restores_send_invalid_and_disconnect : Restores condition (send_invalid_and_disconnect net client_fd) := by
  refine restores_lift_bind (still_strdup _) fun operation => restores_lift_bind (still_strdup _) fun result => ?_
  refine restores_ite (restores_pure false) (Handler.Succeeds.restores ?_)
  exact succeeds_bind fun _ => succeeds_process_disconnect net client_fd

/-- The answer to a request that cannot be granted. -/
theorem restores_reject (operation extra : Option CString) (text : CString) :
    Restores condition (do
      let result ← strdup text
      if result.isNone then return false
      let response := { message_init with type := .RESPONSE, operation, result, extra }
      send_or_disconnect net client_fd response client_fd) := by
  refine restores_lift_bind (still_strdup _) fun result => restores_ite (restores_pure false) ?_
  exact (succeeds_send_or_disconnect net _ client_fd client_fd).restores

/-- A failed IDENTIFY leaves the tables as they were. -/
theorem restores_process_identify : Restores condition (process_identify net msg_in client_fd) := by
  unfold process_identify
  refine restores_ite (restores_pure false) ?_
  refine restores_lift_bind (still_strndup _ _) fun username => ?_
  cases username with
  | none => exact restores_pure false
  | some username =>
    refine restores_lift_bind (still_users_table_query _ _) fun registered => ?_
    cases registered with
    | some user => exact restores_ite (restores_send_invalid_and_disconnect net client_fd) (restores_pure true)
    | none =>
      refine restores_lift_bind (still_users_table_find_by_username _ _) fun taken => ?_
      cases taken with
      | some user =>
        refine restores_ite (Handler.Succeeds.restores ?_) (restores_pure true)
        exact succeeds_bind fun _ => succeeds_bind fun _ => succeeds_bind fun _ => succeeds_bind fun _ =>
          succeeds_bind fun _ => succeeds_return
      | none =>
        refine restores_answer_bind (stillUnlessTrue_users_table_add username client_fd) (restores_pure false) ?_
        refine succeeds_bind fun _ => succeeds_bind fun _ => succeeds_bind fun _ => succeeds_bind fun sent => ?_
        cases sent with
        | true => exact succeeds_bind fun _ => succeeds_bind fun _ => succeeds_return
        | false => exact succeeds_process_disconnect net client_fd

/-- A failed STATUS leaves the tables as they were. -/
theorem restores_process_status : Restores condition (process_status net msg_in client_fd) := by
  unfold process_status
  refine restores_ite (restores_pure false) ?_
  refine restores_lift_bind (still_strdup _) fun text => ?_
  cases user_status_from_string text with
  | none => exact restores_send_invalid_and_disconnect net client_fd
  | some status =>
    refine restores_lift_bind (still_users_table_query _ _) fun found => ?_
    cases found with
    | none => exact restores_pure true
    | some user =>
      refine restores_ite (Handler.Succeeds.restores ?_) (restores_pure true)
      exact succeeds_bind fun _ => succeeds_bind fun _ => succeeds_bind fun _ => succeeds_bind fun _ =>
        succeeds_bind fun _ => succeeds_return

/-- A failed USERS leaves the tables as they were. -/
theorem restores_process_users : Restores condition (process_users net client_fd) :=
  restores_lift_bind (still_users_table_query _ _) fun _ =>
    (succeeds_send_or_disconnect net _ client_fd client_fd).restores

/-- A failed TEXT leaves the tables as they were. -/
theorem restores_process_text : Restores condition (process_text net msg_in client_fd) := by
  unfold process_text
  refine restores_lift_bind (still_users_table_find_by_username _ _) fun addressee => ?_
  cases addressee with
  | some user_to =>
    refine restores_lift_bind (still_users_table_query _ _) fun user_from_cmp => restores_ite (restores_pure true) ?_
    refine restores_lift_bind (still_users_table_query _ _) fun sender => ?_
    cases sender with
    | none => exact restores_pure false
    | some user_from =>
      refine restores_lift_bind (still_strdup _) fun username => restores_lift_bind (still_strdup _) fun text => ?_
      exact restores_ite (restores_pure false) (succeeds_send_or_disconnect net _ _ _).restores
  | none =>
    refine restores_lift_bind (still_strdup _) fun operation => restores_lift_bind (still_strdup _) fun result => ?_
    refine restores_lift_bind (still_strdup _) fun extra => restores_ite (restores_pure false) ?_
    exact (succeeds_send_or_disconnect net _ _ _).restores

/-- A failed PUBLIC_TEXT leaves the tables as they were. -/
theorem restores_process_public_text : Restores condition (process_public_text net msg_in client_fd) := by
  refine restores_lift_bind (still_users_table_query _ _) fun sender => ?_
  cases sender with
  | none => exact restores_pure false
  | some user_from =>
    refine restores_lift_bind (still_strdup _) fun username => restores_lift_bind (still_strdup _) fun text => ?_
    exact restores_ite (restores_pure false) (Handler.Succeeds.restores (succeeds_bind fun _ => succeeds_return))

/-- The three handlers that begin with a look at a room that the sender must be a
member of. -/
theorem restores_member_only {roomname : CString} {operation extra : Option CString} {welcome : User → Handler Bool}
    (hwelcome : ∀ user, Restores condition (welcome user)) :
    Restores condition (do
      let room_exists ← room_table_contains roomname
      if !room_exists then
        let result ← strdup (CString.lit "NO_SUCH_ROOM")
        if result.isNone then return false
        let response := { message_init with type := .RESPONSE, operation, result, extra }
        send_or_disconnect net client_fd response client_fd
      else
        let found ← users_table_find_by_client_fd .server_users client_fd
        match found with
        | none => send_invalid_and_disconnect net client_fd
        | some user_from =>
          let context ← room_table_with roomname room_is_a_member
            { user := user_from, is_in_room := false, is_empty_now := false }
          if context.is_in_room then welcome user_from
          else
            let result ← strdup (CString.lit "NOT_JOINED")
            if result.isNone then return false
            let response := { message_init with type := .RESPONSE, operation, result, extra }
            send_or_disconnect net client_fd response client_fd) := by
  refine restores_lift_bind (still_room_table_contains roomname) fun room_exists => ?_
  refine restores_ite (restores_reject net client_fd operation extra _) ?_
  refine restores_lift_bind (still_users_table_query _ _) fun found => ?_
  cases found with
  | none => exact restores_send_invalid_and_disconnect net client_fd
  | some user_from =>
    refine restores_lift_bind (still_room_table_with roomname still_room_is_a_member _) fun context => ?_
    exact restores_ite (hwelcome user_from) (restores_reject net client_fd operation extra _)

theorem still_room_users (room : RoomPtr) (users_obj : CJson) : Still (room_users room users_obj) :=
  still_users_table_query _ _

/-- A failed ROOM_USERS leaves the tables as they were. -/
theorem restores_process_room_users : Restores condition (process_room_users net msg_in client_fd) := by
  unfold process_room_users
  cases msg_in.roomname with
  | none => exact restores_pure false
  | some roomname =>
    refine restores_lift_bind (still_strdup _) fun operation => restores_lift_bind (still_strdup _) fun extra => ?_
    refine restores_ite (restores_pure false) (restores_member_only net client_fd fun user_from => ?_)
    refine restores_lift_bind (still_strdup _) fun list_name => restores_ite (restores_pure false) ?_
    refine restores_lift_bind (still_room_table_with roomname still_room_users _) fun users => ?_
    exact (succeeds_send_or_disconnect net _ _ _).restores

/-- A failed ROOM_TEXT leaves the tables as they were. -/
theorem restores_process_room_text : Restores condition (process_room_text net msg_in client_fd) := by
  unfold process_room_text
  cases msg_in.roomname with
  | none => exact restores_pure false
  | some roomname =>
    cases msg_in.text with
    | none => exact restores_pure false
    | some text =>
      refine restores_lift_bind (still_strdup _) fun operation => restores_lift_bind (still_strdup _) fun extra => ?_
      refine restores_ite (restores_pure false) (restores_member_only net client_fd fun user_from => ?_)
      refine restores_lift_bind (still_strdup _) fun text_room => restores_lift_bind (still_strdup _) fun username => ?_
      refine restores_lift_bind (still_strdup _) fun room_text => restores_ite (restores_pure false) ?_
      exact Handler.Succeeds.restores (succeeds_bind fun _ => succeeds_return)

/-- A failed LEAVE_ROOM leaves the tables as they were. -/
theorem restores_process_leave_room : Restores condition (process_leave_room net msg_in client_fd) := by
  unfold process_leave_room
  cases msg_in.roomname with
  | none => exact restores_pure false
  | some roomname =>
    refine restores_lift_bind (still_strdup _) fun operation => restores_lift_bind (still_strdup _) fun extra => ?_
    refine restores_ite (restores_pure false) ?_
    refine restores_lift_bind (still_room_table_contains roomname) fun room_exists => ?_
    refine restores_ite (restores_reject net client_fd operation extra _) ?_
    refine restores_lift_bind (still_users_table_query _ _) fun found => ?_
    cases found with
    | none => exact restores_send_invalid_and_disconnect net client_fd
    | some user_from =>
      refine restores_lift_bind (still_room_table_with roomname still_room_is_a_member _) fun context => ?_
      refine restores_ite (Handler.Succeeds.restores ?_) (restores_reject net client_fd operation extra _)
      refine succeeds_bind fun context => ?_
      split
      · exact succeeds_bind fun _ => succeeds_bind fun _ => succeeds_bind fun _ => succeeds_bind fun _ =>
          succeeds_return
      · exact succeeds_bind fun _ => succeeds_bind fun _ => succeeds_bind fun _ => succeeds_return

/-- Looking up the invited users changes no table. -/
theorem still_find_invited_users (usernames : List CString) :
    (find_invited_users usernames).Each Still fun _ => True := by
  induction usernames with
  | nil => exact Program.each_pure trivial
  | cons username rest ih =>
    refine Program.each_bind (Program.each_lift (still_users_table_find_by_username _ _) fun _ => trivial)
      fun found _ => ?_
    cases found with
    | none => exact Program.each_pure trivial
    | some user => exact Program.each_bind ih fun _ _ => Program.each_pure trivial

/-- Once the first guest is added the invitation succeeds, or it stops at a member.
-/
theorem succeeds_invite_users (roomname : CString) (invitation : Message) (invited_users : List User) :
    (invite_users net roomname invitation invited_users).Each (fun _ => True) fun left => left.getD true = true := by
  induction invited_users with
  | nil => exact Program.each_pure rfl
  | cons user rest ih =>
    unfold invite_users
    refine Program.each_bind (Handler.each_true _) fun _ _ => ?_
    refine Program.each_bind (Handler.each_true _) fun context _ => ?_
    split
    · exact Program.each_pure rfl
    · refine Program.each_bind (Handler.each_true _) fun _ _ => ?_
      refine Program.each_bind (Handler.each_true _) fun sent _ => ?_
      cases sent with
      | true => exact ih
      | false =>
        exact Program.each_bind (succeeds_process_disconnect net user.socket_fd) fun _ hanswer =>
          Program.each_pure hanswer

/-- A failed INVITE leaves the tables as they were. -/
theorem restores_process_invite : Restores condition (process_invite net msg_in client_fd) := by
  unfold process_invite
  cases msg_in.roomname with
  | none => exact restores_pure false
  | some roomname =>
    cases msg_in.usernames with
    | none => exact restores_pure false
    | some usernames =>
      refine restores_lift_bind (still_strdup _) fun operation => restores_ite (restores_pure false) ?_
      refine restores_lift_bind (still_room_table_contains roomname) fun room_exists => restores_ite ?_ ?_
      · refine restores_lift_bind (still_strdup _) fun result => restores_lift_bind (still_strdup _) fun extra => ?_
        exact restores_ite (restores_pure false) (succeeds_send_or_disconnect net _ _ _).restores
      · refine restores_lift_bind (still_users_table_query _ _) fun found => ?_
        cases found with
        | none => exact restores_send_invalid_and_disconnect net client_fd
        | some user_from =>
          refine restores_lift_bind (still_room_table_with roomname still_room_is_a_member _) fun context => ?_
          refine restores_ite ?_ (restores_send_invalid_and_disconnect net client_fd)
          refine restores_bind (still_find_invited_users usernames) fun invited => ?_
          cases invited with
          | error missing =>
            refine restores_lift_bind (still_strdup _) fun result => restores_lift_bind (still_strdup _) fun extra => ?_
            exact restores_ite (restores_pure false) (succeeds_send_or_disconnect net _ _ _).restores
          | ok invited_users =>
            refine restores_lift_bind (still_strdup _) fun username => ?_
            refine restores_lift_bind (still_strdup _) fun invitation_room => restores_ite (restores_pure false) ?_
            exact Handler.Succeeds.restores (Program.each_bind (succeeds_invite_users net roomname _ invited_users)
              fun _ hanswer => Program.each_pure hanswer)

/-- The sender of a NEW_ROOM is still registered when the room is stored. -/
theorem restores_create {rm_name : CString} {welcome : User → Handler Bool}
    (hwelcome : ∀ creator, (welcome creator).Succeeds) :
    Restores (fun server => (server.users.find_by_client_fd client_fd).isSome) (do
      let added ← room_table_add rm_name
      if added then
        let found ← users_table_find_by_client_fd .server_users client_fd
        match found with
        | none => return false
        | some room_creator => welcome room_creator
      else return false) := by
  intro world after hregistered hrun
  rw [Program.run_bind, Program.run_lift] at hrun
  cases hadd : (room_table_add rm_name).run world with
  | error why stopped =>
    rw [hadd] at hrun
    cases hrun
  | ok added between =>
    rw [hadd] at hrun
    cases added with
    | false =>
      cases hrun
      exact stillUnlessTrue_room_table_add rm_name world _ hadd
    | true =>
      obtain ⟨server, held, trace, alloc⟩ := between
      obtain ⟨creator, hcreator⟩ := Option.isSome_iff_exists.mp hregistered
      have hfound : server.users.find_by_client_fd client_fd = some creator :=
        (congrArg (UsersTable.find_by_client_fd · client_fd) (users_room_table_add hadd)).trans hcreator
      simp only [if_true, Program.run_bind, Program.run_lift, users_table_find_by_client_fd, run_users_table_query,
        UsersTablePtr.read_server_users, hfound] at hrun
      split at hrun
      · rename_i found later hquery
        split at hquery
        · cases hquery
        · cases hquery
          cases (hwelcome creator).result hrun
      · cases hrun

/-- A failed NEW_ROOM of a registered client leaves the tables as they were. -/
theorem restores_process_new_room :
    Restores (fun server => (server.users.find_by_client_fd client_fd).isSome)
      (process_new_room net msg_in client_fd) := by
  unfold process_new_room
  cases msg_in.roomname with
  | none => exact restores_pure false
  | some roomname =>
    refine restores_lift_bind (still_strndup _ _) fun rm_name => ?_
    cases rm_name with
    | none => exact restores_pure false
    | some rm_name =>
      refine restores_lift_bind (still_strdup _) fun operation => restores_lift_bind (still_strdup _) fun extra => ?_
      refine restores_ite (restores_pure false) ?_
      refine restores_lift_bind (still_room_table_contains roomname) fun exists_already => ?_
      refine restores_ite (restores_reject net client_fd operation extra _) ?_
      refine restores_lift_bind (still_strdup _) fun result => restores_ite (restores_pure false) ?_
      exact restores_create client_fd fun creator => succeeds_bind fun _ => succeeds_send_or_disconnect net _ _ _

/-- A handler restores the tables under every stronger condition. -/
theorem Restores.mono {weaker : Server → Prop} {handler : Handler Bool} (hrestores : Restores weaker handler)
    (hweaker : ∀ server, condition server → weaker server) : Restores condition handler :=
  fun world after hcondition hrun => hrestores world after (hweaker world.server hcondition) hrun

/-- What an action that does nothing answers is known afterwards. -/
theorem restores_known_bind {action : Action A} {next : A → Handler Bool} {answer : Server → A → Prop}
    (haction : Still action)
    (hanswer : ∀ server held trace alloc value after,
      action.run ⟨server, held, trace, alloc⟩ = .ok value after → answer server value)
    (hnext : ∀ value, Restores (fun server => condition server ∧ answer server value) (next value)) :
    Restores condition (liftM action >>= next) := by
  intro world after hcondition hrun
  rw [Program.run_bind, Program.run_lift] at hrun
  cases hbegun : action.run world with
  | error why stopped =>
    rw [hbegun] at hrun
    cases hrun
  | ok value between =>
    rw [hbegun] at hrun
    obtain ⟨hserver, htrace⟩ := haction world value between hbegun
    have hknown := hanswer world.server world.held world.trace world.alloc value between hbegun
    rw [← hserver] at hcondition hknown
    obtain ⟨hafter, hlater⟩ := hnext value between after ⟨hcondition, hknown⟩ hrun
    exact ⟨hafter.trans hserver, hlater.trans htrace⟩

/-- The answer of a table may be used for what follows. -/
theorem restores_query_bind {query : UsersTable → A} {next : A → Handler Bool}
    (hnext : ∀ value, Restores (fun server => condition server ∧ query server.users = value) (next value)) :
    Restores condition (liftM (users_table_query .server_users query) >>= next) := by
  refine restores_known_bind (still_users_table_query _ query) ?_ hnext
  intro server held trace alloc value after hrun
  rw [run_users_table_query, UsersTablePtr.read_server_users] at hrun
  split at hrun
  · cases hrun
  · cases hrun
    rfl

/-- What the two tests of a room answer. -/
theorem answer_room_test {pointer : RoomPtr → UsersTablePtr} {table : Room → UsersTable}
    (hread : ∀ server room, (pointer room).read server = (server.rooms.lookup room).map table)
    {roomname : CString} {context value : RoomVisitorContext} {server : Server} {held : List Mutex}
    {trace : List Effect} {alloc : Nat → Bool} {after : World}
    (hrun : (room_table_with roomname (fun room context => do
      let found ← users_table_contains_by_client_fd (pointer room) context.user.socket_fd
      return if found then { context with is_in_room := true } else context) context).run
        ⟨server, held, trace, alloc⟩ = .ok value after) :
    value.user = context.user ∧ value.is_in_room = (context.is_in_room ||
      (server.rooms.lookup roomname).any fun room => (table room).contains_by_client_fd context.user.socket_fd) := by
  by_cases hheld : .rooms ∈ held
  · simp [room_table_with, hheld] at hrun
  cases hroom : server.rooms.lookup roomname with
  | none =>
    simp [room_table_with, hheld, hroom] at hrun
    simp [hrun.1]
  | some room =>
    by_cases hlocked : .users_table (pointer roomname) ∈ held
    · simp [room_table_with, users_table_contains_by_client_fd, hheld, hroom, hlocked] at hrun
    · cases hinside : (table room).contains_by_client_fd context.user.socket_fd with
      | true =>
        simp [room_table_with, users_table_contains_by_client_fd, hheld, hroom, hlocked, hread, hinside] at hrun
        simp [← hrun.1, hinside]
      | false =>
        simp [room_table_with, users_table_contains_by_client_fd, hheld, hroom, hlocked, hread, hinside] at hrun
        simp [← hrun.1, hinside]

/-- Whoever asks to join is a member already or has no invitation. -/
def Server.Uninvited (server : Server) (client_fd : Fd) (msg_in : Message) : Prop :=
  ∀ roomname user, msg_in.roomname = some roomname → server.users.find_by_client_fd client_fd = some user →
    ((server.rooms.lookup roomname).any fun room => room.members.contains_by_client_fd user.socket_fd) = true ∨
      ((server.rooms.lookup roomname).any fun room => room.guests.contains_by_client_fd user.socket_fd) = false

/-- A failed JOIN_ROOM leaves the tables as they were where the client is no guest.
-/
theorem restores_process_join_room :
    Restores (fun server => server.Uninvited client_fd msg_in) (process_join_room net msg_in client_fd) := by
  unfold process_join_room
  cases hroomname : msg_in.roomname with
  | none => exact restores_pure false
  | some roomname =>
    refine restores_lift_bind (still_strdup _) fun operation => restores_lift_bind (still_strdup _) fun extra => ?_
    refine restores_ite (restores_pure false) ?_
    refine restores_lift_bind (still_room_table_contains roomname) fun room_exists => ?_
    refine restores_ite (restores_reject net client_fd operation extra _) ?_
    refine restores_query_bind fun found => ?_
    cases found with
    | none => exact restores_send_invalid_and_disconnect net client_fd
    | some user_from =>
      refine restores_known_bind (still_room_table_with roomname still_room_is_a_member _)
        (fun _ _ _ _ _ _ hrun => answer_room_test UsersTablePtr.read_members hrun) fun context => ?_
      cases hmember : context.is_in_room with
      | true => exact restores_pure true
      | false =>
        refine restores_known_bind (still_room_table_with roomname still_room_is_a_guest _)
          (fun _ _ _ _ _ _ hrun => answer_room_test UsersTablePtr.read_guests hrun) fun context => ?_
        cases hguest : context.is_in_room with
        | false => exact restores_reject net client_fd operation extra _
        | true =>
          rintro world after ⟨⟨⟨hjoins, hfound⟩, huser, hnomember⟩, -, hisguest⟩
          rw [hmember, huser] at hisguest
          cases hjoins roomname user_from hroomname hfound with
          | inl hinside => cases hnomember.trans hinside
          | inr houtside => cases hisguest.trans houtside

/-- Where the two lookups by descriptor agree, a request fails without a trace
unless an invited user asks to join. -/
theorem restores_message_handler_process :
    Restores (fun server =>
        (server.users.contains_by_client_fd client_fd = true → (server.users.find_by_client_fd client_fd).isSome) ∧
          (msg_in.type = .JOIN_ROOM → server.Uninvited client_fd msg_in))
      (message_handler_process net msg_in client_fd) := by
  unfold message_handler_process
  refine restores_ite (restores_pure false) ?_
  refine restores_ite (succeeds_process_disconnect net client_fd).restores ?_
  refine restores_ite (restores_process_identify net msg_in client_fd) ?_
  refine restores_query_bind fun identified => ?_
  cases identified with
  | false =>
    refine restores_lift_bind (still_strdup _) fun operation => restores_lift_bind (still_strdup _) fun result => ?_
    refine restores_ite (restores_pure false) (Handler.Succeeds.restores ?_)
    exact succeeds_bind fun _ => succeeds_bind fun _ => succeeds_return
  | true =>
    cases htype : msg_in.type with
    | STATUS => exact restores_process_status net msg_in client_fd
    | USERS => exact restores_process_users net client_fd
    | TEXT => exact restores_process_text net msg_in client_fd
    | PUBLIC_TEXT => exact restores_process_public_text net msg_in client_fd
    | NEW_ROOM => exact (restores_process_new_room net msg_in client_fd).mono fun server hknown => hknown.1.1 hknown.2
    | INVITE => exact restores_process_invite net msg_in client_fd
    | JOIN_ROOM =>
      exact (restores_process_join_room net msg_in client_fd).mono fun server hknown => hknown.1.2 rfl
    | ROOM_USERS => exact restores_process_room_users net msg_in client_fd
    | ROOM_TEXT => exact restores_process_room_text net msg_in client_fd
    | LEAVE_ROOM => exact restores_process_leave_room net msg_in client_fd
    | _ => exact restores_pure true

end Handlers

end ojalvo
