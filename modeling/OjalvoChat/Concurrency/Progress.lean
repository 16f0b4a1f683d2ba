import OjalvoChat.Concurrency.Actions
import OjalvoChat.Concurrency.Parts
import OjalvoChat.Library.Schedule
import OjalvoChat.Protocol.Delivery

namespace ojalvo

/-- An action that completes whenever no mutex is held and allocation works, and
leaves things so. -/
def Passes {A : Type} (action : Action A) : Prop :=
  ∀ server trace, ∃ value later effects, action.run (.idle server trace) = .ok value (.idle later effects)

section Actions

variable {A C : Type}

/-- A question to the users passes. -/
theorem passes_users_table_query (query : UsersTable → A) : Passes (users_table_query .server_users query) :=
  fun server trace => ⟨query server.users, server, trace, by simp⟩

/-- A change of the users passes. -/
theorem passes_users_table_update (answer : UsersTable → Bool) (change : UsersTable → UsersTable) :
    Passes (users_table_update .server_users answer change) := fun server trace =>
  ⟨answer server.users, { server with users := change server.users }, trace, by simp⟩

/-- On a net without failures a broadcast reaches everybody and marks nobody. -/
theorem run_visit_all_reliable (message : Message) (client_fd : Fd) (users : List User) (context : SendContext)
    (server : Server) (held : List Mutex) (trace : List Effect) :
    (visit_all (send_if_is_not_self reliable message client_fd) users context).run
      ⟨server, held, trace, allocating⟩ =
        .ok context ⟨server, held, trace ++ sends message (recipients users client_fd), allocating⟩ := by
  induction users generalizing trace with
  | nil => simp [visit_all, recipients, sends]
  | cons user rest ih =>
    by_cases hself : user.socket_fd = client_fd
    · rw [recipients_cons_self hself]
      simpa only [visit_all, send_if_is_not_self, if_pos hself, EStateM.run_bind, EStateM.run_pure] using ih trace
    · have hsends (later : List User) : sends message (user.socket_fd :: recipients later client_fd) =
          .send user.socket_fd message true :: sends message (recipients later client_fd) := rfl
      rw [recipients_cons_other hself, hsends, List.append_cons]
      simpa only [visit_all, send_if_is_not_self, if_neg hself, EStateM.run_bind, run_server_send, reliable, if_true,
        EStateM.run_pure] using ih (trace ++ [.send user.socket_fd message true])

/-- If no send fails a broadcast to a room reaches all members, and the rooms are
not locked a second time. -/
theorem run_notify_members_reliable (message : Message) (client_fd : Fd) (roomname : CString) (room : Room)
    (server : Server) (hroom : server.rooms.lookup roomname = some room) (trace : List Effect) :
    (room_notify_members reliable message client_fd roomname ()).run ⟨server, [.rooms], trace, allocating⟩ =
      .ok () ⟨server, [.rooms], trace ++ sends message (recipients room.members.entries client_fd), allocating⟩ := by
  have hvisits := run_visit_all_reliable message client_fd room.members.entries
    ⟨List.replicate (room.members.entries.length + 1) (-1), 0⟩ server
    [.users_table (.members roomname), .rooms] trace
  have hread : (UsersTablePtr.members roomname).read server = some room.members := by simp [hroom]
  change (notify_all_but_self reliable (.members roomname) message client_fd).run _ = _
  have hloop : (disconnect_failed (.members roomname) (List.replicate (room.members.entries.length + 1) (-1))).run
      ⟨server, [.rooms], trace ++ sends message (recipients room.members.entries client_fd), allocating⟩ =
        .ok () ⟨server, [.rooms], trace ++ sends message (recipients room.members.entries client_fd), allocating⟩ := by
    rw [List.replicate_succ, disconnect_failed, if_pos rfl]
    rfl
  simp only [notify_all_but_self, Program.run_bind, Program.run_lift, run_users_table_size, hread,
    users_table_for_each, EStateM.run_bind, run_g_mutex_lock, List.mem_singleton, reduceCtorEq, if_false,
    run_users_table_load, hvisits, run_g_mutex_unlock, EStateM.run_pure, List.erase_cons_head, hloop]

/-- If no send fails every part of a handler passes, as long as the texts that it
uses are given. -/
theorem passes_part {said : MessageType → Prop} {action : Action A}
    (hpart : Part reliable (fun text => text.isSome) said action) : Passes action := by
  intro server trace
  cases hpart with
  | strdup text hgiven =>
    obtain ⟨found, rfl⟩ := Option.isSome_iff_exists.mp hgiven
    exact ⟨_, _, _, run_strdup_some server [] trace found⟩
  | strndup text limit hgiven =>
    obtain ⟨found, rfl⟩ := Option.isSome_iff_exists.mp hgiven
    exact ⟨_, _, _, run_strndup_some server [] trace found limit⟩
  | users_table_query query => exact passes_users_table_query query server trace
  | users_table_find_by_username username hgiven =>
    obtain ⟨found, rfl⟩ := Option.isSome_iff_exists.mp hgiven
    exact passes_users_table_query (fun contents => contents.find_by_username found) server trace
  | users_table_add username client_fd =>
    rw [users_table_add, run_users_table_add_user]
    cases user_init username client_fd with
    | none => exact ⟨_, _, _, rfl⟩
    | some user => exact passes_users_table_update _ _ server trace
  | users_table_remove username => exact passes_users_table_update _ _ server trace
  | users_table_change_status client_fd status => exact passes_users_table_update _ _ server trace
  | room_table_contains roomname => exact ⟨(server.rooms.lookup roomname).isSome, server, trace, by simp⟩
  | room_table_add roomname =>
    rw [run_room_table_add]
    split
    · split <;> exact ⟨_, _, _, rfl⟩
    · exact ⟨_, _, _, rfl⟩
  | room_table_remove roomname =>
    exact ⟨(server.rooms.lookup roomname).isSome, { server with rooms := server.rooms.erase roomname }, trace, by simp⟩
  | room_remove_data user =>
    exact ⟨_, _, _, run_room_table_for_each server trace allocating (room_remove_data user) (Room.forget user.username)
      fun server room => run_room_remove_data server trace allocating user room⟩
  | room_update_status user status =>
    exact ⟨_, _, _, run_room_table_for_each server trace allocating (room_update_status user status)
      (Room.update_status user.socket_fd status) fun server room =>
        run_room_update_status server trace allocating user status room⟩
  | room_users roomname users_obj =>
    rw [run_room_table_with]
    cases hroom : server.rooms.lookup roomname with
    | none => exact ⟨_, _, _, rfl⟩
    | some room =>
      exact ⟨room.members.entries.foldl add_user_to_object users_obj, server, trace,
        by simp [room_users, users_table_iterate, hroom]⟩
  | room_is_a_member roomname context =>
    exact ⟨_, _, _, run_with_room_is_a_member server trace roomname allocating context⟩
  | room_is_a_guest roomname context =>
    exact ⟨_, _, _, run_with_room_is_a_guest server trace roomname allocating context⟩
  | room_add_creator roomname context => exact ⟨_, _, _, run_with_room_add_creator server trace roomname context⟩
  | room_add_to_guests roomname context => exact ⟨_, _, _, run_with_room_add_to_guests server trace roomname context⟩
  | room_from_guest_to_member roomname context =>
    exact ⟨_, _, _, run_with_room_from_guest_to_member server trace roomname context⟩
  | room_leave roomname context =>
    cases hroom : server.rooms.lookup roomname with
    | none => exact ⟨context, server, trace, by simp [run_room_table_with, hroom]⟩
    | some room => exact ⟨_, _, _, run_with_room_leave server trace roomname allocating room hroom context⟩
  | room_notify_members roomname message client_fd hmembers _ =>
    rw [run_room_table_with]
    cases hroom : server.rooms.lookup roomname with
    | none => exact ⟨_, _, _, rfl⟩
    | some room =>
      have hnotify := run_notify_members_reliable message client_fd roomname room server hroom trace
      exact ⟨(), server, trace ++ sends message (recipients room.members.entries client_fd), by simp [hnotify]⟩
  | server_send client_fd message hone _ => exact ⟨_, _, _, run_server_send server [] trace allocating reliable _ _⟩
  | server_disconnect_client client_fd => exact ⟨_, _, _, run_server_disconnect_client server [] trace allocating _⟩

end Actions

/-- The plan of a thread that only counts on free mutexes and on memory. -/
def free_plan (A : Type) : Program.Plan Stop World A Unit where
  proper _ world := world = .idle world.server world.trace
  pledge _ _ := True
  takes _ _ _ after _ := after = .idle after.server after.trace
  jams _ _ _ := False

/-- Such a thread can always go on. -/
abbrev Handler.Goes {A : Type} (program : Handler A) : Prop := program.Follows (free_plan A) ()

section Goes

variable {A B : Type}

theorem goes_act {action : Action A} {next : A → Handler B}
    (haction : ∀ server trace, ∃ value later effects,
      action.run (.idle server trace) = .ok value (.idle later effects) ∧ (next value).Goes) :
    Handler.Goes (.act action next) := by
  refine ⟨trivial, fun world hidle => ?_⟩
  obtain ⟨value, later, effects, hrun, hnext⟩ := haction world.server world.trace
  have hworld : action.run world = .ok value (.idle later effects) := by
    rw [← hrun]
    exact congrArg _ hidle
  rw [hworld]
  exact ⟨(), rfl, hnext⟩

theorem run_for_each_reliable (message : Message) (client_fd : Fd) (context : SendContext) (server : Server)
    (trace : List Effect) :
    (users_table_for_each .server_users (send_if_is_not_self reliable message client_fd) context).run
      (.idle server trace) =
        .ok context (.idle server (trace ++ sends message (recipients server.users.entries client_fd))) := by
  have hvisits := run_visit_all_reliable message client_fd server.users.entries context server
    [.users_table .server_users] trace
  simp only [users_table_for_each, EStateM.run_bind, run_g_mutex_lock, List.not_mem_nil, if_false,
    run_users_table_load, UsersTablePtr.read_server_users, hvisits, run_g_mutex_unlock, EStateM.run_pure,
    List.erase_cons_head]

theorem goes_notify {message : Message} {client_fd : Fd} {next : Unit → Handler B} (hnext : (next ()).Goes) :
    Handler.Goes (notify_all_but_self reliable .server_users message client_fd >>= next) := by
  refine goes_act fun server trace => ⟨server.users.entries.length, server, trace, by simp, ?_⟩
  have hloop (mx_users : Nat) :
      disconnect_failed .server_users (List.replicate (mx_users + 1) (-1)) >>= next = next () := by
    rw [List.replicate_succ, disconnect_failed, if_pos rfl]
    rfl
  refine goes_act fun later trace => ?_
  have hvisits := run_for_each_reliable message client_fd
    ⟨List.replicate (server.users.entries.length + 1) (-1), 0⟩ later trace
  refine ⟨_, later, _, hvisits, ?_⟩
  change Handler.Goes (disconnect_failed .server_users (List.replicate (_ + 1) (-1)) >>= next)
  rw [hloop]
  exact hnext

/-- Whatever is built from the parts goes on to its end. -/
theorem Handler.Built.goes {said : MessageType → Prop} {program : Handler A}
    (hprogram : program.Built reliable (fun text => text.isSome) said) : program.Goes := by
  induction hprogram with
  | ret value => trivial
  | act hpart _ ih =>
    refine goes_act fun server trace => ?_
    obtain ⟨value, later, effects, hrun⟩ := passes_part hpart server trace
    exact ⟨value, later, effects, hrun, ih value⟩
  | notify heverybody _ _ ih => exact goes_notify (ih ())

end Goes

/-- A line that is no message, or a request with the fields that it uses. -/
def Turn.Complete (turn : Turn) : Prop :=
  match turn with
  | .start _ (some msg_in) => msg_in.Given fun text => text.isSome
  | _ => True

instance (msg_in : Message) : Decidable (msg_in.Given fun text => text.isSome) :=
  decidable_of_iff ((msg_in.type = .TEXT → msg_in.username.isSome) ∧ (msg_in.type = .TEXT → msg_in.text.isSome) ∧
    (msg_in.type = .PUBLIC_TEXT → msg_in.text.isSome))
    ⟨fun hfields => ⟨hfields.1, hfields.2.1, hfields.2.2⟩,
      fun hgiven => ⟨hgiven.addressee, hgiven.text, hgiven.public_text⟩⟩

instance (turn : Turn) : Decidable turn.Complete :=
  match turn with
  | .accept _ => isTrue trivial
  | .start _ none => isTrue trivial
  | .start _ (some msg_in) => inferInstanceAs (Decidable (msg_in.Given fun text => text.isSome))
  | .act _ => isTrue trivial

/-- Every thread can always go on. -/
structure Pool.Goes (pool : Pool) : Prop where
  idle : pool.world = .idle pool.world.server pool.world.trace
  goes : ∀ session ∈ pool.sessions, ∀ job, session.job = some job → job.program.Goes

theorem Pool.Goes.set_job {pool : Pool} (hgoes : pool.Goes) {world : World} {index : Nat} {client_fd : Fd}
    {job : Option Job} (hidle : world = .idle world.server world.trace)
    (hjob : ∀ running, job = some running → running.program.Goes) :
    (pool.set_job world index client_fd job).Goes where
  idle := hidle
  goes session hsession running hrunning := by
    rcases List.mem_or_eq_of_mem_set hsession with hold | rfl
    · exact hgoes.goes session hold running hrunning
    · exact hjob running hrunning

/-- A thread takes its turn without waiting and without a crash. -/
theorem Pool.Goes.act {pool : Pool} (hgoes : pool.Goes) {index : Nat} {session : Session} {job : Job}
    (hsession : pool.sessions[index]? = some session) (hjob : session.job = some job) {world : World}
    {changed : Option Job} (hsteps : job.Steps pool.world world changed) :
    (pool.set_job world index session.client_fd changed).Goes ∧
      Program.Remains (changed.map Job.program) (some job.program) := by
  have hprogram := hgoes.goes session (List.mem_of_getElem? hsession) job hjob
  cases hsteps with
  | finish hret =>
    rw [hret]
    exact ⟨hgoes.set_job hgoes.idle (by rintro running ⟨⟩), .finish ()⟩
  | act hact hrun =>
    rw [hact] at hprogram
    have hnext := hprogram.2 pool.world hgoes.idle
    rw [hrun] at hnext
    obtain ⟨_, hidle, hnext⟩ := hnext
    rw [hact]
    refine ⟨hgoes.set_job hidle fun running hrunning => ?_, .act _ _ _⟩
    cases hrunning
    exact hnext
  | wait hact hrun =>
    rw [hact] at hprogram
    have hnever := hprogram.2 pool.world hgoes.idle
    rw [hrun] at hnever
    cases hnever

theorem PoolStep.goes {pool after : Pool} {turn : Turn} (hstep : PoolStep reliable pool turn after) (hgoes : pool.Goes)
    (hcomplete : turn.Complete) : after.Goes := by
  cases turn with
  | accept client_fd =>
    obtain ⟨-, rfl⟩ := hstep.accepted
    refine ⟨by rw [hgoes.idle], fun session hsession job hjob => ?_⟩
    rcases List.mem_append.mp hsession with hold | hnew
    · exact hgoes.goes session hold job hjob
    · rw [List.mem_singleton.mp hnew] at hjob
      cases hjob
  | start index line =>
    obtain ⟨session, hsession, hidle, rfl⟩ := hstep.begun
    refine hgoes.set_job hgoes.idle fun running hrunning => ?_
    cases hrunning
    have hgrants : Grants (fun text => text.isSome) fun _ => True := ⟨fun _ => rfl, fun _ _ => trivial⟩
    refine (built_serve hgrants (fun msg_in hline => ?_) fun _ _ => says_all _).goes
    rw [hline] at hcomplete
    exact hcomplete
  | act index =>
    obtain ⟨session, job, world, changed, hsession, hjob, hsteps, rfl⟩ := hstep.job_steps
    exact (hgoes.act hsession hjob hsteps).1

theorem pool_goes {history : List (Pool × Turn)} {pool : Pool} (hrun : PoolRun reliable history pool)
    (hcomplete : ∀ moment ∈ history, moment.2.Complete) : pool.Goes := by
  refine hrun.history_invariant_under (I := fun _ pool => pool.Goes) (C := fun _ turn => turn.Complete)
    hcomplete ⟨rfl, fun session hsession => by cases hsession⟩ ?_
  exact fun _ before turn after hgoes hnow hstep => hstep.goes hgoes hnow

end ojalvo
