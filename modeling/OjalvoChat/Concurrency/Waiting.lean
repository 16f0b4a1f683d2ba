import OjalvoChat.Concurrency.Parts
import OjalvoChat.Concurrency.Tracking

namespace ojalvo

/-- An action that never waits, or that waits for as long as the mutex of the rooms
is held. -/
inductive Waits {A : Type} (action : Action A) : Prop where
  | never (hgoes : ∀ world : World, world.Proper → ∀ mutex stopped,
      action.run world ≠ .error (.blocked mutex) stopped)
  | rooms (hwaits : ∀ server trace, action.run ⟨server, [.rooms], trace, allocating⟩ =
      .error (.blocked .rooms) ⟨server, [.rooms], trace, allocating⟩)

section Actions

variable {net : Net} {A C : Type} {given : Option CString → Prop} {said : MessageType → Prop}

/-- An action that the mutex of the rooms does not concern never waits. -/
theorem waits_of_ok {action : Action A} (hrun : ∀ server held trace, held = [] ∨ held = [.rooms] →
    ∃ value after, action.run ⟨server, held, trace, allocating⟩ = .ok value after) : Waits action := by
  refine .never ?_
  rintro ⟨server, held, trace, alloc⟩ ⟨rfl, hheld⟩ mutex stopped hstopped
  obtain ⟨value, after, hok⟩ := hrun server held trace hheld
  rw [hok] at hstopped
  cases hstopped

theorem waits_strdup (text : Option CString) : Waits (strdup text) := by
  cases text with
  | none => exact .never fun world _ mutex stopped => by rintro ⟨⟩
  | some text => exact waits_of_ok fun server held trace _ => ⟨_, _, run_strdup_some server held trace text⟩

/-- The mutexes of the users are free between two actions. -/
theorem waits_users_table_query (query : UsersTable → A) : Waits (users_table_query .server_users query) :=
  waits_of_ok fun server held trace hheld => ⟨query server.users, ⟨server, held, trace, allocating⟩, by
    simp [not_mem_held hheld]⟩

theorem waits_users_table_update (answer : UsersTable → Bool) (change : UsersTable → UsersTable) :
    Waits (users_table_update .server_users answer change) :=
  waits_of_ok fun server held trace hheld => ⟨answer server.users,
    ⟨{ server with users := change server.users }, held, trace, allocating⟩, by simp [not_mem_held hheld]⟩

/-- An action in a room waits for the rooms. -/
theorem waits_room_table_with (roomname : CString) (visitor : RoomPtr → C → Action C) (context : C) :
    Waits (room_table_with roomname visitor context) :=
  .rooms (run_room_table_with_blocked roomname visitor context)

theorem waits_room_table_for_each (visitor : RoomPtr → Action Unit) : Waits (room_table_for_each visitor) :=
  .rooms (run_room_table_for_each_held visitor)

/-- No part of a handler waits for another mutex than that of the rooms. -/
theorem waits_part {action : Action A} (hpart : Part net given said action) : Waits action := by
  cases hpart with
  | strdup text _ => exact waits_strdup text
  | strndup text limit _ =>
    cases text with
    | none => exact .never fun world _ mutex stopped => by rintro ⟨⟩
    | some text => exact waits_strdup (some (text.cut limit))
  | users_table_query query => exact waits_users_table_query query
  | users_table_find_by_username username _ =>
    cases username with
    | none => exact .never fun world _ mutex stopped => by rintro ⟨⟩
    | some name => exact waits_users_table_query fun contents => contents.find_by_username name
  | users_table_add username client_fd =>
    refine waits_of_ok fun server held trace hheld => ?_
    rw [users_table_add, run_users_table_add_user]
    cases user_init username client_fd with
    | none => exact ⟨_, _, rfl⟩
    | some user =>
      exact ⟨_, ⟨_, held, trace, allocating⟩, by simp [not_mem_held hheld]; exact ⟨rfl, rfl⟩⟩
  | users_table_remove username => exact waits_users_table_update _ _
  | users_table_change_status client_fd status => exact waits_users_table_update _ _
  | room_table_contains roomname => exact .rooms fun server trace => by simp
  | room_table_add roomname =>
    by_cases hnamed : 0 < strlen roomname ∧ strlen roomname ≤ ROOM_ROOMNAME_MAX_LENGTH
    · exact .rooms fun server trace => by rw [run_room_table_add_blocked, if_pos hnamed]
    · refine waits_of_ok fun server held trace hheld => ?_
      rcases hheld with rfl | rfl
      · exact ⟨_, _, by rw [run_room_table_add, dif_neg hnamed]⟩
      · exact ⟨_, _, by rw [run_room_table_add_blocked, if_neg hnamed]⟩
  | room_table_remove roomname => exact .rooms fun server trace => by simp
  | room_remove_data | room_update_status => exact waits_room_table_for_each _
  | server_send client_fd message _ _ =>
    exact waits_of_ok fun server held trace _ => ⟨_, _, run_server_send server held trace allocating net _ _⟩
  | server_disconnect_client client_fd =>
    exact waits_of_ok fun server held trace _ => ⟨_, _, run_server_disconnect_client server held trace allocating _⟩
  | _ => exact waits_room_table_with _ _ _

/-- A broadcast to all users waits for nobody. -/
theorem waits_send_visits (message : Message) (client_fd : Fd) (context : SendContext) :
    Waits (users_table_for_each .server_users (send_if_is_not_self net message client_fd) context) := by
  refine .never ?_
  rintro ⟨server, held, trace, alloc⟩ ⟨rfl, hheld⟩ mutex stopped hstopped
  simp only [users_table_for_each, EStateM.run_bind, run_g_mutex_lock, if_neg (not_mem_held hheld _),
    run_users_table_load, UsersTablePtr.read_server_users] at hstopped
  rcases send_visits message client_fd net server.users.entries context
    ⟨server, .users_table .server_users :: held, trace, allocating⟩ with ⟨value, effects, hok, -⟩ | ⟨outside, hout⟩
  · rw [hok] at hstopped
    cases hstopped
  · rw [hout] at hstopped
    cases hstopped

/-- Every action of a handler waits at most for the mutex of the rooms. -/
theorem each_waits_serve {client_fd : Fd} (line : Option Message) :
    (serve net (Event.of_line client_fd line)).Each Waits fun _ => True := by
  have hbuilt : Handler.Built net (fun _ => True) (fun _ => True) (serve net (Event.of_line client_fd line)) :=
    built_serve grants_all (fun _ _ => given_all _) fun _ _ => says_all _
  refine hbuilt.each (fun _ hpart => waits_part hpart) (waits_of_ok fun server held trace _ =>
    ⟨server.users.entries.length, ⟨server, held, trace, allocating⟩, by simp⟩)
    (fun message client_fd context _ _ => waits_send_visits message client_fd context) ?_
  exact .never fun world _ mutex stopped => by rintro ⟨⟩

end Actions

section Pools

variable {net : Net} {pool after : Pool} {known later : Knowledge} {turn : Turn}

/-- The next action of a job cannot complete while the mutex of the rooms is held. -/
def Job.Stuck (job : Job) : Prop :=
  match job.program with
  | .ret _ => False
  | .act action _ => ∀ server trace, action.run ⟨server, [.rooms], trace, allocating⟩ =
    .error (.blocked .rooms) ⟨server, [.rooms], trace, allocating⟩

/-- Who has left the mutex of the rooms locked is still in progress. -/
def Pool.Held (pool : Pool) : Prop :=
  pool.world.held = [] ∨ ∃ index job, pool.job index = some job ∧ job.Stuck

/-- Whoever gets stuck on the mutex of the rooms stays so, and nobody else releases
it. -/
theorem Moves.held (hmoves : Moves net pool known turn after later) (hproper : pool.world.Proper)
    (heach : pool.Each Waits) (hheld : pool.Held) : after.Held := by
  have hset {world : World} {moved : Nat} {session : Session} {running : Job} {changed : Option Job}
      (hsession : pool.sessions[moved]? = some session) (hjob : session.job = some running)
      (hworld : world.held = pool.world.held) (hfree : pool.world.held = [.rooms] → ¬ running.Stuck) :
      (pool.set_job world moved session.client_fd changed).Held := by
    rcases hproper.held with hnone | hrooms
    · exact Or.inl (hworld.trans hnone)
    · obtain ⟨index, job, hfound, hstuck⟩ := hheld.resolve_left (by simp [hrooms])
      refine Or.inr ⟨index, job, ?_, hstuck⟩
      rw [Pool.job_set_job hsession, if_neg, hfound]
      rintro rfl
      rw [Pool.job_of_session hsession, hjob] at hfound
      cases hfound
      exact hfree hrooms hstuck
  cases hmoves with
  | accept client_fd hclosed =>
    refine hheld.imp_right ?_
    rintro ⟨index, job, hfound, hstuck⟩
    exact ⟨index, job, (pool.job_accept _ client_fd index).trans hfound, hstuck⟩
  | start line hsession hidle =>
    refine hheld.imp_right ?_
    rintro ⟨index, job, hfound, hstuck⟩
    refine ⟨index, job, ?_, hstuck⟩
    rw [Pool.job_set_job hsession, if_neg, hfound]
    rintro rfl
    rw [Pool.job_of_session hsession, hidle] at hfound
    cases hfound
  | finish hsession hjob hprogram =>
    exact hset hsession hjob rfl fun _ hstuck => by simp [Job.Stuck, hprogram] at hstuck
  | deed hsession hjob hprogram hrun hstep =>
    refine hset hsession hjob rfl fun hrooms hstuck => ?_
    simp only [Job.Stuck, hprogram] at hstuck
    have hstopped := hstuck pool.world.server pool.world.trace
    rw [← hrooms, ← hproper.alloc] at hstopped
    cases hrun.symm.trans hstopped
  | jam hsession hjob hprogram hrun heffects =>
    rename_i index session job A action next mutex effects
    have hnext := heach index job ((Pool.job_of_session hsession).trans hjob)
    rw [hprogram] at hnext
    refine Or.inr ⟨index, _, by rw [Pool.job_set_job hsession, if_pos rfl], ?_⟩
    cases hnext.1 with
    | never hgoes => exact absurd hrun (hgoes _ hproper _ _)
    | rooms hwaits =>
      simpa only [Job.Stuck, hprogram] using hwaits

/-- When no handler is in progress, no mutex is held. -/
theorem held_eq_nil_of_quiescent {history : List (Pool × Turn)} (hrun : PoolRun net history pool)
    (hquiet : pool.Quiescent) : pool.world.held = [] := by
  obtain ⟨known, -, -, hheld⟩ := pool_invariant (C := fun _ _ => True)
    (I := fun _ pool _ => pool.Each Waits ∧ pool.Held) hrun (fun _ _ => trivial) ⟨each_init, Or.inl rfl⟩
    fun history before known turn after later htracks _ hbefore _ hstep hmoves =>
      ⟨hstep.each hbefore.1 fun _ line => each_waits_serve line, hmoves.held htracks.proper hbefore.1 hbefore.2⟩
  refine hheld.resolve_right ?_
  rintro ⟨index, job, hjob, -⟩
  rw [hquiet.job_eq_none] at hjob
  cases hjob

end Pools

end ojalvo
