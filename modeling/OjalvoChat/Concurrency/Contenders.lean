import OjalvoChat.Concurrency.Handlers
import OjalvoChat.Concurrency.Race

namespace ojalvo

section Completes

variable {A : Type}

/-- Nothing keeps an action from completing when no mutex is held. -/
def Completes (action : Action A) : Prop :=
  ∀ server trace, ∃ value after, action.run (.idle server trace) = .ok value after

theorem completes_strdup (text : CString) : Completes (strdup (some text)) :=
  fun server trace => ⟨some text, .idle server trace, by simp [World.idle]⟩

/-- A question to the users completes. -/
theorem completes_users_table_query (query : UsersTable → A) : Completes (users_table_query .server_users query) :=
  fun server trace => ⟨query server.users, .idle server trace, by simp [World.idle]⟩

theorem completes_users_table_size : Completes (users_table_size .server_users) :=
  fun server trace => ⟨server.users.entries.length, .idle server trace, by simp [World.idle]⟩

theorem completes_users_table_find_by_username (username : CString) :
    Completes (users_table_find_by_username .server_users (some username)) :=
  completes_users_table_query _

/-- The attempt to add a user completes, successful or not. -/
theorem completes_users_table_add (username : CString) (client_fd : Fd) :
    Completes (users_table_add .server_users username client_fd) := by
  intro server trace
  rw [users_table_add, World.idle, run_users_table_add_user]
  cases user_init username client_fd with
  | none => exact ⟨_, _, rfl⟩
  | some user => exact ⟨_, _, by simp; exact ⟨rfl, rfl⟩⟩

theorem completes_room_table_contains (roomname : CString) : Completes (room_table_contains roomname) :=
  fun server trace => ⟨(server.rooms.lookup roomname).isSome, .idle server trace, by simp [World.idle]⟩

/-- The attempt to open a room completes, successful or not. -/
theorem completes_room_table_add (roomname : CString) : Completes (room_table_add roomname) := by
  intro server trace
  rw [World.idle, run_room_table_add]
  split
  · cases server.rooms.lookup roomname with
    | none => exact ⟨_, _, rfl⟩
    | some room => exact ⟨_, _, rfl⟩
  · exact ⟨_, _, rfl⟩

theorem completes_room_add_creator (roomname : CString) (context : RoomVisitorContext) :
    Completes (room_table_with roomname room_add_creator context) :=
  fun server trace => ⟨_, _, run_with_room_add_creator server trace roomname context⟩

/-- On a net on which no send fails a broadcast has nobody to collect. -/
theorem run_send_visits_reliable (message : Message) (client_fd : Fd) (users : List User) (context : SendContext)
    (world : World) :
    ∃ effects, (visit_all (send_if_is_not_self reliable message client_fd) users context).run world =
        .ok context { world with trace := world.trace ++ effects } ∧
      ∀ effect ∈ effects, Sends reliable (fun _ sent => sent = message) effect := by
  induction users generalizing world with
  | nil => exact ⟨[], by simp [visit_all], List.forall_mem_nil _⟩
  | cons user rest ih =>
    by_cases hself : user.socket_fd = client_fd
    · simp only [visit_all, send_if_is_not_self, if_pos hself, EStateM.run_bind, EStateM.run_pure]
      exact ih world
    · obtain ⟨server, held, trace, alloc⟩ := world
      obtain ⟨effects, hrun, hall⟩ := ih ⟨server, held, trace ++ [.send user.socket_fd message true], alloc⟩
      refine ⟨.send user.socket_fd message true :: effects, ?_,
        List.forall_mem_cons.mpr ⟨⟨_, _, trace, rfl, rfl⟩, hall⟩⟩
      simp only [visit_all, send_if_is_not_self, if_neg hself, EStateM.run_bind, run_server_send, reliable, if_true,
        EStateM.run_pure]
      exact hrun.trans (by simp)

/-- If no send fails a broadcast to all users only sends. -/
theorem run_users_table_for_each_send (message : Message) (client_fd : Fd) (context : SendContext) (server : Server)
    (held : List Mutex) (trace : List Effect) (hheld : .users_table .server_users ∉ held) :
    ∃ effects, (users_table_for_each .server_users (send_if_is_not_self reliable message client_fd) context).run
        ⟨server, held, trace, allocating⟩ = .ok context ⟨server, held, trace ++ effects, allocating⟩ ∧
      ∀ effect ∈ effects, Sends reliable (fun _ sent => sent = message) effect := by
  obtain ⟨effects, hrun, hall⟩ := run_send_visits_reliable message client_fd server.users.entries context
    ⟨server, .users_table .server_users :: held, trace, allocating⟩
  refine ⟨effects, ?_, hall⟩
  simp only [users_table_for_each, EStateM.run_bind, run_g_mutex_lock, if_neg hheld, run_users_table_load,
    UsersTablePtr.read_server_users, hrun, run_g_mutex_unlock, EStateM.run_pure, List.erase_cons_head]

theorem does_send_visits_reliable (message : Message) (client_fd : Fd) (context : SendContext) :
    Does reliable (users_table_for_each .server_users (send_if_is_not_self reliable message client_fd) context)
      fun _ value deed => value = context ∧ ∃ effects, deed = .tell effects ∧
        ∀ effect ∈ effects, Sends reliable (fun _ sent => sent = message) effect :=
  does_of_ok fun server held trace hheld => by
    obtain ⟨effects, hrun, hall⟩ :=
      run_users_table_for_each_send message client_fd context server held trace (not_mem_held hheld _)
    exact ⟨context, .tell effects, hrun, rfl, effects, rfl, hall⟩

/-- If no send fails a broadcast to all users completes. -/
theorem completes_send_visits (message : Message) (client_fd : Fd) (context : SendContext) :
    Completes (users_table_for_each .server_users (send_if_is_not_self reliable message client_fd) context) := by
  intro server trace
  obtain ⟨effects, hrun, -⟩ := run_users_table_for_each_send message client_fd context server [] trace List.not_mem_nil
  exact ⟨_, _, hrun⟩

end Completes

section Rules

variable {prize : Prize} {client_fd : Fd} {stage : Stage} {A : Type}

theorem World.proper_of_idle {world : World} (hidle : world = .idle world.server world.trace) : world.Proper :=
  ⟨congrArg World.alloc hidle, Or.inl (congrArg World.held hidle)⟩

/-- Who only reads takes nothing. -/
theorem not_claims_of_reads {action : Action A} {spec : Server → A → Prop} (haction : Reads reliable action spec) :
    ¬ prize.Claims action := by
  intro hclaims
  obtain ⟨value, after, hrun, htaken⟩ := hclaims server_init [] prize.free_init
  have hdoes := haction (.idle server_init []) ⟨rfl, Or.inl rfl⟩
  rw [hrun] at hdoes
  obtain ⟨deed, rfl, -, rfl⟩ := hdoes
  rw [Deed.perform_look, World.idle, prize.free_init] at htaken
  cases htaken

/-- The rule for one action. -/
theorem races_act {action : Action A} {next : A → Handler Unit} {spec : Server → A → Deed → Prop}
    (haction : Does reliable action spec) (hcompletes : Completes action)
    (hnext : ∀ server value deed, prize.Relies client_fd stage server → spec server value deed →
      ∃ later, RaceStep prize client_fd (liftM action >>= next) server stage deed later ∧
        Races prize client_fd later (next value)) :
    Races prize client_fd stage (liftM action >>= next) := by
  refine Program.follows_lift_bind nofun fun world hproper => ?_
  have hdoes := haction world (World.proper_of_idle hproper.1)
  obtain ⟨value, after, hrun⟩ := hcompletes world.server world.trace
  rw [← hproper.1] at hrun
  rw [hrun] at hdoes ⊢
  obtain ⟨deed, hafter, hspec⟩ := hdoes
  obtain ⟨later, hstep, hraces⟩ := hnext world.server value deed hproper.2 hspec
  exact ⟨later, ⟨deed, hafter, hstep⟩, hraces⟩

/-- An action that only reads and decides nothing. -/
theorem races_look {action : Action A} {next : A → Handler Unit} {spec : Server → A → Prop}
    (haction : Reads reliable action spec) (hcompletes : Completes action)
    (hnext : ∀ server value, prize.Relies client_fd stage server → spec server value →
      Races prize client_fd stage (next value)) :
    Races prize client_fd stage (liftM action >>= next) := by
  refine races_act haction hcompletes ?_
  rintro server value deed hrelies ⟨hspec, rfl⟩
  exact ⟨stage, .notice stage [] (fun _ => rfl) (fun _ hclaims => not_claims_of_reads haction hclaims),
    hnext server value hrelies hspec⟩

theorem races_strdup {text : CString} {next : Option CString → Handler Unit}
    (hnext : Races prize client_fd stage (next (some text))) :
    Races prize client_fd stage (liftM (strdup (some text)) >>= next) :=
  races_look (reads_strdup _) (completes_strdup text) fun _ value _ hvalue => by rw [hvalue]; exact hnext

theorem races_strndup {text : CString} {limit : Nat} {next : Option CString → Handler Unit}
    (hnext : Races prize client_fd stage (next (some (text.cut limit)))) :
    Races prize client_fd stage (liftM (strndup (some text) limit) >>= next) :=
  races_look (reads_strndup _ limit) (completes_strdup _) fun _ value _ hvalue => by rw [hvalue]; exact hnext

/-- A contender may look at the users. -/
theorem races_query {B : Type} {query : UsersTable → B} {next : B → Handler Unit}
    (hnext : ∀ server, prize.Relies client_fd stage server →
      Races prize client_fd stage (next (query server.users))) :
    Races prize client_fd stage (liftM (users_table_query .server_users query) >>= next) :=
  races_look (reads_users_table_query query) (completes_users_table_query query) fun server value hrelies hvalue => by
    rw [hvalue]
    exact hnext server hrelies

/-- The answer to the own client. -/
theorem races_send {later : Stage} {message : Message} {next : Bool → Handler Unit}
    (hstep : ∀ program server,
      RaceStep prize client_fd program server stage (.tell [.send client_fd message true]) later)
    (hnext : Races prize client_fd later (next true)) :
    Races prize client_fd stage (liftM (server_send reliable client_fd message) >>= next) := by
  refine races_act (does_server_send client_fd message) (fun _ _ => ⟨_, _, rfl⟩) ?_
  rintro server value deed - ⟨trace, rfl, rfl⟩
  exact ⟨later, hstep _ server, hnext⟩

/-- Only responses to the claim count as answers. -/
theorem answers_send (operation result : CString) (extra : Option CString) (fd : Fd)
    (hoperation : operation = prize.operation) :
    prize.answers fd [.send client_fd (response operation result extra) true] =
      if fd = client_fd then [result] else [] := by
  subst hoperation
  by_cases hsame : fd = client_fd
  · rw [if_pos hsame, hsame]
    exact List.filterMap_cons_some (if_pos ⟨rfl, rfl, rfl⟩)
  · rw [if_neg hsame]
    exact List.filterMap_cons_none (if_neg fun hanswer => hsame hanswer.1.symm)

/-- A contender is done when it has its answer. -/
theorem races_done (hfinal : stage.Final) : Races prize client_fd stage (pure ()) := fun _ _ => hfinal

/-- A broadcast on a net on which no send fails. -/
theorem races_notify {rest : Unit → Handler Unit} {message : Message} (fd : Fd) (htype : message.type ≠ .RESPONSE)
    (hfinal : stage.Final) (hrest : Races prize client_fd stage (rest ())) :
    Races prize client_fd stage (notify_all_but_self reliable .server_users message fd >>= rest) := by
  have hsettled : stage ≠ .adding := by
    rintro rfl
    rcases hfinal with h | h | h <;> cases h
  unfold notify_all_but_self
  simp only [bind_assoc]
  refine races_look reads_users_table_size completes_users_table_size fun server size _ _ => ?_
  refine races_act (does_send_visits_reliable message fd _) (completes_send_visits message fd _) ?_
  rintro server context deed - ⟨rfl, effects, rfl, hall⟩
  refine ⟨stage, .notice stage effects (fun other => ?_) fun hadding => absurd hadding hsettled, ?_⟩
  · refine List.filterMap_eq_nil_iff.mpr fun effect hmem => ?_
    obtain ⟨target, sent, trace, rfl, rfl⟩ := hall effect hmem
    exact if_neg fun hanswer => htype hanswer.2.1
  · rw [List.replicate_succ]
    exact hrest

end Rules

section Handlers

variable {client_fd : Fd} {msg_in : Message}

/-- A name is claimed by adding a user under it. -/
theorem claims_users_table_add {username : CString} (hvalid : (Prize.name username).Valid) :
    (Prize.name username).Claims (users_table_add .server_users username client_fd) := by
  intro server trace hfree
  have named : 0 < strlen username ∧ strlen username ≤ USER_USERNAME_MAX_LENGTH := hvalid
  have hinit : user_init username client_fd = some ⟨username, client_fd, .ACTIVE, named⟩ := dif_pos named
  have hnone : server.users.table.lookup username = none :=
    Option.isNone_iff_eq_none.mp (Option.isSome_eq_false_iff.mp hfree)
  refine ⟨true, .idle (server.register ⟨username, client_fd, .ACTIVE, named⟩) trace, ?_, ?_⟩
  · rw [users_table_add, run_users_table_add_user, hinit]
    simp [UsersTable.find_by_username, hnone, Server.register]
  · simp [Prize.taken, Server.register, UsersTable.add, UsersTable.find_by_username, hnone]

/-- A room is claimed by adding it. -/
theorem claims_room_table_add {roomname : CString} (hvalid : (Prize.room roomname).Valid) :
    (Prize.room roomname).Claims (room_table_add roomname) := by
  intro server trace hfree
  have named : 0 < strlen roomname ∧ strlen roomname ≤ ROOM_ROOMNAME_MAX_LENGTH := hvalid
  have hnone : server.rooms.lookup roomname = none := Option.isNone_iff_eq_none.mp (Option.isSome_eq_false_iff.mp hfree)
  refine ⟨true, .idle ((Deed.open_room roomname named).apply server) trace, ?_, ?_⟩
  · rw [run_room_table_add, dif_pos named, hnone]
    rfl
  · simp [Prize.taken, Deed.apply]

/-- IDENTIFY is a claim to a name. -/
theorem races_process_identify {username : CString} (hvalid : (Prize.name username).Valid)
    (hname : msg_in.username = some username) :
    Races (.name username) client_fd .checking (process_identify reliable msg_in client_fd >>= fun _ => pure ()) := by
  unfold process_identify
  simp only [hname, Option.isNone_some, Bool.false_eq_true, if_false, bind_assoc]
  refine races_strndup ?_
  simp only [CString.cut_of_strlen_le hvalid.2, bind_assoc]
  refine races_query fun server hrelies => ?_
  rw [hrelies.unidentified (by simp [Stage.Holds])]
  simp only [bind_assoc]
  refine races_act (reads_users_table_find_by_username _) (completes_users_table_find_by_username _) ?_
  rintro server found deed hrelies ⟨⟨name, hsame, hfound⟩, rfl⟩
  cases hsame
  cases found with
  | some user =>
    have hother : user.socket_fd ≠ client_fd :=
      (Or.resolve_left hrelies (by simp [Stage.Holds])).2 user hfound.symm
    refine ⟨.losing, .find_taken (by rw [Prize.taken, ← hfound]; rfl), ?_⟩
    simp only [if_pos hother, bind_assoc]
    refine races_strdup (races_strdup (races_strdup ?_))
    refine races_send (fun _ _ => .refuse (answers_send _ _ _ · rfl)) ?_
    unfold process_disconnect
    simp only [bind_assoc]
    refine races_query fun server hrelies => ?_
    rw [hrelies.unidentified (by simp [Stage.Holds])]
    refine races_act (does_server_disconnect_client client_fd) (fun _ _ => ⟨_, _, rfl⟩) ?_
    rintro server value deed - rfl
    exact ⟨.lost, .notice .lost _ (fun _ => rfl) (fun hadding => by cases hadding), races_done (Or.inr (Or.inl rfl))⟩
  | none =>
    refine ⟨.adding, .find_free (by rw [Prize.taken, ← hfound]; rfl), ?_⟩
    simp only [bind_assoc]
    refine races_act (does_users_table_add username client_fd) (completes_users_table_add username client_fd) ?_
    rintro server added deed - (⟨rfl, hfree, user, hinit, rfl⟩ | ⟨rfl, rfl, hrefused⟩)
    · obtain ⟨huser, hfd, -⟩ := user_init_eq_some_iff.mp hinit
      refine ⟨.winning, .take (by rw [Prize.taken, hfree]; rfl) ⟨user, rfl, huser, hfd⟩, ?_⟩
      simp only [if_true, bind_assoc]
      refine races_strdup (races_strdup (races_strdup ?_))
      refine races_send (fun _ _ => .confirm (answers_send _ _ _ · rfl)) ?_
      simp only [if_true, bind_assoc]
      exact races_strdup (races_notify client_fd (by simp) (Or.inl rfl) (races_done (Or.inl rfl)))
    · have hheld : (server.users.find_by_username username).isSome := by
        refine hrefused.resolve_left fun hnone => ?_
        have named : 0 < strlen username ∧ strlen username ≤ USER_USERNAME_MAX_LENGTH := hvalid
        rw [user_init, dif_pos named] at hnone
        cases hnone
      exact ⟨.missed, .miss hheld (claims_users_table_add hvalid), races_done (Or.inr (Or.inr rfl))⟩

/-- An eligible client is found in `server->users`. -/
theorem races_find_self {roomname : CString} {stage : Stage} {next : Option User → Handler Unit}
    (hnext : ∀ user, Races (.room roomname) client_fd stage (next (some user))) :
    Races (.room roomname) client_fd stage
      (liftM (users_table_find_by_client_fd .server_users client_fd) >>= next) := by
  refine races_query fun server hrelies => ?_
  obtain ⟨user, huser⟩ := Option.isSome_iff_exists.mp hrelies
  rw [huser]
  exact hnext user

/-- NEW_ROOM is a claim to a room. -/
theorem races_process_new_room {roomname : CString} (hvalid : (Prize.room roomname).Valid)
    (hname : msg_in.roomname = some roomname) :
    Races (.room roomname) client_fd .checking (process_new_room reliable msg_in client_fd >>= fun _ => pure ()) := by
  have hcut : roomname.cut 16 = roomname := CString.cut_of_strlen_le hvalid.2
  unfold process_new_room
  simp only [hname, bind_assoc]
  refine races_strndup ?_
  simp only [hcut, bind_assoc]
  refine races_strdup (races_strdup ?_)
  simp only [Option.isNone_some, Bool.false_eq_true, or_self, if_false, bind_assoc]
  refine races_act (reads_room_table_contains _) (completes_room_table_contains _) ?_
  rintro server exists_already deed - ⟨hexists, rfl⟩
  cases exists_already with
  | true =>
    refine ⟨.losing, .find_taken hexists.symm, ?_⟩
    simp only [if_true, bind_assoc]
    refine races_strdup ?_
    simp only [Option.isNone_some, Bool.false_eq_true, if_false]
    unfold send_or_disconnect
    rw [bind_assoc]
    refine races_send (fun _ _ => .refuse (answers_send _ _ _ · rfl)) ?_
    exact races_done (Or.inr (Or.inl rfl))
  | false =>
    refine ⟨.adding, .find_free hexists.symm, ?_⟩
    simp only [Bool.false_eq_true, if_false, bind_assoc]
    refine races_strdup ?_
    simp only [Option.isNone_some, Bool.false_eq_true, if_false, bind_assoc]
    refine races_act (does_room_table_add roomname) (completes_room_table_add roomname) ?_
    rintro server added deed - (⟨rfl, hfree, named, rfl⟩ | ⟨rfl, rfl, hrefused⟩)
    · refine ⟨.winning, .take (by rw [Prize.taken, hfree]; rfl) ⟨named, rfl⟩, ?_⟩
      simp only [if_true, bind_assoc]
      refine races_find_self fun room_creator => ?_
      simp only [bind_assoc]
      refine races_act (does_room_add_creator roomname _) (completes_room_add_creator roomname _) ?_
      rintro server value deed - rfl
      refine ⟨.winning, .seat roomname room_creator rfl, ?_⟩
      unfold send_or_disconnect
      rw [bind_assoc]
      refine races_send (fun _ _ => .confirm (answers_send _ _ _ · rfl)) ?_
      exact races_done (Or.inl rfl)
    · exact ⟨.missed, .miss (hrefused.resolve_left fun hnot => hnot hvalid) (claims_room_table_add hvalid),
        races_done (Or.inr (Or.inr rfl))⟩

/-- Whoever asks for the prize keeps to the plan. -/
theorem races_serve {prize : Prize} (hvalid : prize.Valid) (hrequested : prize.Requested msg_in) :
    Races prize client_fd .checking (serve reliable (.request client_fd msg_in)) := by
  change Races prize client_fd .checking (message_handler_process reliable msg_in client_fd >>= fun _ => pure ())
  unfold message_handler_process
  cases prize with
  | name username =>
    simp only [hrequested.1, reduceCtorEq, if_false, if_true]
    exact races_process_identify hvalid hrequested.2
  | room roomname =>
    simp only [hrequested.1, reduceCtorEq, if_false, bind_assoc]
    refine races_query fun server hrelies => ?_
    rw [UsersTable.contains_of_find hrelies]
    simp only [Bool.not_true, Bool.false_eq_true, if_false]
    exact races_process_new_room hvalid hrequested.2

end Handlers

end ojalvo
