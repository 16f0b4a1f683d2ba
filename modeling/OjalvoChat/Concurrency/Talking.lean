import OjalvoChat.Concurrency.Progress
import OjalvoChat.Library.Atomic

namespace ojalvo

/-- Nobody changes the tables, and no mutex is held. -/
def At (server : Server) (world : World) : Prop := world = .idle server world.trace

/-- Requests that talk, and those that ask who is there. -/
def talk_types : List MessageType := [.USERS, .TEXT, .PUBLIC_TEXT, .ROOM_USERS, .ROOM_TEXT]

/-- A registered client talks, or asks who is there. -/
structure Message.Talks (server : Server) (client_fd : Fd) (msg_in : Message) : Prop where
  type : msg_in.type ∈ talk_types
  registered : (server.users.find_by_client_fd client_fd).isSome
  given : msg_in.Given fun text => text.isSome

section Rules

variable {server : Server} {A B : Type}

/-- An answer that does not depend on the trace is the same at every moment. -/
theorem at_read {action : Action A} {value : A}
    (hrun : ∀ trace, action.run (.idle server trace) = .ok value (.idle server trace)) :
    ∀ world, At server world → action.run world = .ok value world := by
  intro world hat
  rw [hat]
  exact hrun world.trace

/-- A look at the tables comes before the action that counts. -/
theorem commits_look {action : Action A} {next : A → Handler B} (value : A)
    (hrun : ∀ trace, action.run (.idle server trace) = .ok value (.idle server trace))
    (hnext : (next value).Commits (At server)) : Program.Commits (At server) (liftM action >>= next) :=
  Program.commits_read value (at_read hrun) hnext

theorem commits_strdup {text : CString} {next : Option CString → Handler B}
    (hnext : (next (some text)).Commits (At server)) :
    Program.Commits (At server) (liftM (strdup (some text)) >>= next) :=
  commits_look (some text) (fun trace => run_strdup_some server [] trace text) hnext

/-- A question to the users comes before the action that counts. -/
theorem commits_query {query : UsersTable → A} {next : A → Handler B}
    (hnext : (next (query server.users)).Commits (At server)) :
    Program.Commits (At server) (liftM (users_table_query .server_users query) >>= next) :=
  commits_look _ (fun trace => by simp) hnext

/-- An action that sends is the one that counts, if nothing that counts follows. -/
theorem commits_tell {action : Action A} {next : A → Handler B}
    (hrun : ∀ trace, ∃ value later, action.run (.idle server trace) = .ok value (.idle server later) ∧
      (next value).Settles (At server)) :
    Program.Commits (At server) (liftM action >>= next) := by
  refine Program.commits_visible fun world hat => ?_
  obtain ⟨value, later, hok, hnext⟩ := hrun world.trace
  refine ⟨value, .idle server later, ?_, rfl, hnext⟩
  rw [← hok]
  exact congrArg _ hat

/-- A single message is sent in the action that counts. -/
theorem commits_send_or_disconnect {fd failed_fd : Fd} {message : Message} :
    Program.Commits (At server) (send_or_disconnect reliable fd message failed_fd) :=
  commits_tell fun trace => ⟨true, _, run_server_send server [] trace allocating reliable fd message, trivial⟩

/-- A broadcast is sent in one action, which is the one that counts. -/
theorem commits_notify {message : Message} {client_fd : Fd} {next : Unit → Handler B}
    (hnext : (next ()).Settles (At server)) :
    Program.Commits (At server) (notify_all_but_self reliable .server_users message client_fd >>= next) := by
  refine commits_look server.users.entries.length (fun trace => by simp) ?_
  refine commits_tell fun trace => ?_
  have hvisits := run_for_each_reliable message client_fd
    ⟨List.replicate (server.users.entries.length + 1) (-1), 0⟩ server trace
  refine ⟨_, _, hvisits, ?_⟩
  change Program.Settles _ (disconnect_failed .server_users (List.replicate (_ + 1) (-1)) >>= next)
  rw [List.replicate_succ, disconnect_failed, if_pos rfl]
  exact hnext

theorem commits_contains {roomname : CString} {next : Bool → Handler B}
    (hnext : (next (server.rooms.lookup roomname).isSome).Commits (At server)) :
    Program.Commits (At server) (liftM (room_table_contains roomname) >>= next) :=
  commits_look _ (fun trace => by simp) hnext

theorem commits_room_is_a_member {roomname : CString} {context : RoomVisitorContext}
    {next : RoomVisitorContext → Handler B}
    (hnext : ∀ is_in_room, (next { context with is_in_room }).Commits (At server)) :
    Program.Commits (At server) (liftM (room_table_with roomname room_is_a_member context) >>= next) :=
  commits_look _ (fun trace => run_with_room_is_a_member server trace roomname allocating context) (hnext _)

/-- The broadcast to a room is one action. -/
theorem commits_tell_room {roomname : CString} {message : Message} {client_fd : Fd} {next : Unit → Handler B}
    (hnext : (next ()).Settles (At server)) :
    Program.Commits (At server)
      (liftM (room_table_with roomname (room_notify_members reliable message client_fd) ()) >>= next) := by
  refine commits_tell fun trace => ?_
  rw [run_room_table_with]
  cases hroom : server.rooms.lookup roomname with
  | none => exact ⟨(), trace, rfl, hnext⟩
  | some room =>
    have hnotify := run_notify_members_reliable message client_fd roomname room server hroom trace
    exact ⟨(), trace ++ sends message (recipients room.members.entries client_fd), by simp [hnotify], hnext⟩

end Rules

section Handlers

variable {server : Server} {msg_in : Message} {client_fd : Fd} {user : User}

/-- USERS takes effect when the list is sent. -/
theorem commits_process_users : (process_users reliable client_fd).Commits (At server) :=
  commits_query commits_send_or_disconnect

/-- TEXT takes effect when the text or the refusal is sent. -/
theorem commits_process_text (hfound : server.users.find_by_client_fd client_fd = some user)
    (husername : msg_in.username.isSome) (htext : msg_in.text.isSome) :
    (process_text reliable msg_in client_fd).Commits (At server) := by
  obtain ⟨username, husername⟩ := Option.isSome_iff_exists.mp husername
  obtain ⟨text, htext⟩ := Option.isSome_iff_exists.mp htext
  unfold process_text
  rw [husername, htext]
  refine commits_look (server.users.find_by_username username)
    (fun trace => by simp [users_table_find_by_username]) ?_
  cases server.users.find_by_username username with
  | none => exact commits_strdup (commits_strdup (commits_strdup commits_send_or_disconnect))
  | some user_to =>
    refine commits_query ?_
    dsimp only
    split
    · trivial
    · refine commits_query ?_
      rw [hfound]
      exact commits_strdup (commits_strdup commits_send_or_disconnect)

/-- PUBLIC_TEXT takes effect in its broadcast. -/
theorem commits_process_public_text (hfound : server.users.find_by_client_fd client_fd = some user)
    (htext : msg_in.text.isSome) : (process_public_text reliable msg_in client_fd).Commits (At server) := by
  obtain ⟨text, htext⟩ := Option.isSome_iff_exists.mp htext
  unfold process_public_text
  rw [htext]
  refine commits_query ?_
  rw [hfound]
  exact commits_strdup (commits_strdup (commits_notify trivial))

/-- The answer that most requests about a room end with. -/
theorem commits_room_response {text : CString} {rest : Option CString → Message} :
    Program.Commits (At server) (do
      let result ← strdup text
      if result.isNone then return false
      send_or_disconnect reliable client_fd (rest result) client_fd : Handler Bool) :=
  commits_strdup commits_send_or_disconnect

/-- ROOM_USERS takes effect when the list or the refusal is sent. -/
theorem commits_process_room_users (hfound : server.users.find_by_client_fd client_fd = some user) :
    (process_room_users reliable msg_in client_fd).Commits (At server) := by
  unfold process_room_users
  cases msg_in.roomname with
  | none => trivial
  | some roomname =>
    refine commits_strdup (commits_strdup (commits_contains ?_))
    cases hroom : server.rooms.lookup roomname with
    | none => exact commits_room_response
    | some room =>
      refine commits_query ?_
      rw [hfound]
      refine commits_room_is_a_member fun is_in_room => ?_
      cases is_in_room with
      | true =>
        refine commits_strdup (commits_look (users_object room.members) (fun trace => ?_) commits_send_or_disconnect)
        exact run_with_room_users server trace roomname allocating room hroom
      | false => exact commits_room_response

/-- ROOM_TEXT takes effect in its broadcast, or when the refusal is sent. -/
theorem commits_process_room_text (hfound : server.users.find_by_client_fd client_fd = some user) :
    (process_room_text reliable msg_in client_fd).Commits (At server) := by
  unfold process_room_text
  cases msg_in.roomname with
  | none => trivial
  | some roomname =>
    cases msg_in.text with
    | none => trivial
    | some text =>
      refine commits_strdup (commits_strdup (commits_contains ?_))
      cases server.rooms.lookup roomname with
      | none => exact commits_room_response
      | some room =>
        refine commits_query ?_
        rw [hfound]
        refine commits_room_is_a_member fun is_in_room => ?_
        cases is_in_room with
        | true => exact commits_strdup (commits_strdup (commits_strdup (commits_tell_room trivial)))
        | false => exact commits_room_response

/-- While nobody changes the tables, talk has its effect in one action. -/
theorem commits_serve (htalks : msg_in.Talks server client_fd) :
    (serve reliable (.request client_fd msg_in)).Commits (At server) := by
  obtain ⟨user, hfound⟩ := Option.isSome_iff_exists.mp htalks.registered
  have hidentified : server.users.contains_by_client_fd client_fd = true := by
    unfold UsersTable.contains_by_client_fd
    cases howner : server.users.table_by_fd.lookup client_fd with
    | some owner => rfl
    | none => simp [UsersTable.find_by_client_fd, howner] at hfound
  have hprocess : (message_handler_process reliable msg_in client_fd).Commits (At server) := by
    have htype := htalks.type
    simp only [talk_types, List.mem_cons, List.not_mem_nil, or_false] at htype
    unfold message_handler_process
    rw [if_neg (by grind), if_neg (by grind), if_neg (by grind)]
    refine commits_query ?_
    rw [hidentified]
    rcases htype with htype | htype | htype | htype | htype
    · rw [htype]
      exact commits_process_users
    · rw [htype]
      exact commits_process_text hfound (htalks.given.addressee htype) (htalks.given.text htype)
    · rw [htype]
      exact commits_process_public_text hfound (htalks.given.public_text htype)
    · rw [htype]
      exact commits_process_room_users hfound
    · rw [htype]
      exact commits_process_room_text hfound
  exact hprocess.bind fun _ => trivial

end Handlers

end ojalvo
