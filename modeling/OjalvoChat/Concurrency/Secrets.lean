import OjalvoChat.Concurrency.Veiled

namespace ojalvo

/-- Texts for some: those to a room, and those to a user. -/
inductive Secret where
  | room (roomname : CString)
  | user (username : CString)

/-- The requests that carry such texts. -/
def Secret.Covers (secret : Secret) (msg_in : Message) : Prop :=
  match secret with
  | .room roomname => msg_in.type = .ROOM_TEXT ∧ msg_in.roomname = some roomname
  | .user username => msg_in.type = .TEXT ∧ msg_in.username = some username

/-- Who may read them: the members of the room, or the user. -/
def Secret.SharedWith (secret : Secret) (server : Server) (fd : Fd) : Prop :=
  match secret with
  | .room roomname => ∃ room user, server.rooms.lookup roomname = some room ∧ user ∈ room.members.entries ∧
      user.socket_fd = fd
  | .user username => ∃ user, server.users.find_by_username username = some user ∧ user.socket_fd = fd

/-- Worlds in which only known readers share the secret. -/
structure Secret.Kept (secret : Secret) (veil : Veil) (world : World) : Prop where
  proper : world.Proper
  readers : ∀ fd, secret.SharedWith world.server fd → veil.readers fd

section Pairs

variable {net : Net} {veil : Veil} {I : World → Prop} {client_fd : Fd} {msg_in : Message} {text other : CString}

/-- What is built from the parts pairs with itself. -/
theorem Handler.Built.pairs {A : Type} {program : Handler A} (hbuilt : program.Built net (fun _ => True) fun _ => True)
    (hblind : net.Blind veil.alike) (hproper : ∀ world, I world → world.Proper) :
    Program.Pairs I (World.Veiled veil) program program := by
  have huntraced {B : Type} {action : Action B} (huntraced : Untraced action) (world twin : World) (_ : I world)
      (hveiled : world.Veiled veil twin) : Alike Eq (World.Veiled veil) (action.run world) (action.run twin) :=
    mirrored_of_untraced huntraced world twin hveiled
  have hpart {B : Type} (action : Action B) (hpart : Part net (fun _ => True) (fun _ => True) action)
      (world twin : World)
      (hworld : I world) (hveiled : world.Veiled veil twin) :
      Alike Eq (World.Veiled veil) (action.run world) (action.run twin) := by
    rcases hpart.untraced_or_socketed with hmute | hsocketed
    · exact huntraced hmute world twin hworld hveiled
    cases hsocketed with
    | notify_members roomname message client_fd hmembers _ =>
      exact alike_room_notify_members hblind message client_fd roomname (hproper world hworld) (.same _) hveiled
    | send client_fd message hone _ => exact twins_server_send hblind client_fd message (.same _) world twin hveiled
    | disconnect client_fd => exact mirrored_server_disconnect_client client_fd world twin hveiled
  refine Program.Each.pairs
    (hbuilt.each hpart (huntraced (untraced_users_table_size _)) ?_ (huntraced (untraced_stop _)))
  intro message client_fd context heverybody _ world twin hworld hveiled
  have hvisits (contents : UsersTable) :
      Mirrored veil (visit_all (send_if_is_not_self net message client_fd) contents.entries context) :=
    twins_visit_all hblind message client_fd (.same _) context
  have hmirrored : Mirrored veil
      (users_table_for_each .server_users (send_if_is_not_self net message client_fd) context) :=
    (mirrored_of_untraced (untraced_g_mutex_lock _)).bind fun _ =>
      (mirrored_of_untraced (untraced_users_table_load _)).bind fun contents =>
        (hvisits contents).bind fun _ => mirrored_of_untraced
          ((untraced_g_mutex_unlock _).bind fun _ => oblivious_pure _)
  exact hmirrored world twin hveiled

theorem pairs_untraced {A B : Type} {action : Action B} {next then' : B → Handler A} (huntraced : Untraced action)
    (hnext : ∀ value, Program.Pairs I (World.Veiled veil) (next value) (then' value)) :
    Program.Pairs I (World.Veiled veil) (liftM action >>= next : Handler A) (liftM action >>= then') :=
  Program.pairs_action (mirrored_of_untraced huntraced) hnext

/-- A message that carries the text, for a descriptor that may read it. -/
theorem pairs_send_or_disconnect (hblind : net.Blind veil.alike) (hproper : ∀ world, I world → world.Proper)
    {fd failed_fd : Fd}
    (message : Message) {text : Option CString} (htext : Exchanged veil.alike (veil.readers fd) message.text text) :
    Program.Pairs I (World.Veiled veil) (send_or_disconnect net fd message failed_fd)
      (send_or_disconnect net fd { message with text } failed_fd) := by
  refine Program.pairs_actions (twins_server_send hblind fd message htext) ?_
  rintro sent _ rfl
  cases sent with
  | true => exact .ret true
  | false => exact Handler.Built.pairs (built_process_disconnect grants_all failed_fd) hblind hproper

/-- A private text for the user of a name, whose descriptor may read it. -/
theorem pairs_process_text (hblind : net.Blind veil.alike) (hproper : ∀ world, I world → world.Proper)
    {username : CString}
    (hreaders : ∀ world, I world → ∀ user, world.server.users.find_by_username username = some user →
      veil.readers user.socket_fd) (husername : msg_in.username = some username) (htext : msg_in.text = some text)
    (halike : veil.alike text other) :
    Program.Pairs I (World.Veiled veil) (process_text net msg_in client_fd)
      (process_text net { msg_in with text := some other } client_fd) := by
  unfold process_text
  rw [husername, htext]
  have hfind (world twin : World) (hworld : I world) (hveiled : world.Veiled veil twin) :
      Alike (fun found shadow => found = shadow ∧ ∀ user, found = some user → veil.readers user.socket_fd)
        (World.Veiled veil) ((users_table_find_by_username .server_users (some username)).run world)
        ((users_table_find_by_username .server_users (some username)).run twin) := by
    have hfound := mirrored_of_untraced
      (untraced_users_table_find_by_username .server_users (some username)) world twin hveiled
    have hanswer := hreaders world hworld
    obtain ⟨server, held, trace, alloc⟩ := world
    obtain ⟨rfl, hheld⟩ := hproper _ hworld
    have hrun : (users_table_find_by_username .server_users (some username)).run ⟨server, held, trace, allocating⟩ =
        .ok (server.users.find_by_username username) ⟨server, held, trace, allocating⟩ := by
      simp [users_table_find_by_username, not_mem_held hheld]
    rw [hrun] at hfound ⊢
    generalize EStateM.run _ twin = shadow at hfound ⊢
    cases hfound with
    | ok hvalue hafter => exact .ok ⟨hvalue, hanswer⟩ hafter
  refine .act _ hfind ?_
  rintro found _ ⟨rfl, hreader⟩
  cases found with
  | none =>
    refine pairs_untraced (untraced_strdup _) fun operation => pairs_untraced (untraced_strdup _) fun result => ?_
    refine pairs_untraced (untraced_strdup _) fun extra => ?_
    dsimp only
    split
    · exact .ret false
    · exact Handler.Built.pairs (built_send_or_disconnect grants_all rfl trivial) hblind hproper
  | some user_to =>
    refine pairs_untraced (untraced_users_table_query _ _) fun user_from_cmp => ?_
    dsimp only
    split
    · exact .ret true
    refine pairs_untraced (untraced_users_table_query _ _) fun sender => ?_
    cases sender with
    | none => exact .ret false
    | some user_from =>
      refine pairs_untraced (untraced_strdup _) fun username => ?_
      refine Program.pairs_actions (twins_strdup text other) ?_
      rintro copied shadow (⟨rfl, rfl⟩ | ⟨rfl, rfl⟩)
      · have hnone : username.isNone = true ∨ (none : Option CString).isNone = true := Or.inr rfl
        rw [if_pos hnone]
        exact .ret false
      · cases username with
        | none => exact .ret false
        | some username => exact pairs_send_or_disconnect hblind hproper _ (.other (hreader user_to rfl) halike)

/-- A text for a room, whose members may read it. -/
theorem pairs_process_room_text (hblind : net.Blind veil.alike) (hproper : ∀ world, I world → world.Proper)
    {roomname : CString}
    (hreaders : ∀ world, I world → ∀ room, world.server.rooms.lookup roomname = some room →
      ∀ user ∈ room.members.entries, veil.readers user.socket_fd) (hroomname : msg_in.roomname = some roomname)
    (htext : msg_in.text = some text) (halike : veil.alike text other) :
    Program.Pairs I (World.Veiled veil) (process_room_text net msg_in client_fd)
      (process_room_text net { msg_in with text := some other } client_fd) := by
  have hsend {message : Message} (hone : message.type.audience = .one) :
      Program.Pairs I (World.Veiled veil) (send_or_disconnect net client_fd message client_fd)
        (send_or_disconnect net client_fd message client_fd) :=
    Handler.Built.pairs (built_send_or_disconnect grants_all hone trivial) hblind hproper
  unfold process_room_text
  rw [hroomname, htext]
  refine pairs_untraced (untraced_strdup _) fun operation => pairs_untraced (untraced_strdup _) fun extra => ?_
  split
  · exact .ret false
  refine pairs_untraced (untraced_room_table_contains _) fun room_exists => ?_
  cases room_exists with
  | false =>
    refine pairs_untraced (untraced_strdup _) fun result => ?_
    dsimp only
    split
    · exact .ret false
    · exact hsend rfl
  | true =>
    refine pairs_untraced (untraced_users_table_query _ _) fun found => ?_
    cases found with
    | none =>
      exact Handler.Built.pairs (built_send_invalid_and_disconnect grants_all client_fd) hblind hproper
    | some user_from =>
      have hmember (context : RoomVisitorContext) :
          Untraced (room_table_with roomname room_is_a_member context) :=
        untraced_room_table_with roomname ((untraced_users_table_query _ _).bind fun _ => oblivious_pure _)
      refine pairs_untraced (hmember _) fun context => ?_
      dsimp only
      split
      · refine pairs_untraced (untraced_strdup _) fun text_room => pairs_untraced (untraced_strdup _) fun username => ?_
        refine Program.pairs_actions (twins_strdup text other) ?_
        rintro copied shadow (⟨rfl, rfl⟩ | ⟨rfl, rfl⟩)
        · have hnone : text_room.isNone = true ∨ username.isNone = true ∨ (none : Option CString).isNone = true :=
            Or.inr (Or.inr rfl)
          rw [if_pos hnone]
          exact .ret false
        · simp only [Option.isNone_some, Bool.false_eq_true, or_false]
          split
          · exact .ret false
          · refine .act Eq (fun world twin hworld hveiled => ?_) fun _ _ _ => .ret true
            exact alike_room_notify_members hblind _ client_fd roomname (hproper world hworld)
              (.other (hreaders world hworld) halike) hveiled
      · refine pairs_untraced (untraced_strdup _) fun result => ?_
        split
        · exact .ret false
        · exact hsend rfl

end Pairs

end ojalvo
