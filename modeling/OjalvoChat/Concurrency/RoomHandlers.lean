import OjalvoChat.Concurrency.Handlers

namespace ojalvo

section Rules

variable {net : Net} {client_fd : Fd} {event : Event} {facts : List Fact}

/-- The creator is seated in the room. -/
theorem seats_room_add_creator (roomname : CString) (context : RoomVisitorContext) :
    Seats roomname (room_table_with roomname room_add_creator context) :=
  ⟨context.user, fun server trace => ⟨_, _, run_with_room_add_creator server trace roomname context,
    fun room hroom => by simp [hroom, Room.change_members]⟩⟩

theorem seats_room_from_guest_to_member (roomname : CString) (context : RoomVisitorContext) :
    Seats roomname (room_table_with roomname room_from_guest_to_member context) :=
  ⟨context.user, fun server trace => ⟨_, _, run_with_room_from_guest_to_member server trace roomname context,
    fun room hroom => by simp [hroom, Server.let_in, Room.let_in]⟩⟩

/-- The client is made a member of a room, unless the room is gone. -/
theorem keeps_seat {action : Action RoomVisitorContext} {next : RoomVisitorContext → Handler Unit} {deed : Deed}
    {roomname : CString} {user : User} (hself : .self user ∈ facts) (hfree : Free client_fd facts)
    (hentered : event.entered = some roomname)
    (hdeed : deed = .seat roomname user ∨ deed = .let_in roomname user)
    (haction : Does net action fun _ _ done => done = deed) (hseats : Seats roomname action)
    (hnext : ∀ value fact, fact = .joined roomname ∨ fact = .lost roomname →
      Keeps net client_fd event [fact] (next value)) :
    Keeps net client_fd event facts (liftM action >>= next) := by
  refine keeps_act haction (fun fact hmem => hfree fact hmem _) ?_
  rintro server value done rfl
  have hallowed : done.Allowed client_fd event facts (liftM action >>= next) server := by
    rcases hdeed with rfl | rfl
    · exact ⟨hself, hseats, hentered⟩
    · exact ⟨hself, hseats, hentered⟩
  have hsilent : done.effects = [] := by rcases hdeed with rfl | rfl <;> rfl
  have hsaid : ∀ effect ∈ done.effects,
      (∃ fd, effect = .close fd) ∨ Sends net (Sayable client_fd event facts) effect := by
    rw [hsilent]
    exact List.forall_mem_nil _
  cases hroom : server.rooms.lookup roomname with
  | none =>
    exact ⟨[.lost roomname], ⟨hallowed, hsaid, List.forall_mem_singleton.mpr (Or.inr ⟨hroom, hseats, hentered⟩)⟩,
      hnext value _ (Or.inr rfl)⟩
  | some room =>
    refine ⟨[.joined roomname], ⟨hallowed, hsaid, List.forall_mem_singleton.mpr (Or.inr ⟨?_, user, hdeed⟩)⟩,
      hnext value _ (Or.inl rfl)⟩
    rw [hroom]
    rfl

/-- A broadcast to a room. -/
theorem keeps_tell_room {message : Message} {next : Unit → Handler Unit} (roomname : CString) (hplain : message.Plain)
    (hfree : Free client_fd facts) (hnext : Keeps net client_fd event [] (next ())) :
    Keeps net client_fd event facts
      (liftM (room_table_with roomname (room_notify_members net message client_fd) ()) >>= next) := by
  refine keeps_act (does_room_notify_members message client_fd roomname hplain) (fun fact hmem => hfree fact hmem _) ?_
  rintro server value deed ⟨effects, rfl, hall⟩
  refine ⟨[], ⟨trivial, fun effect hmem => Or.inr ?_, List.forall_mem_nil _⟩, hnext⟩
  obtain ⟨fd, sent, trace, heffect, rfl⟩ := hall effect hmem
  exact ⟨fd, sent, trace, heffect, .plain fd hplain⟩

/-- A test for membership. -/
theorem keeps_membership {next : RoomVisitorContext → Handler Unit} {roomname : CString}
    {visitor : RoomPtr → RoomVisitorContext → Action RoomVisitorContext} {context : RoomVisitorContext}
    (haction : Reads net (room_table_with roomname visitor context) fun _ value =>
      value.user = context.user ∧ value.is_empty_now = context.is_empty_now)
    (hfree : Free client_fd facts)
    (hnext : ∀ value : RoomVisitorContext, value.user = context.user → value.is_empty_now = context.is_empty_now →
      Keeps net client_fd event facts (next value)) :
    Keeps net client_fd event facts (liftM (room_table_with roomname visitor context) >>= next) :=
  keeps_skip haction (fun fact hmem => hfree fact hmem _) fun _ value hvalue => hnext value hvalue.1 hvalue.2

end Rules

section NewRoom

variable {net : Net} {client_fd : Fd}

/-- The plan of NEW_ROOM: the room is confirmed only after its creator was seated,
or missed it. -/
theorem keeps_process_new_room (msg_in : Message) (htype : msg_in.type = .NEW_ROOM) :
    Keeps net client_fd (.request client_fd msg_in) []
      (process_new_room net msg_in client_fd >>= fun _ => pure ()) := by
  unfold process_new_room
  cases hroomname : msg_in.roomname with
  | none => exact keeps_done free_nil
  | some roomname =>
    simp only [bind_assoc]
    refine keeps_skip (reads_strndup _ _) (List.forall_mem_nil _) fun _ rm_name hcut => ?_
    cases rm_name with
    | none => exact keeps_done free_nil
    | some rm_name =>
      have hentered : (Event.request client_fd msg_in).entered = some rm_name := by
        rw [hcut, ← hroomname]
        simp only [Event.entered, Event.message, htype]
      simp only [bind_assoc]
      refine keeps_strdup (List.forall_mem_nil _) (keeps_strdup (List.forall_mem_nil _) ?_)
      simp only [Option.isNone_some, Bool.false_eq_true, or_self, if_false, bind_assoc]
      refine keeps_skip (reads_room_table_contains _) (List.forall_mem_nil _) fun _ exists_already _ => ?_
      cases exists_already with
      | true =>
        simp only [if_true, bind_assoc]
        refine keeps_strdup (List.forall_mem_nil _) ?_
        exact keeps_reply (.plain client_fd (plain_of_result rfl rfl (by decide))) free_nil
      | false =>
        simp only [Bool.false_eq_true, if_false, bind_assoc]
        refine keeps_strdup (List.forall_mem_nil _) ?_
        simp only [Option.isNone_some, Bool.false_eq_true, if_false, bind_assoc]
        refine keeps_act (does_room_table_add rm_name) (List.forall_mem_nil _) ?_
        rintro server added deed (⟨rfl, hfree, named, rfl⟩ | ⟨rfl, rfl, -⟩)
        · refine ⟨[], ⟨hfree, List.forall_mem_nil _, List.forall_mem_nil _⟩, ?_⟩
          simp only [if_true, bind_assoc]
          refine keeps_look (reads_users_table_query _) (List.forall_mem_nil _) fun _ found hfound => ?_
          cases found with
          | none => exact ⟨[], List.forall_mem_nil _, keeps_done free_nil⟩
          | some room_creator =>
            refine ⟨[.self room_creator], List.forall_mem_singleton.mpr (Or.inr ⟨rfl, hfound.symm⟩), ?_⟩
            simp only [bind_assoc]
            refine keeps_seat List.mem_cons_self (free_self room_creator) hentered (Or.inl rfl)
              (does_room_add_creator rm_name _) (seats_room_add_creator rm_name _) fun _ fact hfact => ?_
            have hfactfree : Free client_fd [fact] := by
              rcases hfact with rfl | rfl <;> exact List.forall_mem_singleton.mpr fun _ => trivial
            refine keeps_reply (.seated (.lit "NEW_ROOM") rm_name (Or.inr ⟨rfl, htype⟩) ?_) hfactfree
            rcases hfact with rfl | rfl
            · exact Or.inl List.mem_cons_self
            · exact Or.inr List.mem_cons_self
        · exact ⟨[], ⟨trivial, List.forall_mem_nil _, List.forall_mem_nil _⟩, keeps_done free_nil⟩

end NewRoom

section Invite

variable {net : Net} {client_fd : Fd} {event : Event} {facts : List Fact}

/-- Facts about other users only. -/
def Acquainted (facts : List Fact) : Prop := ∀ fact ∈ facts, ∃ user, fact = .known user

theorem Acquainted.free (hacquainted : Acquainted facts) : Free client_fd facts := by
  intro fact hmem program
  obtain ⟨user, rfl⟩ := hacquainted fact hmem
  trivial

/-- The first loop of INVITE: the handler learns the records of all users whom it
has found. -/
theorem keeps_find_invited_users (usernames : List CString) {rest : Except CString (List User) → Handler Unit}
    (hacquainted : Acquainted facts)
    (hrest : ∀ answer learnt, facts ⊆ learnt → Acquainted learnt →
      (∀ users, answer = .ok users → ∀ user ∈ users, .known user ∈ learnt) →
      Keeps net client_fd event learnt (rest answer)) :
    Keeps net client_fd event facts (find_invited_users usernames >>= rest) := by
  induction usernames generalizing facts rest with
  | nil =>
    refine hrest _ facts (List.Subset.refl _) hacquainted fun users heq => ?_
    cases heq
    exact List.forall_mem_nil _
  | cons username others ih =>
    unfold find_invited_users
    simp only [bind_assoc]
    refine keeps_look (reads_users_table_find_by_username _) (fun fact hmem => hacquainted.free fact hmem _)
      fun server found hfound => ?_
    obtain ⟨name, -, hlookup⟩ := hfound
    cases found with
    | none => exact ⟨facts, fun _ => Or.inl, hrest _ facts (List.Subset.refl _) hacquainted nofun⟩
    | some user =>
      refine ⟨.known user :: facts, fun fact hmem => ?_, ?_⟩
      · rcases List.mem_cons.mp hmem with rfl | hold
        · exact Or.inr ⟨rfl, name, hlookup.symm⟩
        · exact Or.inl hold
      · simp only [bind_assoc, pure_bind]
        refine ih (List.forall_mem_cons.mpr ⟨⟨user, rfl⟩, hacquainted⟩) fun answer learnt hsub hlearnt hknown => ?_
        refine hrest _ learnt (fun fact hmem => hsub (List.mem_cons_of_mem _ hmem)) hlearnt fun users heq => ?_
        cases answer with
        | error missing => cases heq
        | ok rest =>
          cases heq
          exact List.forall_mem_cons.mpr ⟨hsub List.mem_cons_self, hknown rest rfl⟩

/-- The second loop of INVITE. -/
theorem keeps_invite_users (roomname : CString) {invitation : Message} (hplain : invitation.Plain)
    (invited_users : List User) {rest : Option Bool → Handler Unit} (hacquainted : Acquainted facts)
    (hknown : ∀ user ∈ invited_users, .known user ∈ facts)
    (hrest : ∀ learnt answer, Acquainted learnt → Keeps net client_fd event learnt (rest answer)) :
    Keeps net client_fd event facts (invite_users net roomname invitation invited_users >>= rest) := by
  have hfree : Free client_fd facts := hacquainted.free
  induction invited_users with
  | nil => exact hrest facts none hacquainted
  | cons invited_user others ih =>
    have hothers := ih fun user hmem => hknown user (List.mem_cons_of_mem _ hmem)
    unfold invite_users
    simp only [bind_assoc]
    refine keeps_membership (reads_room_is_a_member roomname _) hfree fun context hmember _ => ?_
    refine keeps_membership (reads_room_is_a_guest roomname _) hfree fun context hguest _ => ?_
    split
    · exact hrest facts _ hacquainted
    · simp only [bind_assoc]
      refine keeps_act (does_room_add_to_guests roomname context) (fun fact hmem => hfree fact hmem _) ?_
      rintro server value deed rfl
      refine ⟨facts, ⟨?_, List.forall_mem_nil _, fun fact hmem => Or.inl ⟨hmem, ?_⟩⟩, ?_⟩
      · rw [show context.user = invited_user from hguest.trans hmember]
        exact hknown invited_user List.mem_cons_self
      · obtain ⟨user, rfl⟩ := hacquainted fact hmem
        trivial
      · refine keeps_send (.plain _ hplain) (fun fact hmem => hfree fact hmem _) (List.Subset.refl _) hothers ?_
        simp only [Bool.false_eq_true, if_false, bind_assoc]
        exact keeps_process_disconnect (Or.inr List.mem_cons_self)
          (List.forall_mem_cons.mpr ⟨fun _ => trivial, hfree⟩) (hrest [] _ (List.forall_mem_nil _))

/-- The plan of INVITE: guests are added with the records that were found. -/
theorem keeps_process_invite (msg_in : Message) :
    Keeps net client_fd event [] (process_invite net msg_in client_fd >>= fun _ => pure ()) := by
  unfold process_invite
  split
  · rename_i roomname usernames _ _
    simp only [bind_assoc]
    refine keeps_strdup (List.forall_mem_nil _) ?_
    simp only [Option.isNone_some, Bool.false_eq_true, if_false, bind_assoc]
    refine keeps_skip (reads_room_table_contains _) (List.forall_mem_nil _) fun _ room_exists _ => ?_
    cases room_exists with
    | false =>
      simp only [Bool.not_false, if_true, bind_assoc]
      refine keeps_strdup (List.forall_mem_nil _) (keeps_strdup (List.forall_mem_nil _) ?_)
      simp only [Option.isNone_some, Bool.false_eq_true, or_self, if_false]
      exact keeps_reply (.plain client_fd (plain_of_result rfl rfl (by decide))) free_nil
    | true =>
      simp only [Bool.not_true, Bool.false_eq_true, if_false, bind_assoc]
      refine keeps_skip (reads_users_table_query _) (List.forall_mem_nil _) fun _ found _ => ?_
      cases found with
      | none => exact keeps_send_invalid_and_disconnect free_nil
      | some user_from =>
        simp only [bind_assoc]
        refine keeps_membership (reads_room_is_a_member roomname _) free_nil fun context _ _ => ?_
        split
        · simp only [bind_assoc]
          refine keeps_find_invited_users usernames (List.forall_mem_nil _) fun invited learnt _ hlearnt hknown => ?_
          have hfree : Free client_fd learnt := hlearnt.free
          cases invited with
          | error missing =>
            simp only [bind_assoc]
            refine keeps_strdup (fun fact hmem => hfree fact hmem _) ?_
            refine keeps_strdup (fun fact hmem => hfree fact hmem _) ?_
            simp only [Option.isNone_some, Bool.false_eq_true, or_self, if_false]
            exact keeps_reply (.plain client_fd (plain_of_result rfl rfl (by decide))) hfree
          | ok invited_users =>
            simp only [bind_assoc]
            refine keeps_strdup (fun fact hmem => hfree fact hmem _) ?_
            refine keeps_strdup (fun fact hmem => hfree fact hmem _) ?_
            simp only [Option.isNone_some, Bool.false_eq_true, or_self, if_false, bind_assoc]
            exact keeps_invite_users roomname (plain_of_no_result (by simp) rfl) invited_users hlearnt
              (hknown invited_users rfl) fun _ _ hmore => keeps_done hmore.free
        · exact keeps_send_invalid_and_disconnect free_nil
  · exact keeps_done free_nil

end Invite

section Members

variable {net : Net} {client_fd : Fd}

/-- The plan of JOIN_ROOM: the room is confirmed only after the client was let in,
or missed it. -/
theorem keeps_process_join_room (msg_in : Message) (htype : msg_in.type = .JOIN_ROOM) :
    Keeps net client_fd (.request client_fd msg_in) []
      (process_join_room net msg_in client_fd >>= fun _ => pure ()) := by
  unfold process_join_room
  cases hroomname : msg_in.roomname with
  | none => exact keeps_done free_nil
  | some roomname =>
    have hentered : (Event.request client_fd msg_in).entered = some roomname := by
      rw [← hroomname]
      simp only [Event.entered, Event.message, htype]
    simp only [bind_assoc]
    refine keeps_strdup (List.forall_mem_nil _) (keeps_strdup (List.forall_mem_nil _) ?_)
    simp only [Option.isNone_some, Bool.false_eq_true, or_self, if_false, bind_assoc]
    refine keeps_skip (reads_room_table_contains _) (List.forall_mem_nil _) fun _ room_exists _ => ?_
    cases room_exists with
    | false =>
      simp only [Bool.not_false, if_true, bind_assoc]
      refine keeps_strdup (List.forall_mem_nil _) ?_
      simp only [Option.isNone_some, Bool.false_eq_true, if_false]
      exact keeps_reply (.plain client_fd (plain_of_result rfl rfl (by decide))) free_nil
    | true =>
      simp only [Bool.not_true, Bool.false_eq_true, if_false, bind_assoc]
      refine keeps_look (reads_users_table_query _) (List.forall_mem_nil _) fun _ found hfound => ?_
      cases found with
      | none => exact ⟨[], List.forall_mem_nil _, keeps_send_invalid_and_disconnect free_nil⟩
      | some user_from =>
        refine ⟨[.self user_from], List.forall_mem_singleton.mpr (Or.inr ⟨rfl, hfound.symm⟩), ?_⟩
        have hself : Free client_fd [.self user_from] := free_self user_from
        simp only [bind_assoc]
        refine keeps_membership (reads_room_is_a_member roomname _) hself fun context hmember _ => ?_
        split
        · exact keeps_done hself
        simp only [bind_assoc]
        refine keeps_membership (reads_room_is_a_guest roomname _) hself fun context hguest _ => ?_
        split
        · have huser : context.user = user_from := hguest.trans hmember
          simp only [bind_assoc]
          refine keeps_seat (by rw [huser]; exact List.mem_cons_self) hself hentered (Or.inr rfl)
            (does_room_from_guest_to_member roomname context) (seats_room_from_guest_to_member roomname context)
            fun _ fact hfact => ?_
          have hfactfree : Free client_fd [fact] := by
            rcases hfact with rfl | rfl <;> exact List.forall_mem_singleton.mpr fun _ => trivial
          refine keeps_strdup (fun fact hmem => hfactfree fact hmem _) ?_
          simp only [Option.isNone_some, Bool.false_eq_true, if_false, bind_assoc]
          refine keeps_send (.seated (.lit "JOIN_ROOM") roomname (Or.inl ⟨rfl, htype⟩) ?_)
            (fun fact hmem => hfactfree fact hmem _) (List.nil_subset _) ?_ ?_
          · rcases hfact with rfl | rfl
            · exact Or.inl List.mem_cons_self
            · exact Or.inr List.mem_cons_self
          · simp only [if_true, bind_assoc]
            refine keeps_strdup (List.forall_mem_nil _) (keeps_strdup (List.forall_mem_nil _) ?_)
            exact keeps_tell_room roomname (plain_of_no_result (by simp) rfl) free_nil (keeps_done free_nil)
          · exact keeps_process_disconnect (Or.inl rfl) (List.forall_mem_singleton.mpr fun _ => trivial)
              (keeps_done free_nil)
        · simp only [bind_assoc]
          refine keeps_strdup (fun fact hmem => hself fact hmem _) ?_
          simp only [Option.isNone_some, Bool.false_eq_true, if_false]
          exact keeps_reply (.plain client_fd (plain_of_result rfl rfl (by decide))) hself

theorem keeps_process_room_users {event : Event} (msg_in : Message) :
    Keeps net client_fd event [] (process_room_users net msg_in client_fd >>= fun _ => pure ()) := by
  unfold process_room_users
  cases msg_in.roomname with
  | none => exact keeps_done free_nil
  | some roomname =>
    simp only [bind_assoc]
    refine keeps_strdup (List.forall_mem_nil _) (keeps_strdup (List.forall_mem_nil _) ?_)
    simp only [Option.isNone_some, Bool.false_eq_true, or_self, if_false, bind_assoc]
    refine keeps_skip (reads_room_table_contains _) (List.forall_mem_nil _) fun _ room_exists _ => ?_
    cases room_exists with
    | false =>
      simp only [Bool.not_false, if_true, bind_assoc]
      refine keeps_strdup (List.forall_mem_nil _) ?_
      simp only [Option.isNone_some, Bool.false_eq_true, if_false]
      exact keeps_reply (.plain client_fd (plain_of_result rfl rfl (by decide))) free_nil
    | true =>
      simp only [Bool.not_true, Bool.false_eq_true, if_false, bind_assoc]
      refine keeps_skip (reads_users_table_query _) (List.forall_mem_nil _) fun _ found _ => ?_
      cases found with
      | none => exact keeps_send_invalid_and_disconnect free_nil
      | some user_from =>
        simp only [bind_assoc]
        refine keeps_membership (reads_room_is_a_member roomname _) free_nil fun context _ _ => ?_
        split
        · simp only [bind_assoc]
          refine keeps_strdup (List.forall_mem_nil _) ?_
          simp only [Option.isNone_some, Bool.false_eq_true, if_false, bind_assoc]
          refine keeps_skip (reads_room_users roomname _) (List.forall_mem_nil _) fun _ users _ => ?_
          exact keeps_reply (.plain client_fd (plain_of_no_result (by simp) rfl)) free_nil
        · simp only [bind_assoc]
          refine keeps_strdup (List.forall_mem_nil _) ?_
          simp only [Option.isNone_some, Bool.false_eq_true, if_false]
          exact keeps_reply (.plain client_fd (plain_of_result rfl rfl (by decide))) free_nil

theorem keeps_process_room_text {event : Event} (msg_in : Message) :
    Keeps net client_fd event [] (process_room_text net msg_in client_fd >>= fun _ => pure ()) := by
  unfold process_room_text
  split
  · rename_i roomname text _ _
    simp only [bind_assoc]
    refine keeps_strdup (List.forall_mem_nil _) (keeps_strdup (List.forall_mem_nil _) ?_)
    simp only [Option.isNone_some, Bool.false_eq_true, or_self, if_false, bind_assoc]
    refine keeps_skip (reads_room_table_contains _) (List.forall_mem_nil _) fun _ room_exists _ => ?_
    cases room_exists with
    | false =>
      simp only [Bool.not_false, if_true, bind_assoc]
      refine keeps_strdup (List.forall_mem_nil _) ?_
      simp only [Option.isNone_some, Bool.false_eq_true, if_false]
      exact keeps_reply (.plain client_fd (plain_of_result rfl rfl (by decide))) free_nil
    | true =>
      simp only [Bool.not_true, Bool.false_eq_true, if_false, bind_assoc]
      refine keeps_skip (reads_users_table_query _) (List.forall_mem_nil _) fun _ found _ => ?_
      cases found with
      | none => exact keeps_send_invalid_and_disconnect free_nil
      | some user_from =>
        simp only [bind_assoc]
        refine keeps_membership (reads_room_is_a_member roomname _) free_nil fun context _ _ => ?_
        split
        · simp only [bind_assoc]
          refine keeps_strdup (List.forall_mem_nil _) (keeps_strdup (List.forall_mem_nil _) ?_)
          refine keeps_strdup (List.forall_mem_nil _) ?_
          simp only [Option.isNone_some, Bool.false_eq_true, or_self, if_false, bind_assoc]
          exact keeps_tell_room roomname (plain_of_no_result (by simp) rfl) free_nil (keeps_done free_nil)
        · simp only [bind_assoc]
          refine keeps_strdup (List.forall_mem_nil _) ?_
          simp only [Option.isNone_some, Bool.false_eq_true, if_false]
          exact keeps_reply (.plain client_fd (plain_of_result rfl rfl (by decide))) free_nil
  · exact keeps_done free_nil

/-- The plan of LEAVE_ROOM: the room is removed only after nobody was found left. -/
theorem keeps_process_leave_room (msg_in : Message) (htype : msg_in.type = .LEAVE_ROOM) :
    Keeps net client_fd (.request client_fd msg_in) []
      (process_leave_room net msg_in client_fd >>= fun _ => pure ()) := by
  unfold process_leave_room
  cases hroomname : msg_in.roomname with
  | none => exact keeps_done free_nil
  | some roomname =>
    simp only [bind_assoc]
    refine keeps_strdup (List.forall_mem_nil _) (keeps_strdup (List.forall_mem_nil _) ?_)
    simp only [Option.isNone_some, Bool.false_eq_true, or_self, if_false, bind_assoc]
    refine keeps_skip (reads_room_table_contains _) (List.forall_mem_nil _) fun _ room_exists _ => ?_
    cases room_exists with
    | false =>
      simp only [Bool.not_false, if_true, bind_assoc]
      refine keeps_strdup (List.forall_mem_nil _) ?_
      simp only [Option.isNone_some, Bool.false_eq_true, if_false]
      exact keeps_reply (.plain client_fd (plain_of_result rfl rfl (by decide))) free_nil
    | true =>
      simp only [Bool.not_true, Bool.false_eq_true, if_false, bind_assoc]
      refine keeps_look (reads_users_table_query _) (List.forall_mem_nil _) fun _ found hfound => ?_
      cases found with
      | none => exact ⟨[], List.forall_mem_nil _, keeps_send_invalid_and_disconnect free_nil⟩
      | some user_from =>
        refine ⟨[.self user_from], List.forall_mem_singleton.mpr (Or.inr ⟨rfl, hfound.symm⟩), ?_⟩
        have hself : Free client_fd [.self user_from] := free_self user_from
        simp only [bind_assoc]
        refine keeps_membership (reads_room_is_a_member roomname _) hself fun context hmember hempty => ?_
        split
        · simp only [bind_assoc]
          refine keeps_act (does_room_leave roomname context hempty) (fun fact hmem => hself fact hmem _) ?_
          rintro server left deed ⟨rfl, hleft⟩
          have hallowed : ∀ program, Deed.Allowed client_fd (.request client_fd msg_in) [.self user_from] program server
              (.unseat roomname context.user.username) := fun program =>
            ⟨htype, hroomname, user_from, List.mem_cons_self, by rw [hmember]⟩
          cases hnobody : left.is_empty_now with
          | true =>
            refine ⟨[.emptied roomname], ⟨hallowed _, List.forall_mem_nil _,
              List.forall_mem_singleton.mpr (Or.inr ⟨_, rfl, hleft hnobody⟩)⟩, ?_⟩
            simp only [if_true, bind_assoc]
            refine keeps_act (does_room_table_remove roomname)
              (List.forall_mem_singleton.mpr (drops_room_table_remove roomname)) ?_
            rintro server removed deed rfl
            refine ⟨[], ⟨List.mem_cons_self, List.forall_mem_nil _, List.forall_mem_nil _⟩, ?_⟩
            refine keeps_strdup (List.forall_mem_nil _) (keeps_strdup (List.forall_mem_nil _) ?_)
            exact keeps_tell_room roomname (plain_of_no_result (by simp) rfl) free_nil (keeps_done free_nil)
          | false =>
            refine ⟨[], ⟨hallowed _, List.forall_mem_nil _, List.forall_mem_nil _⟩, ?_⟩
            simp only [Bool.false_eq_true, if_false, bind_assoc]
            refine keeps_strdup (List.forall_mem_nil _) (keeps_strdup (List.forall_mem_nil _) ?_)
            exact keeps_tell_room roomname (plain_of_no_result (by simp) rfl) free_nil (keeps_done free_nil)
        · simp only [bind_assoc]
          refine keeps_strdup (fun fact hmem => hself fact hmem _) ?_
          simp only [Option.isNone_some, Bool.false_eq_true, if_false]
          exact keeps_reply (.plain client_fd (plain_of_result rfl rfl (by decide))) hself

end Members

section Serve

variable {net : Net} {client_fd : Fd}

/-- The plan of every request. -/
theorem keeps_message_handler_process (msg_in : Message) :
    Keeps net client_fd (.request client_fd msg_in) []
      (message_handler_process net msg_in client_fd >>= fun _ => pure ()) := by
  unfold message_handler_process
  split
  · exact keeps_done free_nil
  split
  · exact keeps_process_disconnect (Or.inl rfl) free_nil (keeps_done free_nil)
  split
  · exact keeps_process_identify msg_in
  simp only [bind_assoc]
  refine keeps_skip (reads_users_table_query _) (List.forall_mem_nil _) fun _ identified _ => ?_
  cases identified with
  | false =>
    simp only [Bool.not_false, if_true, bind_assoc]
    refine keeps_strdup (List.forall_mem_nil _) (keeps_strdup (List.forall_mem_nil _) ?_)
    simp only [Option.isNone_some, Bool.false_eq_true, or_self, if_false, bind_assoc]
    have hplain : (response (.lit "INVALID") (.lit "NOT_IDENTIFIED") none).Plain := plain_of_result rfl rfl (by decide)
    refine keeps_send (.plain client_fd hplain) (List.forall_mem_nil _) (List.nil_subset _) ?_ ?_
    · exact keeps_process_disconnect (Or.inl rfl) free_nil (keeps_done free_nil)
    · exact keeps_process_disconnect (Or.inl rfl) (List.forall_mem_singleton.mpr fun _ => trivial) (keeps_done free_nil)
  | true =>
    simp only [Bool.not_true, Bool.false_eq_true, if_false]
    cases htype : msg_in.type with
    | STATUS => exact keeps_process_status msg_in
    | USERS => exact keeps_process_users
    | TEXT => exact keeps_process_text msg_in htype
    | PUBLIC_TEXT => exact keeps_process_public_text msg_in
    | NEW_ROOM => exact keeps_process_new_room msg_in htype
    | INVITE => exact keeps_process_invite msg_in
    | JOIN_ROOM => exact keeps_process_join_room msg_in htype
    | ROOM_USERS => exact keeps_process_room_users msg_in
    | ROOM_TEXT => exact keeps_process_room_text msg_in
    | LEAVE_ROOM => exact keeps_process_leave_room msg_in htype
    | _ => exact keeps_done free_nil

/-- The plan after a line that is no message. -/
theorem keeps_handle_invalid_line {event : Event} :
    Keeps net client_fd event [] (handle_invalid_line net client_fd) := by
  unfold handle_invalid_line
  refine keeps_strdup (List.forall_mem_nil _) (keeps_strdup (List.forall_mem_nil _) ?_)
  simp only [Option.isNone_some, Bool.false_eq_true, or_self, if_false]
  have hplain : (response (.lit "INVALID") (.lit "INVALID") none).Plain := plain_of_result rfl rfl (by decide)
  have hrest : ∀ learnt, Free client_fd learnt → Keeps net client_fd event learnt (do
      let registered ← users_table_contains_by_client_fd .server_users client_fd
      if registered then
        let disconnect_msg := { message_init with type := .DISCONNECT }
        let _ ← message_handler_process net disconnect_msg client_fd
      else server_disconnect_client client_fd) := by
    intro learnt hlearnt
    refine keeps_skip (reads_users_table_query _) (fun fact hmem => hlearnt fact hmem _) fun _ registered _ => ?_
    cases registered with
    | true => exact keeps_process_disconnect (Or.inl rfl) hlearnt (keeps_done free_nil)
    | false => exact keeps_close client_fd (fun fact hmem => hlearnt fact hmem _) (keeps_done free_nil)
  exact keeps_send (.plain client_fd hplain) (List.forall_mem_nil _) (List.nil_subset _) (hrest _ free_nil)
    (hrest _ (List.forall_mem_singleton.mpr fun _ => trivial))

/-- Every handler keeps to its plan. -/
theorem keeps_serve (line : Option Message) :
    Keeps net client_fd (.of_line client_fd line) [] (serve net (.of_line client_fd line)) := by
  cases line with
  | some msg_in => exact keeps_message_handler_process msg_in
  | none => exact keeps_handle_invalid_line

end Serve

end ojalvo
