import OjalvoChat.Protocol.Presence
import OjalvoChat.Protocol.Views

namespace ojalvo

/-- The members of a room, as far as somebody knows. -/
abbrev RoomView := Set CString

/-- What a client reads from a ROOM_USER_LIST. -/
def RoomView.of_list (list : Message) : RoomView :=
  {username | ∃ users status, list.users = some users ∧ (username, status) ∈ users.fields}

/-- What a client makes of a later notice, as to one room. -/
def RoomView.apply (roomname : CString) (view : RoomView) (notice : Message) : RoomView :=
  match notice.type, notice.username with
  | .JOINED_ROOM, some username => if notice.roomname = some roomname then insert username view else view
  | .LEFT_ROOM, some username => if notice.roomname = some roomname then view \ {username} else view
  | .DISCONNECTED, some username => view \ {username}
  | _, _ => view

/-- The names of the members of a room. -/
def Server.member_names (server : Server) (roomname : CString) : Set CString :=
  {username | ∃ fd, server.Member roomname fd username}

/-- A connection is a member of a room, under whatever name. -/
def Server.HasMember (server : Server) (roomname : CString) (fd : Fd) : Prop :=
  ∃ username, server.Member roomname fd username

theorem Server.hasMember_iff {server : Server} {roomname : CString} {fd : Fd} :
    server.HasMember roomname fd ↔
      ∃ room ∈ server.rooms.lookup roomname, ∃ user ∈ room.members.entries, user.socket_fd = fd := by
  constructor
  · rintro ⟨username, room, hroom, user, hmem, -, hfd⟩
    exact ⟨room, hroom, user, hmem, hfd⟩
  · rintro ⟨room, hroom, user, hmem, hfd⟩
    exact ⟨user.username, room, hroom, user, hmem, rfl, hfd⟩

instance (server : Server) (roomname : CString) (fd : Fd) : Decidable (server.HasMember roomname fd) :=
  decidable_of_iff _ Server.hasMember_iff.symm

section Names

variable {server later : Server} {roomname : CString}

/-- A room user list tells the names of the members. -/
theorem of_room_user_list {room : Room} (hroom : server.rooms.lookup roomname = some room) :
    RoomView.of_list (room_user_list_message roomname room.members) = server.member_names roomname := by
  ext username
  constructor
  · rintro ⟨users, status, husers, hfield⟩
    cases husers
    rw [users_object_eq] at hfield
    obtain ⟨user, hmem, heq⟩ := List.mem_map.mp hfield
    cases heq
    exact ⟨user.socket_fd, room, hroom, user, hmem, rfl, rfl⟩
  · rintro ⟨fd, found, hfound, user, hmem, rfl, -⟩
    rw [hroom] at hfound
    cases hfound
    refine ⟨_, .string (user_status_to_string user.status), rfl, ?_⟩
    rw [users_object_eq]
    exact List.mem_map.mpr ⟨user, hmem, rfl⟩

theorem member_names_same
    (hsame : ∀ fd username, later.Member roomname fd username ↔ server.Member roomname fd username) :
    later.member_names roomname = server.member_names roomname := by
  ext username
  exact exists_congr fun fd => hsame fd username

theorem member_names_insert (joined_fd : Fd) {joined : CString}
    (hjoined : ∀ fd username, later.Member roomname fd username ↔
      server.Member roomname fd username ∨ (joined = username ∧ joined_fd = fd)) :
    later.member_names roomname = insert joined (server.member_names roomname) := by
  ext username
  constructor
  · rintro ⟨fd, hmember⟩
    rcases (hjoined fd username).mp hmember with hold | ⟨rfl, -⟩
    · exact Or.inr ⟨fd, hold⟩
    · exact Or.inl rfl
  · rintro (rfl | ⟨fd, hold⟩)
    · exact ⟨joined_fd, (hjoined _ _).mpr (Or.inr ⟨rfl, rfl⟩)⟩
    · exact ⟨fd, (hjoined fd username).mpr (Or.inl hold)⟩

theorem member_names_diff {gone : CString}
    (hgone : ∀ fd username, later.Member roomname fd username ↔ server.Member roomname fd username ∧ username ≠ gone) :
    later.member_names roomname = server.member_names roomname \ {gone} := by
  ext username
  constructor
  · rintro ⟨fd, hmember⟩
    obtain ⟨hold, hother⟩ := (hgone fd username).mp hmember
    exact ⟨⟨fd, hold⟩, hother⟩
  · rintro ⟨⟨fd, hold⟩, hother⟩
    exact ⟨fd, (hgone fd username).mpr ⟨hold, hother⟩⟩

theorem Server.Consistent.member_names_let_in {joined : CString} {user : User} {room : Room}
    (hserver : server.Consistent) (huser : user ∈ server.users) (hroom : server.rooms.lookup joined = some room)
    (houtside : room.members.contains_by_client_fd user.socket_fd = false) :
    (server.let_in joined user).member_names roomname =
      if joined = roomname then insert user.username (server.member_names roomname)
      else server.member_names roomname := by
  by_cases hsame : joined = roomname
  · subst hsame
    rw [if_pos rfl]
    refine member_names_insert user.socket_fd fun fd username => ?_
    refine (hserver.member_let_in huser hroom houtside).trans ?_
    exact or_congr_right (and_iff_right rfl)
  · rw [if_neg hsame]
    refine member_names_same fun fd username => (hserver.member_let_in huser hroom houtside).trans ?_
    exact or_iff_left fun hnew => hsame hnew.1.symm

theorem Server.Consistent.member_names_quit {left : CString} {user : User} (hserver : server.Consistent) :
    (server.quit left user).member_names roomname =
      if left = roomname then server.member_names roomname \ {user.username} else server.member_names roomname := by
  by_cases hsame : left = roomname
  · subst hsame
    rw [if_pos rfl]
    refine member_names_diff fun fd username => hserver.member_quit.trans (and_congr_right fun _ => ?_)
    exact forall_prop_of_true rfl
  · rw [if_neg hsame]
    refine member_names_same fun fd username => hserver.member_quit.trans ?_
    exact and_iff_left fun hleft => absurd hleft.symm hsame

end Names

section Notices

variable {roomname other username : CString} {view : RoomView}

theorem RoomView.apply_of_type {message : Message} (type : MessageType) (htype : message.type = type)
    (hneutral : type ∉ [.JOINED_ROOM, .LEFT_ROOM, .DISCONNECTED]) (view : RoomView) :
    view.apply roomname message = view := by
  subst htype
  unfold RoomView.apply
  split
  · exact absurd (by simp [*]) hneutral
  · exact absurd (by simp [*]) hneutral
  · exact absurd (by simp [*]) hneutral
  · rfl

theorem RoomView.apply_joined :
    view.apply roomname (joined_room_notice other username) = if other = roomname then insert username view else view :=
  if_congr Option.some_inj rfl rfl

theorem RoomView.apply_left :
    view.apply roomname (left_room_notice other username) = if other = roomname then view \ {username} else view :=
  if_congr Option.some_inj rfl rfl

end Notices

section Reactions

variable {server later : Server} {trace : List Effect} {client_fd own_fd : Fd} {msg_in : Message} {roomname : CString}

/-- The effects of a reaction show a client that remains a member of a room how the
members have changed. -/
def Outcome.Shows (outcome : Outcome) (server : Server) (trace : List Effect) (own_fd : Fd) (roomname : CString) :
    Prop :=
  ∀ answer after, outcome = .ok answer after → after.server.HasMember roomname own_fd →
    ∃ effects, after.trace = trace ++ effects ∧
      Informs (RoomView.apply roomname) (· = server.member_names roomname) (· = after.server.member_names roomname)
        own_fd effects

theorem shows_ignored {answer : Bool} {effects : List Effect}
    (hsame : ∀ fd username, later.Member roomname fd username ↔ server.Member roomname fd username)
    (hignores : Ignores (RoomView.apply roomname) effects) :
    Outcome.Shows (.ok answer (.idle later (trace ++ effects))) server trace own_fd roomname := by
  rintro _ _ ⟨⟩ _
  refine ⟨effects, rfl, ?_⟩
  change Informs _ _ (· = later.member_names roomname) _ _
  rw [member_names_same hsame]
  exact hignores.informs

/-- Earlier effects that say nothing about the room do not matter. -/
theorem Outcome.Shows.after_ignored {outcome : Outcome} {effects : List Effect}
    (hshows : outcome.Shows server (trace ++ effects) own_fd roomname)
    (hignores : Ignores (RoomView.apply roomname) effects) : outcome.Shows server trace own_fd roomname := by
  intro answer after hok hremains
  obtain ⟨more, htrace, hinforms⟩ := hshows answer after hok hremains
  exact ⟨effects ++ more, by rw [htrace, List.append_assoc], hignores.informs.append hinforms⟩

theorem ignores_response (fd : Fd) (operation result : CString) (extra : Option CString) :
    Ignores (RoomView.apply roomname) [.send fd (response operation result extra) true] :=
  ignores_send (RoomView.apply_of_type .RESPONSE rfl (by decide))

/-- A member goes by the name that its connection is registered under. -/
theorem Server.Consistent.eq_of_member (hserver : server.Consistent) {username : CString} {user : User}
    (hmember : server.Member roomname user.socket_fd username) (huser : user ∈ server.users) :
    username = user.username := by
  obtain ⟨own, hown, rfl, hfd⟩ := hserver.registered_of_member hmember
  rw [hserver.users.eq_of_socket_fd_eq (hserver.users.mem_entries.mp hown) huser hfd]

theorem shows_departed (hserver : server.Consistent) (answer : Bool) :
    Outcome.Shows (.ok answer (departed reliable server trace client_fd)) server trace own_fd roomname := by
  rintro _ _ ⟨⟩ hremains
  refine ⟨departure_notices reliable server trace client_fd ++ [.close client_fd], by simp [departed], ?_⟩
  refine Informs.append ?_ (ignores_close client_fd).informs
  simp only [departed, Server.depart, departure_notices] at hremains ⊢
  cases hfound : server.users.find_by_client_fd client_fd with
  | none => exact fun view hknown => hknown
  | some user =>
    obtain ⟨huser, rfl⟩ := hserver.users.find_by_client_fd_iff.mp hfound
    simp only [hfound, broadcast_reliable, failures_sends] at hremains ⊢
    change Server.HasMember (server.forget user.username) roomname own_fd at hremains
    change Informs _ _ (· = (server.forget user.username).member_names roomname) _ _
    rw [member_names_diff fun fd username => hserver.member_forget]
    obtain ⟨own_name, hremains⟩ := hremains
    obtain ⟨hstill, hother⟩ := hserver.member_forget.mp hremains
    have hreached : own_fd ∈ recipients server.users.entries user.socket_fd := by
      obtain ⟨own, hown, -, hownfd⟩ := hserver.registered_of_member hstill
      refine mem_recipients.mpr ⟨?_, own, hown, hownfd⟩
      rintro rfl
      exact hother (hserver.eq_of_member hstill huser)
    refine informs_sends (nodup_recipients hserver.users _) (fun _ view hknown => ?_) fun hmissed =>
      absurd hreached hmissed
    rw [hknown]
    rfl

/-- A notice about a room reaches each of its members but the one that it is about. -/
theorem informs_members {room : Room} {changed : CString} {notice : Message} {change : RoomView → RoomView}
    (hserver : server.Consistent) (hroom : server.rooms.lookup changed = some room)
    (hmember : server.HasMember roomname own_fd) (hother : changed = roomname → own_fd ≠ client_fd)
    (hnotice : ∀ view, RoomView.apply roomname view notice = if changed = roomname then change view else view)
    (hlater : later.member_names roomname =
      if changed = roomname then change (server.member_names roomname) else server.member_names roomname) :
    Informs (RoomView.apply roomname) (· = server.member_names roomname) (· = later.member_names roomname) own_fd
      (sends notice (recipients room.members.entries client_fd)) := by
  have hcopies := hserver.rooms changed room hroom
  refine informs_sends (nodup_recipients hcopies.members client_fd) ?_ fun hmissed view hknown => ?_
  · intro _ view hknown
    rw [hnotice, hlater, hknown]
  · rw [hlater, hknown, if_neg]
    intro hsame
    obtain ⟨own_name, found, hfound, own, hown, -, hownfd⟩ := hmember
    rw [← hsame, hroom] at hfound
    cases hfound
    exact hmissed (mem_recipients.mpr ⟨hother hsame, own, hown, hownfd⟩)

/-- The answer to a registration and the notice of it say nothing about rooms. -/
theorem shows_register (user : User) :
    ((Reaction.register user).perform reliable client_fd server trace).Shows server trace own_fd roomname := by
  simp only [Reaction.perform, send_or_depart_reliable, announce_reliable]
  refine Outcome.Shows.after_ignored ?_ (ignores_response client_fd (.lit "IDENTIFY") (.lit "SUCCESS") user.username)
  exact shows_ignored (fun _ _ => Iff.rfl) (ignores_sends (RoomView.apply_of_type .NEW_USER rfl (by decide)))

/-- Whoever is a member of a room does not hear of it as a new one. -/
theorem shows_create {created : CString} (named : 0 < strlen created ∧ strlen created ≤ ROOM_ROOMNAME_MAX_LENGTH)
    (hfree : server.rooms.lookup created = none) (hmember : server.HasMember roomname own_fd) (user : User) :
    ((Reaction.create (room_new created named) user).perform reliable client_fd server trace).Shows server trace own_fd
      roomname := by
  refine shows_ignored (fun fd username => ?_) (ignores_response _ _ _ _)
  refine (Server.Consistent.member_create_room named hfree).trans (or_iff_left ?_)
  rintro ⟨rfl, -⟩
  obtain ⟨own_name, room, hroom, -⟩ := hmember
  rw [hfree] at hroom
  cases hroom

/-- The members hear of a new member. -/
theorem shows_join {user : User} {joined : CString} {room : Room} (hserver : server.Consistent)
    (hmember : server.HasMember roomname own_fd) (hsender : server.Sender client_fd user)
    (hroom : server.rooms.lookup joined = some room)
    (houtside : room.members.contains_by_client_fd user.socket_fd = false) :
    ((Reaction.join joined user).perform reliable client_fd server trace).Shows server trace own_fd roomname := by
  obtain ⟨huser, rfl⟩ := hsender
  simp only [Reaction.perform, send_or_depart_reliable, tell_members_reliable,
    hserver.recipients_let_in hroom huser houtside]
  refine Outcome.Shows.after_ignored ?_ (ignores_response user.socket_fd (.lit "JOIN_ROOM") (.lit "SUCCESS") joined)
  rintro _ _ ⟨⟩ _
  have hother : joined = roomname → own_fd ≠ user.socket_fd := by
    rintro rfl rfl
    obtain ⟨own_name, found, hfound, own, hown, -, hownfd⟩ := hmember
    rw [hroom] at hfound
    cases hfound
    have hcopies := hserver.rooms joined room hroom
    have hinside := hcopies.members.contains_by_client_fd_iff.mpr ⟨own, hcopies.members.mem_entries.mp hown, hownfd⟩
    rw [houtside] at hinside
    cases hinside
  exact ⟨_, rfl, informs_members hserver hroom hmember hother (fun view => RoomView.apply_joined)
    (hserver.member_names_let_in huser hroom houtside)⟩

/-- The members who stay hear of one who goes. -/
theorem shows_quit {user : User} {left : CString} {room : Room} (hserver : server.Consistent)
    (hmember : server.HasMember roomname own_fd) (hsender : server.Sender client_fd user)
    (hroom : server.rooms.lookup left = some room) (hinside : user ∈ room.members) :
    ((Reaction.quit left user).perform reliable client_fd server trace).Shows server trace own_fd roomname := by
  obtain ⟨huser, rfl⟩ := hsender
  simp only [Reaction.perform, tell_members_reliable, hserver.recipients_quit hroom hinside]
  rintro _ _ ⟨⟩ hremains
  have hother : left = roomname → own_fd ≠ user.socket_fd := by
    rintro rfl rfl
    obtain ⟨own_name, hstill⟩ := hremains
    obtain ⟨hold, hdifferent⟩ := hserver.member_quit.mp hstill
    exact hdifferent rfl (hserver.eq_of_member hold huser)
  exact ⟨_, rfl, informs_members hserver hroom hmember hother (fun view => RoomView.apply_left)
    hserver.member_names_quit⟩

/-- Every reaction that goes through without a failed send shows the members of a
room how it changes them. -/
theorem Permitted.shows {reaction : Reaction} (hpermitted : Permitted server client_fd msg_in reaction)
    (hserver : server.Consistent) (hmember : server.HasMember roomname own_fd) :
    (reaction.perform reliable client_fd server trace).Shows server trace own_fd roomname := by
  have hkept : ∀ fd username, server.Member roomname fd username ↔ server.Member roomname fd username :=
    fun _ _ => Iff.rfl
  cases hpermitted with
  | ignore answer =>
    have hidle : Outcome.Shows (.ok answer (.idle server (trace ++ []))) server trace own_fd roomname :=
      shows_ignored hkept fun _ _ _ hmem => absurd hmem List.not_mem_nil
    rwa [List.append_nil] at hidle
  | crash habsent =>
    intro answer after hok
    cases hok
  | answer operation result extra => exact shows_ignored hkept (ignores_response _ _ _ _)
  | user_list user htype hsender =>
    exact shows_ignored hkept (ignores_send (RoomView.apply_of_type .USER_LIST rfl (by decide)))
  | room_user_list other room htype hroom =>
    exact shows_ignored hkept (ignores_send (RoomView.apply_of_type .ROOM_USER_LIST rfl (by decide)))
  | text user user_to text htype hsender haddressee hother htext =>
    exact shows_ignored hkept (ignores_send (RoomView.apply_of_type .TEXT_FROM rfl (by decide)))
  | refuse operation result extra =>
    exact (shows_departed hserver true).after_ignored (ignores_response _ _ _ _)
  | leave => exact shows_departed hserver true
  | register user hfd hactive hname hunknown => exact shows_register user
  | set_status user status text htype hsender hread hchange =>
    simp only [Reaction.perform, announce_reliable]
    refine shows_ignored (fun fd username => hserver.member_set_status client_fd status) ?_
    exact ignores_sends (RoomView.apply_of_type .NEW_STATUS rfl (by decide))
  | publish user text htype hsender htext =>
    simp only [Reaction.perform, announce_reliable]
    exact shows_ignored hkept (ignores_sends (RoomView.apply_of_type .PUBLIC_TEXT_FROM rfl (by decide)))
  | create user requested named htype hsender hroomname hfree => exact shows_create named hfree hmember user
  | invite user invited_to room usernames invited_users htype hsender hroomname husernames hroom hinside hinvited =>
    obtain ⟨fds, hinvite⟩ := invite_all_reliable server trace invited_to (invitation_notice user.username invited_to)
      invited_users
    simp only [Reaction.perform, hinvite]
    refine shows_ignored (fun fd username => member_settle_invitations) ?_
    exact ignores_sends (RoomView.apply_of_type .INVITATION rfl (by decide))
  | join user joined room htype hsender hroomname hroom houtside hguest =>
    exact shows_join hserver hmember hsender hroom houtside
  | tell_room user told room text htype hsender hroomname hroom hinside htext =>
    simp only [Reaction.perform, tell_members_reliable]
    exact shows_ignored hkept (ignores_sends (RoomView.apply_of_type .ROOM_TEXT_FROM rfl (by decide)))
  | quit user left room htype hsender hroomname hroom hinside => exact shows_quit hserver hmember hsender hroom hinside

end Reactions

section Events

variable {server : Server} {trace : List Effect} {event : Event} {after : World} {own_fd : Fd} {roomname : CString}

theorem served_shows (hserver : server.Consistent) (hserved : Served reliable (.idle server trace) event after)
    (hmember : server.HasMember roomname own_fd) (hremains : after.server.HasMember roomname own_fd) :
    ∃ effects, after.trace = trace ++ effects ∧
      Informs (RoomView.apply roomname) (· = server.member_names roomname) (· = after.server.member_names roomname)
        own_fd effects := by
  rcases served_cases hserver hserved with ⟨client_fd, rfl, rfl⟩ | ⟨answer, hok⟩
  · exact ⟨[.accept client_fd], rfl, (ignores_accept client_fd).informs⟩
  · exact (event.permitted hserver).shows hserver hmember answer after hok hremains

/-- Right after a room user list its reader knows the members. -/
theorem served_room_user_list {list : Message} {effects : List Effect} (hserver : server.Consistent)
    (hserved : Served reliable (.idle server trace) event after) (htrace : after.trace = trace ++ effects)
    (hmem : Effect.send own_fd list true ∈ effects) (hlist : list.type = .ROOM_USER_LIST)
    (hroomname : list.roomname = some roomname) :
    effects = [.send own_fd list true] ∧ RoomView.of_list list = after.server.member_names roomname := by
  obtain ⟨hlists, hsingle, hsame⟩ := served_list hserver hserved htrace hmem (Or.inr hlist)
  cases hlists with
  | users => cases hlist
  | members listed room hroom =>
    cases hroomname
    refine ⟨hsingle, ?_⟩
    rw [hsame]
    exact of_room_user_list hroom

end Events

/-- A client that remains a member of a room after a list of its users knows the
members from that list and the notices that it receives. -/
theorem room_view_follows_server {history : List (World × Event)} {world : World}
    (hrun : ServerRun reliable history world) {roomname : CString} {own_fd : Fd} {earlier later : List Effect}
    {list : Message} (hlist : list.type = .ROOM_USER_LIST) (hroomname : list.roomname = some roomname)
    (htrace : world.trace = earlier ++ .send own_fd list true :: later)
    (hmember : world.server.HasMember roomname own_fd)
    (hstayed : ∀ moment ∈ history, earlier.length < moment.1.trace.length →
      moment.1.server.HasMember roomname own_fd) :
    (received own_fd later).foldl (RoomView.apply roomname) (RoomView.of_list list) =
      world.server.member_names roomname := by
  let knows : Server → RoomView → Prop := fun server view => view = server.member_names roomname
  have hread : ∀ {server trace event after effects}, server.Consistent →
      Served reliable (.idle server trace) event after → after.trace = trace ++ effects →
      .send own_fd list true ∈ effects →
      effects = [.send own_fd list true] ∧ knows after.server (RoomView.of_list list) :=
    fun hserver hserved heffects hmem => served_room_user_list hserver hserved heffects hmem hlist hroomname
  have hinforms : ∀ {server trace event after}, server.Consistent →
      Served reliable (.idle server trace) event after → server.HasMember roomname own_fd →
      after.server.HasMember roomname own_fd → ∃ effects, after.trace = trace ++ effects ∧
        Informs (RoomView.apply roomname) (knows server) (knows after.server) own_fd effects :=
    fun hserver hserved hbefore hafter => served_shows hserver hserved hbefore hafter
  exact knows_after_run hrun hread hinforms htrace hmember hstayed

/-- A client that asks for the users of its room before one joins, one leaves and one
goes away. -/
def room_visit : List Event := [
  .request 4 { message_init with type := .IDENTIFY, username := some (.lit "ana") },
  .request 5 { message_init with type := .IDENTIFY, username := some (.lit "luis") },
  .request 6 { message_init with type := .IDENTIFY, username := some (.lit "eva") },
  .request 4 { message_init with type := .NEW_ROOM, roomname := some (.lit "sala") },
  .request 4 { message_init with
    type := .INVITE, roomname := some (.lit "sala"), usernames := some [.lit "luis", .lit "eva"] },
  .request 5 { message_init with type := .JOIN_ROOM, roomname := some (.lit "sala") },
  .request 4 { message_init with type := .ROOM_USERS, roomname := some (.lit "sala") },
  .request 6 { message_init with type := .JOIN_ROOM, roomname := some (.lit "sala") },
  .request 5 { message_init with type := .LEAVE_ROOM, roomname := some (.lit "sala") },
  .request 6 { message_init with type := .DISCONNECT }]

theorem room_view_follows_server_in_room_visit :
    ∃ history world list later, ServerRun reliable history world ∧ (received 4 later).length = 3 ∧
      (received 4 later).foldl (RoomView.apply (.lit "sala")) (RoomView.of_list list) =
        world.server.member_names (.lit "sala") := by
  obtain ⟨history, world, hrun, htest⟩ := exists_run_of_serve_all reliable room_visit
    (fun history world =>
      (received_at 4 world.trace 11).any fun found =>
        found.1.type = .ROOM_USER_LIST && found.1.roomname = some (.lit "sala") && (received 4 found.2).length = 3 &&
          world.server.HasMember (.lit "sala") 4 &&
          history.all fun moment => moment.1.trace.length ≤ 11 || moment.1.server.HasMember (.lit "sala") 4)
    (by decide +kernel)
  obtain ⟨⟨list, later⟩, hfound, hall⟩ := (Option.any_eq_true _ _).mp htest
  simp only [Bool.and_eq_true, Bool.or_eq_true, List.all_eq_true, decide_eq_true_eq] at hall
  obtain ⟨⟨⟨⟨hlist, hroomname⟩, hnotices⟩, hmember⟩, hstayed⟩ := hall
  obtain ⟨earlier, hlength, htrace⟩ := eq_append_of_received_at hfound
  refine ⟨history, world, list, later, hrun, hnotices,
    room_view_follows_server hrun hlist hroomname htrace hmember ?_⟩
  intro moment hmem hafter
  exact (hstayed moment hmem).resolve_left (by omega)

end ojalvo
