import OjalvoChat.Library.Since
import OjalvoChat.Protocol.Presence

namespace ojalvo

section Admission

variable (roomname : CString) (fd : Fd) (username : CString)

/-- A connection creates a room: it asks for a name that no room has. -/
def Creates (before : World) (event : Event) : Prop :=
  ∃ msg_in requested, event = .request fd msg_in ∧ msg_in.type = .NEW_ROOM ∧ msg_in.roomname = some requested ∧
    requested.cut 16 = roomname ∧ before.server.rooms.lookup roomname = none

/-- A member of the room, whoever it is, invites a registered user by name. -/
def Invites (before : World) (event : Event) : Prop :=
  ∃ inviter_fd inviter_name msg_in usernames, event = .request inviter_fd msg_in ∧ msg_in.type = .INVITE ∧
    msg_in.roomname = some roomname ∧ msg_in.usernames = some usernames ∧ username ∈ usernames ∧
    before.server.Member roomname inviter_fd inviter_name ∧ before.server.Registered fd username

/-- A connection asks to join the room. -/
def Joins (event : Event) : Prop :=
  ∃ msg_in, event = .request fd msg_in ∧ msg_in.type = .JOIN_ROOM ∧ msg_in.roomname = some roomname

/-- A connection asks to leave the room. -/
def Leaves (event : Event) : Prop :=
  ∃ msg_in, event = .request fd msg_in ∧ msg_in.type = .LEAVE_ROOM ∧ msg_in.roomname = some roomname

/-- Registered and waiting in the room as a guest, but no member. -/
def Waiting (world : World) : Prop :=
  world.server.Registered fd username ∧ world.server.Guest roomname fd username ∧
    ¬ world.server.Member roomname fd username

/-- Registered and a member of the room. -/
def Joined (world : World) : Prop :=
  world.server.Registered fd username ∧ world.server.Member roomname fd username

/-- Invited, and waiting ever since. -/
def Invited (history : List (World × Event)) (world : World) : Prop :=
  Since (fun _ => Invites roomname fd username) (fun _ _ => True) (Waiting roomname fd username) history world

/-- Let in, by the creation of the room or after an invitation, and a member
ever since, without any request to leave. -/
def LetIn (history : List (World × Event)) (world : World) : Prop :=
  Since
    (fun earlier before event =>
      Creates roomname fd before event ∨ (Joins roomname fd event ∧ Invited roomname fd username earlier before))
    (fun _ event => ¬ Leaves roomname fd event) (Joined roomname fd username) history world

end Admission

section Steps

variable {net : Net} {server : Server} {trace : List Effect} {client_fd fd : Fd} {msg_in : Message}
  {reaction : Reaction} {roomname username : CString}

/-- A user becomes a guest by an invitation only. -/
theorem guest_of_served {event : Event} {after : World} (hserver : server.Consistent)
    (hserved : Served net (.idle server trace) event after) (hguest : after.server.Guest roomname fd username) :
    server.Guest roomname fd username ∨ Invites roomname fd username (.idle server trace) event := by
  have hpermitted := event.permitted hserver
  have hsettled := hpermitted.settled_consistent net trace hserver
  obtain ⟨later, rfl⟩ := served_leaves hserver hserved
  have hguest := (hsettled.guest_evict_all.mp hguest).1
  generalize hreaction : event.reaction server = reaction at hpermitted hguest
  cases hpermitted with
  | set_status user status text htype hsender hread hchange =>
    exact Or.inl ((hserver.guest_set_status user.socket_fd status).mp hguest)
  | create user requested named htype hsender hroomname hfree =>
    exact Or.inl ((Server.Consistent.guest_create_room named hfree).mp hguest)
  | join user joined room htype hsender hroomname hroom houtside hwaiting =>
    exact Or.inl (hserver.guest_let_in.mp hguest).1
  | quit user left_room room htype hsender hroomname hroom hmember =>
    exact Or.inl (Server.Consistent.guest_quit.mp hguest).1
  | invite user invited_to room usernames invited_users htype hsender hroomname husernames hroom hmember hinvited =>
    rcases guest_of_settle_invitations hserver invited_to _ (fun invited hmem => (hinvited invited hmem).1) hguest with
      hold | ⟨rfl, invited, hmem, rfl, rfl⟩
    · exact Or.inl hold
    · obtain ⟨hregistered, hlisted⟩ := hinvited invited hmem
      have hcopies := hserver.rooms roomname room hroom
      have hinviter : server.Member roomname event.client_fd user.username :=
        ⟨room, hroom, hcopies.members.lists_iff.mpr ⟨user, hmember, rfl, hsender.connected⟩⟩
      exact Or.inr ⟨event.client_fd, user.username, event.message, usernames, Event.eq_request htype (by decide), htype,
        hroomname, husernames, hlisted, hinviter, hserver.users.lists_iff.mpr ⟨invited, hregistered, rfl, rfl⟩⟩
  | _ => exact Or.inl hguest

/-- A user becomes a member by creating the room or, as a guest, by joining it. -/
theorem member_of_served {event : Event} {after : World} (hserver : server.Consistent)
    (hserved : Served net (.idle server trace) event after) (hmember : after.server.Member roomname fd username) :
    server.Member roomname fd username ∨ Creates roomname fd (.idle server trace) event ∨
      (Joins roomname fd event ∧ server.Guest roomname fd username) := by
  have hpermitted := event.permitted hserver
  have hsettled := hpermitted.settled_consistent net trace hserver
  obtain ⟨later, rfl⟩ := served_leaves hserver hserved
  have hmember := (hsettled.member_evict_all.mp hmember).1
  generalize hreaction : event.reaction server = reaction at hpermitted hmember
  cases hpermitted with
  | set_status user status text htype hsender hread hchange =>
    exact Or.inl ((hserver.member_set_status user.socket_fd status).mp hmember)
  | create user requested named htype hsender hroomname hfree =>
    rcases (Server.Consistent.member_create_room named hfree).mp hmember with hold | ⟨rfl, rfl, rfl⟩
    · exact Or.inl hold
    · rw [hsender.connected]
      exact Or.inr (Or.inl ⟨event.message, requested, Event.eq_request htype (by decide), htype, hroomname, rfl, hfree⟩)
  | join user joined room htype hsender hroomname hroom houtside hwaiting =>
    rcases (hserver.member_let_in hsender.registered hroom houtside).mp hmember with hold | ⟨rfl, rfl, rfl⟩
    · exact Or.inl hold
    · have hcopies := hserver.rooms roomname room hroom
      have hguest : server.Guest roomname user.socket_fd user.username :=
        ⟨room, hroom, hcopies.guests.lists_iff.mpr ⟨user, hwaiting, rfl, rfl⟩⟩
      rw [hsender.connected] at hguest ⊢
      exact Or.inr (Or.inr ⟨⟨event.message, Event.eq_request htype (by decide), htype, hroomname⟩, hguest⟩)
  | quit user left_room room htype hsender hroomname hroom hmembership =>
    exact Or.inl (hserver.member_quit.mp hmember).1
  | invite user invited_to room usernames invited_users htype hsender hroomname husernames hroom hmembership hinvited =>
    exact Or.inl (member_settle_invitations.mp hmember)
  | _ => exact Or.inl hmember

/-- A member who asks to leave the room is no member afterwards. -/
theorem not_member_of_leaves {event : Event} {after : World} (hserver : server.Consistent)
    (hserved : Served net (.idle server trace) event after) (hbefore : server.Member roomname fd username)
    (hleaves : Leaves roomname fd event) : ¬ after.server.Member roomname fd username := by
  intro hmember
  have hsettled := (event.permitted hserver).settled_consistent net trace hserver
  obtain ⟨later, rfl⟩ := served_leaves hserver hserved
  have hstill := (hsettled.member_evict_all.mp hmember).1
  obtain ⟨msg_in, rfl, htype, hroomname⟩ := hleaves
  obtain ⟨room, hroom, hlists⟩ := hbefore
  have hcopies := hserver.rooms roomname room hroom
  obtain ⟨user, huser, rfl, rfl⟩ := hcopies.members.lists_iff.mp hlists
  have hregistered := hcopies.members_users user huser
  have hinside := (hcopies.mem_members_iff hserver.users hregistered).mp huser
  have hquit : Event.reaction server (.request user.socket_fd msg_in) = .quit roomname user := by
    rw [Event.reaction, reaction_of_sender hserver ⟨hregistered, rfl⟩ (by simp [htype])]
    simp only [registered_reaction, htype, leave_room_reaction, room_reaction, hroomname, hroom, hinside, if_true]
  rw [hquit] at hstill
  exact (hserver.member_quit.mp hstill).2 rfl rfl

end Steps

section Runs

variable {net : Net} {history : List (World × Event)} {world : World} {roomname username : CString} {fd : Fd}

/-- Every guest has been invited and has waited since. -/
theorem invited_of_waiting (hrun : ServerRun net history world) (hwaiting : Waiting roomname fd username world) :
    Invited roomname fd username history world := by
  refine hrun.since (fun hstart => not_seats_init hstart.2.1) ?_ hwaiting
  intro history before event after hprefix hserved hafter
  obtain ⟨hidle, hserver⟩ := run_ready hprefix
  rw [hidle] at hserved
  rcases guest_of_served hserver hserved hafter.2.1 with hguest | hinvites
  · have hwaits : Waiting roomname fd username before :=
      ⟨hserver.registered_of_guest hguest, hguest, fun hmember => hserver.not_guest hmember hguest⟩
    exact Or.inl ⟨hwaits, trivial⟩
  · rw [← hidle] at hinvites
    exact Or.inr hinvites

/-- Every member has been let in and has stayed since. -/
theorem let_in_of_joined (hrun : ServerRun net history world) (hjoined : Joined roomname fd username world) :
    LetIn roomname fd username history world := by
  refine hrun.since (fun hstart => not_seats_init hstart.2) ?_ hjoined
  intro history before event after hprefix hserved hafter
  obtain ⟨hidle, hserver⟩ := run_ready hprefix
  rw [hidle] at hserved
  rcases member_of_served hserver hserved hafter.2 with hmember | hcreates | ⟨hjoins, hguest⟩
  · refine Or.inl ⟨⟨hserver.registered_of_member hmember, hmember⟩, fun hleaves => ?_⟩
    exact not_member_of_leaves hserver hserved hmember hleaves hafter.2
  · rw [← hidle] at hcreates
    exact Or.inr (Or.inl hcreates)
  · have hwaiting : Waiting roomname fd username before :=
      ⟨hserver.registered_of_guest hguest, hguest, fun hmember => hserver.not_guest hmember hguest⟩
    exact Or.inr (Or.inr ⟨hjoins, invited_of_waiting hprefix hwaiting⟩)

/-- Whoever is a member or a guest has been so since the room was created or
since an invitation. -/
theorem present_since (hrun : ServerRun net history world)
    (hpresent : world.server.Member roomname fd username ∨ world.server.Guest roomname fd username) :
    Since (fun _ before event => Creates roomname fd before event ∨ Invites roomname fd username before event)
      (fun _ _ => True)
      (fun world => world.server.Member roomname fd username ∨ world.server.Guest roomname fd username)
      history world := by
  refine hrun.since (fun hstart => hstart.elim not_seats_init not_seats_init) ?_ hpresent
  intro history before event after hprefix hserved hafter
  obtain ⟨hidle, hserver⟩ := run_ready hprefix
  rw [hidle] at hserved
  rcases hafter with hmember | hguest
  · rcases member_of_served hserver hserved hmember with hbefore | hcreates | ⟨-, hbefore⟩
    · exact Or.inl ⟨Or.inl hbefore, trivial⟩
    · rw [← hidle] at hcreates
      exact Or.inr (Or.inl hcreates)
    · exact Or.inl ⟨Or.inr hbefore, trivial⟩
  · rcases guest_of_served hserver hserved hguest with hbefore | hinvites
    · exact Or.inl ⟨Or.inr hbefore, trivial⟩
    · rw [← hidle] at hinvites
      exact Or.inr (Or.inr hinvites)

end Runs

/-- Every member of a room has created it or was invited into it by a member,
has joined it, and has not left since. After every moment at which the same
connection was neither a member nor a guest under this name there is a new
creation or a new invitation. -/
theorem members_were_let_in {net : Net} {history : List (World × Event)} {world : World}
    (hrun : ServerRun net history world) {roomname : CString} {room : Room} {user : User}
    (hroom : world.server.rooms.lookup roomname = some room) (hmember : user ∈ room.members.entries) :
    LetIn roomname user.socket_fd user.username history world ∧
      ∀ newer older outside event, history = newer ++ (outside, event) :: older →
        ¬ outside.server.Member roomname user.socket_fd user.username →
        ¬ outside.server.Guest roomname user.socket_fd user.username →
        ∃ moment ∈ newer ++ [(outside, event)],
          Creates roomname user.socket_fd moment.1 moment.2 ∨
            Invites roomname user.socket_fd user.username moment.1 moment.2 := by
  have hserver := (run_ready hrun).consistent
  have hmembership : world.server.Member roomname user.socket_fd user.username :=
    ⟨room, hroom, user, hmember, rfl, rfl⟩
  refine ⟨let_in_of_joined hrun ⟨hserver.registered_of_member hmembership, hmembership⟩, ?_⟩
  rintro newer older outside event rfl hnomember hnoguest
  have hsince := present_since hrun (Or.inl hmembership)
  obtain ⟨moment, hmem, _, hbegins⟩ := hsince.begins_after (not_or.mpr ⟨hnomember, hnoguest⟩)
  exact ⟨moment, hmem, hbegins⟩

/-- A run in which a user is invited, joins, leaves, and joins again after a
second invitation. -/
def return_visit : List Event := meeting ++ [
  .request 5 { message_init with type := .LEAVE_ROOM, roomname := some (.lit "sala") },
  .request 5 { message_init with type := .JOIN_ROOM, roomname := some (.lit "sala") },
  .request 4 { message_init with type := .INVITE, roomname := some (.lit "sala"), usernames := some [.lit "luis"] },
  .request 5 { message_init with type := .JOIN_ROOM, roomname := some (.lit "sala") }]

theorem members_were_let_in_return_visit :
    ∃ history world room user, history.length = 9 ∧ ServerRun reliable history world ∧
      world.server.rooms.lookup (.lit "sala") = some room ∧ user ∈ room.members.entries ∧ user.socket_fd = 5 ∧
      LetIn (.lit "sala") user.socket_fd user.username history world := by
  obtain ⟨history, world, hrun, htest⟩ := exists_run_of_serve_all reliable return_visit
    (fun history world => history.length = 9 &&
      (world.server.rooms.lookup (.lit "sala")).any fun room => room.members.entries.any fun user => user.socket_fd = 5)
    (by decide +kernel)
  simp only [Bool.and_eq_true, Option.any_eq_true, List.any_eq_true, decide_eq_true_eq] at htest
  obtain ⟨hlength, room, hroom, user, hmember, hfd⟩ := htest
  exact ⟨history, world, room, user, hlength, hrun, hroom, hmember, hfd, (members_were_let_in hrun hroom hmember).1⟩

end ojalvo
