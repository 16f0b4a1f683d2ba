import OjalvoChat.Protocol.Consistent

namespace ojalvo

section RoomVisitors

variable (server : Server) (trace : List Effect) (roomname : CString)

/-- The visitor notes whether the client is a member. -/
theorem run_with_room_is_a_member (alloc : Nat → Bool) (context : RoomVisitorContext) :
    (room_table_with roomname room_is_a_member context).run ⟨server, [], trace, alloc⟩ =
      .ok { context with
          is_in_room := context.is_in_room ||
            (server.rooms.lookup roomname).any fun room =>
              room.members.contains_by_client_fd context.user.socket_fd }
        ⟨server, [], trace, alloc⟩ := by
  cases hroom : server.rooms.lookup roomname with
  | none => simp [run_room_table_with, hroom]
  | some room =>
    cases hmember : room.members.contains_by_client_fd context.user.socket_fd with
    | true => simp [run_room_table_with, hroom, room_is_a_member, users_table_contains_by_client_fd, hmember]
    | false => simp [run_room_table_with, hroom, room_is_a_member, users_table_contains_by_client_fd, hmember]

/-- The visitor notes whether the client is a guest. -/
theorem run_with_room_is_a_guest (alloc : Nat → Bool) (context : RoomVisitorContext) :
    (room_table_with roomname room_is_a_guest context).run ⟨server, [], trace, alloc⟩ =
      .ok { context with
          is_in_room := context.is_in_room ||
            (server.rooms.lookup roomname).any fun room =>
              room.guests.contains_by_client_fd context.user.socket_fd }
        ⟨server, [], trace, alloc⟩ := by
  cases hroom : server.rooms.lookup roomname with
  | none => simp [run_room_table_with, hroom]
  | some room =>
    cases hguest : room.guests.contains_by_client_fd context.user.socket_fd with
    | true => simp [run_room_table_with, hroom, room_is_a_guest, users_table_contains_by_client_fd, hguest]
    | false => simp [run_room_table_with, hroom, room_is_a_guest, users_table_contains_by_client_fd, hguest]

/-- Both membership tests of INVITE in a row. -/
theorem Server.in_room_eq (user : User) :
    server.in_room roomname user =
      (((server.rooms.lookup roomname).any fun room => room.members.contains_by_client_fd user.socket_fd) ||
        (server.rooms.lookup roomname).any fun room => room.guests.contains_by_client_fd user.socket_fd) := by
  unfold Server.in_room
  cases server.rooms.lookup roomname <;> rfl

/-- Whoever leaves a room that exists leaves it, and the room goes if nobody is
left. -/
theorem Server.quit_of_lookup (user : User) (room : Room) (hroom : server.rooms.lookup roomname = some room) :
    server.quit roomname user =
      let left := server.adjust_room roomname (Room.change_members fun members => members.remove user.username)
      if (room.members.remove user.username).entries.length = 0 then
        { left with rooms := left.rooms.erase roomname }
      else left := by
  simp only [Server.quit, Server.adjust_room_rooms, HashTable.lookup_adjust_self, hroom, Option.map_some]
  rfl

/-- A visitor that only changes its room, and the pointer-free account of it. -/
theorem run_with_change (action : RoomPtr → RoomVisitorContext → Action RoomVisitorContext)
    (change : Room → Room) (context : RoomVisitorContext)
    (haction : ∀ room, server.rooms.lookup roomname = some room →
      (action roomname context).run ⟨server, [.rooms], trace, allocating⟩ =
        .ok context ⟨server.adjust_room roomname change, [.rooms], trace, allocating⟩) :
    (room_table_with roomname action context).run (.idle server trace) =
      .ok context (.idle (server.adjust_room roomname change) trace) := by
  cases hroom : server.rooms.lookup roomname with
  | none =>
    have habsent : roomname ∉ server.rooms := AList.lookup_eq_none.mp hroom
    simp [run_room_table_with, hroom, Server.adjust_room, HashTable.adjust_of_notMem change habsent]
  | some room => simp [run_room_table_with, hroom, haction room hroom]

theorem run_with_room_add_creator (context : RoomVisitorContext) :
    (room_table_with roomname room_add_creator context).run (.idle server trace) =
      .ok context (.idle (server.adjust_room roomname
        (Room.change_members fun members => members.add context.user)) trace) := by
  apply run_with_change
  intro room hroom
  simp [room_add_creator, run_users_table_add_with_status, hroom]

theorem run_with_room_add_to_guests (context : RoomVisitorContext) :
    (room_table_with roomname room_add_to_guests context).run (.idle server trace) =
      .ok context (.idle (server.add_guest roomname context.user) trace) := by
  apply run_with_change
  intro room hroom
  simp [room_add_to_guests, run_users_table_add_with_status, hroom]

theorem run_with_room_from_guest_to_member (context : RoomVisitorContext) :
    (room_table_with roomname room_from_guest_to_member context).run (.idle server trace) =
      .ok context (.idle (server.let_in roomname context.user) trace) := by
  apply run_with_change
  intro room hroom
  simp [room_from_guest_to_member, users_table_remove, run_users_table_add_with_status, hroom,
    Server.adjust_room_adjust_room]
  rfl

/-- The visitor takes the user out and notes whether anybody is left. -/
theorem run_with_room_leave (alloc : Nat → Bool) (room : Room) (hroom : server.rooms.lookup roomname = some room)
    (context : RoomVisitorContext) :
    (room_table_with roomname room_leave context).run ⟨server, [], trace, alloc⟩ =
      .ok { context with
          is_empty_now := context.is_empty_now ||
            decide ((room.members.remove context.user.username).entries.length = 0) }
        ⟨server.adjust_room roomname
          (Room.change_members fun members => members.remove context.user.username), [], trace, alloc⟩ := by
  by_cases hempty : (room.members.remove context.user.username).entries.length = 0
  · simp [run_room_table_with, room_leave, users_table_remove, hroom, Room.change_members, hempty]
  · simp [run_room_table_with, room_leave, users_table_remove, hroom, Room.change_members, hempty]

theorem run_with_room_users (alloc : Nat → Bool) (room : Room) (hroom : server.rooms.lookup roomname = some room) :
    (room_table_with roomname room_users cJSON_CreateObject).run ⟨server, [], trace, alloc⟩ =
      .ok (users_object room.members) ⟨server, [], trace, alloc⟩ := by
  simp [run_room_table_with, room_users, users_table_iterate, users_object, hroom]

/-- The broadcast to a room, seen from outside the visitor. -/
theorem run_with_room_notify_members (hserver : server.Consistent) (net : Net) (message : Message) (client_fd : Fd) :
    (room_table_with roomname (room_notify_members net message client_fd) ()).run (.idle server trace) =
      match tell_members net client_fd roomname message server trace with
      | .ok _ world => .ok () world
      | .error why world => .error why world := by
  cases hroom : server.rooms.lookup roomname with
  | none => simp [run_room_table_with, tell_members, Server.room_recipients, hroom, broadcast, failures]
  | some room =>
    have hmembers := (hserver.rooms roomname room hroom).members
    have hnotify := run_notify_members server trace allocating net message client_fd roomname room hroom
      fun user huser => Option.isSome_iff_exists.mpr
        ⟨user, hmembers.find_by_client_fd_iff.mpr ⟨hmembers.mem_entries.mp huser, rfl⟩⟩
    have haction : (room_notify_members net message client_fd roomname ()).run ⟨server, [.rooms], trace, allocating⟩ =
        _ := hnotify
    simp only [run_room_table_with, hroom, haction, tell_members, Server.room_recipients]
    by_cases hfailed : failures (broadcast net message trace (recipients room.members.entries client_fd)) = []
    · simp [hfailed]
    · simp [hfailed]

/-- A room stored and then joined by its creator. -/
theorem adjust_room_insert (room : Room) (creator : User) :
    ({ server with rooms := server.rooms.insert room.roomname room } : Server).adjust_room room.roomname
        (Room.change_members fun members => members.add creator) =
      server.create_room room creator := by
  simp [Server.adjust_room, Server.create_room, HashTable.adjust_insert_self]

/-- The broadcast that ends three of the handlers. -/
theorem run_told (hserver : server.Consistent) (net : Net) (message : Message) (client_fd : Fd) :
    (do
      room_table_with roomname (room_notify_members net message client_fd) ()
      return true : Handler Bool).run (.idle server trace) =
      tell_members net client_fd roomname message server trace := by
  simp only [Program.run_bind, Program.run_lift, run_with_room_notify_members server trace roomname hserver,
    Program.run_pure, tell_members]
  by_cases hfailed : failures (broadcast net message trace (server.room_recipients roomname client_fd)) = []
  · simp only [if_pos hfailed]
  · simp only [if_neg hfailed]

end RoomVisitors

section Handlers

variable (net : Net) (server : Server) (trace : List Effect) (client_fd : Fd) (msg_in : Message)

/-- IDENTIFY reacts as it should. -/
theorem run_process_identify :
    (process_identify net msg_in client_fd).run (.idle server trace) =
      (identify_reaction server client_fd msg_in).perform net client_fd server trace := by
  cases husername : msg_in.username with
  | none => simp [process_identify, identify_reaction, husername, Reaction.perform]
  | some requested =>
    simp only [process_identify, identify_reaction, husername, Option.isNone_some, Bool.false_eq_true, if_false,
      Program.run_bind, Program.run_lift, run_strndup_some, users_table_find_by_client_fd, run_users_table_query,
      List.not_mem_nil, UsersTablePtr.read_server_users]
    cases hregistered : server.users.find_by_client_fd client_fd with
    | some user =>
      by_cases hsame : user.username = requested.cut 8
      · simp [hsame, Reaction.perform]
      · simp [hsame, Reaction.perform, run_send_invalid_and_disconnect]
    | none =>
      simp only [Program.run_bind, Program.run_lift, users_table_find_by_username, EStateM.run_bind,
        run_g_str_key_some, run_users_table_query, List.not_mem_nil, if_false, UsersTablePtr.read_server_users]
      cases htaken : server.users.find_by_username (requested.cut 8) with
      | some user =>
        by_cases hother : user.socket_fd = client_fd
        · simp [hother, Reaction.perform]
        · simp [hother, Reaction.perform, run_process_disconnect]
      | none =>
        simp only [Program.run_bind, Program.run_lift, users_table_add, run_users_table_add_user]
        cases hinit : user_init (requested.cut 8) client_fd with
        | none => simp [Reaction.perform]
        | some user =>
          obtain ⟨hname, _, _⟩ := user_init_eq_some_iff.mp hinit
          rw [← hname] at htaken ⊢
          simp only [run_users_table_update, List.not_mem_nil, if_false, UsersTablePtr.read_server_users, htaken,
            Option.isNone_none, if_true, id_eq, UsersTablePtr.modify_server_users, Program.run_bind,
            Program.run_lift, run_strdup_some, run_server_send, response_fold, Reaction.perform, send_or_depart,
            announce, Server.register]
          cases net trace client_fd (response (.lit "IDENTIFY") (.lit "SUCCESS") user.username) with
          | true => simp [run_notify_users]
          | false => simp [run_process_disconnect]

/-- The visitor of a status change. -/
theorem run_room_update_status (alloc : Nat → Bool) (user : User) (status : UserStatus) (room : RoomPtr)
    (hroom : room ∈ server.rooms) :
    (room_update_status user status room).run ⟨server, [.rooms], trace, alloc⟩ =
      .ok () ⟨server.adjust_room room (Room.update_status user.socket_fd status), [.rooms], trace, alloc⟩ := by
  obtain ⟨found, hfound⟩ := HashTable.exists_lookup_of_mem hroom
  simp [room_update_status, users_table_change_status_by_client_fd, hfound, Server.adjust_room_adjust_room]
  rfl

/-- USERS is answered with the list of all users. -/
theorem run_process_users (user : User) (hfd : user.socket_fd = client_fd) :
    (process_users net client_fd).run (.idle server trace) =
      (Reaction.reply user.socket_fd (user_list_message server.users)).perform net client_fd server trace := by
  subst hfd
  simp [process_users, users_table_iterate, run_send_or_disconnect, Reaction.perform, send_or_depart]

/-- The invited users are looked up one after the other. -/
theorem run_find_invited_users (alloc : Nat → Bool) (usernames : List CString) :
    (find_invited_users usernames).run ⟨server, [], trace, alloc⟩ =
      .ok (invited_records server usernames) ⟨server, [], trace, alloc⟩ := by
  induction usernames with
  | nil => rfl
  | cons username rest ih =>
    cases hfind : server.users.find_by_username username with
    | none => simp [find_invited_users, users_table_find_by_username, invited_records, hfind]
    | some found => simp [find_invited_users, users_table_find_by_username, invited_records, hfind, ih]

/-- The second loop of INVITE, with the value that the handler returns after it. -/
theorem run_invite_users (roomname : CString) (invitation : Message) (invited_users : List User) :
    (do
      let left ← invite_users net roomname invitation invited_users
      return left.getD true : Handler Bool).run (.idle server trace) =
      invite_all net roomname invitation invited_users server trace := by
  simp only [Program.run_bind]
  induction invited_users generalizing server trace with
  | nil => rfl
  | cons invited rest ih =>
    have hcontext := run_with_room_is_a_member server trace roomname allocating
      { user := invited, is_in_room := false, is_empty_now := false }
    simp only [Bool.false_or] at hcontext
    simp only [invite_users, Program.run_bind, Program.run_lift, hcontext, run_with_room_is_a_guest,
      ← Server.in_room_eq, invite_all]
    cases hinside : server.in_room roomname invited with
    | true => simp
    | false =>
      simp only [Bool.false_eq_true, if_false, Program.run_bind, Program.run_lift, run_with_room_add_to_guests,
        run_server_send, send_or_depart]
      cases net trace invited.socket_fd invitation with
      | true => exact ih _ _
      | false => simp [run_process_disconnect]

section Registered

variable (user : User) (hfound : server.users.find_by_client_fd client_fd = some user)
include hfound

/-- PUBLIC_TEXT reacts as it should. -/
theorem run_process_public_text :
    (process_public_text net msg_in client_fd).run (.idle server trace) =
      (public_text_reaction user msg_in).perform net client_fd server trace := by
  cases htext : msg_in.text with
  | none =>
    simp [process_public_text, public_text_reaction, users_table_find_by_client_fd, hfound, htext, Reaction.perform]
  | some text =>
    simp [process_public_text, public_text_reaction, users_table_find_by_client_fd, hfound, htext, Reaction.perform,
      announce, run_notify_users]

variable (hfd : user.socket_fd = client_fd)
include hfd

/-- STATUS reacts as it should. -/
theorem run_process_status :
    (process_status net msg_in client_fd).run (.idle server trace) =
      (status_reaction user msg_in).perform net client_fd server trace := by
  cases hstatus : msg_in.status with
  | none => simp [process_status, status_reaction, hstatus, Reaction.perform]
  | some text =>
    simp only [process_status, status_reaction, hstatus, Option.isNone_some, Bool.false_eq_true, if_false,
      Program.run_bind, Program.run_lift, run_strdup_some]
    cases user_status_from_string (some text) with
    | none => simp [Reaction.perform, run_send_invalid_and_disconnect]
    | some status =>
      by_cases hsame : user.status = status
      · simp [users_table_find_by_client_fd, hfound, hsame, Reaction.perform]
      · have hvisit := fun (server : Server) => run_room_table_for_each server trace allocating
          (room_update_status user status) (Room.update_status user.socket_fd status)
          fun server room => run_room_update_status server trace allocating user status room
        simp [users_table_find_by_client_fd, users_table_change_status_by_client_fd, hfound, hsame, hvisit,
          Reaction.perform, announce, run_notify_users, hfd, Server.set_status]
        rfl

/-- TEXT reacts as it should. -/
theorem run_process_text :
    (process_text net msg_in client_fd).run (.idle server trace) =
      (text_reaction server user msg_in).perform net client_fd server trace := by
  cases husername : msg_in.username with
  | none => simp [process_text, text_reaction, husername, users_table_find_by_username, Reaction.perform]
  | some username =>
    cases haddressee : server.users.find_by_username username with
    | none =>
      simp [process_text, text_reaction, husername, users_table_find_by_username, haddressee,
        run_send_or_disconnect, Reaction.perform, send_or_depart, hfd]
    | some user_to =>
      by_cases hsame : user.username = user_to.username
      · simp [process_text, text_reaction, husername, users_table_find_by_username, haddressee,
          users_table_find_by_client_fd, hfound, hsame, Reaction.perform]
      · cases htext : msg_in.text with
        | none =>
          simp [process_text, text_reaction, husername, users_table_find_by_username, haddressee,
            users_table_find_by_client_fd, hfound, hsame, htext, Reaction.perform]
        | some text =>
          simp [process_text, text_reaction, husername, users_table_find_by_username, haddressee,
            users_table_find_by_client_fd, hfound, hsame, htext, run_send_or_disconnect, Reaction.perform,
            send_or_depart]

/-- NEW_ROOM reacts as it should. -/
theorem run_process_new_room :
    (process_new_room net msg_in client_fd).run (.idle server trace) =
      (new_room_reaction server user msg_in).perform net client_fd server trace := by
  cases hroomname : msg_in.roomname with
  | none => simp [process_new_room, new_room_reaction, hroomname, Reaction.perform]
  | some requested =>
    cases hexists : server.rooms.lookup requested with
    | some room =>
      simp [process_new_room, new_room_reaction, hroomname, hexists, run_send_or_disconnect, Reaction.perform,
        send_or_depart, hfd]
    | none =>
      cases hcut : server.rooms.lookup (requested.cut 16) with
      | some room =>
        simp [process_new_room, new_room_reaction, hroomname, hexists, hcut, run_room_table_add, Reaction.perform]
      | none =>
        by_cases hnamed : 0 < strlen (requested.cut 16) ∧ strlen (requested.cut 16) ≤ ROOM_ROOMNAME_MAX_LENGTH
        · have hcreated := adjust_room_insert server (room_new (requested.cut 16) hnamed) user
          simp only [room_new_roomname] at hcreated
          simp [process_new_room, new_room_reaction, hroomname, hexists, hcut, run_room_table_add, Reaction.perform,
            send_or_depart, hnamed, users_table_find_by_client_fd, hfound, run_with_room_add_creator,
            hcreated, run_send_or_disconnect]
          rfl
        · simp [process_new_room, new_room_reaction, hroomname, hexists, hcut, run_room_table_add, Reaction.perform,
            hnamed]

/-- INVITE reacts as it should. -/
theorem run_process_invite :
    (process_invite net msg_in client_fd).run (.idle server trace) =
      (invite_reaction server user msg_in).perform net client_fd server trace := by
  subst hfd
  cases hroomname : msg_in.roomname with
  | none => simp [process_invite, invite_reaction, hroomname, Reaction.perform]
  | some roomname =>
    cases husernames : msg_in.usernames with
    | none => simp [process_invite, invite_reaction, hroomname, husernames, Reaction.perform]
    | some usernames =>
      cases hroom : server.rooms.lookup roomname with
      | none =>
        simp [process_invite, invite_reaction, hroomname, husernames, hroom, run_send_or_disconnect, Reaction.perform,
          send_or_depart]
      | some room =>
        cases hmember : room.members.contains_by_client_fd user.socket_fd with
        | false =>
          simp [process_invite, invite_reaction, hroomname, husernames, hroom, users_table_find_by_client_fd, hfound,
            run_with_room_is_a_member, hmember, run_send_invalid_and_disconnect, Reaction.perform]
        | true =>
          cases hinvited : invited_records server usernames with
          | error missing =>
            simp [process_invite, invite_reaction, hroomname, husernames, hroom, users_table_find_by_client_fd, hfound,
              run_with_room_is_a_member, hmember, run_find_invited_users, hinvited, run_send_or_disconnect,
              Reaction.perform, send_or_depart]
          | ok invited_users =>
            have hinvite := run_invite_users net server trace roomname (invitation_notice user.username roomname)
              invited_users
            simp only [Program.run_bind, Program.run_pure] at hinvite
            simp [process_invite, invite_reaction, hroomname, husernames, hroom, users_table_find_by_client_fd, hfound,
              run_with_room_is_a_member, hmember, run_find_invited_users, hinvited, Reaction.perform, hinvite]

/-- ROOM_USERS reacts as it should. -/
theorem run_process_room_users :
    (process_room_users net msg_in client_fd).run (.idle server trace) =
      (room_users_reaction server user msg_in).perform net client_fd server trace := by
  subst hfd
  cases hroomname : msg_in.roomname with
  | none => simp [process_room_users, room_users_reaction, room_reaction, hroomname, Reaction.perform]
  | some roomname =>
    cases hroom : server.rooms.lookup roomname with
    | none =>
      simp [process_room_users, room_users_reaction, room_reaction, hroomname, hroom, run_send_or_disconnect,
        Reaction.perform, send_or_depart]
    | some room =>
      cases hmember : room.members.contains_by_client_fd user.socket_fd with
      | false =>
        simp [process_room_users, room_users_reaction, room_reaction, hroomname, hroom, users_table_find_by_client_fd,
          hfound, run_with_room_is_a_member, hmember, run_send_or_disconnect, Reaction.perform, send_or_depart]
      | true =>
        simp [process_room_users, room_users_reaction, room_reaction, hroomname, hroom, users_table_find_by_client_fd,
          hfound, run_with_room_is_a_member, hmember, run_with_room_users server trace roomname allocating room hroom,
          run_send_or_disconnect, Reaction.perform, send_or_depart]

/-- LEAVE_ROOM reacts as it should. -/
theorem run_process_leave_room (hserver : server.Consistent) :
    (process_leave_room net msg_in client_fd).run (.idle server trace) =
      (leave_room_reaction server user msg_in).perform net client_fd server trace := by
  subst hfd
  cases hroomname : msg_in.roomname with
  | none => simp [process_leave_room, leave_room_reaction, room_reaction, hroomname, Reaction.perform]
  | some roomname =>
    cases hroom : server.rooms.lookup roomname with
    | none =>
      simp [process_leave_room, leave_room_reaction, room_reaction, hroomname, hroom, run_send_or_disconnect,
        Reaction.perform, send_or_depart]
    | some room =>
      cases hmember : room.members.contains_by_client_fd user.socket_fd with
      | false =>
        simp [process_leave_room, leave_room_reaction, room_reaction, hroomname, hroom, users_table_find_by_client_fd,
          hfound, run_with_room_is_a_member, hmember, run_send_or_disconnect, Reaction.perform, send_or_depart]
      | true =>
        have htold := run_told _ trace roomname (hserver.quit roomname user) net
          (left_room_notice roomname user.username) user.socket_fd
        simp only [Program.run_bind, Program.run_lift, Program.run_pure,
          Server.quit_of_lookup server roomname user room hroom] at htold
        simp only [leave_room_reaction, room_reaction, hroomname, hroom, hmember, if_true, Reaction.perform,
          Server.quit_of_lookup server roomname user room hroom]
        by_cases hempty : (room.members.remove user.username).entries.length = 0
        · rw [if_pos hempty] at htold ⊢
          simp [process_leave_room, hroomname, users_table_find_by_client_fd, hfound, hroom,
            run_with_room_is_a_member, hmember, run_with_room_leave server trace roomname allocating room hroom, hempty]
          exact htold
        · rw [if_neg hempty] at htold ⊢
          simp [process_leave_room, hroomname, users_table_find_by_client_fd, hfound, hroom,
            run_with_room_is_a_member, hmember, run_with_room_leave server trace roomname allocating room hroom, hempty]
          exact htold

/-- ROOM_TEXT reacts as it should. -/
theorem run_process_room_text (hserver : server.Consistent) :
    (process_room_text net msg_in client_fd).run (.idle server trace) =
      (room_text_reaction server user msg_in).perform net client_fd server trace := by
  subst hfd
  cases htext : msg_in.text with
  | none =>
    cases hroomname : msg_in.roomname <;>
      simp [process_room_text, room_text_reaction, htext, hroomname, Reaction.perform]
  | some text =>
    cases hroomname : msg_in.roomname with
    | none => simp [process_room_text, room_text_reaction, room_reaction, htext, hroomname, Reaction.perform]
    | some roomname =>
      cases hroom : server.rooms.lookup roomname with
      | none =>
        simp [process_room_text, room_text_reaction, room_reaction, htext, hroomname, hroom, run_send_or_disconnect,
          Reaction.perform, send_or_depart]
      | some room =>
        cases hmember : room.members.contains_by_client_fd user.socket_fd with
        | false =>
          simp [process_room_text, room_text_reaction, room_reaction, htext, hroomname, hroom,
            users_table_find_by_client_fd, hfound, run_with_room_is_a_member, hmember, run_send_or_disconnect,
            Reaction.perform, send_or_depart]
        | true =>
          have htold := run_told server trace roomname hserver net
            (room_text_from_notice roomname user.username text) user.socket_fd
          simp only [Program.run_bind, Program.run_lift, Program.run_pure] at htold
          simp [process_room_text, room_text_reaction, room_reaction, htext, hroomname, hroom,
            users_table_find_by_client_fd, hfound, run_with_room_is_a_member, hmember, Reaction.perform, htold]

/-- JOIN_ROOM reacts as it should. -/
theorem run_process_join_room (hserver : server.Consistent) :
    (process_join_room net msg_in client_fd).run (.idle server trace) =
      (join_room_reaction server user msg_in).perform net client_fd server trace := by
  subst hfd
  cases hroomname : msg_in.roomname with
  | none => simp [process_join_room, join_room_reaction, room_reaction, hroomname, Reaction.perform]
  | some roomname =>
    cases hroom : server.rooms.lookup roomname with
    | none =>
      simp [process_join_room, join_room_reaction, room_reaction, hroomname, hroom, run_send_or_disconnect,
        Reaction.perform, send_or_depart]
    | some room =>
      cases hmember : room.members.contains_by_client_fd user.socket_fd with
      | true =>
        simp [process_join_room, join_room_reaction, room_reaction, hroomname, hroom, users_table_find_by_client_fd,
          hfound, run_with_room_is_a_member, hmember, Reaction.perform]
      | false =>
        cases hguest : room.guests.contains_by_client_fd user.socket_fd with
        | false =>
          simp [process_join_room, join_room_reaction, room_reaction, hroomname, hroom, users_table_find_by_client_fd,
            hfound, run_with_room_is_a_member, run_with_room_is_a_guest, hmember, hguest, run_send_or_disconnect,
            Reaction.perform, send_or_depart]
        | true =>
          have huser := (hserver.users.find_by_client_fd_iff.mp hfound).1
          have hadmitted : (server.let_in roomname user).Consistent := by
            refine hserver.let_in huser fun other hother => ?_
            rw [hroom] at hother
            cases hother
            exact hmember
          have htold := fun trace => run_told _ trace roomname hadmitted net
            (joined_room_notice roomname user.username) user.socket_fd
          simp only [Program.run_bind, Program.run_lift, Program.run_pure] at htold
          simp only [join_room_reaction, room_reaction, hroomname, hroom, hmember, hguest, Bool.false_eq_true,
            if_false, if_true, Reaction.perform, send_or_depart, ← htold]
          simp [process_join_room, hroomname, hroom, users_table_find_by_client_fd, hfound, run_with_room_is_a_member,
            run_with_room_is_a_guest, hmember, hguest, run_with_room_from_guest_to_member]
          cases net trace user.socket_fd (response (.lit "JOIN_ROOM") (.lit "SUCCESS") roomname) with
          | true => simp
          | false => simp [run_process_disconnect]

end Registered

/-- On an idle server with consistent tables, processing a request is
performing the reaction to it. -/
theorem run_message_handler_process (hserver : server.Consistent) :
    (message_handler_process net msg_in client_fd).run (.idle server trace) =
      (reaction server client_fd msg_in).perform net client_fd server trace := by
  by_cases hunknown : msg_in.type = .UNKNOWN
  · simp [message_handler_process, reaction, hunknown, Reaction.perform]
  by_cases hdisconnect : msg_in.type = .DISCONNECT
  · simp [message_handler_process, reaction, hdisconnect, Reaction.perform, run_process_disconnect]
  by_cases hidentify : msg_in.type = .IDENTIFY
  · simp [message_handler_process, reaction, hidentify, run_process_identify]
  have hcontains := hserver.users.contains_by_client_fd_eq client_fd
  cases hfound : server.users.find_by_client_fd client_fd with
  | none =>
    simp [message_handler_process, reaction, hunknown, hdisconnect, hidentify, users_table_contains_by_client_fd,
      hcontains, hfound, Reaction.perform, run_process_disconnect]
    rfl
  | some user =>
    have hfd := (hserver.users.find_by_client_fd_iff.mp hfound).2
    simp only [message_handler_process, if_neg hunknown, if_neg hdisconnect, if_neg hidentify, Program.run_bind,
      Program.run_lift, users_table_contains_by_client_fd, run_users_table_query, List.not_mem_nil, if_false,
      UsersTablePtr.read_server_users, hcontains, hfound, Option.isSome_some, Bool.not_true,
      Bool.false_eq_true, reaction, registered_reaction]
    cases htype : msg_in.type
    case STATUS => exact run_process_status net server trace client_fd msg_in user hfound hfd
    case USERS => exact run_process_users net server trace client_fd user hfd
    case TEXT => exact run_process_text net server trace client_fd msg_in user hfound hfd
    case PUBLIC_TEXT => exact run_process_public_text net server trace client_fd msg_in user hfound
    case NEW_ROOM => exact run_process_new_room net server trace client_fd msg_in user hfound hfd
    case INVITE => exact run_process_invite net server trace client_fd msg_in user hfound hfd
    case JOIN_ROOM => exact run_process_join_room net server trace client_fd msg_in user hfound hfd hserver
    case ROOM_USERS => exact run_process_room_users net server trace client_fd msg_in user hfound hfd
    case ROOM_TEXT => exact run_process_room_text net server trace client_fd msg_in user hfound hfd hserver
    case LEAVE_ROOM => exact run_process_leave_room net server trace client_fd msg_in user hfound hfd hserver
    all_goals rfl

end Handlers

end ojalvo
