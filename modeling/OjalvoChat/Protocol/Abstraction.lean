import OjalvoChat.Protocol.Chat
import OjalvoChat.Protocol.Delivery
import OjalvoChat.Protocol.Presence

namespace ojalvo

/-- The clients with a record in a table. -/
def UsersTable.sockets (contents : UsersTable) : Set Fd := { fd | ∃ user ∈ contents, user.socket_fd = fd }

def User.profile (user : User) : CString × UserStatus := (user.username, user.status)

def Room.hall (room : Room) : Hall Fd where
  members := room.members.sockets
  guests := room.guests.sockets

/-- What the tables of the server mean. -/
def Server.chat (server : Server) : Chat Fd CString CString UserStatus where
  profile fd := (server.users.find_by_client_fd fd).map User.profile
  hall roomname := (server.rooms.lookup roomname).map Room.hall

section Sockets

variable {contents users : UsersTable} {user : User}

theorem UsersTable.sockets_init : users_table_init.sockets = ∅ :=
  Set.eq_empty_of_forall_notMem fun _ hmem => by
    obtain ⟨user, huser, -⟩ := hmem
    exact not_mem_init user huser

namespace UsersTable.Indexed

variable (hindexed : contents.Indexed)
include hindexed

/-- The descriptors of a table are those that it contains. -/
theorem mem_sockets_iff {fd : Fd} : fd ∈ contents.sockets ↔ contents.contains_by_client_fd fd = true :=
  hindexed.contains_by_client_fd_iff.symm

/-- A broadcast goes to all descriptors but one. -/
theorem mem_recipients_iff {client_fd fd : Fd} :
    fd ∈ recipients contents.entries client_fd ↔ fd ≠ client_fd ∧ fd ∈ contents.sockets := by
  rw [mem_recipients]
  exact and_congr_right fun _ => exists_congr fun user => and_congr_left fun _ => hindexed.mem_entries

theorem sockets_add (hname : ∀ other ∈ contents, other.username ≠ user.username) :
    (contents.add user).sockets = insert user.socket_fd contents.sockets := by
  ext fd
  constructor
  · rintro ⟨other, hother, rfl⟩
    rcases (mem_add hindexed hname).mp hother with rfl | hold
    · exact Set.mem_insert _ _
    · exact Set.mem_insert_of_mem _ ⟨other, hold, rfl⟩
  · rintro (rfl | ⟨other, hother, rfl⟩)
    · exact ⟨user, (mem_add hindexed hname).mpr (Or.inl rfl), rfl⟩
    · exact ⟨other, (mem_add hindexed hname).mpr (Or.inr hother), rfl⟩

theorem sockets_change_status (client_fd : Fd) (status : UserStatus) :
    (contents.change_status_by_client_fd client_fd status).sockets = contents.sockets := by
  have hkept : ∀ old : User,
      (if old.socket_fd = client_fd then { old with status := status } else old).socket_fd = old.socket_fd := by
    intro old
    split <;> rfl
  ext fd
  constructor
  · rintro ⟨other, hother, rfl⟩
    obtain ⟨old, hold, rfl⟩ := (mem_change_status_by_client_fd hindexed).mp hother
    exact ⟨old, hold, (hkept old).symm⟩
  · rintro ⟨old, hold, rfl⟩
    exact ⟨_, (mem_change_status_by_client_fd hindexed).mpr ⟨old, hold, rfl⟩, hkept old⟩

end UsersTable.Indexed

/-- A table of copies without a user, who may have had none. -/
theorem UsersTable.sockets_remove (hcopies : ∀ other ∈ contents, other ∈ users) (hindexed : users.Indexed)
    (huser : user ∈ users) : (contents.remove user.username).sockets = contents.sockets \ {user.socket_fd} := by
  ext fd
  constructor
  · rintro ⟨other, hother, rfl⟩
    obtain ⟨hold, hname⟩ := mem_remove.mp hother
    refine ⟨⟨other, hold, rfl⟩, fun hsame => hname ?_⟩
    rw [hindexed.eq_of_socket_fd_eq (hcopies other hold) huser hsame]
  · rintro ⟨⟨other, hother, rfl⟩, hdifferent⟩
    refine ⟨other, mem_remove.mpr ⟨hother, fun hname => hdifferent ?_⟩, rfl⟩
    rw [eq_of_username_eq (hcopies other hother) huser hname]
    rfl

end Sockets

section Profiles

variable {server : Server} {user : User}

/-- The empty server stands for the empty chat. -/
theorem chat_init : server_init.chat = .empty := rfl

theorem hall_chat (server : Server) (roomname : CString) :
    server.chat.hall roomname = (server.rooms.lookup roomname).map Room.hall := rfl

namespace Server.Consistent

variable (hserver : server.Consistent)
include hserver

/-- Whoever has a profile in the chat is registered with it. -/
theorem profile_eq_some_iff {fd : Fd} {entry : CString × UserStatus} :
    server.chat.profile fd = some entry ↔ ∃ user ∈ server.users, user.socket_fd = fd ∧ user.profile = entry := by
  simp only [Server.chat, Option.map_eq_some_iff, hserver.users.find_by_client_fd_iff, and_assoc]

theorem profile_of_mem (huser : user ∈ server.users) : server.chat.profile user.socket_fd = some user.profile :=
  hserver.profile_eq_some_iff.mpr ⟨user, huser, rfl, rfl⟩

/-- Known under a name is who is registered under it. -/
theorem known_iff {fd : Fd} {username : CString} :
    server.chat.Known fd username ↔ ∃ user ∈ server.users, user.username = username ∧ user.socket_fd = fd := by
  simp only [Chat.Known, hserver.profile_eq_some_iff]
  constructor
  · rintro ⟨status, user, huser, hfd, hprofile⟩
    exact ⟨user, huser, congrArg Prod.fst hprofile, hfd⟩
  · rintro ⟨user, huser, rfl, hfd⟩
    exact ⟨user.status, user, huser, hfd, rfl⟩

theorem known_iff_of_mem {fd : Fd} (huser : user ∈ server.users) :
    server.chat.Known fd user.username ↔ fd = user.socket_fd := by
  rw [hserver.known_iff]
  constructor
  · rintro ⟨other, hother, hname, rfl⟩
    rw [UsersTable.eq_of_username_eq hother huser hname]
  · rintro rfl
    exact ⟨user, huser, rfl, rfl⟩

/-- A name is taken if a user is found under it. -/
theorem taken_iff {username : CString} :
    server.chat.Taken username ↔ ∃ user, server.users.find_by_username username = some user := by
  simp only [Chat.Taken, hserver.known_iff, hserver.users.find_by_username_iff]
  constructor
  · rintro ⟨fd, user, huser, hname, -⟩
    exact ⟨user, huser, hname⟩
  · rintro ⟨user, huser, hname⟩
    exact ⟨user.socket_fd, user, huser, hname, rfl⟩

/-- The users of the chat are the registered descriptors. -/
theorem chat_users : server.chat.users = server.users.sockets := by
  ext fd
  rw [Chat.users, Set.mem_ofPred_eq, Option.ne_none_iff_exists']
  simp only [hserver.profile_eq_some_iff]
  constructor
  · rintro ⟨entry, user, huser, hfd, -⟩
    exact ⟨user, huser, hfd⟩
  · rintro ⟨user, huser, hfd⟩
    exact ⟨user.profile, user, huser, hfd, rfl⟩

/-- What a list of the users of a table shows. -/
theorem profiles_sockets {contents : UsersTable} (hcontents : contents.Indexed)
    (hcopies : ∀ other ∈ contents, other ∈ server.users) :
    server.chat.profiles contents.sockets = { entry | entry ∈ contents.entries.map User.profile } := by
  ext entry
  simp only [Chat.profiles, Set.mem_ofPred_eq, List.mem_map, hcontents.mem_entries]
  constructor
  · rintro ⟨fd, ⟨other, hother, rfl⟩, hprofile⟩
    rw [hserver.profile_of_mem (hcopies other hother)] at hprofile
    exact ⟨other, hother, Option.some.inj hprofile⟩
  · rintro ⟨other, hother, rfl⟩
    exact ⟨other.socket_fd, ⟨other, hother, rfl⟩, hserver.profile_of_mem (hcopies other hother)⟩

theorem profiles_univ :
    server.chat.profiles Set.univ = { entry | entry ∈ server.users.entries.map User.profile } := by
  rw [← hserver.profiles_sockets hserver.users fun _ hmem => hmem]
  ext entry
  constructor
  · rintro ⟨fd, -, hprofile⟩
    obtain ⟨user, huser, hfd, -⟩ := hserver.profile_eq_some_iff.mp hprofile
    exact ⟨fd, ⟨user, huser, hfd⟩, hprofile⟩
  · rintro ⟨fd, -, hprofile⟩
    exact ⟨fd, Set.mem_univ fd, hprofile⟩

end Server.Consistent

end Profiles

section Operations

variable {server : Server} {user : User} {roomname : CString} {room : Room}

/-- A client without a record is in no room. -/
theorem Server.Consistent.sockets_subset (hserver : server.Consistent)
    (hroom : server.rooms.lookup roomname = some room) :
    room.members.sockets ⊆ server.users.sockets ∧ room.guests.sockets ⊆ server.users.sockets := by
  have hcopies := hserver.rooms roomname room hroom
  constructor
  · rintro fd ⟨other, hother, hfd⟩
    exact ⟨other, hcopies.members_users other hother, hfd⟩
  · rintro fd ⟨other, hother, hfd⟩
    exact ⟨other, hcopies.guests_users other hother, hfd⟩

/-- One room is changed in place. -/
theorem chat_adjust_room (server : Server) (hroom : server.rooms.lookup roomname = some room) (change : Room → Room) :
    (server.adjust_room roomname change).chat = server.chat.set_hall roomname (some (change room).hall) := by
  refine Chat.ext rfl (funext fun place => ?_)
  have hlookup : (server.adjust_room roomname change).rooms.lookup place =
      (server.rooms.lookup place).map fun room => if place = roomname then change room else room :=
    HashTable.lookup_adjust roomname place change server.rooms
  by_cases hsame : place = roomname
  · subst hsame
    rw [Chat.hall_set_hall, hall_chat, hlookup, hroom, Option.map_some, Option.map_some, if_pos rfl]
  · rw [Chat.hall_set_hall_of_ne _ hsame]
    simp only [hall_chat, hlookup, if_neg hsame, Option.map_id']

namespace Server.Consistent

variable (hserver : server.Consistent)
include hserver

/-- A registration gives a profile to a new client. -/
theorem chat_register (hname : server.users.find_by_username user.username = none)
    (hfd : server.users.find_by_client_fd user.socket_fd = none) :
    (server.register user).chat = server.chat.set_profile user.socket_fd user.username user.status := by
  have hadded : ∀ other, other ∈ (server.register user).users ↔ other = user ∨ other ∈ server.users := fun other =>
    UsersTable.mem_add hserver.users (hserver.users.find_by_username_eq_none_iff.mp hname)
  refine Chat.ext (funext fun fd => Option.ext fun entry => ?_) rfl
  rw [(hserver.register hname hfd).profile_eq_some_iff]
  by_cases hself : fd = user.socket_fd
  · subst hself
    rw [Chat.profile_set_profile, Option.some.injEq]
    constructor
    · rintro ⟨other, hother, hsame, rfl⟩
      rcases (hadded other).mp hother with rfl | hold
      · rfl
      · exact absurd hsame (hserver.users.find_by_client_fd_eq_none_iff.mp hfd other hold)
    · rintro rfl
      exact ⟨user, (hadded _).mpr (Or.inl rfl), rfl, rfl⟩
  · rw [Chat.profile_set_profile_of_ne _ hself, hserver.profile_eq_some_iff]
    refine exists_congr fun other => ?_
    constructor
    · rintro ⟨hother, rfl, rfl⟩
      rcases (hadded other).mp hother with rfl | hold
      · exact absurd rfl hself
      · exact ⟨hold, rfl, rfl⟩
    · rintro ⟨hold, hother⟩
      exact ⟨(hadded _).mpr (Or.inr hold), hother⟩

/-- A new status is a new profile under the same name. -/
theorem chat_set_status (huser : user ∈ server.users) (status : UserStatus) :
    (server.set_status user.socket_fd status).chat = server.chat.set_profile user.socket_fd user.username status := by
  refine Chat.ext (funext fun fd => Option.ext fun entry => ?_) (funext fun place => ?_)
  · rw [(hserver.set_status user.socket_fd status).profile_eq_some_iff]
    have hchanged : ∀ other, other ∈ (server.set_status user.socket_fd status).users ↔ ∃ old ∈ server.users,
        other = if old.socket_fd = user.socket_fd then { old with status := status } else old := fun other =>
      UsersTable.mem_change_status_by_client_fd hserver.users
    by_cases hself : fd = user.socket_fd
    · subst hself
      rw [Chat.profile_set_profile, Option.some.injEq]
      constructor
      · rintro ⟨other, hother, hfd, rfl⟩
        obtain ⟨old, hold, rfl⟩ := (hchanged other).mp hother
        by_cases hown : old.socket_fd = user.socket_fd
        · rw [if_pos hown, User.profile, hserver.users.eq_of_socket_fd_eq hold huser hown]
        · rw [if_neg hown] at hfd
          exact absurd hfd hown
      · rintro rfl
        exact ⟨{ user with status }, (hchanged _).mpr ⟨user, huser, by rw [if_pos rfl]⟩, rfl, rfl⟩
    · rw [Chat.profile_set_profile_of_ne _ hself, hserver.profile_eq_some_iff]
      constructor
      · rintro ⟨other, hother, hfd, rfl⟩
        obtain ⟨old, hold, rfl⟩ := (hchanged other).mp hother
        by_cases hown : old.socket_fd = user.socket_fd
        · rw [if_pos hown] at hfd
          exact absurd (hfd.symm.trans hown) hself
        · rw [if_neg hown] at hfd ⊢
          exact ⟨old, hold, hfd, rfl⟩
      · rintro ⟨old, hold, hfd, rfl⟩
        exact ⟨old, (hchanged old).mpr ⟨old, hold, by rw [if_neg (hfd ▸ hself)]⟩, hfd, rfl⟩
  · have hlookup : (server.set_status user.socket_fd status).rooms.lookup place =
        (server.rooms.lookup place).map (Room.update_status user.socket_fd status) :=
      HashTable.lookup_mapEntries _ server.rooms place
    simp only [Server.chat, Chat.set_profile, hlookup]
    cases hroom : server.rooms.lookup place with
    | none => rfl
    | some room =>
      have hcopies := hserver.rooms place room hroom
      simp only [Option.map_some, Room.hall, Room.update_status, hcopies.members.sockets_change_status,
        hcopies.guests.sockets_change_status]

/-- Who is forgotten by the server is gone from the chat. -/
theorem chat_forget (huser : user ∈ server.users) :
    (server.forget user.username).chat = server.chat.without user.socket_fd := by
  refine Chat.ext (funext fun fd => Option.ext fun entry => ?_) (funext fun place => ?_)
  · rw [(hserver.forget user.username).profile_eq_some_iff]
    have hleft : ∀ other, other ∈ (server.forget user.username).users ↔
        other ∈ server.users ∧ other.username ≠ user.username := fun other => UsersTable.mem_remove
    by_cases hself : fd = user.socket_fd
    · subst hself
      rw [Chat.profile_without]
      refine iff_of_false ?_ (Option.some_ne_none entry).symm
      rintro ⟨other, hother, hfd, -⟩
      obtain ⟨hold, hname⟩ := (hleft other).mp hother
      exact hname (by rw [hserver.users.eq_of_socket_fd_eq hold huser hfd])
    · rw [Chat.profile_without_of_ne _ hself, hserver.profile_eq_some_iff]
      refine exists_congr fun other => ?_
      rw [hleft, and_assoc]
      refine and_congr_right fun hother => and_iff_right_of_imp ?_
      rintro ⟨hfd, -⟩ hname
      exact hself (by rw [← hfd, UsersTable.eq_of_username_eq hother huser hname])
  · simp only [Server.chat, Chat.without, Server.lookup_forget]
    cases hroom : server.rooms.lookup place with
    | none => rfl
    | some room =>
      have hcopies := hserver.rooms place room hroom
      simp only [Option.map_some, Room.hall, Room.forget,
        UsersTable.sockets_remove hcopies.members_users hserver.users huser,
        UsersTable.sockets_remove hcopies.guests_users hserver.users huser]

/-- Nothing goes with a client whom nobody knows. -/
theorem without_unknown {fd : Fd} (hunknown : server.users.find_by_client_fd fd = none) :
    server.chat.without fd = server.chat := by
  have hnobody : fd ∉ server.users.sockets := by
    rintro ⟨user, huser, hfd⟩
    exact hserver.users.find_by_client_fd_eq_none_iff.mp hunknown user huser hfd
  refine Chat.without_eq_self _ (by simp only [Server.chat, hunknown, Option.map_none]) fun place hall hhall => ?_
  obtain ⟨room, hroom, rfl⟩ := Option.map_eq_some_iff.mp hhall
  obtain ⟨hmembers, hguests⟩ := hserver.sockets_subset hroom
  exact ⟨fun hmem => hnobody (hmembers hmem), fun hmem => hnobody (hguests hmem)⟩

omit hserver in
/-- A new room is a hall with one member. -/
theorem chat_create_room {server : Server} (named : 0 < strlen roomname ∧ strlen roomname ≤ ROOM_ROOMNAME_MAX_LENGTH) :
    (server.create_room (room_new roomname named) user).chat =
      server.chat.set_hall roomname (some { members := {user.socket_fd}, guests := ∅ }) := by
  have hmembers : (users_table_init.add user).sockets = insert user.socket_fd ∅ := by
    rw [← UsersTable.sockets_init]
    exact UsersTable.indexed_init.sockets_add fun other hother => absurd hother (UsersTable.not_mem_init other)
  refine Chat.ext rfl (funext fun place => ?_)
  have hlookup : (server.create_room (room_new roomname named) user).rooms.lookup place =
      if place = roomname then some ((room_new roomname named).change_members fun members => members.add user)
      else server.rooms.lookup place := HashTable.lookup_insert_eq ..
  by_cases hsame : place = roomname
  · subst hsame
    rw [Chat.hall_set_hall, hall_chat, hlookup, if_pos rfl, Option.map_some]
    simp only [Room.hall, Room.change_members, room_new, hmembers, UsersTable.sockets_init, insert_empty_eq]
  · rw [Chat.hall_set_hall_of_ne _ hsame, hall_chat, hall_chat, hlookup, if_neg hsame]

variable (hroom : server.rooms.lookup roomname = some room) (huser : user ∈ server.users)
include hroom huser

/-- An invitation adds a guest to the hall. -/
theorem chat_add_guest (houtside : server.in_room roomname user = false) :
    (server.add_guest roomname user).chat =
      server.chat.set_hall roomname (some { room.hall with guests := insert user.socket_fd room.hall.guests }) := by
  have hcopies := hserver.rooms roomname room hroom
  simp only [Server.in_room, hroom, Bool.or_eq_false_iff] at houtside
  rw [Server.add_guest, chat_adjust_room server hroom]
  simp only [Room.hall, Room.change_guests, hcopies.guests.sockets_add (hcopies.guests_fresh huser houtside.2).1]

/-- Who joins goes from the guests of the hall to its members. -/
theorem chat_let_in (houtside : room.members.contains_by_client_fd user.socket_fd = false) :
    (server.let_in roomname user).chat = server.chat.set_hall roomname (some
      { members := insert user.socket_fd room.hall.members, guests := room.hall.guests \ {user.socket_fd} }) := by
  have hcopies := hserver.rooms roomname room hroom
  rw [Server.let_in, chat_adjust_room server hroom]
  simp only [Room.hall, Room.let_in, hcopies.members.sockets_add (hcopies.members_fresh huser houtside).1,
    UsersTable.sockets_remove hcopies.guests_users hserver.users huser]

/-- A room is gone with its last member. -/
theorem chat_quit : (server.quit roomname user).chat = server.chat.set_hall roomname
    (if room.hall.members \ {user.socket_fd} = ∅ then none
      else some { room.hall with members := room.hall.members \ {user.socket_fd} }) := by
  have hcopies := hserver.rooms roomname room hroom
  have hleft := UsersTable.sockets_remove hcopies.members_users hserver.users huser
  have hempty : (room.members.remove user.username).entries = [] ↔ room.hall.members \ {user.socket_fd} = ∅ := by
    rw [Room.hall, ← hleft, List.eq_nil_iff_forall_not_mem, Set.eq_empty_iff_forall_notMem]
    constructor
    · rintro hnone fd ⟨other, hother, -⟩
      exact hnone other (hcopies.members.remove.mem_entries.mpr hother)
    · intro hnone other hother
      exact hnone other.socket_fd ⟨other, hcopies.members.remove.mem_entries.mp hother, rfl⟩
  refine Chat.ext (by simp only [Server.chat, Server.users_quit, Chat.set_hall]) (funext fun place => ?_)
  have hadjusted : (server.adjust_room roomname
      (Room.change_members fun members => members.remove user.username)).rooms.lookup place = _ :=
    HashTable.lookup_adjust roomname place _ server.rooms
  by_cases hsame : place = roomname
  · subst hsame
    simp only [if_true, hroom, Option.map_some] at hadjusted
    rw [Chat.hall_set_hall, hall_chat, lookup_quit, hadjusted, Option.filter_some]
    by_cases hlast : room.hall.members \ {user.socket_fd} = ∅
    · have hnone : (room.members.remove user.username).entries = [] := hempty.mpr hlast
      simp [hlast, Room.change_members, hnone]
    · have hsome : (room.members.remove user.username).entries ≠ [] := mt hempty.mp hlast
      rw [if_neg hlast, if_pos (by simp [Room.change_members, hsome]), Option.map_some]
      simp only [Room.hall, Room.change_members, hleft]
  · simp only [if_neg hsame, Option.map_id'] at hadjusted
    rw [Chat.hall_set_hall_of_ne _ hsame, hall_chat, hall_chat, lookup_quit, hadjusted]
    cases server.rooms.lookup place with
    | none => rfl
    | some other => simp [hsame]

end Server.Consistent

end Operations

end ojalvo
