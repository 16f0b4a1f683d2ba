import OjalvoChat.Protocol.Runs
import OjalvoChat.UsersTable.Lists

namespace ojalvo

/-- A connection is registered under a name. -/
abbrev Server.Registered (server : Server) (fd : Fd) (username : CString) : Prop := server.users.Lists fd username

/-- A connection is listed in one of the tables of a room that exists. -/
def Server.Seats (server : Server) (table : Room → UsersTable) (roomname : CString) (fd : Fd) (username : CString) :
    Prop :=
  ∃ room, server.rooms.lookup roomname = some room ∧ (table room).Lists fd username

abbrev Server.Member (server : Server) (roomname : CString) (fd : Fd) (username : CString) : Prop :=
  server.Seats Room.members roomname fd username

abbrev Server.Guest (server : Server) (roomname : CString) (fd : Fd) (username : CString) : Prop :=
  server.Seats Room.guests roomname fd username

section Lists

variable {contents later : UsersTable} {fd : Fd} {username : CString}

/-- What is listed without some descriptors. -/
theorem UsersTable.Without.lists_iff {fds : List Fd} (hgone : contents.Without fds later) (hindexed : contents.Indexed)
    (hlater : later.Indexed) : later.Lists fd username ↔ contents.Lists fd username ∧ fd ∉ fds := by
  rw [hlater.lists_iff, hindexed.lists_iff]
  constructor
  · rintro ⟨user, hmem, hname, rfl⟩
    obtain ⟨hold, hstays⟩ := (hgone user).mp hmem
    exact ⟨⟨user, hold, hname, rfl⟩, hstays⟩
  · rintro ⟨⟨user, hmem, hname, rfl⟩, hstays⟩
    exact ⟨user, (hgone user).mpr ⟨hmem, hstays⟩, hname, rfl⟩

end Lists

section Rooms

variable {server : Server} {table : Room → UsersTable} {roomname : CString} {fd : Fd} {username : CString}
  {fds : List Fd}

/-- There are no rooms at first. -/
theorem not_seats_init : ¬ server_init.Seats table roomname fd username := by
  rintro ⟨room, hroom, -⟩
  simp [server_init] at hroom

/-- Only the room that changes seats anybody else. -/
theorem Server.seats_adjust_room {changed : CString} {change : Room → Room} :
    (server.adjust_room changed change).Seats table roomname fd username ↔
      ∃ room, server.rooms.lookup roomname = some room ∧
        (table (if roomname = changed then change room else room)).Lists fd username := by
  have hlookup : (server.adjust_room changed change).rooms.lookup roomname =
      (server.rooms.lookup roomname).map fun room => if roomname = changed then change room else room :=
    HashTable.lookup_adjust changed roomname change server.rooms
  rw [Server.Seats, hlookup]
  constructor
  · rintro ⟨room, hroom, hlists⟩
    obtain ⟨old, hold, rfl⟩ := Option.map_eq_some_iff.mp hroom
    exact ⟨old, hold, hlists⟩
  · rintro ⟨room, hroom, hlists⟩
    exact ⟨_, by rw [hroom]; rfl, hlists⟩

/-- A change that leaves a table of the room as it is does not matter to those
who are listed there. -/
theorem Server.seats_adjust_room_of_same {changed : CString} {change : Room → Room}
    (hsame : ∀ room, table (change room) = table room) :
    (server.adjust_room changed change).Seats table roomname fd username ↔ server.Seats table roomname fd username := by
  rw [Server.seats_adjust_room]
  refine exists_congr fun room => and_congr_right fun _ => ?_
  split
  · rw [hsame]
  · exact Iff.rfl

theorem Server.seats_evict_all (hserver : server.Consistent)
    (htable : ∀ {users : UsersTable} {room : Room}, room.Consistent users → (table room).Indexed)
    (hgone : ∀ {room left : Room}, room.Without fds left → (table room).Without fds (table left)) :
    (server.evict_all fds).Seats table roomname fd username ↔ server.Seats table roomname fd username ∧ fd ∉ fds := by
  have hwithout := hserver.without_evict_all fds
  have hlater := hserver.evict_all fds
  constructor
  · rintro ⟨left, hleft, hlists⟩
    obtain ⟨room, hroom, hroomgone⟩ := hwithout.same_rooms roomname left hleft
    obtain ⟨hold, hstays⟩ := ((hgone hroomgone).lists_iff (htable (hserver.rooms roomname room hroom))
      (htable (hlater.rooms roomname left hleft))).mp hlists
    exact ⟨⟨room, hroom, hold⟩, hstays⟩
  · rintro ⟨⟨room, hroom, hlists⟩, hstays⟩
    obtain ⟨left, hleft, hroomgone⟩ := hwithout.rooms roomname room hroom
    exact ⟨left, hleft, ((hgone hroomgone).lists_iff (htable (hserver.rooms roomname room hroom))
      (htable (hlater.rooms roomname left hleft))).mpr ⟨hlists, hstays⟩⟩

namespace Server.Consistent

variable (hserver : server.Consistent)
include hserver

/-- Registered are those who were and are not evicted. -/
theorem registered_evict_all :
    (server.evict_all fds).Registered fd username ↔ server.Registered fd username ∧ fd ∉ fds :=
  (hserver.without_evict_all fds).users.lists_iff hserver.users (hserver.evict_all fds).users

/-- Members are those who were and are not evicted. -/
theorem member_evict_all :
    (server.evict_all fds).Member roomname fd username ↔ server.Member roomname fd username ∧ fd ∉ fds :=
  Server.seats_evict_all hserver (fun hroom => hroom.members) fun hgone => hgone.members

/-- Guests are those who were and are not evicted. -/
theorem guest_evict_all :
    (server.evict_all fds).Guest roomname fd username ↔ server.Guest roomname fd username ∧ fd ∉ fds :=
  Server.seats_evict_all hserver (fun hroom => hroom.guests) fun hgone => hgone.guests

/-- Members are registered. -/
theorem registered_of_member (hmember : server.Member roomname fd username) : server.Registered fd username := by
  obtain ⟨room, hroom, hlists⟩ := hmember
  have hcopies := hserver.rooms roomname room hroom
  exact hlists.of_subset hcopies.members hserver.users hcopies.members_users

/-- Guests are registered. -/
theorem registered_of_guest (hguest : server.Guest roomname fd username) : server.Registered fd username := by
  obtain ⟨room, hroom, hlists⟩ := hguest
  have hcopies := hserver.rooms roomname room hroom
  exact hlists.of_subset hcopies.guests hserver.users hcopies.guests_users

/-- Nobody is a member and a guest of one room. -/
theorem not_guest (hmember : server.Member roomname fd username) : ¬ server.Guest roomname fd username := by
  rintro ⟨other, hother, hguest⟩
  obtain ⟨room, hroom, hlists⟩ := hmember
  rw [hroom] at hother
  cases hother
  have hcopies := hserver.rooms roomname _ hroom
  obtain ⟨member, hmember, hname, -⟩ := hcopies.members.lists_iff.mp hlists
  obtain ⟨guest, hguest, hguestname, -⟩ := hcopies.guests.lists_iff.mp hguest
  have hsame := UsersTable.eq_of_username_eq (hcopies.members_users member hmember) (hcopies.guests_users guest hguest)
    (hname.trans hguestname.symm)
  subst hsame
  exact hcopies.disjoint member hmember hguest

/-- Who registers is registered, besides the others. -/
theorem registered_register {user : User} (hname : server.users.find_by_username user.username = none) :
    (server.register user).Registered fd username ↔
      server.Registered fd username ∨ (user.username = username ∧ user.socket_fd = fd) :=
  hserver.users.lists_add (hserver.users.find_by_username_eq_none_iff.mp hname)

/-- A status does not change who is registered. -/
theorem registered_set_status (client_fd : Fd) (status : UserStatus) :
    (server.set_status client_fd status).Registered fd username ↔ server.Registered fd username :=
  hserver.users.lists_change_status client_fd status

omit hserver in
theorem seats_set_status {server : Server} (client_fd : Fd) (status : UserStatus)
    (hsame : ∀ room, server.rooms.lookup roomname = some room →
      ((table (room.update_status client_fd status)).Lists fd username ↔ (table room).Lists fd username)) :
    (server.set_status client_fd status).Seats table roomname fd username ↔
      server.Seats table roomname fd username := by
  have hlookup : (server.set_status client_fd status).rooms.lookup roomname =
      (server.rooms.lookup roomname).map (Room.update_status client_fd status) :=
    HashTable.lookup_mapEntries _ server.rooms roomname
  rw [Server.Seats, hlookup]
  constructor
  · rintro ⟨room, hroom, hlists⟩
    obtain ⟨old, hold, rfl⟩ := Option.map_eq_some_iff.mp hroom
    exact ⟨old, hold, (hsame old hold).mp hlists⟩
  · rintro ⟨room, hroom, hlists⟩
    exact ⟨_, by rw [hroom]; rfl, (hsame room hroom).mpr hlists⟩

/-- A status does not change who is a member. -/
theorem member_set_status (client_fd : Fd) (status : UserStatus) :
    (server.set_status client_fd status).Member roomname fd username ↔ server.Member roomname fd username :=
  seats_set_status client_fd status fun room hroom =>
    (hserver.rooms roomname room hroom).members.lists_change_status client_fd status

/-- A status does not change who is a guest. -/
theorem guest_set_status (client_fd : Fd) (status : UserStatus) :
    (server.set_status client_fd status).Guest roomname fd username ↔ server.Guest roomname fd username :=
  seats_set_status client_fd status fun room hroom =>
    (hserver.rooms roomname room hroom).guests.lists_change_status client_fd status

omit hserver in
theorem member_add_guest {server : Server} {invited_to : CString} {user : User} :
    (server.add_guest invited_to user).Member roomname fd username ↔ server.Member roomname fd username :=
  Server.seats_adjust_room_of_same fun _ => rfl

/-- Who is invited is a guest, besides the others. -/
theorem guest_add_guest {invited_to : CString} {user : User} (huser : user ∈ server.users)
    (houtside : server.in_room invited_to user = false) :
    (server.add_guest invited_to user).Guest roomname fd username ↔
      server.Guest roomname fd username ∨
        (roomname = invited_to ∧ roomname ∈ server.rooms ∧ user.username = username ∧ user.socket_fd = fd) := by
  simp only [Server.Guest, Server.add_guest, Server.seats_adjust_room]
  by_cases hsame : roomname = invited_to
  · subst hsame
    cases hroom : server.rooms.lookup roomname with
    | none =>
      have habsent : roomname ∉ server.rooms := AList.lookup_eq_none.mp hroom
      simp [Server.Seats, hroom, habsent]
    | some room =>
      have hcopies := hserver.rooms roomname room hroom
      simp only [Server.in_room, hroom, Bool.or_eq_false_iff] at houtside
      have hadded : (room.guests.add user).Lists fd username ↔ _ :=
        hcopies.guests.lists_add (hcopies.guests_fresh huser houtside.2).1
      have hpresent : roomname ∈ server.rooms := HashTable.mem_of_lookup hroom
      simpa [Server.Seats, hroom, hpresent, Room.change_guests] using hadded
  · simp [Server.Seats, hsame]

/-- Who joins is a member, besides the others. -/
theorem member_let_in {joined : CString} {user : User} {room : Room} (huser : user ∈ server.users)
    (hroom : server.rooms.lookup joined = some room)
    (houtside : room.members.contains_by_client_fd user.socket_fd = false) :
    (server.let_in joined user).Member roomname fd username ↔
      server.Member roomname fd username ∨ (roomname = joined ∧ user.username = username ∧ user.socket_fd = fd) := by
  simp only [Server.Member, Server.let_in, Server.seats_adjust_room]
  by_cases hsame : roomname = joined
  · subst hsame
    have hcopies := hserver.rooms roomname room hroom
    have hadded : (room.members.add user).Lists fd username ↔ _ :=
      hcopies.members.lists_add (hcopies.members_fresh huser houtside).1
    simpa [Server.Seats, hroom, Room.let_in] using hadded
  · simp [Server.Seats, hsame]

/-- Who joins is no guest any more. -/
theorem guest_let_in {joined : CString} {user : User} :
    (server.let_in joined user).Guest roomname fd username ↔
      server.Guest roomname fd username ∧ (roomname = joined → username ≠ user.username) := by
  simp only [Server.Guest, Server.let_in, Server.seats_adjust_room]
  by_cases hsame : roomname = joined
  · subst hsame
    cases hroom : server.rooms.lookup roomname with
    | none => simp [Server.Seats, hroom]
    | some room =>
      have hremoved : (room.guests.remove user.username).Lists fd username ↔ _ :=
        (hserver.rooms roomname room hroom).guests.lists_remove user.username
      simpa [Server.Seats, hroom, Room.let_in] using hremoved
  · simp [Server.Seats, hsame]

omit hserver in
theorem seats_create_room {server : Server} {created : CString} {user : User}
    (named : 0 < strlen created ∧ strlen created ≤ ROOM_ROOMNAME_MAX_LENGTH) :
    (server.create_room (room_new created named) user).Seats table roomname fd username ↔
      if roomname = created then
        (table ((room_new created named).change_members fun members => members.add user)).Lists fd username
      else server.Seats table roomname fd username := by
  simp only [Server.Seats, Server.create_room, HashTable.lookup_insert_eq]
  change (∃ room, (if roomname = created then _ else _) = some room ∧ _) ↔ _
  by_cases hsame : roomname = created
  · simp [hsame]
  · simp [hsame]

omit hserver in
/-- Who opens a room is its only member. -/
theorem member_create_room {server : Server} {created : CString} {user : User}
    (named : 0 < strlen created ∧ strlen created ≤ ROOM_ROOMNAME_MAX_LENGTH)
    (hfree : server.rooms.lookup created = none) :
    (server.create_room (room_new created named) user).Member roomname fd username ↔
      server.Member roomname fd username ∨ (roomname = created ∧ user.username = username ∧ user.socket_fd = fd) := by
  have hfresh : ∀ other ∈ users_table_init, other.username ≠ user.username := fun other hother =>
    absurd hother (UsersTable.not_mem_init other)
  have hadded : (users_table_init.add user).Lists fd username ↔ _ :=
    UsersTable.indexed_init.lists_add hfresh
  rw [Server.Member, seats_create_room]
  by_cases hsame : roomname = created
  · subst hsame
    simpa [Server.Seats, hfree, UsersTable.not_lists_init, Room.change_members, room_new] using hadded
  · simp [hsame]

omit hserver in
/-- Nobody is invited by opening a room. -/
theorem guest_create_room {server : Server} {created : CString} {user : User}
    (named : 0 < strlen created ∧ strlen created ≤ ROOM_ROOMNAME_MAX_LENGTH)
    (hfree : server.rooms.lookup created = none) :
    (server.create_room (room_new created named) user).Guest roomname fd username ↔
      server.Guest roomname fd username := by
  rw [Server.Guest, seats_create_room]
  by_cases hsame : roomname = created
  · subst hsame
    simp [Server.Seats, hfree, UsersTable.not_lists_init, Room.change_members, room_new]
  · simp [hsame]

omit hserver in
/-- A room is gone with its last member. -/
theorem lookup_quit (server : Server) (left_room : CString) (user : User) (roomname : CString) :
    (server.quit left_room user).rooms.lookup roomname =
      ((server.adjust_room left_room (Room.change_members fun members => members.remove user.username)).rooms.lookup
        roomname).filter fun room => roomname ≠ left_room ∨ room.members.entries ≠ [] := by
  generalize hleft :
    server.adjust_room left_room (Room.change_members fun members => members.remove user.username) = left
  simp only [Server.quit, hleft]
  by_cases hsame : roomname = left_room
  · subst hsame
    cases hroom : left.rooms.lookup roomname with
    | none => exact hroom
    | some room =>
      by_cases hempty : room.members.entries = []
      · simp [Option.filter_some, hempty]
      · simp [Option.filter_some, hempty, hroom]
  · have hkept : ∀ found : Option Room, found.filter (fun room => roomname ≠ left_room ∨ room.members.entries ≠ []) =
        found := by
      intro found
      cases found <;> simp [hsame]
    rw [hkept]
    split
    · rfl
    · split
      · exact (HashTable.lookup_erase_eq ..).trans (if_neg hsame)
      · rfl

omit hserver in
theorem seats_quit {server : Server} {left_room : CString} {user : User} :
    (server.quit left_room user).Seats table roomname fd username ↔
      (server.adjust_room left_room (Room.change_members fun members => members.remove user.username)).Seats table
        roomname fd username ∧ roomname ∈ (server.quit left_room user).rooms := by
  constructor
  · rintro ⟨room, hroom, hlists⟩
    have hleft := hroom
    rw [lookup_quit, Option.filter_eq_some_iff] at hleft
    exact ⟨⟨room, hleft.1, hlists⟩, HashTable.mem_of_lookup hroom⟩
  · rintro ⟨⟨room, hroom, hlists⟩, hstays⟩
    obtain ⟨left, hleft⟩ := HashTable.exists_lookup_of_mem hstays
    have hsame := hleft
    rw [lookup_quit, Option.filter_eq_some_iff, hroom] at hsame
    cases hsame.1
    exact ⟨room, hleft, hlists⟩

/-- Whoever leaves a room takes nobody else's place. -/
theorem member_quit {left_room : CString} {user : User} :
    (server.quit left_room user).Member roomname fd username ↔
      server.Member roomname fd username ∧ (roomname = left_room → username ≠ user.username) := by
  have hadjusted :
      (server.adjust_room left_room (Room.change_members fun members => members.remove user.username)).Seats
        Room.members roomname fd username ↔
      server.Member roomname fd username ∧ (roomname = left_room → username ≠ user.username) := by
    rw [Server.seats_adjust_room]
    by_cases hsame : roomname = left_room
    · subst hsame
      cases hroom : server.rooms.lookup roomname with
      | none => simp [Server.Seats, hroom]
      | some room =>
        have hremoved : (room.members.remove user.username).Lists fd username ↔ _ :=
          (hserver.rooms roomname room hroom).members.lists_remove user.username
        simpa [Server.Seats, hroom, Room.change_members] using hremoved
    · simp [Server.Seats, hsame]
  rw [Server.Member, seats_quit]
  refine Iff.trans (and_iff_left_of_imp fun hmember => ?_) hadjusted
  obtain ⟨room, hroom, member, hlisted, -⟩ := hmember
  have hstays : (server.quit left_room user).rooms.lookup roomname = some room := by
    rw [lookup_quit, hroom, Option.filter_some, if_pos]
    simp [List.ne_nil_of_mem hlisted]
  exact HashTable.mem_of_lookup hstays

/-- Who is forgotten is in no room. -/
theorem member_forget {gone : CString} :
    (server.forget gone).Member roomname fd username ↔ server.Member roomname fd username ∧ username ≠ gone := by
  simp only [Server.Member, Server.Seats, Server.lookup_forget]
  cases hroom : server.rooms.lookup roomname with
  | none => simp
  | some room =>
    have hremoved : (room.members.remove gone).Lists fd username ↔ _ :=
      (hserver.rooms roomname room hroom).members.lists_remove gone
    simpa [Room.forget] using hremoved

omit hserver in
/-- Guests stay as long as the room does. -/
theorem guest_quit {server : Server} {left_room : CString} {user : User} :
    (server.quit left_room user).Guest roomname fd username ↔
      server.Guest roomname fd username ∧ roomname ∈ (server.quit left_room user).rooms := by
  rw [Server.Guest, seats_quit]
  exact and_congr_left fun _ => Server.seats_adjust_room_of_same fun _ => rfl

end Server.Consistent

end Rooms

section Invitations

variable {net : Net} {roomname username : CString} {fd : Fd}

/-- Invitations do not change who is registered. -/
theorem users_settle_invitations (invited_to : CString) (invitation : Message) (invited_users : List User)
    (server : Server) (trace : List Effect) :
    (settle_invitations net invited_to invitation invited_users server trace).1.users = server.users := by
  induction invited_users generalizing server trace with
  | nil => rfl
  | cons user rest ih =>
    unfold settle_invitations
    dsimp only
    split
    · rfl
    · split
      · exact ih _ _
      · rfl

/-- Invitations do not change who is a member. -/
theorem member_settle_invitations {invited_to : CString} {invitation : Message} {invited_users : List User}
    {server : Server} {trace : List Effect} :
    (settle_invitations net invited_to invitation invited_users server trace).1.Member roomname fd username ↔
      server.Member roomname fd username := by
  induction invited_users generalizing server trace with
  | nil => exact Iff.rfl
  | cons user rest ih =>
    unfold settle_invitations
    dsimp only
    split
    · exact Iff.rfl
    · split
      · exact ih.trans Server.Consistent.member_add_guest
      · exact Server.Consistent.member_add_guest

/-- Invitations take no guest away. -/
theorem guest_settle_invitations_of_guest {server : Server} {trace : List Effect} (hserver : server.Consistent)
    (invited_to : CString) (invitation : Message) {invited_users : List User}
    (hinvited : ∀ invited ∈ invited_users, invited ∈ server.users) (hguest : server.Guest roomname fd username) :
    (settle_invitations net invited_to invitation invited_users server trace).1.Guest roomname fd username := by
  induction invited_users generalizing server trace with
  | nil => exact hguest
  | cons user rest ih =>
    unfold settle_invitations
    by_cases hinside : server.in_room invited_to user
    · rwa [if_pos hinside]
    · have houtside : server.in_room invited_to user = false := Bool.not_eq_true _ ▸ hinside
      have huser := hinvited user List.mem_cons_self
      have hadded := (hserver.guest_add_guest huser houtside).mpr (Or.inl hguest)
      rw [if_neg hinside]
      dsimp only
      split
      · have hrest := fun other hother => hinvited other (List.mem_cons_of_mem user hother)
        exact ih (hserver.add_guest huser houtside) hrest hadded
      · exact hadded

/-- Guests after an invitation were guests before, or are among the invited. -/
theorem guest_of_settle_invitations {server : Server} {trace : List Effect} (hserver : server.Consistent)
    (invited_to : CString) (invitation : Message) {invited_users : List User}
    (hinvited : ∀ invited ∈ invited_users, invited ∈ server.users)
    (hguest : (settle_invitations net invited_to invitation invited_users server trace).1.Guest roomname fd username) :
    server.Guest roomname fd username ∨
      (roomname = invited_to ∧ ∃ invited ∈ invited_users, invited.username = username ∧ invited.socket_fd = fd) := by
  induction invited_users generalizing server trace with
  | nil => exact Or.inl hguest
  | cons user rest ih =>
    unfold settle_invitations at hguest
    by_cases hinside : server.in_room invited_to user
    · rw [if_pos hinside] at hguest
      exact Or.inl hguest
    · have houtside : server.in_room invited_to user = false := Bool.not_eq_true _ ▸ hinside
      have huser := hinvited user List.mem_cons_self
      rw [if_neg hinside] at hguest
      dsimp only at hguest
      have hadded : (server.add_guest invited_to user).Guest roomname fd username ∨
          (roomname = invited_to ∧ ∃ invited ∈ rest, invited.username = username ∧ invited.socket_fd = fd) := by
        split at hguest
        · have hrest := fun other hother => hinvited other (List.mem_cons_of_mem user hother)
          exact ih (hserver.add_guest huser houtside) hrest hguest
        · exact Or.inl hguest
      rcases hadded with hadded | ⟨hsame, invited, hmem, hnamed⟩
      · rcases (hserver.guest_add_guest huser houtside).mp hadded with hold | ⟨hsame, -, hnew⟩
        · exact Or.inl hold
        · exact Or.inr ⟨hsame, user, List.mem_cons_self, hnew⟩
      · exact Or.inr ⟨hsame, invited, List.mem_cons_of_mem user hmem, hnamed⟩

/-- INVITE from a member of the room. -/
theorem reaction_of_invite {server : Server} (hserver : server.Consistent) {client_fd : Fd} {msg_in : Message}
    {usernames : List CString} (hmember : server.Member roomname client_fd username) (htype : msg_in.type = .INVITE)
    (hroomname : msg_in.roomname = some roomname) (husernames : msg_in.usernames = some usernames) :
    reaction server client_fd msg_in =
      match invited_records server usernames with
      | .error missing => .reply client_fd (response (.lit "INVITE") (.lit "NO_SUCH_USER") missing)
      | .ok invited_users => .invite roomname invited_users (invitation_notice username roomname) := by
  obtain ⟨room, hroom, hlists⟩ := hmember
  have hcopies := hserver.rooms roomname room hroom
  obtain ⟨user, huser, rfl, rfl⟩ := hcopies.members.lists_iff.mp hlists
  have hregistered := hcopies.members_users user huser
  have hcontains := (hcopies.mem_members_iff hserver.users hregistered).mp huser
  rw [reaction_of_sender hserver ⟨hregistered, rfl⟩ (by simp [htype])]
  unfold registered_reaction invite_reaction
  cases hrecords : invited_records server usernames with
  | error missing => simp only [htype, hroomname, husernames, hroom, hcontains, hrecords, if_true]
  | ok invited_users => simp only [htype, hroomname, husernames, hroom, hcontains, hrecords, if_true]

end Invitations

end ojalvo
