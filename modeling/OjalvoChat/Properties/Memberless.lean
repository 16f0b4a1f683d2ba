import OjalvoChat.Protocol.Settlement
import OjalvoChat.Protocol.Runs

namespace ojalvo

/-- A room exists and has a member with the given descriptor. -/
def Server.Occupied (server : Server) (roomname : CString) (fd : Fd) : Prop :=
  ∃ room, server.rooms.lookup roomname = some room ∧ ∃ member ∈ room.members, member.socket_fd = fd

/-- Every room has a member who stays when the given descriptors leave. -/
def Server.Keeps (server : Server) (fds : List Fd) : Prop :=
  ∀ roomname ∈ server.rooms, ∃ fd, server.Occupied roomname fd ∧ fd ∉ fds

/-- Who leaves the server during an event. -/
def Event.casualties (net : Net) (world : World) (event : Event) : List Fd :=
  (event.reaction world.server).casualties net event.client_fd world.server world.trace

/-- The events that leave a room behind without a member: all its members leave
the server, or the creator of a new room does because the reply could not be
sent. -/
inductive Bereaves (net : Net) (world : World) (event : Event) : Prop where
  | room (roomname : CString) (room : Room) (hroom : world.server.rooms.lookup roomname = some room)
    (hgone : ∀ member ∈ room.members.entries, member.socket_fd ∈ event.casualties net world)
  | new_room (client_fd : Fd) (msg_in : Message) (creator : User) (requested : CString)
    (hevent : event = .request client_fd msg_in) (htype : msg_in.type = .NEW_ROOM)
    (hcreator : world.server.Sender client_fd creator) (hroomname : msg_in.roomname = some requested)
    (hnamed : strlen requested ≠ 0) (hfree : world.server.rooms.lookup (requested.cut 16) = none)
    (hunsent : net world.trace client_fd (response (.lit "NEW_ROOM") (.lit "SUCCESS") (requested.cut 16)) = false)

/-- Every room has a member. -/
def Server.NoMemberless (server : Server) : Prop :=
  ∀ roomname room, server.rooms.lookup roomname = some room → room.members.entries ≠ []

section Keeps

variable {server later : Server} {roomname : CString} {fds : List Fd}

theorem occupied_iff {room : Room} (hroom : server.rooms.lookup roomname = some room) (fd : Fd) :
    server.Occupied roomname fd ↔ ∃ member ∈ room.members, member.socket_fd = fd := by
  constructor
  · rintro ⟨other, hother, hmember⟩
    rw [hroom] at hother
    cases hother
    exact hmember
  · exact fun hmember => ⟨room, hroom, hmember⟩

theorem Server.Consistent.keeps_iff (hserver : server.Consistent) :
    server.Keeps fds ↔ ∀ roomname room, server.rooms.lookup roomname = some room →
      ∃ member ∈ room.members.entries, member.socket_fd ∉ fds := by
  constructor
  · intro hkept roomname room hroom
    obtain ⟨fd, hoccupied, hstays⟩ := hkept roomname (HashTable.mem_of_lookup hroom)
    obtain ⟨member, hmember, rfl⟩ := (occupied_iff hroom fd).mp hoccupied
    exact ⟨member, (hserver.rooms roomname room hroom).members.mem_entries.mpr hmember, hstays⟩
  · intro hkept roomname hmem
    obtain ⟨room, hroom⟩ := HashTable.exists_lookup_of_mem hmem
    obtain ⟨member, hmember, hstays⟩ := hkept roomname room hroom
    have hindexed := (hserver.rooms roomname room hroom).members
    exact ⟨member.socket_fd, ⟨room, hroom, member, hindexed.mem_entries.mp hmember, rfl⟩, hstays⟩

theorem Server.Consistent.no_memberless_iff (hserver : server.Consistent) : server.NoMemberless ↔ server.Keeps [] := by
  rw [hserver.keeps_iff]
  constructor
  · intro hnone roomname room hroom
    obtain ⟨member, hmember⟩ := List.exists_mem_of_ne_nil _ (hnone roomname room hroom)
    exact ⟨member, hmember, List.not_mem_nil⟩
  · intro hkept roomname room hroom hempty
    obtain ⟨member, hmember, _⟩ := hkept roomname room hroom
    rw [hempty] at hmember
    cases hmember

/-- Eviction leaves a member in every room exactly when every room keeps one. -/
theorem Server.Consistent.keeps_evict_all_iff (hserver : server.Consistent) :
    (server.evict_all fds).Keeps [] ↔ server.Keeps fds := by
  have hwithout := hserver.without_evict_all fds
  rw [(hserver.evict_all fds).keeps_iff, hserver.keeps_iff]
  have hleft := hserver.evict_all fds
  constructor
  · intro hkept roomname room hroom
    obtain ⟨left, hlookup, hgone⟩ := hwithout.rooms roomname room hroom
    obtain ⟨member, hmember, _⟩ := hkept roomname left hlookup
    rw [(hleft.rooms roomname left hlookup).members.mem_entries, hgone.members member] at hmember
    exact ⟨member, (hserver.rooms roomname room hroom).members.mem_entries.mpr hmember.1, hmember.2⟩
  · intro hkept roomname left hlookup
    obtain ⟨room, hroom, hgone⟩ := hwithout.same_rooms roomname left hlookup
    obtain ⟨member, hmember, hstays⟩ := hkept roomname room hroom
    rw [(hserver.rooms roomname room hroom).members.mem_entries] at hmember
    have hremains := (hgone.members member).mpr ⟨hmember, hstays⟩
    exact ⟨member, (hleft.rooms roomname left hlookup).members.mem_entries.mpr hremains, List.not_mem_nil⟩

theorem keeps_congr (hrooms : ∀ roomname, roomname ∈ later.rooms ↔ roomname ∈ server.rooms)
    (hoccupied : ∀ roomname fd, later.Occupied roomname fd ↔ server.Occupied roomname fd) :
    later.Keeps fds ↔ server.Keeps fds := by
  simp only [Server.Keeps, hrooms, hoccupied]

/-- Rewriting the rooms without changing who their members are. -/
theorem keeps_mapEntries (change : CString → Room → Room)
    (hmembers : ∀ roomname room, server.rooms.lookup roomname = some room →
      ∀ fd, (∃ member ∈ (change roomname room).members, member.socket_fd = fd) ↔
        ∃ member ∈ room.members, member.socket_fd = fd)
    (hlater : later.rooms = HashTable.mapEntries change server.rooms) : later.Keeps fds ↔ server.Keeps fds := by
  refine keeps_congr (fun roomname => by rw [hlater, HashTable.mem_mapEntries]) fun roomname fd => ?_
  cases hroom : server.rooms.lookup roomname with
  | none => simp [Server.Occupied, hlater, hroom]
  | some room =>
    have hchanged : later.rooms.lookup roomname = some (change roomname room) := by simp [hlater, hroom]
    rw [occupied_iff hchanged, occupied_iff hroom]
    exact hmembers roomname room hroom fd

theorem Server.Consistent.keeps_set_status (hserver : server.Consistent) (client_fd : Fd) (status : UserStatus) :
    (server.set_status client_fd status).Keeps fds ↔ server.Keeps fds := by
  refine keeps_mapEntries (fun _ => Room.update_status client_fd status) ?_ rfl
  intro roomname room hroom fd
  have hindexed := (hserver.rooms roomname room hroom).members
  simp only [Room.update_status, UsersTable.mem_change_status_by_client_fd hindexed]
  constructor
  · rintro ⟨_, ⟨old, hold, rfl⟩, rfl⟩
    exact ⟨old, hold, by split <;> rfl⟩
  · rintro ⟨old, hold, rfl⟩
    exact ⟨_, ⟨old, hold, rfl⟩, by split <;> rfl⟩

theorem keeps_add_guest (user : User) : (server.add_guest roomname user).Keeps fds ↔ server.Keeps fds := by
  refine keeps_mapEntries
    (fun other room => if other = roomname then room.change_guests fun guests => guests.add user else room) ?_ rfl
  intro other room hroom fd
  split <;> rfl

theorem keeps_settle_invitations (net : Net) (trace : List Effect) (invitation : Message) (invited_users : List User) :
    (settle_invitations net roomname invitation invited_users server trace).1.Keeps fds ↔ server.Keeps fds := by
  induction invited_users generalizing server trace with
  | nil => rfl
  | cons user rest ih =>
    unfold settle_invitations
    split
    · rfl
    · dsimp only
      split
      · rw [ih, keeps_add_guest]
      · exact keeps_add_guest user

theorem keeps_create_room (fds : List Fd) (room : Room) (creator : User)
    (hfree : server.rooms.lookup room.roomname = none)
    (hempty : ∀ member, member ∈ room.members.add creator ↔ member = creator) :
    (server.create_room room creator).Keeps fds ↔ server.Keeps fds ∧ creator.socket_fd ∉ fds := by
  have hnew : (server.create_room room creator).rooms.lookup room.roomname =
      some (room.change_members fun members => members.add creator) := by
    simp [Server.create_room]
  have hold : ∀ roomname, roomname ≠ room.roomname →
      (server.create_room room creator).rooms.lookup roomname = server.rooms.lookup roomname := fun roomname hne =>
    AList.lookup_insert_ne hne
  have hcreator : ∀ fd, (server.create_room room creator).Occupied room.roomname fd ↔ creator.socket_fd = fd := by
    intro fd
    rw [occupied_iff hnew]
    simp only [Room.change_members, hempty, exists_eq_left]
  constructor
  · intro hkept
    constructor
    · intro roomname hmem
      have hne : roomname ≠ room.roomname := by
        rintro rfl
        exact AList.lookup_eq_none.mp hfree hmem
      obtain ⟨other, hother⟩ := HashTable.exists_lookup_of_mem hmem
      have hlookup := (hold roomname hne).trans hother
      obtain ⟨fd, hoccupied, hstays⟩ := hkept roomname (HashTable.mem_of_lookup hlookup)
      exact ⟨fd, (occupied_iff hother fd).mpr ((occupied_iff hlookup fd).mp hoccupied), hstays⟩
    · obtain ⟨fd, hoccupied, hstays⟩ := hkept room.roomname (HashTable.mem_of_lookup hnew)
      rwa [(hcreator fd).mp hoccupied]
  · rintro ⟨hkept, hstays⟩ roomname hmem
    by_cases heq : roomname = room.roomname
    · subst heq
      exact ⟨creator.socket_fd, (hcreator _).mpr rfl, hstays⟩
    · obtain ⟨other, hlookup⟩ := HashTable.exists_lookup_of_mem hmem
      have hother := (hold roomname heq).symm.trans hlookup
      obtain ⟨fd, hoccupied, hstays⟩ := hkept roomname (HashTable.mem_of_lookup hother)
      exact ⟨fd, (occupied_iff hlookup fd).mpr ((occupied_iff hother fd).mp hoccupied), hstays⟩

section LetIn

variable {user : User} (hserver : server.Consistent) (huser : user ∈ server.users)
  (houtside : ∀ room, server.rooms.lookup roomname = some room →
    room.members.contains_by_client_fd user.socket_fd = false)
include hserver huser houtside

theorem occupied_let_in (other : CString) (fd : Fd) :
    (server.let_in roomname user).Occupied other fd ↔
      server.Occupied other fd ∨ other = roomname ∧ other ∈ server.rooms ∧ user.socket_fd = fd := by
  cases hroom : server.rooms.lookup other with
  | none =>
    have habsent : other ∉ server.rooms := AList.lookup_eq_none.mp hroom
    simp [Server.Occupied, Server.let_in, HashTable.lookup_adjust, hroom, habsent]
  | some room =>
    have hmem := HashTable.mem_of_lookup hroom
    by_cases heq : other = roomname
    · subst heq
      obtain ⟨hname, _⟩ := (hserver.rooms other room hroom).members_fresh huser (houtside room hroom)
      have hlookup : (server.let_in other user).rooms.lookup other = some (room.let_in user) := by
        simp [Server.let_in, hroom]
      rw [occupied_iff hlookup, occupied_iff hroom]
      simp [Room.let_in, UsersTable.mem_add (hserver.rooms other room hroom).members hname, hmem, or_and_right,
        exists_or, or_comm]
    · have hlookup : (server.let_in roomname user).rooms.lookup other = some room := by
        simp [Server.let_in, hroom, heq]
      rw [occupied_iff hlookup, occupied_iff hroom]
      simp [heq]

/-- A user who joins a room and then leaves the server leaves it as it was. -/
theorem keeps_let_in_iff (hgone : user.socket_fd ∈ fds) :
    (server.let_in roomname user).Keeps fds ↔ server.Keeps fds := by
  have hrooms : ∀ other, other ∈ (server.let_in roomname user).rooms ↔ other ∈ server.rooms := fun other =>
    HashTable.mem_adjust
  constructor
  · intro hkept other hmem
    obtain ⟨fd, hoccupied, hstays⟩ := hkept other ((hrooms other).mpr hmem)
    rcases (occupied_let_in hserver huser houtside other fd).mp hoccupied with hold | ⟨_, _, rfl⟩
    · exact ⟨fd, hold, hstays⟩
    · exact absurd hgone hstays
  · intro hkept other hmem
    obtain ⟨fd, hoccupied, hstays⟩ := hkept other ((hrooms other).mp hmem)
    exact ⟨fd, (occupied_let_in hserver huser houtside other fd).mpr (Or.inl hoccupied), hstays⟩

theorem keeps_let_in (hkept : server.Keeps fds) : (server.let_in roomname user).Keeps fds := by
  intro other hmem
  obtain ⟨fd, hoccupied, hstays⟩ := hkept other (HashTable.mem_adjust.mp hmem)
  exact ⟨fd, (occupied_let_in hserver huser houtside other fd).mpr (Or.inl hoccupied), hstays⟩

end LetIn

/-- The last member takes the room along. -/
theorem Server.Consistent.keeps_quit (hserver : server.Consistent) (hkept : server.Keeps []) (user : User) :
    (server.quit roomname user).Keeps [] := by
  have hquit := hserver.quit roomname user
  rw [← hquit.no_memberless_iff]
  rw [← hserver.no_memberless_iff] at hkept
  intro other room hlookup
  unfold Server.quit at hlookup
  dsimp only at hlookup
  cases hroom : server.rooms.lookup roomname with
  | none =>
    simp only [Server.adjust_room_rooms, HashTable.lookup_adjust_self, hroom, Option.map_none] at hlookup
    have habsent : roomname ∉ server.rooms := AList.lookup_eq_none.mp hroom
    rw [HashTable.adjust_of_notMem _ habsent] at hlookup
    exact hkept other room hlookup
  | some old =>
    simp only [Server.adjust_room_rooms, HashTable.lookup_adjust_self, hroom, Option.map_some] at hlookup
    split at hlookup
    · rename_i hempty
      simp only [HashTable.lookup_erase_eq, HashTable.lookup_adjust] at hlookup
      split at hlookup
      · cases hlookup
      · have hbefore : server.rooms.lookup other = some room := by simpa using hlookup
        exact hkept other room hbefore
    · rename_i hstays
      simp only [Server.adjust_room_rooms, HashTable.lookup_adjust] at hlookup
      obtain ⟨before, hbefore, heq⟩ := Option.map_eq_some_iff.mp hlookup
      split at heq
      · rename_i hsame
        rw [hsame, hroom] at hbefore
        cases hbefore
        rw [← heq]
        exact fun hnobody => hstays (by rw [hnobody]; rfl)
      · subst heq
        exact hkept other before hbefore

end Keeps

section Steps

variable {net : Net} {server : Server} {trace : List Effect} {client_fd : Fd} {msg_in : Message}

/-- A failed reply makes the requester depart and a sent one costs nobody. -/
theorem mem_unanswered_iff (server : Server) (trace : List Effect) (message : Message) :
    client_fd ∈ unanswered net client_fd message client_fd server trace (fun _ => []) ↔
      net trace client_fd message = false := by
  unfold unanswered
  cases net trace client_fd message with
  | true => simp
  | false => simp [departing]

/-- From a server without memberless rooms, a reaction and its casualties leave
a member in every room unless they take all members of a room along, or the
creator of a new one. -/
theorem Permitted.keeps_iff {reaction : Reaction} (hpermitted : Permitted server client_fd msg_in reaction)
    (hserver : server.Consistent) (hkept : server.Keeps []) :
    (reaction.settled net server trace).Keeps (reaction.casualties net client_fd server trace) ↔
      server.Keeps (reaction.casualties net client_fd server trace) ∧
        ∀ room creator, reaction = .create room creator →
          net trace client_fd (response (.lit "NEW_ROOM") (.lit "SUCCESS") room.roomname) = true := by
  have hother : ∀ {reaction : Reaction} {fds : List Fd}, (∀ room creator, reaction ≠ .create room creator) →
      ((reaction.settled net server trace).Keeps fds ↔ server.Keeps fds) →
      ((reaction.settled net server trace).Keeps fds ↔ server.Keeps fds ∧
        ∀ room creator, reaction = .create room creator →
          net trace client_fd (response (.lit "NEW_ROOM") (.lit "SUCCESS") room.roomname) = true) := by
    intro reaction fds hreaction hsame
    rw [hsame, iff_self_and]
    exact fun _ room creator heq => absurd heq (hreaction room creator)
  cases hpermitted with
  | set_status user status text htype hsender hread hchange =>
    exact hother (fun _ _ => Reaction.noConfusion) (hserver.keeps_set_status user.socket_fd status)
  | create user requested named htype hsender hroomname hfree =>
    have hempty : ∀ member, member ∈ users_table_init.add user ↔ member = user := by
      intro member
      rw [UsersTable.mem_add UsersTable.indexed_init fun other hmem => absurd hmem (UsersTable.not_mem_init other)]
      simp [UsersTable.not_mem_init]
    have hcreated := fun fds => keeps_create_room fds (room_new (requested.cut 16) named) user hfree hempty
    rw [Reaction.settled, hcreated, hsender.connected, Reaction.casualties, mem_unanswered_iff]
    simp
  | invite user roomname room usernames invited_users htype hsender hroomname husernames hroom hmember hinvited =>
    exact hother (fun _ _ => Reaction.noConfusion) (keeps_settle_invitations net trace _ invited_users)
  | join user roomname room htype hsender hroomname hroom houtside hguest =>
    have hfresh : ∀ other, server.rooms.lookup roomname = some other →
        other.members.contains_by_client_fd user.socket_fd = false := by
      intro other hlookup
      rw [hroom] at hlookup
      cases hlookup
      exact houtside
    refine hother (fun _ _ => Reaction.noConfusion) ?_
    cases hanswered : net trace client_fd (response (.lit "JOIN_ROOM") (.lit "SUCCESS") roomname) with
    | true =>
      have hnobody : (Reaction.join roomname user).casualties net client_fd server trace = [] := by
        simp [Reaction.casualties, unanswered, hanswered]
      rw [hnobody]
      exact iff_of_true (keeps_let_in hserver hsender.registered hfresh hkept) hkept
    | false =>
      refine keeps_let_in_iff hserver hsender.registered hfresh ?_
      rw [hsender.connected, Reaction.casualties, mem_unanswered_iff]
      exact hanswered
  | quit user roomname room htype hsender hroomname hroom hmember =>
    exact hother (fun _ _ => Reaction.noConfusion) (iff_of_true (hserver.keeps_quit hkept user) hkept)
  | _ => exact hother (fun _ _ => Reaction.noConfusion) Iff.rfl

/-- A name that is free and not empty gets its room. -/
theorem reaction_new_room (hserver : server.Consistent) {creator : User} (hcreator : server.Sender client_fd creator)
    {requested : CString} (htype : msg_in.type = .NEW_ROOM) (hroomname : msg_in.roomname = some requested)
    (hnamed : strlen requested ≠ 0) (hfree : server.rooms.lookup (requested.cut 16) = none) :
    ∃ named, reaction server client_fd msg_in = .create (room_new (requested.cut 16) named) creator := by
  have hexists : server.rooms.lookup requested = none := by
    cases hlookup : server.rooms.lookup requested with
    | none => rfl
    | some room =>
      have hbound : strlen requested ≤ 16 := hserver.keyed requested room hlookup ▸ room.named.2
      rw [CString.cut_of_strlen_le hbound, hlookup] at hfree
      exact hfree
  have hcut : 0 < strlen (requested.cut 16) ∧ strlen (requested.cut 16) ≤ ROOM_ROOMNAME_MAX_LENGTH := by
    rw [strlen_cut, ROOM_ROOMNAME_MAX_LENGTH]
    omega
  refine ⟨hcut, ?_⟩
  rw [reaction_of_sender hserver hcreator (by simp [htype])]
  simp only [registered_reaction, htype, new_room_reaction, hroomname, hexists, hfree, dif_pos hcut]

theorem bereaves_iff {event : Event} (hserver : server.Consistent) :
    Bereaves net (.idle server trace) event ↔
      ¬ server.Keeps (event.casualties net (.idle server trace)) ∨
        ∃ room creator, event.reaction server = .create room creator ∧
          net trace event.client_fd (response (.lit "NEW_ROOM") (.lit "SUCCESS") room.roomname) = false := by
  constructor
  · rintro (⟨roomname, room, hroom, hgone⟩ |
      ⟨client_fd, msg_in, creator, requested, rfl, htype, hcreator, hroomname, hnamed, hfree, hunsent⟩)
    · refine Or.inl fun hkept => ?_
      obtain ⟨member, hmember, hstays⟩ := hserver.keeps_iff.mp hkept roomname room hroom
      exact hstays (hgone member hmember)
    · obtain ⟨named, hcreate⟩ := reaction_new_room hserver hcreator htype hroomname hnamed hfree
      exact Or.inr ⟨_, creator, hcreate, hunsent⟩
  · rintro (hlost | ⟨room, creator, hcreate, hunsent⟩)
    · rw [hserver.keeps_iff] at hlost
      push Not at hlost
      obtain ⟨roomname, room, hroom, hgone⟩ := hlost
      exact .room roomname room hroom hgone
    · have hpermitted := event.permitted hserver
      rw [hcreate] at hpermitted
      cases hpermitted with
      | create user requested named htype hsender hroomname hfree =>
        have hnamed : strlen requested ≠ 0 := by
          have hpositive := named.1
          rw [strlen_cut] at hpositive
          omega
        cases event with
        | accept client_fd => cases htype
        | invalid client_fd => cases htype
        | request client_fd msg_in =>
          exact .new_room client_fd msg_in creator requested rfl htype hsender hroomname hnamed hfree hunsent

/-- One event keeps all rooms populated exactly when it bereaves none. -/
theorem served_no_memberless_iff {event : Event} {after : World} (hserver : server.Consistent)
    (hnone : server.NoMemberless) (hserved : Served net (.idle server trace) event after) :
    after.server.NoMemberless ↔ ¬ Bereaves net (.idle server trace) event := by
  have hpermitted := event.permitted hserver
  have hkept := hserver.no_memberless_iff.mp hnone
  have hsettled := hpermitted.settled_consistent net trace hserver
  obtain ⟨later, rfl⟩ := served_leaves hserver hserved
  rw [(hsettled.evict_all _).no_memberless_iff, hsettled.keeps_evict_all_iff, hpermitted.keeps_iff hserver hkept,
    bereaves_iff hserver, not_or, not_not]
  refine and_congr_right fun _ => ?_
  constructor
  · rintro hsent ⟨room, creator, hcreate, hunsent⟩
    rw [hsent room creator hcreate] at hunsent
    cases hunsent
  · intro hnever room creator hcreate
    by_contra hunsent
    exact hnever ⟨room, creator, hcreate, Bool.not_eq_true _ ▸ hunsent⟩

end Steps

/-- All rooms have members throughout a run exactly when no event of the run
bereaves one. -/
theorem no_memberless_room_iff {net : Net} {history : List (World × Event)} {world : World}
    (hrun : ServerRun net history world) :
    ((∀ moment ∈ history, moment.1.server.NoMemberless) ∧ world.server.NoMemberless) ↔
      ∀ moment ∈ history, ¬ Bereaves net moment.1 moment.2 := by
  induction hrun with
  | start =>
    have hinit : server_init.NoMemberless := fun roomname room hroom => by simp [server_init] at hroom
    simpa using hinit
  | step hprefix hserved ih =>
    obtain ⟨hidle, hserver⟩ := run_ready hprefix
    rw [hidle] at hserved
    have hstep := fun hnone => served_no_memberless_iff hserver hnone hserved
    rw [← hidle] at hstep
    simp only [List.forall_mem_cons, ← ih]
    constructor
    · rintro ⟨⟨hbefore, hearlier⟩, hafter⟩
      exact ⟨(hstep hbefore).mp hafter, hearlier, hbefore⟩
    · rintro ⟨hspared, hearlier, hbefore⟩
      exact ⟨⟨hbefore, hearlier⟩, (hstep hbefore).mpr hspared⟩

instance (server : Server) : Decidable server.NoMemberless :=
  decidable_of_iff (∀ entry ∈ server.rooms.entries, entry.2.members.entries ≠ [])
    ⟨fun hall roomname room hroom => hall ⟨roomname, room⟩ (AList.mem_lookup_iff.mp hroom),
      fun hnone entry hentry => hnone entry.1 entry.2 (AList.mem_lookup_iff.mpr hentry)⟩

/-- One of two members leaves a room and the other one stays: nobody is bereaved. -/
theorem no_memberless_room_in_meeting :
    ∃ (history : List (World × Event)) (world : World), (world.server.rooms.lookup (.lit "sala")).isSome = true ∧
      world.server.NoMemberless ∧ ∀ moment ∈ history, ¬ Bereaves reliable moment.1 moment.2 := by
  obtain ⟨history, world, hrun, htest⟩ := exists_run_of_serve_all reliable
    (meeting ++ [.request 4 { message_init with type := .DISCONNECT }])
    (fun history world => (world.server.rooms.lookup (.lit "sala")).isSome &&
      (decide (∀ moment ∈ history, moment.1.server.NoMemberless) && decide world.server.NoMemberless))
    (by decide +kernel)
  simp only [Bool.and_eq_true, decide_eq_true_eq] at htest
  exact ⟨history, world, htest.1, htest.2.2, (no_memberless_room_iff hrun).mp htest.2⟩

/-- When the only member of a room disconnects, the room stays without
members. -/
theorem disconnect_leaves_memberless_room :
    ¬ ∀ (net : Net) (history : List (World × Event)) (world : World), ServerRun net history world →
      ∀ roomname room, world.server.rooms.lookup roomname = some room → room.members.entries ≠ [] := by
  intro hnone
  obtain ⟨history, world, hrun, htest⟩ := exists_run_of_serve_all reliable
    [.request 4 { message_init with type := .IDENTIFY, username := some (.lit "ana") },
      .request 4 { message_init with type := .NEW_ROOM, roomname := some (.lit "sala") },
      .request 4 { message_init with type := .DISCONNECT }]
    (fun _ world => (world.server.rooms.lookup (.lit "sala")).any fun room => room.members.entries.isEmpty)
    (by decide +kernel)
  obtain ⟨room, hroom, hempty⟩ := (Option.any_eq_true ..).mp htest
  exact hnone reliable history world hrun (.lit "sala") room hroom (List.isEmpty_iff.mp hempty)

end ojalvo
