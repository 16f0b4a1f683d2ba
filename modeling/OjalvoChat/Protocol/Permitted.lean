import OjalvoChat.Protocol.Consistent

namespace ojalvo

/-- The registered user behind a descriptor. -/
structure Server.Sender (server : Server) (client_fd : Fd) (user : User) : Prop where
  registered : user ∈ server.users
  connected : user.socket_fd = client_fd

/-- The requests that make a handler use a field that they lack. -/
inductive UsesAbsentField (server : Server) (client_fd : Fd) (msg_in : Message) : Prop where
  | addressee (user : User) (htype : msg_in.type = .TEXT) (hsender : server.Sender client_fd user)
    (husername : msg_in.username = none)
  | text (user user_to : User) (htype : msg_in.type = .TEXT) (hsender : server.Sender client_fd user)
    (haddressee : user_to ∈ server.users) (husername : msg_in.username = some user_to.username)
    (hother : user.username ≠ user_to.username) (htext : msg_in.text = none)
  | public_text (user : User) (htype : msg_in.type = .PUBLIC_TEXT) (hsender : server.Sender client_fd user)
    (htext : msg_in.text = none)

/-- The reactions that a request can cause, each with what the server has
checked before. -/
inductive Permitted (server : Server) (client_fd : Fd) (msg_in : Message) : Reaction → Prop where
  | ignore (answer : Bool) : Permitted server client_fd msg_in (.ignore answer)
  | crash (habsent : UsesAbsentField server client_fd msg_in) : Permitted server client_fd msg_in .crash
  | answer (operation result : CString) (extra : Option CString) :
    Permitted server client_fd msg_in (.reply client_fd (response operation result extra))
  | user_list (user : User) (htype : msg_in.type = .USERS) (hsender : server.Sender client_fd user) :
    Permitted server client_fd msg_in (.reply client_fd (user_list_message server.users))
  | room_user_list (roomname : CString) (room : Room) (htype : msg_in.type = .ROOM_USERS)
    (hroom : server.rooms.lookup roomname = some room) :
    Permitted server client_fd msg_in (.reply client_fd (room_user_list_message roomname room.members))
  | text (user user_to : User) (text : CString) (htype : msg_in.type = .TEXT)
    (hsender : server.Sender client_fd user) (haddressee : user_to ∈ server.users)
    (hother : user.username ≠ user_to.username) (htext : msg_in.text = some text) :
    Permitted server client_fd msg_in (.reply user_to.socket_fd (text_from_notice user.username text))
  | refuse (operation result : CString) (extra : Option CString) :
    Permitted server client_fd msg_in (.refuse (response operation result extra))
  | leave : Permitted server client_fd msg_in .leave
  | register (user : User) (hfd : user.socket_fd = client_fd) (hactive : user.status = .ACTIVE)
    (hname : server.users.find_by_username user.username = none)
    (hunknown : server.users.find_by_client_fd user.socket_fd = none) :
    Permitted server client_fd msg_in (.register user)
  | set_status (user : User) (status : UserStatus) (text : CString) (htype : msg_in.type = .STATUS)
    (hsender : server.Sender client_fd user) (hread : user_status_from_string (some text) = some status)
    (hchange : user.status ≠ status) :
    Permitted server client_fd msg_in (.set_status user status text)
  | publish (user : User) (text : CString) (htype : msg_in.type = .PUBLIC_TEXT)
    (hsender : server.Sender client_fd user) (htext : msg_in.text = some text) :
    Permitted server client_fd msg_in (.publish (public_text_from_notice user.username text))
  | create (user : User) (requested : CString)
    (named : 0 < strlen (requested.cut 16) ∧ strlen (requested.cut 16) ≤ ROOM_ROOMNAME_MAX_LENGTH)
    (htype : msg_in.type = .NEW_ROOM) (hsender : server.Sender client_fd user)
    (hroomname : msg_in.roomname = some requested) (hfree : server.rooms.lookup (requested.cut 16) = none) :
    Permitted server client_fd msg_in (.create (room_new (requested.cut 16) named) user)
  | invite (user : User) (roomname : CString) (room : Room) (usernames : List CString) (invited_users : List User)
    (htype : msg_in.type = .INVITE) (hsender : server.Sender client_fd user)
    (hroomname : msg_in.roomname = some roomname) (husernames : msg_in.usernames = some usernames)
    (hroom : server.rooms.lookup roomname = some room) (hmember : user ∈ room.members)
    (hinvited : ∀ invited ∈ invited_users, invited ∈ server.users ∧ invited.username ∈ usernames) :
    Permitted server client_fd msg_in (.invite roomname invited_users (invitation_notice user.username roomname))
  | join (user : User) (roomname : CString) (room : Room) (htype : msg_in.type = .JOIN_ROOM)
    (hsender : server.Sender client_fd user) (hroomname : msg_in.roomname = some roomname)
    (hroom : server.rooms.lookup roomname = some room)
    (houtside : room.members.contains_by_client_fd user.socket_fd = false) (hguest : user ∈ room.guests) :
    Permitted server client_fd msg_in (.join roomname user)
  | tell_room (user : User) (roomname : CString) (room : Room) (text : CString) (htype : msg_in.type = .ROOM_TEXT)
    (hsender : server.Sender client_fd user) (hroomname : msg_in.roomname = some roomname)
    (hroom : server.rooms.lookup roomname = some room) (hmember : user ∈ room.members)
    (htext : msg_in.text = some text) :
    Permitted server client_fd msg_in (.tell_room roomname (room_text_from_notice roomname user.username text))
  | quit (user : User) (roomname : CString) (room : Room) (htype : msg_in.type = .LEAVE_ROOM)
    (hsender : server.Sender client_fd user) (hroomname : msg_in.roomname = some roomname)
    (hroom : server.rooms.lookup roomname = some room) (hmember : user ∈ room.members) :
    Permitted server client_fd msg_in (.quit roomname user)

/-- The invited users are found if all of the names are found. -/
theorem invited_records_eq_ok_iff {server : Server} {usernames : List CString} {invited_users : List User} :
    invited_records server usernames = .ok invited_users ↔
      usernames.map server.users.find_by_username = invited_users.map some := by
  induction usernames generalizing invited_users with
  | nil =>
    cases invited_users with
    | nil => exact iff_of_true rfl rfl
    | cons first others => exact iff_of_false nofun nofun
  | cons username rest ih =>
    simp only [invited_records]
    cases hfind : server.users.find_by_username username with
    | none =>
      refine iff_of_false nofun fun hmap => ?_
      cases invited_users with
      | nil => cases hmap
      | cons first others => cases hfind.symm.trans (List.cons.inj hmap).1
    | some user =>
      cases invited_users with
      | nil =>
        refine iff_of_false (fun hok => ?_) nofun
        cases hrest : invited_records server rest with
        | error missing =>
          rw [hrest] at hok
          cases hok
        | ok others =>
          rw [hrest] at hok
          cases hok
      | cons first others =>
        rw [List.map_cons, List.map_cons, List.cons.injEq, hfind, Option.some.injEq, ← ih]
        cases hrest : invited_records server rest with
        | error missing => exact iff_of_false nofun fun hboth => nomatch hboth.2
        | ok found => simp [Except.map]

/-- The search for the invited users stops at the first name that nobody has. -/
theorem exists_of_invited_records_error {server : Server} {usernames : List CString} {missing : CString}
    (herror : invited_records server usernames = .error missing) :
    ∃ known rest, usernames = known ++ missing :: rest ∧
      (∀ username ∈ known, ∃ user, server.users.find_by_username username = some user) ∧
      server.users.find_by_username missing = none := by
  induction usernames with
  | nil => cases herror
  | cons username others ih =>
    simp only [invited_records] at herror
    cases hfind : server.users.find_by_username username with
    | none =>
      rw [hfind] at herror
      cases herror
      exact ⟨[], others, rfl, fun _ hmem => absurd hmem List.not_mem_nil, hfind⟩
    | some user =>
      rw [hfind] at herror
      cases hrest : invited_records server others with
      | ok users =>
        rw [hrest] at herror
        cases herror
      | error unknown =>
        rw [hrest] at herror
        cases herror
        obtain ⟨known, rest, rfl, hknown, hmissing⟩ := ih hrest
        exact ⟨username :: known, rest, rfl, List.forall_mem_cons.mpr ⟨⟨user, hfind⟩, hknown⟩, hmissing⟩

/-- The invited users are registered, under the names of the list. -/
theorem invited_records_ok {server : Server} (hindexed : server.users.Indexed) {usernames : List CString}
    {invited_users : List User} (hinvited : invited_records server usernames = .ok invited_users) :
    ∀ invited ∈ invited_users, invited ∈ server.users ∧ invited.username ∈ usernames := by
  intro invited hmem
  have hmap := invited_records_eq_ok_iff.mp hinvited
  have hlisted : some invited ∈ usernames.map server.users.find_by_username := hmap ▸ List.mem_map_of_mem hmem
  obtain ⟨username, husername, hfound⟩ := List.mem_map.mp hlisted
  obtain ⟨hregistered, rfl⟩ := hindexed.find_by_username_iff.mp hfound
  exact ⟨hregistered, husername⟩

section Reactions

variable {server : Server} {client_fd : Fd} {msg_in : Message} {user : User}

theorem refuse_invalid : Permitted server client_fd msg_in (.refuse invalid_response) := .refuse ..

/-- IDENTIFY leads to a reaction that is permitted. -/
theorem identify_reaction_permitted :
    Permitted server client_fd msg_in (identify_reaction server client_fd msg_in) := by
  unfold identify_reaction
  cases msg_in.username with
  | none => exact .ignore false
  | some requested =>
    cases hfound : server.users.find_by_client_fd client_fd with
    | some user =>
      by_cases hsame : user.username ≠ requested.cut 8
      · simpa only [hfound, if_pos hsame] using refuse_invalid
      · simpa only [hfound, if_neg hsame] using Permitted.ignore true
    | none =>
      cases htaken : server.users.find_by_username (requested.cut 8) with
      | some user =>
        by_cases hother : user.socket_fd ≠ client_fd
        · simpa only [hfound, htaken, if_pos hother] using Permitted.refuse ..
        · simpa only [hfound, htaken, if_neg hother] using Permitted.ignore true
      | none =>
        cases hinit : user_init (requested.cut 8) client_fd with
        | none => simpa only [hfound, htaken, hinit] using Permitted.ignore false
        | some user =>
          obtain ⟨hname, hfd, hactive⟩ := user_init_eq_some_iff.mp hinit
          simpa only [hfound, htaken, hinit] using
            Permitted.register user hfd hactive (by rwa [hname]) (by rwa [hfd])

variable (hsender : server.Sender client_fd user)
include hsender

theorem status_reaction_permitted (htype : msg_in.type = .STATUS) :
    Permitted server client_fd msg_in (status_reaction user msg_in) := by
  unfold status_reaction
  cases msg_in.status with
  | none => exact .ignore false
  | some text =>
    cases hread : user_status_from_string (some text) with
    | none => simpa only [hread] using refuse_invalid
    | some status =>
      by_cases hchange : user.status ≠ status
      · simpa only [hread, if_pos hchange] using Permitted.set_status user status text htype hsender hread hchange
      · simpa only [hread, if_neg hchange] using Permitted.ignore true

theorem public_text_reaction_permitted (htype : msg_in.type = .PUBLIC_TEXT) :
    Permitted server client_fd msg_in (public_text_reaction user msg_in) := by
  unfold public_text_reaction
  cases htext : msg_in.text with
  | none => exact .crash (.public_text user htype hsender htext)
  | some text => exact .publish user text htype hsender htext

theorem new_room_reaction_permitted (htype : msg_in.type = .NEW_ROOM) :
    Permitted server client_fd msg_in (new_room_reaction server user msg_in) := by
  unfold new_room_reaction
  cases hroomname : msg_in.roomname with
  | none => exact .ignore false
  | some requested =>
    cases hexists : server.rooms.lookup requested with
    | some room =>
      simp only [hexists, hsender.connected]
      exact .answer ..
    | none =>
      cases hfree : server.rooms.lookup (requested.cut 16) with
      | some room => simpa only [hexists, hfree] using Permitted.ignore false
      | none =>
        by_cases hnamed : 0 < strlen (requested.cut 16) ∧ strlen (requested.cut 16) ≤ ROOM_ROOMNAME_MAX_LENGTH
        · simpa only [hexists, hfree, dif_pos hnamed] using
            Permitted.create user requested hnamed htype hsender hroomname hfree
        · simpa only [hexists, hfree, dif_neg hnamed] using Permitted.ignore false

/-- The requests about one room. -/
theorem room_reaction_permitted (operation : CString) (react : CString → Room → Reaction)
    (hreact : ∀ roomname room, msg_in.roomname = some roomname → server.rooms.lookup roomname = some room →
      Permitted server client_fd msg_in (react roomname room)) :
    Permitted server client_fd msg_in (room_reaction server user operation msg_in.roomname react) := by
  unfold room_reaction
  cases hroomname : msg_in.roomname with
  | none => exact .ignore false
  | some roomname =>
    cases hroom : server.rooms.lookup roomname with
    | none =>
      simp only [hroom, hsender.connected]
      exact .answer ..
    | some room => simpa only [hroom] using hreact roomname room hroomname hroom

/-- ROOM_USERS tells the members of a room that exists, or refuses. -/
theorem room_users_reaction_permitted (htype : msg_in.type = .ROOM_USERS) :
    Permitted server client_fd msg_in (room_users_reaction server user msg_in) := by
  refine room_reaction_permitted hsender _ _ fun roomname room _ hroom => ?_
  cases room.members.contains_by_client_fd user.socket_fd with
  | true =>
    rw [hsender.connected]
    exact .room_user_list roomname room htype hroom
  | false =>
    rw [hsender.connected]
    exact .answer ..

variable (hserver : server.Consistent)
include hserver

/-- TEXT reaches a registered addressee, or is refused. -/
theorem text_reaction_permitted (htype : msg_in.type = .TEXT) :
    Permitted server client_fd msg_in (text_reaction server user msg_in) := by
  unfold text_reaction
  cases husername : msg_in.username with
  | none => exact .crash (.addressee user htype hsender husername)
  | some username =>
    cases haddressee : server.users.find_by_username username with
    | none =>
      simp only [haddressee, hsender.connected]
      exact .answer ..
    | some user_to =>
      obtain ⟨hregistered, hname⟩ := hserver.users.find_by_username_iff.mp haddressee
      by_cases hself : user.username = user_to.username
      · simpa only [haddressee, if_pos hself] using Permitted.ignore true
      · cases htext : msg_in.text with
        | none =>
          simpa only [haddressee, if_neg hself] using
            Permitted.crash (.text user user_to htype hsender hregistered (by rw [husername, hname]) hself htext)
        | some text =>
          simpa only [haddressee, if_neg hself] using
            Permitted.text user user_to text htype hsender hregistered hself htext

/-- INVITE is sent by a member to registered users, or refused. -/
theorem invite_reaction_permitted (htype : msg_in.type = .INVITE) :
    Permitted server client_fd msg_in (invite_reaction server user msg_in) := by
  unfold invite_reaction
  cases hroomname : msg_in.roomname with
  | none => exact .ignore false
  | some roomname =>
    cases husernames : msg_in.usernames with
    | none => exact .ignore false
    | some usernames =>
      cases hroom : server.rooms.lookup roomname with
      | none =>
        simp only [hroom, hsender.connected]
        exact .answer ..
      | some room =>
        have hcopies := hserver.rooms roomname room hroom
        cases hcontains : room.members.contains_by_client_fd user.socket_fd with
        | false => simpa [hroom, hcontains] using refuse_invalid
        | true =>
          have hmember := (hcopies.mem_members_iff hserver.users hsender.registered).mpr hcontains
          cases hinvited : invited_records server usernames with
          | error missing =>
            simp only [hroom, hcontains, if_true, hinvited]
            rw [hsender.connected]
            exact .answer ..
          | ok invited_users =>
            simpa only [hroom, hcontains, if_true, hinvited] using
              Permitted.invite user roomname room usernames invited_users htype hsender hroomname husernames hroom
                hmember (invited_records_ok hserver.users hinvited)

/-- JOIN_ROOM lets a guest in, or refuses. -/
theorem join_room_reaction_permitted (htype : msg_in.type = .JOIN_ROOM) :
    Permitted server client_fd msg_in (join_room_reaction server user msg_in) := by
  refine room_reaction_permitted hsender _ _ fun roomname room hroomname hroom => ?_
  have hcopies := hserver.rooms roomname room hroom
  cases houtside : room.members.contains_by_client_fd user.socket_fd with
  | true => exact .ignore true
  | false =>
    cases hguest : room.guests.contains_by_client_fd user.socket_fd with
    | true =>
      exact .join user roomname room htype hsender hroomname hroom houtside
        ((hcopies.mem_guests_iff hserver.users hsender.registered).mpr hguest)
    | false =>
      rw [hsender.connected]
      exact .answer ..

theorem room_text_reaction_permitted (htype : msg_in.type = .ROOM_TEXT) :
    Permitted server client_fd msg_in (room_text_reaction server user msg_in) := by
  unfold room_text_reaction
  cases htext : msg_in.text with
  | none => exact .ignore false
  | some text =>
    refine room_reaction_permitted hsender _ _ fun roomname room hroomname hroom => ?_
    have hcopies := hserver.rooms roomname room hroom
    cases hcontains : room.members.contains_by_client_fd user.socket_fd with
    | true =>
      exact .tell_room user roomname room text htype hsender hroomname hroom
        ((hcopies.mem_members_iff hserver.users hsender.registered).mpr hcontains) htext
    | false =>
      rw [hsender.connected]
      exact .answer ..

/-- LEAVE_ROOM is for members. -/
theorem leave_room_reaction_permitted (htype : msg_in.type = .LEAVE_ROOM) :
    Permitted server client_fd msg_in (leave_room_reaction server user msg_in) := by
  refine room_reaction_permitted hsender _ _ fun roomname room hroomname hroom => ?_
  have hcopies := hserver.rooms roomname room hroom
  cases hcontains : room.members.contains_by_client_fd user.socket_fd with
  | true =>
    exact .quit user roomname room htype hsender hroomname hroom
      ((hcopies.mem_members_iff hserver.users hsender.registered).mpr hcontains)
  | false =>
    rw [hsender.connected]
    exact .answer ..

end Reactions

/-- Whatever a registered client asks for, the reaction is permitted. -/
theorem registered_reaction_permitted {server : Server} {client_fd : Fd} {msg_in : Message} {user : User}
    (hserver : server.Consistent) (hsender : server.Sender client_fd user) :
    Permitted server client_fd msg_in (registered_reaction server user msg_in) := by
  unfold registered_reaction
  cases htype : msg_in.type
  case STATUS => exact status_reaction_permitted hsender htype
  case USERS =>
    simp only [hsender.connected]
    exact .user_list user htype hsender
  case TEXT => exact text_reaction_permitted hsender hserver htype
  case PUBLIC_TEXT => exact public_text_reaction_permitted hsender htype
  case NEW_ROOM => exact new_room_reaction_permitted hsender htype
  case INVITE => exact invite_reaction_permitted hsender hserver htype
  case JOIN_ROOM => exact join_room_reaction_permitted hsender hserver htype
  case ROOM_USERS => exact room_users_reaction_permitted hsender htype
  case ROOM_TEXT => exact room_text_reaction_permitted hsender hserver htype
  case LEAVE_ROOM => exact leave_room_reaction_permitted hsender hserver htype
  all_goals exact .ignore true

/-- A request of a registered user is dispatched on its type. -/
theorem reaction_of_sender {server : Server} {client_fd : Fd} {msg_in : Message} {user : User}
    (hserver : server.Consistent) (hsender : server.Sender client_fd user)
    (htype : msg_in.type ≠ .UNKNOWN ∧ msg_in.type ≠ .DISCONNECT ∧ msg_in.type ≠ .IDENTIFY) :
    reaction server client_fd msg_in = registered_reaction server user msg_in := by
  have hfound := hserver.users.find_by_client_fd_iff.mpr ⟨hsender.registered, hsender.connected⟩
  simp [reaction, htype, hfound]

/-- Whatever the request, the server reacts as it may. -/
theorem reaction_permitted {server : Server} (client_fd : Fd) (msg_in : Message) (hserver : server.Consistent) :
    Permitted server client_fd msg_in (reaction server client_fd msg_in) := by
  unfold reaction
  by_cases hunknown : msg_in.type = .UNKNOWN
  · rw [if_pos hunknown]
    exact .ignore false
  by_cases hdisconnect : msg_in.type = .DISCONNECT
  · rw [if_neg hunknown, if_pos hdisconnect]
    exact .leave
  by_cases hidentify : msg_in.type = .IDENTIFY
  · rw [if_neg hunknown, if_neg hdisconnect, if_pos hidentify]
    exact identify_reaction_permitted
  rw [if_neg hunknown, if_neg hdisconnect, if_neg hidentify]
  cases hfound : server.users.find_by_client_fd client_fd with
  | none => exact .refuse ..
  | some user =>
    obtain ⟨hregistered, hconnected⟩ := hserver.users.find_by_client_fd_iff.mp hfound
    exact registered_reaction_permitted hserver ⟨hregistered, hconnected⟩

end ojalvo
