import Mathlib.Algebra.Order.BigOperators.Group.List
import Mathlib.Algebra.Order.Ring.Nat
import OjalvoChat.Protocol.Connected

namespace ojalvo

/-- Everybody except one client keeps their place. -/
structure KeepsOthers (client_fd : Fd) (before after : Server) : Prop where
  users : ∀ fd username, fd ≠ client_fd → before.Registered fd username → after.Registered fd username
  members : ∀ roomname fd username, fd ≠ client_fd →
    before.Member roomname fd username → after.Member roomname fd username
  guests : ∀ roomname fd username, fd ≠ client_fd →
    before.Guest roomname fd username → after.Guest roomname fd username

/-- A text for everybody whose encoding, with the name of its author, does not
fit the buffer of `server_send`, while somebody else is there to receive it. -/
inductive Overflows (server : Server) (client_fd : Fd) (msg_in : Message) : Prop where
  | public_text (sender other : User) (text : CString) (htype : msg_in.type = .PUBLIC_TEXT)
    (hsender : sender ∈ server.users.entries) (hfd : sender.socket_fd = client_fd)
    (hother : other ∈ server.users.entries) (hdifferent : other.socket_fd ≠ client_fd)
    (htext : msg_in.text = some text)
    (hlong : SERVER_BUFFER_SIZE ≤ 51 + escaped_length sender.username + escaped_length text)

/-- The last member leaves a room to which somebody else is invited: the guest list
goes with the room. -/
inductive Abandons (server : Server) (client_fd : Fd) (msg_in : Message) : Prop
  | leave_room (roomname username guestname : CString) (guest_fd : Fd) (htype : msg_in.type = .LEAVE_ROOM)
    (hroomname : msg_in.roomname = some roomname) (hmember : server.Member roomname client_fd username)
    (hlast : ∀ fd name, server.Member roomname fd name → fd = client_fd)
    (hguest : server.Guest roomname guest_fd guestname) (hdifferent : guest_fd ≠ client_fd)

section Fits

/-- A message that fits the buffer of `server_send`. -/
def Message.Fits (message : Message) : Prop := (message_to_json message SERVER_BUFFER_SIZE).isSome = true

theorem fits_iff {message : Message} {first : CString × CString} {rest : List (CString × CString)}
    (hfields : message_object message = string_object (first :: rest)) :
    message.Fits ↔
      ((first :: rest).map fun field => escaped_length field.1 + escaped_length field.2 + 6).sum + 1 <
        SERVER_BUFFER_SIZE := by
  rw [Message.Fits, message_to_json_isSome_iff, hfields, length_print_string_object]

/-- A few short fields fit. -/
theorem fits_of_short {message : Message} {first : CString × CString} {rest : List (CString × CString)}
    (hfields : message_object message = string_object (first :: rest)) (hcount : rest.length ≤ 4)
    (hshort : ∀ field ∈ first :: rest, strlen field.1 ≤ 16 ∧ strlen field.2 ≤ 16) : message.Fits := by
  rw [fits_iff hfields]
  have hbound : ∀ size ∈ (first :: rest).map fun field => escaped_length field.1 + escaped_length field.2 + 6,
      size ≤ 198 := by
    intro size hmem
    obtain ⟨field, hfield, rfl⟩ := List.mem_map.mp hmem
    obtain ⟨hname, hvalue⟩ := hshort field hfield
    have hnamesize := escaped_length_le field.1
    have hvaluesize := escaped_length_le field.2
    omega
  have hsum := List.sum_le_card_nsmul _ 198 hbound
  simp only [List.length_map, List.length_cons, nsmul_eq_mul, Nat.cast_id] at hsum
  change _ < 1024 * 1024
  omega

theorem disconnected_fits (user : User) : (disconnected_notice user.username).Fits := by
  have hname : strlen user.username ≤ 16 := user.named.2.trans (by decide)
  have hfields : message_object (disconnected_notice user.username) =
      string_object [(.lit "type", .lit "DISCONNECTED"), (.lit "username", user.username)] := rfl
  refine fits_of_short hfields (by simp) ?_
  simp only [List.forall_mem_cons, List.not_mem_nil, false_implies, implies_true, and_true]
  exact ⟨by decide, by decide, hname⟩

theorem new_user_fits (user : User) : (new_user_notice user.username).Fits := by
  have hname : strlen user.username ≤ 16 := user.named.2.trans (by decide)
  have hfields : message_object (new_user_notice user.username) =
      string_object [(.lit "type", .lit "NEW_USER"), (.lit "username", user.username)] := rfl
  refine fits_of_short hfields (by simp) ?_
  simp only [List.forall_mem_cons, List.not_mem_nil, false_implies, implies_true, and_true]
  exact ⟨by decide, by decide, hname⟩

theorem new_status_fits (user : User) (status : UserStatus) :
    (new_status_notice user.username (user_status_to_string status)).Fits := by
  have hname : strlen user.username ≤ 16 := user.named.2.trans (by decide)
  have hstatus : strlen (user_status_to_string status) ≤ 16 := by cases status <;> decide
  have hfields : message_object (new_status_notice user.username (user_status_to_string status)) = string_object
      [(.lit "type", .lit "NEW_STATUS"), (.lit "username", user.username),
        (.lit "status", user_status_to_string status)] := rfl
  refine fits_of_short hfields (by simp) ?_
  simp only [List.forall_mem_cons, List.not_mem_nil, false_implies, implies_true, and_true]
  exact ⟨by decide, ⟨by decide, hname⟩, by decide, hstatus⟩

theorem invitation_fits (user : User) (room : Room) : (invitation_notice user.username room.roomname).Fits := by
  have hname : strlen user.username ≤ 16 := user.named.2.trans (by decide)
  have hroomname : strlen room.roomname ≤ 16 := room.named.2
  have hfields : message_object (invitation_notice user.username room.roomname) = string_object
      [(.lit "type", .lit "INVITATION"), (.lit "username", user.username), (.lit "roomname", room.roomname)] := rfl
  refine fits_of_short hfields (by simp) ?_
  simp only [List.forall_mem_cons, List.not_mem_nil, false_implies, implies_true, and_true]
  exact ⟨by decide, ⟨by decide, hname⟩, by decide, hroomname⟩

theorem public_text_fits_iff (username text : CString) :
    (public_text_from_notice username text).Fits ↔
      51 + escaped_length username + escaped_length text < SERVER_BUFFER_SIZE := by
  have hfields : message_object (public_text_from_notice username text) = string_object
      [(.lit "type", .lit "PUBLIC_TEXT_FROM"), (.lit "username", username), (.lit "text", text)] := rfl
  have hnames : escaped_length (.lit "type") = 4 ∧ escaped_length (.lit "PUBLIC_TEXT_FROM") = 16 ∧
      escaped_length (.lit "username") = 8 ∧ escaped_length (.lit "text") = 4 := by decide +kernel
  obtain ⟨htype, hvalue, husername, htext⟩ := hnames
  rw [fits_iff hfields]
  simp only [List.map_cons, List.map_nil, List.sum_cons, List.sum_nil, htype, hvalue, husername, htext]
  omega

end Fits

section Open

/-- The descriptors of all registered users but one are open. -/
def Server.OthersOpen (server : Server) (trace : List Effect) (client_fd : Fd) : Prop :=
  ∀ user ∈ server.users, user.socket_fd ≠ client_fd → is_open trace user.socket_fd = true

variable {server : Server} {trace : List Effect} {client_fd : Fd}

theorem Server.OthersOpen.after_send (hopen : server.OthersOpen trace client_fd) (fd : Fd) (message : Message)
    (sent : Bool) : server.OthersOpen (trace ++ [.send fd message sent]) client_fd := by
  intro user huser hother
  rw [is_open_append_send]
  exact hopen user huser hother

/-- A message that fits reaches everybody whose descriptor is open. -/
theorem failures_broadcast_sockets {message : Message} (hfits : message.Fits) {fds : List Fd} (trace : List Effect)
    (hopen : ∀ fd ∈ fds, is_open trace fd = true) : failures (broadcast sockets message trace fds) = [] := by
  induction fds generalizing trace with
  | nil => rfl
  | cons fd rest ih =>
    have hsent : sockets trace fd message = true := by rw [sockets_of_fits hfits, hopen fd List.mem_cons_self]
    have hrest := ih (trace ++ [.send fd message true]) fun other hmem => by
      rw [is_open_append_send]
      exact hopen other (List.mem_cons_of_mem fd hmem)
    rw [broadcast, hsent]
    exact hrest

theorem Server.OthersOpen.unreachable_nil (hopen : server.OthersOpen trace client_fd) (hindexed : server.users.Indexed)
    {message : Message} (hfits : message.Fits) : unreachable sockets client_fd message server trace = [] := by
  refine failures_broadcast_sockets hfits trace fun fd hmem => ?_
  obtain ⟨hother, user, huser, rfl⟩ := mem_recipients.mp hmem
  exact hopen user (hindexed.mem_entries.mp huser) hother

/-- Only the client itself is gone when it departs. -/
theorem Server.OthersOpen.departing_eq (hopen : server.OthersOpen trace client_fd) (hindexed : server.users.Indexed) :
    departing sockets server trace client_fd = [client_fd] := by
  unfold departing departure_notices
  cases server.users.find_by_client_fd client_fd with
  | none => rfl
  | some user => exact congrArg (· ++ [client_fd]) (hopen.unreachable_nil hindexed (disconnected_fits user))

theorem Server.OthersOpen.mem_unanswered (hopen : server.OthersOpen trace client_fd) (hindexed : server.users.Indexed)
    {message : Message} {fd gone : Fd} {answered : List Effect → List Fd}
    (hanswered : answered (trace ++ [.send fd message (sockets trace fd message)]) = [])
    (hgone : gone ∈ unanswered sockets fd message client_fd server trace answered) : gone = client_fd := by
  unfold unanswered at hgone
  dsimp only at hgone
  split at hgone
  · rw [hanswered] at hgone
    cases hgone
  · rw [(hopen.after_send _ _ _).departing_eq hindexed] at hgone
    exact List.mem_singleton.mp hgone

theorem Server.OthersOpen.mem_unanswered_nil (hopen : server.OthersOpen trace client_fd)
    (hindexed : server.users.Indexed) {message : Message} {fd gone : Fd}
    (hgone : gone ∈ unanswered sockets fd message client_fd server trace fun _ => []) : gone = client_fd :=
  hopen.mem_unanswered hindexed rfl hgone

theorem World.Connected.others_open {world : World} (hconnected : world.Connected) (hready : world.Ready)
    (client_fd : Fd) : world.server.OthersOpen world.trace client_fd := fun user hmem _ =>
  hconnected user.socket_fd user.username (hready.consistent.users.lists_iff.mpr ⟨user, hmem, rfl, rfl⟩)

end Open

section Casualties

variable {server : Server} {trace : List Effect} {client_fd : Fd} {msg_in : Message} {reaction : Reaction}

theorem Server.OthersOpen.register (hopen : server.OthersOpen trace client_fd) (hindexed : server.users.Indexed)
    {user : User} (hname : ∀ other ∈ server.users, other.username ≠ user.username) (hfd : user.socket_fd = client_fd) :
    (server.register user).OthersOpen trace client_fd := by
  intro other hmem hother
  rcases (UsersTable.mem_add hindexed hname).mp hmem with rfl | hold
  · exact absurd hfd hother
  · exact hopen other hold hother

theorem Server.OthersOpen.set_status (hopen : server.OthersOpen trace client_fd) (hindexed : server.users.Indexed)
    (status : UserStatus) : (server.set_status client_fd status).OthersOpen trace client_fd := by
  intro other hmem hother
  obtain ⟨old, hold, rfl⟩ := (UsersTable.mem_change_status_by_client_fd hindexed).mp hmem
  by_cases hfd : old.socket_fd = client_fd
  · rw [if_pos hfd] at hother
    exact absurd hfd hother
  · rw [if_neg hfd]
    exact hopen old hold hfd

theorem Server.OthersOpen.invitations {server : Server} {trace : List Effect} (hserver : server.Consistent)
    (hopen : server.OthersOpen trace client_fd) (roomname : CString) {invitation : Message} (hfits : invitation.Fits)
    {invited_users : List User} (hinvited : ∀ invited ∈ invited_users, invited ∈ server.users) :
    ∀ gone ∈ (settle_invitations sockets roomname invitation invited_users server trace).2, gone = client_fd := by
  induction invited_users generalizing server trace with
  | nil => exact List.forall_mem_nil _
  | cons user rest ih =>
    unfold settle_invitations
    by_cases hinside : server.in_room roomname user
    · rw [if_pos hinside]
      exact List.forall_mem_nil _
    · have huser := hinvited user List.mem_cons_self
      have hadded := hserver.add_guest huser (Bool.not_eq_true _ ▸ hinside)
      have hstillopen : (server.add_guest roomname user).OthersOpen trace client_fd := hopen
      rw [if_neg hinside]
      dsimp only
      split
      · have hrest := fun other hother => hinvited other (List.mem_cons_of_mem user hother)
        exact ih hadded (hstillopen.after_send _ _ _) hrest
      · rename_i hunsent
        have hself : user.socket_fd = client_fd := by
          by_contra hother
          exact hunsent (by rw [sockets_of_fits hfits, hopen user huser hother])
        rw [hself, (hstillopen.after_send _ _ _).departing_eq hadded.users]
        exact fun gone hgone => List.mem_singleton.mp hgone

/-- Unless a text for everybody overflows, nobody but the client can be gone. -/
theorem Permitted.casualties_self (hpermitted : Permitted server client_fd msg_in reaction)
    (hserver : server.Consistent)
    (hopen : server.OthersOpen trace client_fd) (hfits : ¬ Overflows server client_fd msg_in) :
    ∀ gone ∈ reaction.casualties sockets client_fd server trace, gone = client_fd := by
  intro gone hgone
  cases hpermitted with
  | ignore answer => cases hgone
  | crash habsent => cases hgone
  | answer operation result extra => exact hopen.mem_unanswered_nil hserver.users hgone
  | user_list user htype hsender => exact hopen.mem_unanswered_nil hserver.users hgone
  | room_user_list roomname room htype hroom => exact hopen.mem_unanswered_nil hserver.users hgone
  | text user user_to text htype hsender haddressee hother htext =>
    exact hopen.mem_unanswered_nil hserver.users hgone
  | refuse operation result extra =>
    simp only [Reaction.casualties, (hopen.after_send _ _ _).departing_eq hserver.users] at hgone
    exact List.mem_singleton.mp hgone
  | leave =>
    simp only [Reaction.casualties, hopen.departing_eq hserver.users] at hgone
    exact List.mem_singleton.mp hgone
  | register user hfd hactive hname hunknown =>
    have hregistered := hserver.register hname hunknown
    have hstillopen := hopen.register hserver.users (hserver.users.find_by_username_eq_none_iff.mp hname) hfd
    exact hstillopen.mem_unanswered hregistered.users
      ((hstillopen.after_send _ _ _).unreachable_nil hregistered.users (new_user_fits user)) hgone
  | set_status user status text htype hsender hread hchange =>
    have hstillopen := hopen.set_status hserver.users status
    simp only [Reaction.casualties, hsender.connected, ← user_status_to_string_of_from_string hread,
      hstillopen.unreachable_nil (hserver.set_status client_fd status).users (new_status_fits user status)] at hgone
    cases hgone
  | publish user text htype hsender htext =>
    have hregistered := hserver.users.mem_entries.mpr hsender.registered
    by_cases hlong : SERVER_BUFFER_SIZE ≤ 51 + escaped_length user.username + escaped_length text
    · obtain ⟨hother, other, hmem, rfl⟩ := mem_recipients.mp (mem_of_mem_failures_broadcast hgone)
      exact absurd (.public_text user other text htype hregistered hsender.connected hmem hother htext hlong) hfits
    · have hshort := (public_text_fits_iff user.username text).mpr (by omega)
      simp only [Reaction.casualties, hopen.unreachable_nil hserver.users hshort] at hgone
      cases hgone
  | create user requested named htype hsender hroomname hfree =>
    exact Server.OthersOpen.mem_unanswered_nil hopen hserver.users hgone
  | invite user roomname room usernames invited_users htype hsender hroomname husernames hroom hmember hinvited =>
    have hname := hserver.keyed roomname room hroom
    subst hname
    exact hopen.invitations hserver room.roomname (invitation_fits user room)
      (fun invited hmem => (hinvited invited hmem).1) gone hgone
  | join user roomname room htype hsender hroomname hroom houtside hguest =>
    exact Server.OthersOpen.mem_unanswered_nil hopen hserver.users hgone
  | tell_room user roomname room text htype hsender hroomname hroom hmember htext => cases hgone
  | quit user roomname room htype hsender hroomname hroom hmember => cases hgone

end Casualties

section Settled

variable {net : Net} {server : Server} {trace : List Effect} {client_fd fd : Fd} {msg_in : Message}
  {reaction : Reaction} {roomname username : CString}

/-- The name of another connection is not the name of the sender. -/
theorem username_ne_of_fd_ne (hserver : server.Consistent) {user : User} (hsender : server.Sender client_fd user)
    (hother : fd ≠ client_fd) (hregistered : server.Registered fd username) : username ≠ user.username := by
  rintro rfl
  obtain ⟨other, hmem, hname, rfl⟩ := hserver.users.lists_iff.mp hregistered
  rw [UsersTable.eq_of_username_eq hmem hsender.registered hname] at hother
  exact hother hsender.connected

theorem Permitted.member_settled (hpermitted : Permitted server client_fd msg_in reaction) (hserver : server.Consistent)
    (hother : fd ≠ client_fd) (hmember : server.Member roomname fd username) :
    (reaction.settled net server trace).Member roomname fd username := by
  cases hpermitted with
  | set_status user status text htype hsender hread hchange => exact (hserver.member_set_status _ _).mpr hmember
  | create user requested named htype hsender hroomname hfree =>
    exact (Server.Consistent.member_create_room named hfree).mpr (Or.inl hmember)
  | invite user invited_to room usernames invited_users htype hsender hroomname husernames hroom hinside hinvited =>
    exact member_settle_invitations.mpr hmember
  | join user joined room htype hsender hroomname hroom houtside hguest =>
    exact (hserver.member_let_in hsender.registered hroom houtside).mpr (Or.inl hmember)
  | quit user left_room room htype hsender hroomname hroom hinside =>
    have hdifferent := username_ne_of_fd_ne hserver hsender hother (hserver.registered_of_member hmember)
    exact hserver.member_quit.mpr ⟨hmember, fun _ => hdifferent⟩
  | _ => exact hmember

/-- Who goes and leaves nobody behind in the room leaves the guests without it. -/
theorem abandons_of_not_mem_quit (hserver : server.Consistent) {user : User} {left_room : CString} {room : Room}
    (htype : msg_in.type = .LEAVE_ROOM) (hsender : server.Sender client_fd user)
    (hroomname : msg_in.roomname = some left_room) (hroom : server.rooms.lookup left_room = some room)
    (hinside : user ∈ room.members) (hother : fd ≠ client_fd) (hguest : server.Guest roomname fd username)
    (hgone : roomname ∉ (server.quit left_room user).rooms) : Abandons server client_fd msg_in := by
  obtain rfl : roomname = left_room := by
    by_contra hdifferent
    obtain ⟨other, hfound, -⟩ := hguest
    have hstays : (server.quit left_room user).rooms.lookup roomname = some other := by
      rw [Server.Consistent.lookup_quit, Server.adjust_room_rooms, HashTable.lookup_adjust, hfound]
      simp [hdifferent]
    exact hgone (HashTable.mem_of_lookup hstays)
  have hmembers := (hserver.rooms roomname room hroom).members
  refine .leave_room roomname user.username username fd htype hroomname
    ⟨room, hroom, user, hmembers.mem_entries.mpr hinside, rfl, hsender.connected⟩ (fun member name hmember => ?_)
    hguest hother
  by_contra hdifferent
  have hname := username_ne_of_fd_ne hserver hsender hdifferent (hserver.registered_of_member hmember)
  obtain ⟨left, hleft, -⟩ := hserver.member_quit.mpr ⟨hmember, fun _ => hname⟩
  exact hgone (HashTable.mem_of_lookup hleft)

theorem Permitted.guest_settled (hpermitted : Permitted server client_fd msg_in reaction) (hserver : server.Consistent)
    (hremains : ¬ Abandons server client_fd msg_in) (hother : fd ≠ client_fd)
    (hguest : server.Guest roomname fd username) : (reaction.settled net server trace).Guest roomname fd username := by
  cases hpermitted with
  | set_status user status text htype hsender hread hchange => exact (hserver.guest_set_status _ _).mpr hguest
  | create user requested named htype hsender hroomname hfree =>
    exact (Server.Consistent.guest_create_room named hfree).mpr hguest
  | invite user invited_to room usernames invited_users htype hsender hroomname husernames hroom hinside hinvited =>
    have hregistered := fun invited hmem => (hinvited invited hmem).1
    exact guest_settle_invitations_of_guest hserver invited_to _ hregistered hguest
  | join user joined room htype hsender hroomname hroom houtside hwaiting =>
    have hdifferent := username_ne_of_fd_ne hserver hsender hother (hserver.registered_of_guest hguest)
    exact hserver.guest_let_in.mpr ⟨hguest, fun _ => hdifferent⟩
  | quit user left_room room htype hsender hroomname hroom hinside =>
    refine Server.Consistent.guest_quit.mpr ⟨hguest, ?_⟩
    by_contra hgone
    exact hremains (abandons_of_not_mem_quit hserver htype hsender hroomname hroom hinside hother hguest hgone)
  | _ => exact hguest

/-- A request that only its sender can fall victim to keeps everybody else. -/
theorem Permitted.keeps_others (hpermitted : Permitted server client_fd msg_in reaction) (hserver : server.Consistent)
    (hremains : ¬ Abandons server client_fd msg_in) {fds : List Fd} (hself : ∀ gone ∈ fds, gone = client_fd) :
    KeepsOthers client_fd server ((reaction.settled net server trace).evict_all fds) := by
  have hsettled := hpermitted.settled_consistent net trace hserver
  have hstays : ∀ other, other ≠ client_fd → other ∉ fds := fun other hother hmem => hother (hself other hmem)
  constructor
  · intro other username hother hregistered
    exact hsettled.registered_evict_all.mpr
      ⟨(hpermitted.registered_settled hserver).mpr (Or.inl hregistered), hstays other hother⟩
  · intro roomname other username hother hmember
    exact hsettled.member_evict_all.mpr ⟨hpermitted.member_settled hserver hother hmember, hstays other hother⟩
  · intro roomname other username hother hguest
    exact hsettled.guest_evict_all.mpr ⟨hpermitted.guest_settled hserver hremains hother hguest, hstays other hother⟩

end Settled

section Evictions

/-- A broadcast fails on every recipient that never gets the message. -/
theorem mem_failures_broadcast {net : Net} {message : Message} {fd : Fd}
    (hunsent : ∀ trace, net trace fd message = false)
    {fds : List Fd} (trace : List Effect) (hmem : fd ∈ fds) : fd ∈ failures (broadcast net message trace fds) := by
  induction fds generalizing trace with
  | nil => cases hmem
  | cons first rest ih =>
    rw [broadcast, mem_failures]
    rcases List.mem_cons.mp hmem with rfl | hlater
    · exact ⟨message, by simp [hunsent]⟩
    · obtain ⟨failed, hfailed⟩ := mem_failures.mp (ih (trace ++ [.send first message (net trace first message)]) hlater)
      exact ⟨failed, List.mem_cons_of_mem _ hfailed⟩

variable {server : Server} {trace : List Effect} {client_fd : Fd} {msg_in : Message}

/-- A text that overflows takes everybody away who should have received it. -/
theorem not_keeps_others_of_overflows (hserver : server.Consistent) (hoverflows : Overflows server client_fd msg_in) :
    ¬ KeepsOthers client_fd server
      (final_world ((serve sockets (.request client_fd msg_in)).run (.idle server trace))).server := by
  intro hkeeps
  obtain ⟨sender, other, text, htype, hregistered, hfd, hother, hdifferent, htext, hlong⟩ := hoverflows
  have hsender : server.Sender client_fd sender := ⟨hserver.users.mem_entries.mp hregistered, hfd⟩
  have hreaction : reaction server client_fd msg_in = .publish (public_text_from_notice sender.username text) := by
    rw [reaction_of_sender hserver hsender (by simp [htype])]
    simp only [registered_reaction, htype, public_text_reaction, htext]
  have hunsent : ∀ trace, sockets trace other.socket_fd (public_text_from_notice sender.username text) = false := by
    intro trace
    have hunfit : ¬ (public_text_from_notice sender.username text).Fits := by
      rw [public_text_fits_iff]
      omega
    unfold sockets
    rw [Option.not_isSome_iff_eq_none.mp hunfit]
  have hstill := hkeeps.users other.socket_fd other.username hdifferent ⟨other, hother, rfl, rfl⟩
  rw [final_server_serve sockets trace hserver] at hstill
  simp only [Event.reaction, Event.client_fd, hreaction] at hstill
  refine (hserver.registered_evict_all.mp hstill).2 (mem_failures_broadcast hunsent trace ?_)
  exact mem_recipients.mpr ⟨hdifferent, other, hother, rfl⟩

/-- Who abandons a room evicts its guests. -/
theorem not_keeps_others_of_abandons {net : Net} (hserver : server.Consistent)
    (habandons : Abandons server client_fd msg_in) :
    ¬ KeepsOthers client_fd server
      (final_world ((serve net (.request client_fd msg_in)).run (.idle server trace))).server := by
  intro hkeeps
  obtain ⟨roomname, username, guestname, guest_fd, htype, hroomname, ⟨room, hroom, member, hmember, -, hfd⟩, hlast,
    hguest, hdifferent⟩ := habandons
  have hcopies := hserver.rooms roomname room hroom
  have hsender : server.Sender client_fd member :=
    ⟨hcopies.members_users member (hcopies.members.mem_entries.mp hmember), hfd⟩
  have hinside : room.members.contains_by_client_fd member.socket_fd = true :=
    hcopies.members.contains_by_client_fd_iff.mpr ⟨member, hcopies.members.mem_entries.mp hmember, rfl⟩
  have hreaction : reaction server client_fd msg_in = .quit roomname member := by
    rw [reaction_of_sender hserver hsender (by simp [htype])]
    simp [registered_reaction, htype, leave_room_reaction, room_reaction, hroomname, hroom, hinside]
  have hstill := hkeeps.guests roomname guest_fd guestname hdifferent hguest
  rw [final_server_serve net trace hserver] at hstill
  simp only [Event.reaction, Event.client_fd, hreaction] at hstill
  have hquit : (server.quit roomname member).Guest roomname guest_fd guestname :=
    ((hserver.quit roomname member).guest_evict_all.mp hstill).1
  obtain ⟨left, hleft⟩ := HashTable.exists_lookup_of_mem (Server.Consistent.guest_quit.mp hquit).2
  have hkept := hleft
  rw [Server.Consistent.lookup_quit, Option.filter_eq_some_iff] at hkept
  -- The room is only kept if it has another member, who would be a second one.
  obtain ⟨other, hother⟩ := List.exists_mem_of_ne_nil _ (by simpa using hkept.2)
  obtain ⟨hwas, hname⟩ := hserver.member_quit.mp ⟨left, hleft, other, hother, rfl, rfl⟩
  obtain ⟨user, huser, husername, huserfd⟩ := hserver.registered_of_member hwas
  have hsame : user = member := hserver.users.eq_of_socket_fd_eq (hserver.users.mem_entries.mp huser)
    hsender.registered (huserfd.trans ((hlast _ _ hwas).trans hfd.symm))
  exact hname rfl (husername.symm.trans (congrArg User.username hsame))

end Evictions

/-- In every reachable state a line of a client evicts nobody else, unless it is
a text for everybody that overflows, or leaves a room with guests only. -/
theorem no_eviction_of_others_iff (cJSON_Parse : CString → Option CJson) {history : List (World × Event)}
    {world : World}
    (hrun : ServerRun sockets history world) (client_fd : Fd) (line : List UInt8) :
    KeepsOthers client_fd world.server
        (final_world ((handle_line cJSON_Parse sockets line line.length client_fd).run world)).server ↔
      ¬ ∃ msg_in, line_event cJSON_Parse line line.length client_fd = some (.request client_fd msg_in) ∧
        (Overflows world.server client_fd msg_in ∨ Abandons world.server client_fd msg_in) := by
  obtain ⟨hidle, hserver⟩ := run_ready hrun
  have hopen := (run_connected honest_sockets hrun).others_open ⟨hidle, hserver⟩ client_fd
  rw [hidle, final_world_handle_line]
  cases hline : line_event cJSON_Parse line line.length client_fd with
  | none => exact iff_of_true ⟨fun _ _ _ h => h, fun _ _ _ _ h => h, fun _ _ _ _ h => h⟩ (by simp)
  | some event =>
    have hclient := client_fd_of_line_event hline
    dsimp only
    constructor
    · rintro hkeeps ⟨msg_in, hrequest, hoverflows | habandons⟩
      · cases hrequest
        exact not_keeps_others_of_overflows hserver hoverflows hkeeps
      · cases hrequest
        exact not_keeps_others_of_abandons hserver habandons hkeeps
    · intro hneither
      have hpermitted := event.permitted hserver
      have hfitting : ¬ Overflows world.server event.client_fd event.message := by
        intro hoverflows
        have htype : event.message.type = .PUBLIC_TEXT := by
          cases hoverflows
          assumption
        have hrequest : event = .request client_fd event.message := hclient ▸ Event.eq_request htype (by decide)
        exact hneither ⟨event.message, congrArg some hrequest, Or.inl (hclient ▸ hoverflows)⟩
      have hremains : ¬ Abandons world.server event.client_fd event.message := by
        intro habandons
        have htype : event.message.type = .LEAVE_ROOM := by
          cases habandons
          assumption
        have hrequest : event = .request client_fd event.message := hclient ▸ Event.eq_request htype (by decide)
        exact hneither ⟨event.message, congrArg some hrequest, Or.inr (hclient ▸ habandons)⟩
      rw [final_server_serve sockets _ hserver, ← hclient]
      exact hpermitted.keeps_others hserver hremains
        (hpermitted.casualties_self hserver (hclient ▸ hopen) hfitting)

section LongText

/-- The line of a client that sends a text to everybody. -/
def public_text_line (text : CString) : List UInt8 :=
  (CString.lit "\x7b\"type\":\"PUBLIC_TEXT\",\"text\":\"").bytes ++ text.bytes ++ (CString.lit "\"\x7d").bytes

/-- What `cJSON_Parse` makes of that line. -/
def parse_public_text (text : CString) : CString → Option CJson := fun raw =>
  if raw.bytes = public_text_line text then
    some (string_object [(.lit "type", .lit "PUBLIC_TEXT"), (.lit "text", text)])
  else none

theorem length_public_text_line (text : CString) : (public_text_line text).length = strlen text + 32 := by
  have hopening : (CString.lit "\x7b\"type\":\"PUBLIC_TEXT\",\"text\":\"").bytes.length = 30 := by decide +kernel
  have hclosing : (CString.lit "\"\x7d").bytes.length = 2 := by decide +kernel
  simp only [public_text_line, List.length_append, hopening, hclosing, strlen]
  omega

theorem message_from_json_public_text (text raw : CString) (hraw : raw.bytes = public_text_line text) :
    message_from_json (parse_public_text text) raw =
      some { message_init with type := .PUBLIC_TEXT, text := some text } := by
  unfold message_from_json parse_public_text
  rw [if_pos hraw]
  rfl

theorem line_event_long_text (length : Nat) (client_fd : Fd) :
    line_event (parse_public_text (long_text length)) (public_text_line (long_text length))
        (public_text_line (long_text length)).length client_fd =
      some (.request client_fd { message_init with type := .PUBLIC_TEXT, text := some (long_text length) }) := by
  have hclean : ∀ byte ∈ public_text_line (long_text length),
      ¬ (byte = 0 ∨ byte = 9 ∨ byte = 13 ∨ byte = 10 ∨ byte = 8) := by
    intro byte hmem
    simp only [public_text_line, List.mem_append] at hmem
    rcases hmem with (hopening | hletter) | hclosing
    · revert hopening
      revert byte
      decide +kernel
    · rw [List.eq_of_mem_replicate hletter]
      decide
    · revert hclosing
      revert byte
      decide +kernel
  have hwhole := message_buffer_sanitize_of_clean hclean
  have hnul : 0 ∉ public_text_line (long_text length) := fun hmem => hclean 0 hmem (Or.inl rfl)
  have hsome : (public_text_line (long_text length)).length ≠ 0 := by
    rw [length_public_text_line]
    omega
  unfold line_event
  rw [hwhole]
  simp only [hsome, if_false, message_from_json_public_text _ _ (CString.of_bytes_of_nul_free hnul)]

end LongText

/-- Two clients who connect and identify themselves. -/
def arrivals : List Event := [
  .accept 4,
  .accept 5,
  .request 4 { message_init with type := .IDENTIFY, username := some (.lit "ana") },
  .request 5 { message_init with type := .IDENTIFY, username := some (.lit "luis") }]

/-- A short text for everybody. -/
theorem no_eviction_of_others_iff_in_arrivals :
    ∃ world, (world.server.users.Lists 4 (.lit "ana") ∧ world.server.users.Lists 5 (.lit "luis")) ∧
      KeepsOthers 4 world.server (final_world ((handle_line (parse_public_text (long_text 4)) sockets
        (public_text_line (long_text 4)) (public_text_line (long_text 4)).length 4).run world)).server := by
  obtain ⟨history, world, hrun, htest⟩ := exists_run_of_serve_all sockets arrivals
    (fun _ world => world.server.users.Lists 4 (.lit "ana") && world.server.users.Lists 5 (.lit "luis"))
    (by decide +kernel)
  simp only [Bool.and_eq_true, decide_eq_true_eq] at htest
  refine ⟨world, htest, (no_eviction_of_others_iff (parse_public_text (long_text 4)) hrun 4 _).mpr ?_⟩
  rintro ⟨msg_in, hline, hevicts⟩
  rw [line_event_long_text] at hline
  cases hline
  rcases hevicts with ⟨sender, other, text, -, -, -, -, -, htext, hlong⟩ | ⟨_, _, _, _, htype, -⟩
  · cases htext
    have hname : strlen sender.username ≤ 8 := sender.named.2
    have hescaped := escaped_length_le sender.username
    rw [escaped_length_long_text] at hlong
    change 1024 * 1024 ≤ _ at hlong
    omega
  · cases htype

/-- A text that still fits the buffer of the receiver but not the one of
`server_send`. -/
theorem long_text_evicts_others :
    ¬ ∀ history world, ServerRun sockets history world → ∀ client_fd line, line.length ≤ SERVER_BUFFER_SIZE - 1 →
      KeepsOthers client_fd world.server (final_world
        ((handle_line (parse_public_text (long_text (SERVER_BUFFER_SIZE - 40))) sockets line line.length
          client_fd).run world)).server := by
  intro hnever
  obtain ⟨history, world, hrun, htest⟩ := exists_run_of_serve_all sockets arrivals
    (fun _ world => world.server.users.Lists 4 (.lit "ana") && world.server.users.Lists 5 (.lit "luis"))
    (by decide +kernel)
  simp only [Bool.and_eq_true, decide_eq_true_eq] at htest
  obtain ⟨⟨ana, hana, hname, hfd⟩, luis, hluis, -, hother⟩ := htest
  obtain ⟨hidle, hserver⟩ := run_ready hrun
  have hlength : (public_text_line (long_text (SERVER_BUFFER_SIZE - 40))).length ≤ SERVER_BUFFER_SIZE - 1 := by
    rw [length_public_text_line, strlen_long_text]
    unfold SERVER_BUFFER_SIZE
    omega
  have hkeeps := hnever history world hrun 4 _ hlength
  rw [final_world_handle_line, line_event_long_text, hidle] at hkeeps
  refine not_keeps_others_of_overflows hserver ?_ hkeeps
  have hescaped : escaped_length ana.username = 3 := by
    rw [hname]
    decide
  refine .public_text ana luis _ rfl hana hfd hluis (by rw [hother]; decide) rfl ?_
  rw [hescaped, escaped_length_long_text]
  unfold SERVER_BUFFER_SIZE
  omega

end ojalvo
