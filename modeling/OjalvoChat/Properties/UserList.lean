import OjalvoChat.MessageJson
import OjalvoChat.Protocol.Presence
import OjalvoChat.Protocol.Views

namespace ojalvo

/-- The status text of each user, as far as somebody knows. -/
abbrev UserView := CString → Option CString

/-- What a client reads from a USER_LIST. -/
def UserView.of_list (list : Message) : UserView := fun username =>
  list.users.bind fun users => get_string_field users username

/-- What a client makes of a later notice. -/
def UserView.apply (view : UserView) (notice : Message) : UserView :=
  match notice.type, notice.username with
  | .NEW_USER, some username => Function.update view username (some (user_status_to_string .ACTIVE))
  | .NEW_STATUS, some username => Function.update view username notice.status
  | .DISCONNECTED, some username => Function.update view username none
  | _, _ => view

/-- The status text of each user of a table. -/
def UsersTable.statuses (users : UsersTable) : UserView := fun username =>
  (users.find_by_username username).map fun user => user_status_to_string user.status

/-- A view of all users but one. -/
def UserView.Agrees (view : UserView) (users : UsersTable) (own_name : CString) : Prop :=
  ∀ username, username ≠ own_name → view username = users.statuses username

section Statuses

variable {users : UsersTable} {user : User}

theorem UsersTable.Indexed.find_entries (hindexed : users.Indexed) (username : CString) :
    (users.entries.find? fun user => user.username = username) = users.find_by_username username := by
  cases hfind : users.find_by_username username with
  | none =>
    have hfree := hindexed.find_by_username_eq_none_iff.mp hfind
    simpa [List.find?_eq_none, hindexed.mem_entries] using hfree
  | some user =>
    obtain ⟨hmem, hname⟩ := hindexed.find_by_username_iff.mp hfind
    obtain ⟨found, hfound⟩ : ∃ found, (users.entries.find? fun user => user.username = username) = some found := by
      rw [← Option.isSome_iff_exists, List.find?_isSome]
      exact ⟨user, hindexed.mem_entries.mpr hmem, by simpa using hname⟩
    have hfoundmem := hindexed.mem_entries.mp (List.mem_of_find?_eq_some hfound)
    have hfoundname : found.username = username := by simpa using List.find?_some hfound
    rw [hfound, UsersTable.eq_of_username_eq hfoundmem hmem (hfoundname.trans hname.symm)]

/-- A user list tells the status of every user. -/
theorem UsersTable.Indexed.of_list (hindexed : users.Indexed) :
    UserView.of_list (user_list_message users) = users.statuses := by
  funext username
  have hfind := hindexed.find_entries username
  simp only [UserView.of_list, user_list_message, Option.bind_some, users_object_eq, get_string_field,
    cJSON_GetObjectItemCaseSensitive, CJson.fields, List.find?_map, Function.comp_def, UsersTable.statuses, ← hfind]
  cases users.entries.find? fun user => user.username = username <;> rfl

/-- Who is added is listed with its status. -/
theorem statuses_add (hname : users.find_by_username user.username = none) :
    (users.add user).statuses =
      Function.update users.statuses user.username (some (user_status_to_string user.status)) := by
  have hlookup : users.table.lookup user.username = none := hname
  funext username
  by_cases heq : username = user.username
  · subst heq
    simp [UsersTable.statuses, UsersTable.find_by_username, UsersTable.add, hlookup]
  · rw [Function.update_of_ne heq]
    simp [UsersTable.statuses, UsersTable.find_by_username, UsersTable.add, hlookup, AList.lookup_insert_ne heq]

/-- Who is removed is not listed any more. -/
theorem statuses_remove (username : CString) :
    (users.remove username).statuses = Function.update users.statuses username none := by
  funext other
  simp only [UsersTable.statuses, UsersTable.find_by_username, UsersTable.lookup_remove]
  by_cases heq : other = username
  · subst heq
    simp
  · rw [if_neg heq, Function.update_of_ne heq]
    rfl

/-- A new status is listed for its user. -/
theorem statuses_change_status (hindexed : users.Indexed) (hmem : user ∈ users) (status : UserStatus) :
    (users.change_status_by_client_fd user.socket_fd status).statuses =
      Function.update users.statuses user.username (some (user_status_to_string status)) := by
  have hpointer := (hindexed.pointed user.socket_fd user.username).mpr ⟨user, hmem, rfl⟩
  have hlookup : users.table.lookup user.username = some user := hmem
  funext username
  simp only [UsersTable.statuses, UsersTable.find_by_username, UsersTable.change_status_by_client_fd, hpointer,
    UsersTable.lookup_change_status_by_username]
  by_cases heq : username = user.username
  · subst heq
    simp [hlookup]
  · rw [Function.update_of_ne heq]
    simp [heq]
    rfl

end Statuses

section Deltas

/-- Whoever knew the statuses before knows them again after the notices among
the effects. -/
def Deltas (users : UsersTable) (own_fd : Fd) (own_name : CString) (effects : List Effect) (later : UsersTable) :
    Prop :=
  ∀ view : UserView, view.Agrees users own_name →
    ((received own_fd effects).foldl UserView.apply view).Agrees later own_name

/-- The messages that do not change what is known of the users. -/
def Neutral (message : Message) : Prop := message.type ∉ [.NEW_USER, .NEW_STATUS, .DISCONNECTED]

variable {users middle later : UsersTable} {own_fd : Fd} {own_name : CString} {effects more : List Effect}

/-- The changes follow each other as the effects do. -/
theorem Deltas.append (hfirst : Deltas users own_fd own_name effects middle)
    (hsecond : Deltas middle own_fd own_name more later) : Deltas users own_fd own_name (effects ++ more) later := by
  intro view hagrees
  rw [received_append, List.foldl_append]
  exact hsecond _ (hfirst view hagrees)

/-- Other notices say nothing about the list. -/
theorem neutral_of_type {message : Message} (type : MessageType) (htype : message.type = type)
    (hneutral : type ∉ [.NEW_USER, .NEW_STATUS, .DISCONNECTED]) : Neutral message := by
  subst htype
  exact hneutral

/-- What says nothing about the list leaves the view alone. -/
theorem Neutral.apply {message : Message} (hneutral : Neutral message) (view : UserView) :
    view.apply message = view := by
  unfold UserView.apply
  split
  · exact absurd (by simp [*]) hneutral
  · exact absurd (by simp [*]) hneutral
  · exact absurd (by simp [*]) hneutral
  · rfl

/-- Where nothing is said about the list it has not changed. -/
theorem deltas_neutral (hneutral : ∀ fd message sent, Effect.send fd message sent ∈ effects → Neutral message) :
    Deltas users own_fd own_name effects users := by
  have hignores : Ignores UserView.apply effects := fun fd message sent hmem => (hneutral fd message sent hmem).apply
  exact hignores.informs

/-- A notice about one user, sent to all other users of a table, is the delta
that this user causes. -/
theorem deltas_broadcast {contents : UsersTable} {client_fd : Fd} {notice : Message} {username : CString}
    {value : Option CString} (hindexed : contents.Indexed) (hown : ∃ entry ∈ contents, entry.socket_fd = own_fd)
    (hnotice : ∀ view : UserView, view.apply notice = Function.update view username value)
    (hlater : later.statuses = Function.update users.statuses username value)
    (hself : own_fd = client_fd → username = own_name) :
    Deltas users own_fd own_name (sends notice (recipients contents.entries client_fd)) later := by
  obtain ⟨entry, hentry, hentryfd⟩ := hown
  intro view hagrees other hother
  rw [received_sends _ _ (nodup_recipients hindexed client_fd), hlater]
  by_cases hfd : own_fd = client_fd
  · have hmissed : own_fd ∉ recipients contents.entries client_fd := fun hmem => (mem_recipients.mp hmem).1 hfd
    rw [if_neg hmissed, hself hfd, Function.update_of_ne hother]
    exact hagrees other hother
  · have hreached : own_fd ∈ recipients contents.entries client_fd :=
      mem_recipients.mpr ⟨hfd, entry, hindexed.mem_entries.mpr hentry, hentryfd⟩
    rw [if_pos hreached]
    simp only [List.foldl_cons, List.foldl_nil, hnotice]
    by_cases heq : other = username
    · subst heq
      simp
    · rw [Function.update_of_ne heq, Function.update_of_ne heq]
      exact hagrees other hother

end Deltas

section Reactions

variable {server : Server} {trace : List Effect} {client_fd : Fd} {msg_in : Message} {own : User}

/-- The outcome of a reliable reaction adds effects to the trace that are the
deltas of its change of the users. -/
def Outcome.Follows (outcome : Outcome) (server : Server) (trace : List Effect) (own : User) : Prop :=
  ∀ answer after, outcome = .ok answer after → after.server.Registered own.socket_fd own.username →
    ∃ effects, after.trace = trace ++ effects ∧
      Deltas server.users own.socket_fd own.username effects after.server.users

theorem follows_neutral {later : Server} {answer : Bool} {effects : List Effect} (husers : later.users = server.users)
    (hneutral : ∀ fd message sent, Effect.send fd message sent ∈ effects → Neutral message) :
    Outcome.Follows (.ok answer (.idle later (trace ++ effects))) server trace own := by
  rintro _ _ ⟨⟩ _
  refine ⟨effects, rfl, ?_⟩
  change Deltas server.users _ _ effects later.users
  rw [husers]
  exact deltas_neutral hneutral

theorem neutral_send {fd : Fd} {message : Message} (hneutral : Neutral message) :
    ∀ other sending sent, Effect.send other sending sent ∈ [Effect.send fd message true] → Neutral sending := by
  intro other sending sent hmem
  cases List.mem_singleton.mp hmem
  exact hneutral

theorem neutral_sends {fds : List Fd} {message : Message} (hneutral : Neutral message) :
    ∀ other sending sent, Effect.send other sending sent ∈ sends message fds → Neutral sending := by
  intro other sending sent hmem
  obtain ⟨_, _, heq⟩ := List.mem_map.mp hmem
  cases heq
  exact hneutral

/-- Earlier neutral effects do not matter. -/
theorem Outcome.Follows.after_neutral {outcome : Outcome} {effects : List Effect}
    (hfollows : outcome.Follows server (trace ++ effects) own)
    (hneutral : ∀ fd message sent, Effect.send fd message sent ∈ effects → Neutral message) :
    outcome.Follows server trace own := by
  intro answer after hok hremains
  obtain ⟨more, htrace, hdeltas⟩ := hfollows answer after hok hremains
  exact ⟨effects ++ more, by rw [htrace, List.append_assoc], (deltas_neutral hneutral).append hdeltas⟩

/-- Those who stay hear of a departure. -/
theorem follows_departed (hserver : server.Consistent) (hown : own ∈ server.users) (answer : Bool) :
    Outcome.Follows (.ok answer (departed reliable server trace client_fd)) server trace own := by
  rintro _ _ ⟨⟩ hremains
  refine ⟨departure_notices reliable server trace client_fd ++ [.close client_fd], by simp [departed], ?_⟩
  have hclose : ∀ users, Deltas users own.socket_fd own.username [.close client_fd] users := fun users =>
    deltas_neutral (by simp)
  refine Deltas.append ?_ (hclose _)
  simp only [departed, Server.depart, departure_notices] at hremains ⊢
  cases hfound : server.users.find_by_client_fd client_fd with
  | none => exact deltas_neutral (by simp)
  | some user =>
    obtain ⟨huser, hfd⟩ := hserver.users.find_by_client_fd_iff.mp hfound
    simp only [hfound, broadcast_reliable, failures_sends] at hremains ⊢
    change Server.Registered (server.forget user.username) _ _ at hremains
    change Deltas _ _ _ _ (server.users.remove user.username)
    obtain ⟨entry, hentry, hname, _⟩ := hremains
    have hstays := (UsersTable.mem_remove.mp (hserver.users.remove.mem_entries.mp hentry)).2
    refine deltas_broadcast hserver.users ⟨own, hown, rfl⟩ (fun view => rfl)
      (statuses_remove user.username) fun hsame => ?_
    have heq := hserver.users.eq_of_socket_fd_eq hown huser (hsame.trans hfd.symm)
    rw [heq]

/-- Every reaction that goes through without a failed send tells the others
exactly how it changes the users. -/
theorem Permitted.follows {reaction : Reaction} (hpermitted : Permitted server client_fd msg_in reaction)
    (hserver : server.Consistent) (hown : own ∈ server.users) :
    (reaction.perform reliable client_fd server trace).Follows server trace own := by
  have hresponse : ∀ operation result extra, Neutral (response operation result extra) := by
    intro operation result extra
    exact neutral_of_type .RESPONSE rfl (by decide)
  cases hpermitted with
  | ignore answer =>
    have hidle : Outcome.Follows (.ok answer (.idle server (trace ++ []))) server trace own :=
      follows_neutral rfl (by simp)
    rwa [List.append_nil] at hidle
  | crash habsent =>
    intro answer after hok
    cases hok
  | answer operation result extra => exact follows_neutral rfl (neutral_send (hresponse operation result extra))
  | user_list user htype hsender =>
    exact follows_neutral rfl (neutral_send (neutral_of_type .USER_LIST rfl (by decide)))
  | room_user_list roomname room htype hroom =>
    exact follows_neutral rfl (neutral_send (neutral_of_type .ROOM_USER_LIST rfl (by decide)))
  | text user user_to text htype hsender haddressee hother htext =>
    exact follows_neutral rfl (neutral_send (neutral_of_type .TEXT_FROM rfl (by decide)))
  | refuse operation result extra =>
    exact (follows_departed hserver hown true).after_neutral (neutral_send (hresponse operation result extra))
  | leave => exact follows_departed hserver hown true
  | register user hfd hactive hname hunknown =>
    have hregistered := hserver.register hname hunknown
    have hfresh := hserver.users.find_by_username_eq_none_iff.mp hname
    have hfree := hserver.users.find_by_client_fd_eq_none_iff.mp hunknown
    simp only [Reaction.perform, send_or_depart_reliable, announce_reliable]
    rintro _ _ ⟨⟩ _
    refine ⟨_, by rw [List.append_assoc], Deltas.append (deltas_neutral (neutral_send (hresponse _ _ _))) ?_⟩
    refine deltas_broadcast hregistered.users ⟨own, (UsersTable.mem_add hserver.users hfresh).mpr (Or.inr hown), rfl⟩
      (fun view => rfl) ?_ fun hsame => absurd (hsame.trans hfd.symm) (hfree own hown)
    rw [← hactive]
    exact statuses_add hname
  | set_status user status text htype hsender hread hchange =>
    obtain ⟨huser, rfl⟩ := hsender
    simp only [Reaction.perform, announce_reliable]
    rintro _ _ ⟨⟩ _
    refine ⟨_, rfl, ?_⟩
    have hstill : (if own.socket_fd = user.socket_fd then { own with status := status } else own) ∈
        server.users.change_status_by_client_fd user.socket_fd status :=
      (UsersTable.mem_change_status_by_client_fd hserver.users).mpr ⟨own, hown, rfl⟩
    refine deltas_broadcast (hserver.set_status user.socket_fd status).users ⟨_, hstill, by split <;> rfl⟩
      (fun view => rfl) ?_ fun hsame => ?_
    · rw [← user_status_to_string_of_from_string hread]
      exact statuses_change_status hserver.users huser status
    · rw [hserver.users.eq_of_socket_fd_eq hown huser hsame]
  | publish user text htype hsender htext =>
    simp only [Reaction.perform, announce_reliable]
    exact follows_neutral rfl (neutral_sends (neutral_of_type .PUBLIC_TEXT_FROM rfl (by decide)))
  | create user requested named htype hsender hroomname hfree =>
    exact follows_neutral rfl (neutral_send (hresponse _ _ _))
  | invite user roomname room usernames invited_users htype hsender hroomname husernames hroom hmember hinvited =>
    obtain ⟨fds, hinvite⟩ := invite_all_reliable server trace roomname (invitation_notice user.username roomname)
      invited_users
    simp only [Reaction.perform, hinvite]
    exact follows_neutral (users_settle_invitations ..) (neutral_sends (neutral_of_type .INVITATION rfl (by decide)))
  | join user roomname room htype hsender hroomname hroom houtside hguest =>
    simp only [Reaction.perform, send_or_depart_reliable, tell_members_reliable]
    refine Outcome.Follows.after_neutral (follows_neutral rfl ?_) (neutral_send (hresponse _ _ _))
    exact neutral_sends (neutral_of_type .JOINED_ROOM rfl (by decide))
  | tell_room user roomname room text htype hsender hroomname hroom hmember htext =>
    simp only [Reaction.perform, tell_members_reliable]
    exact follows_neutral rfl (neutral_sends (neutral_of_type .ROOM_TEXT_FROM rfl (by decide)))
  | quit user roomname room htype hsender hroomname hroom hmember =>
    simp only [Reaction.perform, tell_members_reliable]
    exact follows_neutral (Server.users_quit server roomname user)
      (neutral_sends (neutral_of_type .LEFT_ROOM rfl (by decide)))

end Reactions

section Events

variable {server : Server} {trace : List Effect} {event : Event} {after : World}

/-- A user who stays is told of every change of the list while an event is served.
-/
theorem served_follows {own : User} (hserver : server.Consistent) (hown : own ∈ server.users)
    (hserved : Served reliable (.idle server trace) event after)
    (hremains : after.server.Registered own.socket_fd own.username) :
    ∃ effects, after.trace = trace ++ effects ∧
      Deltas server.users own.socket_fd own.username effects after.server.users := by
  rcases served_cases hserver hserved with ⟨client_fd, rfl, rfl⟩ | ⟨answer, hok⟩
  · exact ⟨[.accept client_fd], rfl, deltas_neutral (by simp)⟩
  · exact (event.permitted hserver).follows hserver hown answer after hok hremains

/-- A user list is sent by itself, and lists the users of its moment. -/
theorem served_user_list {fd : Fd} {list : Message} {sent : Bool} {effects : List Effect} (hserver : server.Consistent)
    (hserved : Served reliable (.idle server trace) event after) (htrace : after.trace = trace ++ effects)
    (hmem : Effect.send fd list sent ∈ effects) (hlist : list.type = .USER_LIST) :
    list = user_list_message server.users ∧ effects = [.send fd list sent] ∧ after.server = server := by
  obtain ⟨hlists, hsingle, hsame⟩ := served_list hserver hserved htrace hmem (Or.inl hlist)
  cases hlists with
  | users => exact ⟨rfl, hsingle, hsame⟩
  | members roomname room hroom => cases hlist

end Events

/-- A client that stays registered after a user list knows the statuses of all
other users from that list and the notices that it receives. -/
theorem user_list_follows_server {history : List (World × Event)} {world : World}
    (hrun : ServerRun reliable history world) {own_fd : Fd} {own_name : CString} {earlier later : List Effect}
    {list : Message} (hlist : list.type = .USER_LIST)
    (htrace : world.trace = earlier ++ .send own_fd list true :: later)
    (hregistered : world.server.Registered own_fd own_name)
    (hstayed : ∀ moment ∈ history, earlier.length < moment.1.trace.length →
      moment.1.server.Registered own_fd own_name) :
    ((received own_fd later).foldl UserView.apply (UserView.of_list list)).Agrees world.server.users own_name := by
  let knows : Server → UserView → Prop := fun server view => view.Agrees server.users own_name
  let stays : Server → Prop := fun server => server.Registered own_fd own_name
  have hread : ∀ {server trace event after effects}, server.Consistent →
      Served reliable (.idle server trace) event after → after.trace = trace ++ effects →
      .send own_fd list true ∈ effects →
      effects = [.send own_fd list true] ∧ knows after.server (UserView.of_list list) := by
    intro server trace event after effects hserver hserved heffects hmem
    obtain ⟨rfl, hsingle, hsame⟩ := served_user_list hserver hserved heffects hmem hlist
    refine ⟨hsingle, fun username _ => ?_⟩
    rw [hserver.users.of_list, hsame]
  have hinforms : ∀ {server trace event after}, server.Consistent →
      Served reliable (.idle server trace) event after → stays server → stays after.server →
      ∃ effects, after.trace = trace ++ effects ∧
        Informs UserView.apply (knows server) (knows after.server) own_fd effects := by
    rintro server trace event after hserver hserved ⟨own, hown, rfl, rfl⟩ hremains
    exact served_follows hserver (hserver.users.mem_entries.mp hown) hserved hremains
  exact knows_after_run hrun hread hinforms htrace hregistered hstayed

/-- A client that asks for the users before another one joins and goes away. -/
def visit : List Event := [
  .request 4 { message_init with type := .IDENTIFY, username := some (.lit "ana") },
  .request 4 { message_init with type := .USERS },
  .request 5 { message_init with type := .IDENTIFY, username := some (.lit "luis") },
  .request 5 { message_init with type := .STATUS, status := some (.lit "AWAY") },
  .invalid 5]

theorem user_list_follows_server_in_visit :
    ∃ history world list later, ServerRun reliable history world ∧ (received 4 later).length = 3 ∧
      ((received 4 later).foldl UserView.apply (UserView.of_list list)).Agrees world.server.users (.lit "ana") := by
  obtain ⟨history, world, hrun, htest⟩ := exists_run_of_serve_all reliable visit
    (fun history world =>
      (received_at 4 world.trace 1).any fun found =>
        found.1.type = .USER_LIST && (received 4 found.2).length = 3 && world.server.Registered 4 (.lit "ana") &&
          history.all fun moment => moment.1.trace.length ≤ 1 || moment.1.server.Registered 4 (.lit "ana"))
    (by decide +kernel)
  obtain ⟨⟨list, later⟩, hfound, hall⟩ := (Option.any_eq_true _ _).mp htest
  simp only [Bool.and_eq_true, Bool.or_eq_true, List.all_eq_true, decide_eq_true_eq] at hall
  obtain ⟨⟨⟨hlist, hnotices⟩, hregistered⟩, hstayed⟩ := hall
  obtain ⟨earlier, hlength, htrace⟩ := eq_append_of_received_at hfound
  refine ⟨history, world, list, later, hrun, hnotices, user_list_follows_server hrun hlist htrace hregistered ?_⟩
  intro moment hmem hafter
  exact (hstayed moment hmem).resolve_left (by omega)

end ojalvo
