import OjalvoChat.Library.Newcomers
import OjalvoChat.Protocol.Delivery
import OjalvoChat.Protocol.Presence

namespace ojalvo

/-- The names of all who are in a room, as members or as guests. -/
def Server.inside (server : Server) (roomname : CString) : Set CString :=
  { username | ∃ fd, server.Member roomname fd username ∨ server.Guest roomname fd username }

/-- An INVITE that completes as it should: all listed users are in the room, those
who were not are told once, and nobody else is concerned. -/
def CompletesInvite (world : World) (client_fd : Fd) (sender : CString) (msg_in : Message) (roomname : CString)
    (usernames : List CString) : Prop :=
  ∃ after effects,
    (message_handler_process reliable msg_in client_fd).run world =
      .ok true { world with server := after, trace := world.trace ++ effects } ∧
    (∀ username ∈ usernames, username ∈ after.inside roomname) ∧
    (∀ fd username, world.server.Registered fd username → username ∈ usernames →
      username ∉ world.server.inside roomname → received fd effects = [invitation_notice sender roomname]) ∧
    (∀ fd username, world.server.Registered fd username →
      (username ∈ usernames → username ∈ world.server.inside roomname) →
      ∀ message ∈ received fd effects, message.type ≠ .INVITATION) ∧
    (∀ fd username, after.Member roomname fd username ↔ world.server.Member roomname fd username) ∧
    ∀ fd username, after.Guest roomname fd username →
      world.server.Guest roomname fd username ∨ username ∈ usernames

section Invitations

variable {server : Server} {roomname : CString} {user : User}

/-- A name and a descriptor of one registration belong to the same records. -/
theorem Server.Consistent.username_eq_iff {fd : Fd} {username : CString} (hserver : server.Consistent)
    (huser : user ∈ server.users) (hregistered : server.Registered fd username) :
    user.username = username ↔ user.socket_fd = fd := by
  obtain ⟨other, hother, rfl, rfl⟩ := hserver.users.lists_iff.mp hregistered
  constructor
  · intro hname
    rw [UsersTable.eq_of_username_eq huser hother hname]
  · intro hfd
    rw [hserver.users.eq_of_socket_fd_eq huser hother hfd]

theorem in_room_iff (hserver : server.Consistent) (huser : user ∈ server.users) :
    server.in_room roomname user = true ↔ user.username ∈ server.inside roomname := by
  have hcopy : ∀ contents : UsersTable, contents.Indexed → (∀ other ∈ contents, other ∈ server.users) →
      ∀ fd, contents.Lists fd user.username → user ∈ contents := by
    intro contents hcontents hcopies fd hlists
    obtain ⟨other, hother, hname, -⟩ := hcontents.lists_iff.mp hlists
    rwa [UsersTable.eq_of_username_eq huser (hcopies other hother) hname.symm]
  unfold Server.in_room
  cases hroom : server.rooms.lookup roomname with
  | none =>
    refine iff_of_false (by simp) ?_
    rintro ⟨fd, ⟨room, hother, -⟩ | ⟨room, hother, -⟩⟩
    · rw [hroom] at hother
      cases hother
    · rw [hroom] at hother
      cases hother
  | some room =>
    have hcopies := hserver.rooms roomname room hroom
    rw [Bool.or_eq_true, ← hcopies.mem_members_iff hserver.users huser, ← hcopies.mem_guests_iff hserver.users huser]
    constructor
    · rintro (hmember | hguest)
      · exact ⟨user.socket_fd, Or.inl ⟨room, hroom, hcopies.members.lists_iff.mpr ⟨user, hmember, rfl, rfl⟩⟩⟩
      · exact ⟨user.socket_fd, Or.inr ⟨room, hroom, hcopies.guests.lists_iff.mpr ⟨user, hguest, rfl, rfl⟩⟩⟩
    · rintro ⟨fd, ⟨other, hother, hlists⟩ | ⟨other, hother, hlists⟩⟩
      · rw [hroom] at hother
        cases hother
        exact Or.inl (hcopy _ hcopies.members hcopies.members_users fd hlists)
      · rw [hroom] at hother
        cases hother
        exact Or.inr (hcopy _ hcopies.guests hcopies.guests_users fd hlists)

theorem inside_add_guest (hserver : server.Consistent) (huser : user ∈ server.users)
    (houtside : server.in_room roomname user = false) (hroom : roomname ∈ server.rooms) :
    (server.add_guest roomname user).inside roomname = insert user.username (server.inside roomname) := by
  ext username
  simp only [Server.inside, Set.mem_ofPred_eq, Set.mem_insert_iff, Server.Consistent.member_add_guest,
    hserver.guest_add_guest huser houtside, hroom, true_and]
  constructor
  · rintro ⟨fd, hmember | hguest | ⟨hname, -⟩⟩
    · exact Or.inr ⟨fd, Or.inl hmember⟩
    · exact Or.inr ⟨fd, Or.inr hguest⟩
    · exact Or.inl hname.symm
  · rintro (rfl | ⟨fd, hmember | hguest⟩)
    · exact ⟨user.socket_fd, Or.inr (Or.inr ⟨rfl, rfl⟩)⟩
    · exact ⟨fd, Or.inl hmember⟩
    · exact ⟨fd, Or.inr (Or.inl hguest)⟩

/-- What the second loop of INVITE does when no send fails: it invites the newcomers
of its list. -/
theorem invite_all_newcomers {server : Server} (trace : List Effect) (hserver : server.Consistent)
    (hroom : roomname ∈ server.rooms) (invitation : Message) {invited_users : List User}
    (hinvited : ∀ invited ∈ invited_users, invited ∈ server.users) :
    ∃ after effects, invite_all reliable roomname invitation invited_users server trace =
        .ok true (.idle after (trace ++ effects)) ∧
      (∀ fd username, after.Member roomname fd username ↔ server.Member roomname fd username) ∧
      (∀ fd username, after.Guest roomname fd username ↔ server.Guest roomname fd username ∨
        (username ∈ newcomers (server.inside roomname) (invited_users.map User.username) ∧
          server.Registered fd username)) ∧
      ∀ fd username, server.Registered fd username → received fd effects =
        if username ∈ newcomers (server.inside roomname) (invited_users.map User.username) then [invitation]
        else [] := by
  induction invited_users generalizing server trace with
  | nil =>
    refine ⟨server, [], by rw [List.append_nil]; rfl, fun _ _ => Iff.rfl, fun _ _ => by simp, fun _ _ _ => rfl⟩
  | cons user rest ih =>
    have huser := hinvited user List.mem_cons_self
    unfold invite_all
    by_cases hinside : server.in_room roomname user
    · have hknown := (in_room_iff hserver huser).mp hinside
      rw [if_pos hinside, List.map_cons, newcomers_cons_of_mem hknown]
      exact ⟨server, [], by rw [List.append_nil], fun _ _ => Iff.rfl, fun _ _ => by simp, fun _ _ _ => rfl⟩
    · have houtside : server.in_room roomname user = false := Bool.not_eq_true _ ▸ hinside
      have hnew := mt (in_room_iff hserver huser).mpr hinside
      rw [if_neg hinside, List.map_cons, newcomers_cons_of_notMem hnew]
      have hadded := hserver.add_guest huser houtside
      have hstill : roomname ∈ (server.add_guest roomname user).rooms := HashTable.mem_adjust.mpr hroom
      have hrest := fun other hother => hinvited other (List.mem_cons_of_mem user hother)
      obtain ⟨after, effects, hrun, hmembers, hguests, hreceived⟩ := ih _ hadded hstill hrest
      rw [inside_add_guest hserver huser houtside hroom] at hguests hreceived
      refine ⟨after, .send user.socket_fd invitation true :: effects, ?_, fun fd username => ?_, fun fd username => ?_,
        fun fd username hregistered => ?_⟩
      · rw [send_or_depart_reliable, hrun, List.append_assoc]
        rfl
      · rw [hmembers, Server.Consistent.member_add_guest]
      · have hself : (True ∧ roomname ∈ server.rooms ∧ user.username = username ∧ user.socket_fd = fd) ↔
            username = user.username ∧ server.Registered fd username := by
          constructor
          · rintro ⟨-, -, rfl, rfl⟩
            exact ⟨rfl, user, hserver.users.mem_entries.mpr huser, rfl, rfl⟩
          · rintro ⟨rfl, hregistered⟩
            exact ⟨trivial, hroom, rfl, (hserver.username_eq_iff huser hregistered).mp rfl⟩
        rw [hguests, hserver.guest_add_guest huser houtside, eq_self, hself, List.mem_cons, or_and_right, or_assoc]
        rfl
      · have hown := hserver.username_eq_iff huser hregistered
        change received fd ([.send user.socket_fd invitation true] ++ effects) = _
        rw [received_append, received_send, hreceived fd username hregistered]
        by_cases hsame : user.username = username
        · have hlast : username ∉ newcomers (insert user.username (server.inside roomname))
              (rest.map User.username) := fun hmem => notMem_of_mem_newcomers hmem (Or.inl hsame.symm)
          simp [hown.mp hsame, hsame, hsame ▸ hlast]
        · simp [mt hown.mpr hsame, Ne.symm hsame]

theorem exists_invited_records (hserver : server.Consistent) {usernames : List CString}
    (hregistered : ∀ username ∈ usernames, ∃ fd, server.Registered fd username) :
    ∃ invited_users, invited_records server usernames = .ok invited_users ∧
      invited_users.map User.username = usernames := by
  cases hinvited : invited_records server usernames with
  | error missing =>
    obtain ⟨known, rest, rfl, -, hmissing⟩ := exists_of_invited_records_error hinvited
    obtain ⟨fd, hlists⟩ := hregistered missing List.mem_append_cons_self
    obtain ⟨user, huser, hname, -⟩ := hserver.users.lists_iff.mp hlists
    exact absurd hname (hserver.users.find_by_username_eq_none_iff.mp hmissing user huser)
  | ok invited_users =>
    refine ⟨invited_users, rfl, List.map_injective_iff.mpr (fun _ _ => Option.some.inj) ?_⟩
    have hnames : ∀ username ∈ usernames,
        (server.users.find_by_username username).map User.username = some username := by
      intro username hmem
      obtain ⟨fd, hlists⟩ := hregistered username hmem
      obtain ⟨user, huser, hname, -⟩ := hserver.users.lists_iff.mp hlists
      rw [hserver.users.find_by_username_iff.mpr ⟨huser, hname⟩, Option.map_some, hname]
    calc (invited_users.map User.username).map some
      _ = (invited_users.map some).map (Option.map User.username) := by simp
      _ = (usernames.map server.users.find_by_username).map (Option.map User.username) := by
        rw [invited_records_eq_ok_iff.mp hinvited]
      _ = usernames.map some := by
        rw [List.map_map]
        exact List.map_congr_left hnames

/-- The second loop ends at the first user who is in the room already. -/
theorem Server.Consistent.completesInvite_iff (hserver : server.Consistent) (trace : List Effect) {client_fd : Fd}
    {sender : CString} {msg_in : Message} {usernames : List CString}
    (hmember : server.Member roomname client_fd sender) (htype : msg_in.type = .INVITE)
    (hroomname : msg_in.roomname = some roomname) (husernames : msg_in.usernames = some usernames)
    (hregistered : ∀ username ∈ usernames, ∃ fd, server.Registered fd username) :
    CompletesInvite (.idle server trace) client_fd sender msg_in roomname usernames ↔
      NewcomersFirst (server.inside roomname) usernames := by
  obtain ⟨invited_users, hinvited, hnames⟩ := exists_invited_records hserver hregistered
  have hroom : roomname ∈ server.rooms := by
    obtain ⟨room, hroom, -⟩ := hmember
    exact HashTable.mem_of_lookup hroom
  obtain ⟨after, effects, hinvite, hmembers, hguests, hreceived⟩ := invite_all_newcomers trace hserver
    hroom (invitation_notice sender roomname)
    fun invited hmem => (invited_records_ok hserver.users hinvited invited hmem).1
  have hprocess : (message_handler_process reliable msg_in client_fd).run (.idle server trace) =
      .ok true (.idle after (trace ++ effects)) := by
    rw [run_message_handler_process reliable server trace client_fd msg_in hserver,
      reaction_of_invite hserver hmember htype hroomname husernames, hinvited]
    exact hinvite
  rw [hnames] at hguests hreceived
  have hinside : ∀ username, username ∈ after.inside roomname ↔ username ∈ server.inside roomname ∨
      (username ∈ newcomers (server.inside roomname) usernames ∧
        ∃ fd, server.Registered fd username) := by
    intro username
    simp only [Server.inside, Set.mem_ofPred_eq, hmembers, hguests, ← or_assoc, exists_or, exists_and_left]
  rw [newcomersFirst_iff]
  constructor
  · rintro ⟨other, others, hrunother, hall, -⟩ username hlisted
    rw [hprocess] at hrunother
    have hsame : after = other := by
      injection hrunother with _ hworlds
      exact congrArg World.server hworlds
    subst hsame
    exact ((hinside username).mp (hall username hlisted)).imp_right And.left
  · intro hall
    refine ⟨after, effects, hprocess, fun username hlisted => (hinside username).mpr ?_,
      fun fd username hold hlisted hnew => ?_, fun fd username hold hknown => ?_, hmembers,
      fun fd username hguest => ?_⟩
    · exact (hall username hlisted).imp_right fun hnew => ⟨hnew, hregistered username hlisted⟩
    · rw [hreceived fd username hold, if_pos ((hall username hlisted).resolve_left hnew)]
    · have hseen : username ∉ newcomers (server.inside roomname) usernames := fun hmem =>
        notMem_of_mem_newcomers hmem (hknown (mem_of_mem_newcomers hmem))
      rw [hreceived fd username hold, if_neg hseen]
      exact List.forall_mem_nil _
    · exact ((hguests fd username).mp hguest).imp_right fun hnew => mem_of_mem_newcomers hnew.1

end Invitations

/-- An INVITE is complete just when nobody new is listed after somebody who is in the
room or in the list already. -/
theorem invite_completes_iff {net : Net} {history : List (World × Event)} {world : World}
    (hrun : ServerRun net history world) {client_fd : Fd} {sender roomname : CString} {msg_in : Message}
    {usernames : List CString} (hmember : world.server.Member roomname client_fd sender)
    (htype : msg_in.type = .INVITE) (hroomname : msg_in.roomname = some roomname)
    (husernames : msg_in.usernames = some usernames)
    (hregistered : ∀ username ∈ usernames, ∃ fd, world.server.Registered fd username) :
    CompletesInvite world client_fd sender msg_in roomname usernames ↔
      NewcomersFirst (world.server.inside roomname) usernames := by
  obtain ⟨hidle, hserver⟩ := run_ready hrun
  rw [hidle]
  exact hserver.completesInvite_iff world.trace hmember htype hroomname husernames hregistered

/-- A meeting, and a third user who is not in the room. -/
def meeting_and_visitor : List Event :=
  meeting ++ [.request 6 { message_init with type := .IDENTIFY, username := some (.lit "eva") }]

/-- A request to invite some users to the room of the meeting. -/
def invite_request (usernames : List CString) : Message :=
  { message_init with type := .INVITE, roomname := some (.lit "sala"), usernames := some usernames }

theorem exists_meeting_and_visitor :
    ∃ history world, ServerRun reliable history world ∧ world.server.Member (.lit "sala") 4 (.lit "ana") ∧
      world.server.Member (.lit "sala") 5 (.lit "luis") ∧
      (∀ fd, ¬ world.server.Member (.lit "sala") fd (.lit "eva") ∧ ¬ world.server.Guest (.lit "sala") fd (.lit "eva")) ∧
      world.server.Registered 5 (.lit "luis") ∧ world.server.Registered 6 (.lit "eva") := by
  obtain ⟨history, world, hrun, htest⟩ := exists_run_of_serve_all reliable meeting_and_visitor
    (fun _ world => (world.server.rooms.lookup (.lit "sala")).any (fun room =>
        room.members.Lists 4 (.lit "ana") && room.members.Lists 5 (.lit "luis") &&
          (room.members.entries ++ room.guests.entries).all fun user => user.username ≠ .lit "eva") &&
      world.server.Registered 5 (.lit "luis") && world.server.Registered 6 (.lit "eva"))
    (by decide +kernel)
  simp only [Bool.and_eq_true, decide_eq_true_eq] at htest
  obtain ⟨⟨hroom, hluis⟩, heva⟩ := htest
  obtain ⟨room, hfound, htables⟩ := (Option.any_eq_true _ _).mp hroom
  simp only [Bool.and_eq_true, decide_eq_true_eq, List.all_eq_true] at htables
  obtain ⟨⟨hana, hmember⟩, habsent⟩ := htables
  refine ⟨history, world, hrun, ⟨room, hfound, hana⟩, ⟨room, hfound, hmember⟩, fun fd => ⟨?_, ?_⟩, hluis, heva⟩
  · rintro ⟨other, hother, user, huser, hname, -⟩
    rw [hfound] at hother
    cases hother
    exact habsent user (List.mem_append_left _ huser) hname
  · rintro ⟨other, hother, user, huser, hname, -⟩
    rw [hfound] at hother
    cases hother
    exact habsent user (List.mem_append_right _ huser) hname

/-- The visitor is listed first. -/
theorem invite_completes_iff_of_visitor :
    ∃ world, world.server.Member (.lit "sala") 4 (.lit "ana") ∧
      CompletesInvite world 4 (.lit "ana") (invite_request [.lit "eva", .lit "luis"]) (.lit "sala")
        [.lit "eva", .lit "luis"] := by
  obtain ⟨history, world, hrun, hmember, hinside, habsent, hluis, heva⟩ := exists_meeting_and_visitor
  refine ⟨world, hmember, (invite_completes_iff hrun hmember rfl rfl rfl fun username hlisted => ?_).mpr ?_⟩
  · rcases List.mem_cons.mp hlisted with rfl | hlast
    · exact ⟨6, heva⟩
    · exact ⟨5, List.mem_singleton.mp hlast ▸ hluis⟩
  · have hnew : CString.lit "eva" ∉ world.server.inside (.lit "sala") := by
      rintro ⟨fd, hseated⟩
      exact hseated.elim (habsent fd).1 (habsent fd).2
    have hknown : CString.lit "luis" ∈ world.server.inside (.lit "sala") := ⟨5, Or.inl hinside⟩
    rw [newcomersFirst_cons_of_notMem hnew, newcomersFirst_cons_of_mem (Set.mem_insert_of_mem _ hknown)]
    exact List.forall_mem_nil _

/-- The visitor is listed after a member, and not invited. -/
theorem invite_misses_visitor :
    ¬ ∀ history world, ServerRun reliable history world → ∀ client_fd sender roomname msg_in usernames,
      world.server.Member roomname client_fd sender → msg_in.type = .INVITE → msg_in.roomname = some roomname →
      msg_in.usernames = some usernames → usernames ≠ [] →
      (∀ username ∈ usernames, ∃ fd, world.server.Registered fd username) →
      CompletesInvite world client_fd sender msg_in roomname usernames := by
  intro halways
  obtain ⟨history, world, hrun, hmember, hguest, habsent, hluis, heva⟩ := exists_meeting_and_visitor
  obtain ⟨hidle, hserver⟩ := run_ready hrun
  have hregistered : ∀ username ∈ [CString.lit "luis", .lit "eva"], ∃ fd, world.server.Registered fd username := by
    intro username hlisted
    rcases List.mem_cons.mp hlisted with rfl | hlast
    · exact ⟨5, hluis⟩
    · exact ⟨6, List.mem_singleton.mp hlast ▸ heva⟩
  have hcompletes := halways history world hrun 4 (.lit "ana") (.lit "sala")
    (invite_request [.lit "luis", .lit "eva"]) [.lit "luis", .lit "eva"] hmember rfl rfl rfl (by simp) hregistered
  rw [hidle, hserver.completesInvite_iff world.trace hmember rfl rfl rfl hregistered] at hcompletes
  have hseen := hcompletes [] (.lit "luis") [.lit "eva"] rfl (Or.inl ⟨5, Or.inl hguest⟩) (.lit "eva") (by simp)
  obtain ⟨fd, hinside⟩ := hseen.resolve_right List.not_mem_nil
  exact hinside.elim (habsent fd).1 (habsent fd).2

end ojalvo
