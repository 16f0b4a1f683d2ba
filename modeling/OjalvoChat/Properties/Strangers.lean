import OjalvoChat.Protocol.Presence
import OjalvoChat.Protocol.Starving

namespace ojalvo

/-- A request does nothing besides telling its sender the first of the names that
nobody has, if there is memory for the reply. The sender departs when that cannot be
sent. -/
def NamesFirstStranger (net : Net) (alloc : Nat → Bool) (world : World) (client_fd : Fd) (msg_in : Message)
    (usernames : List CString) : Prop :=
  ∃ known missing rest, usernames = known ++ missing :: rest ∧
    (∀ name ∈ known, ∃ fd, world.server.Registered fd name) ∧ (¬ ∃ fd, world.server.Registered fd missing) ∧
    let outcome := (message_handler_process net msg_in client_fd).run { world with alloc }
    let reply := response (.lit "INVITE") (.lit "NO_SUCH_USER") missing
    let sent := net world.trace client_fd reply
    let told := { world with
      trace := world.trace ++ [.send client_fd reply sent], alloc := fun later => alloc (later + 3) }
    (alloc 0 ∧ alloc 1 ∧ alloc 2 →
      outcome = if sent then .ok true told else (process_disconnect net client_fd).run told) ∧
    (¬ (alloc 0 ∧ alloc 1 ∧ alloc 2) → ∃ later, outcome = .ok false { world with alloc := later })

section Invite

variable {net : Net} {server : Server} {trace : List Effect} {alloc : Nat → Bool} {client_fd : Fd} {msg_in : Message}
  {user : User} {roomname missing : CString} {room : Room} {usernames : List CString}

/-- An INVITE of a registered client reaches its handler. -/
theorem run_message_handler_process_of_invite (hserver : server.Consistent) (hinvite : msg_in.type = .INVITE)
    (hfound : server.users.find_by_client_fd client_fd = some user) :
    (message_handler_process net msg_in client_fd).run ⟨server, [], trace, alloc⟩ =
      (process_invite net msg_in client_fd).run ⟨server, [], trace, alloc⟩ := by
  have hcontains := hserver.users.contains_by_client_fd_eq client_fd
  simp [message_handler_process, hinvite, users_table_contains_by_client_fd, hcontains, hfound]

section Strangers

variable (hroomname : msg_in.roomname = some roomname) (husernames : msg_in.usernames = some usernames)
  (hroom : server.rooms.lookup roomname = some room) (hfound : server.users.find_by_client_fd client_fd = some user)
  (hmember : room.members.contains_by_client_fd user.socket_fd = true)
  (hinvited : invited_records server usernames = .error missing)
include hroomname husernames hroom hfound hmember hinvited

/-- With memory for the reply the first loop ends with it. -/
theorem run_process_invite_of_stranger (hoperation : alloc 0 = true) (hresult : alloc 1 = true)
    (hextra : alloc 2 = true) :
    (process_invite net msg_in client_fd).run ⟨server, [], trace, alloc⟩ =
      (send_or_disconnect net client_fd (response (.lit "INVITE") (.lit "NO_SUCH_USER") missing) client_fd).run
        ⟨server, [], trace, fun later => alloc (later + 3)⟩ := by
  simp [process_invite, hroomname, husernames, hroom, run_strdup_any, hoperation, hresult, hextra,
    users_table_find_by_client_fd, hfound, run_with_room_is_a_member, hmember, run_find_invited_users, hinvited]

/-- Without memory for the reply nothing happens. -/
theorem run_process_invite_without_reply (hshort : ¬ (alloc 0 = true ∧ alloc 1 = true ∧ alloc 2 = true)) :
    ∃ later, (process_invite net msg_in client_fd).run ⟨server, [], trace, alloc⟩ =
      .ok false ⟨server, [], trace, later⟩ := by
  cases hoperation : alloc 0 with
  | false => exact ⟨_, by simp [process_invite, hroomname, husernames, run_strdup_any, hoperation]; rfl⟩
  | true =>
    refine ⟨fun later => alloc (later + 3), ?_⟩
    have hmissing : ¬ (alloc 1 = true ∧ alloc 2 = true) := fun hboth => hshort ⟨hoperation, hboth⟩
    cases hresult : alloc 1 with
    | false =>
      simp [process_invite, hroomname, husernames, hroom, run_strdup_any, hoperation, hresult,
        users_table_find_by_client_fd, hfound, run_with_room_is_a_member, hmember, run_find_invited_users, hinvited]
    | true =>
      have hextra : alloc 2 = false := Bool.eq_false_iff.mpr fun hextra => hmissing ⟨hresult, hextra⟩
      simp [process_invite, hroomname, husernames, hroom, run_strdup_any, hoperation, hresult, hextra,
        users_table_find_by_client_fd, hfound, run_with_room_is_a_member, hmember, run_find_invited_users, hinvited]

end Strangers

end Invite

/-- A member who invites somebody unknown invites nobody. -/
theorem strangers_are_not_invited {net : Net} {history : List (World × Event × (Nat → Bool))} {world : World}
    (hrun : StarvedRun net history world) (alloc : Nat → Bool) {client_fd : Fd} {roomname username : CString}
    {msg_in : Message} {usernames : List CString} (hmember : world.server.Member roomname client_fd username)
    (htype : msg_in.type = .INVITE) (hroomname : msg_in.roomname = some roomname)
    (husernames : msg_in.usernames = some usernames)
    (hunknown : ∃ name ∈ usernames, ¬ ∃ fd, world.server.Registered fd name) :
    NamesFirstStranger net alloc world client_fd msg_in usernames := by
  obtain ⟨hheld, hserver⟩ := starved_run_ready hrun
  obtain ⟨server, held, trace, before⟩ := world
  cases hheld
  have hregistered : ∀ name, (∃ fd, server.Registered fd name) ↔
      ∃ user, server.users.find_by_username name = some user := fun name => hserver.users.exists_lists_iff
  obtain ⟨room, hroom, hlists⟩ := hmember
  have hcopies := hserver.rooms roomname room hroom
  obtain ⟨user, hinside, -, hfd⟩ := hcopies.members.lists_iff.mp hlists
  have huser := hcopies.members_users user hinside
  have hfound := hserver.users.find_by_client_fd_iff.mpr ⟨huser, hfd⟩
  have hcontains := (hcopies.mem_members_iff hserver.users huser).mp hinside
  cases hinvited : invited_records server usernames with
  | ok invited_users =>
    obtain ⟨name, hmem, hnobody⟩ := hunknown
    have hsearched : server.users.find_by_username name ∈ invited_users.map some :=
      invited_records_eq_ok_iff.mp hinvited ▸ List.mem_map_of_mem hmem
    obtain ⟨other, -, hfind⟩ := List.mem_map.mp hsearched
    exact absurd ((hregistered name).mpr ⟨other, hfind.symm⟩) hnobody
  | error missing =>
    obtain ⟨known, rest, hsplit, hknown, hmissing⟩ := exists_of_invited_records_error hinvited
    refine ⟨known, missing, rest, hsplit, fun name hmem => (hregistered name).mpr (hknown name hmem), ?_, ?_⟩
    · rw [hregistered]
      rintro ⟨other, hfind⟩
      cases hmissing.symm.trans hfind
    · intro outcome reply sent told
      have hprocess : outcome = (process_invite net msg_in client_fd).run ⟨server, [], trace, alloc⟩ :=
        run_message_handler_process_of_invite hserver htype hfound
      constructor
      · rintro ⟨hoperation, hresult, hextra⟩
        rw [hprocess, run_process_invite_of_stranger hroomname husernames hroom hfound hcontains hinvited hoperation
          hresult hextra]
        exact run_send_or_disconnect_any net server trace client_fd _ _ client_fd
      · intro hshort
        rw [hprocess]
        exact run_process_invite_without_reply hroomname husernames hroom hfound hcontains hinvited hshort

/-- The second of three names is unknown. -/
theorem strangers_are_not_invited_in_meeting :
    ∃ world : World, world.server.Member (.lit "sala") 4 (.lit "ana") ∧
      NamesFirstStranger reliable allocating world 4
        { message_init with
          type := .INVITE, roomname := some (.lit "sala"), usernames := some [.lit "luis", .lit "eva", .lit "raul"] }
        [.lit "luis", .lit "eva", .lit "raul"] := by
  obtain ⟨history, world, hrun, htest⟩ := exists_run_of_serve_all reliable (meeting.take 3)
    (fun _ world => (world.server.rooms.lookup (.lit "sala")).any fun room =>
      room.members.Lists 4 (.lit "ana") ∧ world.server.users.find_by_username (.lit "eva") = none) (by decide +kernel)
  obtain ⟨room, hroom, hboth⟩ := (Option.any_eq_true _ _).mp htest
  obtain ⟨hlists, hnobody⟩ := of_decide_eq_true hboth
  obtain ⟨starved, hstarved⟩ := exists_starved_run hrun
  have hmember : world.server.Member (.lit "sala") 4 (.lit "ana") := ⟨room, hroom, hlists⟩
  refine ⟨world, hmember, strangers_are_not_invited hstarved allocating hmember rfl rfl rfl ⟨.lit "eva", by simp, ?_⟩⟩
  rw [(run_ready hrun).consistent.users.exists_lists_iff]
  rintro ⟨user, hfind⟩
  cases hnobody.symm.trans hfind

end ojalvo
