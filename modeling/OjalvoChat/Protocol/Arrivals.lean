import OjalvoChat.Protocol.Connected

namespace ojalvo

section Arrivals

variable {net : Net} {server : Server} {trace : List Effect} {fds : List Fd} {fd : Fd} {username key : CString}
  {event : Event} {after : World}

theorem identify_of_register {client_fd : Fd} {msg_in : Message} {user : User} (hserver : server.Consistent)
    (hregister : reaction server client_fd msg_in = .register user) :
    server.users.find_by_client_fd client_fd = none ∧ user.socket_fd = client_fd ∧ msg_in.type = .IDENTIFY ∧
      ∃ requested, msg_in.username = some requested ∧ user.username = requested.cut 8 := by
  have hpermitted := reaction_permitted client_fd msg_in hserver
  rw [hregister] at hpermitted
  cases hpermitted with
  | register _ hfd hactive hname hunknown =>
    rw [hfd] at hunknown
    refine ⟨hunknown, hfd, ?_⟩
    unfold reaction at hregister
    by_cases hunsupported : msg_in.type = .UNKNOWN
    · rw [if_pos hunsupported] at hregister
      cases hregister
    by_cases hdisconnect : msg_in.type = .DISCONNECT
    · rw [if_neg hunsupported, if_pos hdisconnect] at hregister
      cases hregister
    rw [if_neg hunsupported, if_neg hdisconnect, hunknown] at hregister
    by_cases hidentify : msg_in.type = .IDENTIFY
    · rw [if_pos hidentify] at hregister
      unfold identify_reaction at hregister
      cases husername : msg_in.username with
      | none =>
        rw [husername] at hregister
        cases hregister
      | some requested =>
        simp only [husername, hunknown] at hregister
        split at hregister
        · rename_i heq
          cases heq
        · split at hregister <;> cases hregister
        · split at hregister
          · cases hregister
          · rename_i hinit
            cases hregister
            exact ⟨hidentify, requested, rfl, (user_init_eq_some_iff.mp hinit).1⟩
    · rw [if_neg hidentify] at hregister
      cases hregister

/-- Users are registered by an IDENTIFY only, under the name that it asks for as far
as it fits. -/
theorem registered_of_settled (hserver : server.Consistent)
    (hregistered : (((event.reaction server).settled net server trace).evict_all fds).Registered fd username) :
    server.Registered fd username ∨
      (∀ other, ¬ server.Registered fd other) ∧ ∃ msg_in requested, event = .request fd msg_in ∧
        msg_in.type = .IDENTIFY ∧ msg_in.username = some requested ∧ username = requested.cut 8 := by
  have hpermitted := event.permitted hserver
  have hsettled := hpermitted.settled_consistent net trace hserver
  obtain ⟨hthere, -⟩ := hsettled.registered_evict_all.mp hregistered
  refine ((hpermitted.registered_settled hserver).mp hthere).imp_right ?_
  rintro ⟨user, hregister, hname, hfd⟩
  cases event with
  | accept client_fd => cases hregister
  | invalid client_fd => cases hregister
  | request client_fd msg_in =>
    obtain ⟨hunknown, hconnected, htype, requested, husername, hrequested⟩ := identify_of_register hserver hregister
    obtain rfl : client_fd = fd := hconnected.symm.trans hfd
    refine ⟨fun other hother => ?_, msg_in, requested, rfl, htype, husername, hname.symm.trans hrequested⟩
    obtain ⟨found, hfound, -, hfoundfd⟩ := hserver.users.lists_iff.mp hother
    exact hserver.users.find_by_client_fd_eq_none_iff.mp hunknown found hfound hfoundfd

theorem registered_of_served (hserver : server.Consistent) (hserved : Served net (.idle server trace) event after)
    (hregistered : after.server.Registered fd username) :
    server.Registered fd username ∨
      (∀ other, ¬ server.Registered fd other) ∧ ∃ msg_in requested, event = .request fd msg_in ∧
        msg_in.type = .IDENTIFY ∧ msg_in.username = some requested ∧ username = requested.cut 8 := by
  obtain ⟨later, rfl⟩ := served_leaves hserver hserved
  exact registered_of_settled hserver hregistered

theorem mem_rooms_settle_invitations {server : Server} {trace : List Effect} {invited_to : CString}
    {invitation : Message} {invited_users : List User} :
    key ∈ (settle_invitations net invited_to invitation invited_users server trace).1.rooms ↔ key ∈ server.rooms := by
  induction invited_users generalizing server trace with
  | nil => exact Iff.rfl
  | cons user rest ih =>
    unfold settle_invitations
    split
    · exact Iff.rfl
    · dsimp only
      split
      · exact ih.trans HashTable.mem_adjust
      · exact HashTable.mem_adjust

/-- Rooms are created by a NEW_ROOM of a user only, under the name that it asks for as
far as it fits. -/
theorem room_of_settled (hserver : server.Consistent)
    (hroom : key ∈ (((event.reaction server).settled net server trace).evict_all fds).rooms) :
    key ∈ server.rooms ∨ ∃ user requested, server.Sender event.client_fd user ∧ event.message.type = .NEW_ROOM ∧
      event.message.roomname = some requested ∧ key = requested.cut 16 := by
  have hpermitted := event.permitted hserver
  have hsettled := hpermitted.settled_consistent net trace hserver
  obtain ⟨left, hleft⟩ := HashTable.exists_lookup_of_mem hroom
  obtain ⟨room, hroom, -⟩ := (hsettled.without_evict_all _).same_rooms key left hleft
  have hkept := HashTable.mem_of_lookup hroom
  generalize event.reaction server = reaction at hpermitted hkept
  cases hpermitted with
  | set_status user status text htype hsender hread hchange => exact Or.inl (HashTable.mem_mapEntries.mp hkept)
  | create user requested named htype hsender hroomname hfree =>
    cases (AList.mem_insert _).mp hkept with
    | inl hsame => exact Or.inr ⟨user, requested, hsender, htype, hroomname, hsame⟩
    | inr hold => exact Or.inl hold
  | join user joined room htype hsender hroomname hroom houtside hwaiting =>
    exact Or.inl (HashTable.mem_adjust.mp hkept)
  | quit user left_room room htype hsender hroomname hroom hmember =>
    obtain ⟨room, hroom⟩ := HashTable.exists_lookup_of_mem hkept
    rw [Reaction.settled, Server.Consistent.lookup_quit, Option.filter_eq_some_iff] at hroom
    exact Or.inl (HashTable.mem_adjust.mp (HashTable.mem_of_lookup hroom.1))
  | invite user invited_to room usernames invited_users htype hsender hroomname husernames hroom hmember hinvited =>
    exact Or.inl (mem_rooms_settle_invitations.mp hkept)
  | _ => exact Or.inl hkept

theorem room_of_served (hserver : server.Consistent) (hserved : Served net (.idle server trace) event after)
    (hroom : key ∈ after.server.rooms) :
    key ∈ server.rooms ∨ ∃ user requested, server.Sender event.client_fd user ∧ event.message.type = .NEW_ROOM ∧
      event.message.roomname = some requested ∧ key = requested.cut 16 := by
  obtain ⟨later, rfl⟩ := served_leaves hserver hserved
  exact room_of_settled hserver hroom

end Arrivals

end ojalvo
