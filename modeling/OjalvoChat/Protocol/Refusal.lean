import OjalvoChat.Protocol.Closing

namespace ojalvo

/-- The requests for which their sender is disconnected. -/
inductive Refused (server : Server) (client_fd : Fd) (msg_in : Message) : Prop where
  | disconnect (htype : msg_in.type = .DISCONNECT)
  | not_identified (htype : msg_in.type ≠ .UNKNOWN ∧ msg_in.type ≠ .DISCONNECT ∧ msg_in.type ≠ .IDENTIFY)
    (hunknown : ∀ user, ¬ server.Sender client_fd user)
  | other_name (user : User) (requested : CString) (htype : msg_in.type = .IDENTIFY)
    (hsender : server.Sender client_fd user) (husername : msg_in.username = some requested)
    (hother : user.username ≠ requested.cut 8)
  | taken_name (user : User) (requested : CString) (htype : msg_in.type = .IDENTIFY)
    (hunknown : ∀ sender, ¬ server.Sender client_fd sender) (husername : msg_in.username = some requested)
    (htaken : user ∈ server.users) (hname : user.username = requested.cut 8)
  | status (user : User) (text : CString) (htype : msg_in.type = .STATUS) (hsender : server.Sender client_fd user)
    (hstatus : msg_in.status = some text) (hunread : user_status_from_string (some text) = none)
  | invite (user : User) (roomname : CString) (room : Room) (usernames : List CString) (htype : msg_in.type = .INVITE)
    (hsender : server.Sender client_fd user) (hroomname : msg_in.roomname = some roomname)
    (husernames : msg_in.usernames = some usernames) (hroom : server.rooms.lookup roomname = some room)
    (houtside : user ∉ room.members)

/-- The message that answers a request, with its receiver. A text counts as the
answer that its addressee gets. -/
def Reaction.answer (client_fd : Fd) (reaction : Reaction) : Option (Fd × Message) :=
  match reaction with
  | .reply fd message => some (fd, message)
  | .register user => some (client_fd, response (.lit "IDENTIFY") (.lit "SUCCESS") user.username)
  | .create room _ => some (client_fd, response (.lit "NEW_ROOM") (.lit "SUCCESS") room.roomname)
  | .join roomname _ => some (client_fd, response (.lit "JOIN_ROOM") (.lit "SUCCESS") roomname)
  | _ => none

/-- The events that disconnect a client: a line of its own that is no message, a
request that is refused or whose answer cannot be sent, and an invitation that
cannot be sent to it. -/
inductive Disconnects (net : Net) (world : World) (client_fd : Fd) : Event → Prop where
  | invalid : Disconnects net world client_fd (.invalid client_fd)
  | refused (msg_in : Message) (hrefused : Refused world.server client_fd msg_in) :
    Disconnects net world client_fd (.request client_fd msg_in)
  | unanswered (msg_in : Message) (fd : Fd) (message : Message)
    (hanswer : (reaction world.server client_fd msg_in).answer client_fd = some (fd, message))
    (hunsent : net world.trace fd message = false) :
    Disconnects net world client_fd (.request client_fd msg_in)
  | uninvited (other : Fd) (msg_in : Message) (roomname : CString) (invited_users : List User) (invitation : Message)
    (hinvites : reaction world.server other msg_in = .invite roomname invited_users invitation)
    (hunsent : client_fd ∈ closed_invitations net roomname invitation invited_users world.server world.trace) :
    Disconnects net world client_fd (.request other msg_in)

/-- A reaction that disconnects the sender whatever the network does. -/
def Reaction.refuses (reaction : Reaction) : Bool :=
  match reaction with
  | .refuse _ => true
  | .leave => true
  | _ => false

section Refusals

variable {server : Server} {client_fd : Fd} {msg_in : Message} {user : User}

theorem not_sender_of_unknown (hserver : server.Consistent) (hfound : server.users.find_by_client_fd client_fd = none)
    (sender : User) : ¬ server.Sender client_fd sender := by
  intro hsender
  have hknown := hserver.users.find_by_client_fd_iff.mpr ⟨hsender.registered, hsender.connected⟩
  rw [hfound] at hknown
  cases hknown

theorem unknown_of_not_sender (hserver : server.Consistent) (hunknown : ∀ user, ¬ server.Sender client_fd user) :
    server.users.find_by_client_fd client_fd = none := by
  cases hfound : server.users.find_by_client_fd client_fd with
  | none => rfl
  | some user =>
    obtain ⟨hregistered, hconnected⟩ := hserver.users.find_by_client_fd_iff.mp hfound
    exact absurd ⟨hregistered, hconnected⟩ (hunknown user)

/-- IDENTIFY is refused for a name that is taken or not the own one. -/
theorem refused_of_identify (hserver : server.Consistent) (htype : msg_in.type = .IDENTIFY)
    (hrefuses : (identify_reaction server client_fd msg_in).refuses = true) : Refused server client_fd msg_in := by
  unfold identify_reaction at hrefuses
  cases husername : msg_in.username with
  | none =>
    rw [husername] at hrefuses
    cases hrefuses
  | some requested =>
    rw [husername] at hrefuses
    cases hfound : server.users.find_by_client_fd client_fd with
    | some user =>
      obtain ⟨hregistered, hconnected⟩ := hserver.users.find_by_client_fd_iff.mp hfound
      by_cases hother : user.username ≠ requested.cut 8
      · exact .other_name user requested htype ⟨hregistered, hconnected⟩ husername hother
      · simp only [hfound, if_neg hother] at hrefuses
        cases hrefuses
    | none =>
      cases htaken : server.users.find_by_username (requested.cut 8) with
      | some user =>
        obtain ⟨hregistered, hname⟩ := hserver.users.find_by_username_iff.mp htaken
        exact .taken_name user requested htype (not_sender_of_unknown hserver hfound) husername hregistered hname
      | none =>
        simp only [hfound, htaken] at hrefuses
        split at hrefuses <;> cases hrefuses

/-- STATUS is refused for a status that there is not. -/
theorem refused_of_status (hsender : server.Sender client_fd user) (htype : msg_in.type = .STATUS)
    (hrefuses : (status_reaction user msg_in).refuses = true) : Refused server client_fd msg_in := by
  unfold status_reaction at hrefuses
  cases hstatus : msg_in.status with
  | none =>
    rw [hstatus] at hrefuses
    cases hrefuses
  | some text =>
    cases hread : user_status_from_string (some text) with
    | none => exact .status user text htype hsender hstatus hread
    | some status =>
      simp only [hstatus, hread] at hrefuses
      split at hrefuses <;> cases hrefuses

/-- INVITE is refused to those who are no members. -/
theorem refused_of_invite (hserver : server.Consistent) (hsender : server.Sender client_fd user)
    (htype : msg_in.type = .INVITE) (hrefuses : (invite_reaction server user msg_in).refuses = true) :
    Refused server client_fd msg_in := by
  unfold invite_reaction at hrefuses
  split at hrefuses
  · rename_i roomname usernames hroomname husernames
    split at hrefuses
    · cases hrefuses
    · rename_i room hroom
      have hmembers := (hserver.rooms roomname room hroom).mem_members_iff hserver.users hsender.registered
      split at hrefuses
      · split at hrefuses <;> cases hrefuses
      · rename_i hnomember
        exact .invite user roomname room usernames htype hsender hroomname husernames hroom
          (fun hmem => hnomember (hmembers.mp hmem))
  · cases hrefuses

/-- No request that a room has to exist for disconnects its client. -/
theorem room_reaction_not_refuses {operation : CString} {roomname : Option CString}
    {react : CString → Room → Reaction} (hreact : ∀ roomname room, (react roomname room).refuses = false) :
    (room_reaction server user operation roomname react).refuses = false := by
  unfold room_reaction
  split
  · rfl
  · split
    · rfl
    · exact hreact _ _

/-- Registered users are disconnected only for a status or an invitation. -/
theorem registered_reaction_not_refuses (hstatus : msg_in.type ≠ .STATUS) (hinvite : msg_in.type ≠ .INVITE) :
    (registered_reaction server user msg_in).refuses = false := by
  unfold registered_reaction
  cases htype : msg_in.type
  case STATUS => exact absurd htype hstatus
  case INVITE => exact absurd htype hinvite
  case TEXT =>
    dsimp only
    unfold text_reaction
    split
    · rfl
    · split
      · rfl
      · split
        · rfl
        · split <;> rfl
  case PUBLIC_TEXT =>
    dsimp only
    unfold public_text_reaction
    split <;> rfl
  case NEW_ROOM =>
    dsimp only
    unfold new_room_reaction
    split
    · rfl
    · dsimp only
      split
      · rfl
      · rfl
      · split <;> rfl
  case JOIN_ROOM =>
    refine room_reaction_not_refuses fun roomname room => ?_
    split
    · rfl
    · split <;> rfl
  case ROOM_USERS =>
    refine room_reaction_not_refuses fun roomname room => ?_
    split <;> rfl
  case ROOM_TEXT =>
    dsimp only
    unfold room_text_reaction
    split
    · rfl
    · refine room_reaction_not_refuses fun roomname room => ?_
      split <;> rfl
  case LEAVE_ROOM =>
    refine room_reaction_not_refuses fun roomname room => ?_
    split <;> rfl
  all_goals rfl

theorem refused_of_registered (hserver : server.Consistent) (hsender : server.Sender client_fd user)
    (hrefuses : (registered_reaction server user msg_in).refuses = true) : Refused server client_fd msg_in := by
  by_cases hstatus : msg_in.type = .STATUS
  · rw [registered_reaction, hstatus] at hrefuses
    exact refused_of_status hsender hstatus hrefuses
  · by_cases hinvite : msg_in.type = .INVITE
    · rw [registered_reaction, hinvite] at hrefuses
      exact refused_of_invite hserver hsender hinvite hrefuses
    · rw [registered_reaction_not_refuses hstatus hinvite] at hrefuses
      cases hrefuses

/-- Whoever is disconnected by its own request has been refused it. -/
theorem refused_of_refuses (hserver : server.Consistent)
    (hrefuses : (reaction server client_fd msg_in).refuses = true) : Refused server client_fd msg_in := by
  unfold reaction at hrefuses
  by_cases hunknown : msg_in.type = .UNKNOWN
  · rw [if_pos hunknown] at hrefuses
    cases hrefuses
  by_cases hdisconnect : msg_in.type = .DISCONNECT
  · exact .disconnect hdisconnect
  by_cases hidentify : msg_in.type = .IDENTIFY
  · rw [if_neg hunknown, if_neg hdisconnect, if_pos hidentify] at hrefuses
    exact refused_of_identify hserver hidentify hrefuses
  rw [if_neg hunknown, if_neg hdisconnect, if_neg hidentify] at hrefuses
  cases hfound : server.users.find_by_client_fd client_fd with
  | none => exact .not_identified ⟨hunknown, hdisconnect, hidentify⟩ (not_sender_of_unknown hserver hfound)
  | some user =>
    rw [hfound] at hrefuses
    obtain ⟨hregistered, hconnected⟩ := hserver.users.find_by_client_fd_iff.mp hfound
    exact refused_of_registered hserver ⟨hregistered, hconnected⟩ hrefuses

/-- Whoever is refused a request so is disconnected. -/
theorem Refused.refuses (hrefused : Refused server client_fd msg_in) (hserver : server.Consistent) :
    (reaction server client_fd msg_in).refuses = true := by
  cases hrefused with
  | disconnect htype => simp [reaction, htype, Reaction.refuses]
  | not_identified htype hunknown =>
    simp [reaction, htype, unknown_of_not_sender hserver hunknown, Reaction.refuses]
  | other_name user requested htype hsender husername hother =>
    have hfound := hserver.users.find_by_client_fd_iff.mpr ⟨hsender.registered, hsender.connected⟩
    simp [reaction, htype, identify_reaction, husername, hfound, hother, Reaction.refuses]
  | taken_name user requested htype hunknown husername htaken hname =>
    have hfound := unknown_of_not_sender hserver hunknown
    have htaken_by := hserver.users.find_by_username_iff.mpr ⟨htaken, hname⟩
    have hother : user.socket_fd ≠ client_fd := fun heq => hunknown user ⟨htaken, heq⟩
    simp [reaction, htype, identify_reaction, husername, hfound, htaken_by, hother, Reaction.refuses]
  | status user text htype hsender hstatus hunread =>
    rw [reaction_of_sender hserver hsender (by simp [htype])]
    simp [registered_reaction, htype, status_reaction, hstatus, hunread, Reaction.refuses]
  | invite user roomname room usernames htype hsender hroomname husernames hroom houtside =>
    have hmembers := (hserver.rooms roomname room hroom).mem_members_iff hserver.users hsender.registered
    rw [hmembers] at houtside
    rw [reaction_of_sender hserver hsender (by simp [htype])]
    simp [registered_reaction, htype, invite_reaction, hroomname, husernames, hroom, houtside, Reaction.refuses]

/-- The refused requests are those whose sender is disconnected at once. -/
theorem refuses_iff (hserver : server.Consistent) :
    (reaction server client_fd msg_in).refuses = true ↔ Refused server client_fd msg_in :=
  ⟨refused_of_refuses hserver, fun hrefused => hrefused.refuses hserver⟩

end Refusals

section Disconnections

variable {net : Net} {server : Server} {trace : List Effect} {client_fd : Fd}

/-- A reaction closes the descriptor of its sender when it refuses or its answer
cannot be sent. -/
theorem Reaction.mem_closed_iff (reaction : Reaction) (sender : Fd) :
    client_fd ∈ reaction.closed net sender server trace ↔
      (client_fd = sender ∧ (reaction.refuses = true ∨
        ∃ fd message, reaction.answer sender = some (fd, message) ∧ net trace fd message = false)) ∨
      ∃ roomname invited_users invitation, reaction = .invite roomname invited_users invitation ∧
        client_fd ∈ closed_invitations net roomname invitation invited_users server trace := by
  have hunanswered : ∀ fd message, client_fd ∈ closed_unanswered net fd message sender trace ↔
      client_fd = sender ∧ net trace fd message = false := by
    intro fd message
    unfold closed_unanswered
    cases net trace fd message <;> simp
  cases reaction with
  | reply fd message => simp [Reaction.closed, Reaction.refuses, Reaction.answer, hunanswered]
  | register user => simp [Reaction.closed, Reaction.refuses, Reaction.answer, hunanswered]
  | create room creator => simp [Reaction.closed, Reaction.refuses, Reaction.answer, hunanswered]
  | join roomname user => simp [Reaction.closed, Reaction.refuses, Reaction.answer, hunanswered]
  | invite roomname invited_users invitation => simp [Reaction.closed, Reaction.refuses, Reaction.answer]
  | _ => simp [Reaction.closed, Reaction.refuses, Reaction.answer]

/-- The events that disconnect a client are those that close its descriptor. -/
theorem disconnects_iff (hserver : server.Consistent) (event : Event) :
    Disconnects net (.idle server trace) client_fd event ↔
      client_fd ∈ (event.reaction server).closed net event.client_fd server trace := by
  cases event with
  | accept fd =>
    refine ⟨nofun, fun hmem => ?_⟩
    cases hmem
  | invalid fd =>
    constructor
    · rintro ⟨⟩
      exact List.mem_singleton_self _
    · intro hmem
      obtain rfl := List.mem_singleton.mp hmem
      exact .invalid
  | request fd msg_in =>
    rw [Event.reaction, Event.client_fd, Reaction.mem_closed_iff, refuses_iff hserver]
    constructor
    · intro hdisconnects
      cases hdisconnects with
      | refused _ hrefused => exact Or.inl ⟨rfl, Or.inl hrefused⟩
      | unanswered _ fd message hanswer hunsent => exact Or.inl ⟨rfl, Or.inr ⟨fd, message, hanswer, hunsent⟩⟩
      | uninvited _ _ roomname invited_users invitation hinvites hunsent =>
        exact Or.inr ⟨roomname, invited_users, invitation, hinvites, hunsent⟩
    · intro hcloses
      rcases hcloses with ⟨rfl, hown⟩ | ⟨roomname, invited_users, invitation, hinvites, hunsent⟩
      · rcases hown with hrefused | ⟨fd, message, hanswer, hunsent⟩
        · exact .refused msg_in hrefused
        · exact .unanswered msg_in fd message hanswer hunsent
      · exact .uninvited fd msg_in roomname invited_users invitation hinvites hunsent

end Disconnections

end ojalvo
