import OjalvoChat.Protocol.Delivery

namespace ojalvo

/-- A request that completes, delivers one notice to each addressed descriptor,
and nothing to anybody else. -/
def Delivers (world : World) (client_fd : Fd) (msg_in notice : Message) (addressed : Fd → Prop) : Prop :=
  ∃ effects, (message_handler_process reliable msg_in client_fd).run world =
      .ok true { world with trace := world.trace ++ effects } ∧
    (∀ fd, addressed fd → received fd effects = [notice]) ∧ ∀ fd, ¬ addressed fd → received fd effects = []

/-- The three kinds of text of a registered sender go where they should. -/
structure RoutesTexts (world : World) (client_fd : Fd) (sender : User) (text : CString) : Prop where
  public_text : ∀ msg_in, msg_in.type = .PUBLIC_TEXT → msg_in.text = some text →
    Delivers world client_fd msg_in (public_text_from_notice sender.username text) fun fd =>
      ∃ other ∈ world.server.users.entries, other ≠ sender ∧ other.socket_fd = fd
  room_text : ∀ msg_in roomname room, msg_in.type = .ROOM_TEXT → msg_in.text = some text →
    msg_in.roomname = some roomname → world.server.rooms.lookup roomname = some room → sender ∈ room.members.entries →
    Delivers world client_fd msg_in (room_text_from_notice roomname sender.username text) fun fd =>
      ∃ other ∈ room.members.entries, other ≠ sender ∧ other.socket_fd = fd
  outsider : ∀ msg_in roomname, msg_in.type = .ROOM_TEXT → msg_in.text = some text →
    msg_in.roomname = some roomname →
    (∀ room, world.server.rooms.lookup roomname = some room → sender ∉ room.members.entries) →
    ∃ answer, answer.type = .RESPONSE ∧ Delivers world client_fd msg_in answer fun fd => fd = client_fd
  text : ∀ msg_in addressee, msg_in.type = .TEXT → msg_in.text = some text →
    msg_in.username = some addressee.username → addressee ∈ world.server.users.entries → addressee ≠ sender →
    Delivers world client_fd msg_in (text_from_notice sender.username text) fun fd => fd = addressee.socket_fd

/-- What an event adds to the trace, whether or not it completes. -/
def Emitted (net : Net) (world : World) (event : Event) (effects : List Effect) : Prop :=
  (final_world ((serve net event).run world)).trace = world.trace ++ effects

/-- A signed message comes from a request on the connection that is registered
under the name it carries. -/
def Authentic (world : World) (event : Event) (message : Message) : Prop :=
  ∃ client_fd msg_in user, event = .request client_fd msg_in ∧ user ∈ world.server.users.entries ∧
    user.socket_fd = client_fd ∧ message.username = some user.username

/-- The sender of a room text is a member of the room. -/
def FromMember (world : World) (event : Event) : Prop :=
  ∃ client_fd msg_in roomname room user, event = .request client_fd msg_in ∧ msg_in.roomname = some roomname ∧
    world.server.rooms.lookup roomname = some room ∧ user ∈ room.members.entries ∧ user.socket_fd = client_fd

section Routing

variable {server : Server} {trace : List Effect} {client_fd : Fd} {sender : User}

/-- A reliable broadcast to a table reaches every record but the sender's. -/
theorem received_recipients {users contents : UsersTable} (husers : users.Indexed) (hcontents : contents.Indexed)
    (hcopies : ∀ user ∈ contents, user ∈ users) (hsender : sender ∈ users) (hfd : sender.socket_fd = client_fd)
    (notice : Message) :
    (∀ fd, (∃ other ∈ contents.entries, other ≠ sender ∧ other.socket_fd = fd) →
        received fd (sends notice (recipients contents.entries client_fd)) = [notice]) ∧
      ∀ fd, (¬ ∃ other ∈ contents.entries, other ≠ sender ∧ other.socket_fd = fd) →
        received fd (sends notice (recipients contents.entries client_fd)) = [] := by
  have hiff : ∀ fd, fd ∈ recipients contents.entries client_fd ↔
      ∃ other ∈ contents.entries, other ≠ sender ∧ other.socket_fd = fd := by
    intro fd
    rw [mem_recipients]
    constructor
    · rintro ⟨hne, other, hother, rfl⟩
      refine ⟨other, hother, ?_, rfl⟩
      rintro rfl
      exact hne hfd
    · rintro ⟨other, hother, hne, rfl⟩
      refine ⟨fun heq => hne ?_, other, hother, rfl⟩
      exact husers.eq_of_socket_fd_eq (hcopies other (hcontents.mem_entries.mp hother)) hsender (heq.trans hfd.symm)
  have hnodup := nodup_recipients hcontents client_fd
  constructor
  · intro fd haddressed
    rw [received_sends fd notice hnodup, if_pos ((hiff fd).mpr haddressed)]
  · intro fd hother
    rw [received_sends fd notice hnodup, if_neg (mt (hiff fd).mp hother)]

variable (hserver : server.Consistent) (hsender : server.Sender client_fd sender) (text : CString)
include hserver hsender

theorem delivers_public_text (msg_in : Message) (htype : msg_in.type = .PUBLIC_TEXT) (htext : msg_in.text = some text) :
    Delivers (.idle server trace) client_fd msg_in (public_text_from_notice sender.username text) fun fd =>
      ∃ other ∈ server.users.entries, other ≠ sender ∧ other.socket_fd = fd := by
  refine ⟨_, ?_, received_recipients hserver.users hserver.users (fun _ hmem => hmem) hsender.registered
    hsender.connected (public_text_from_notice sender.username text)⟩
  rw [run_message_handler_process reliable server trace client_fd msg_in hserver,
    reaction_of_sender hserver hsender (by simp [htype])]
  simp only [registered_reaction, htype, public_text_reaction, htext, Reaction.perform, announce_reliable]

theorem delivers_room_text (msg_in : Message) (roomname : CString) (room : Room) (htype : msg_in.type = .ROOM_TEXT)
    (htext : msg_in.text = some text) (hroomname : msg_in.roomname = some roomname)
    (hroom : server.rooms.lookup roomname = some room) (hmember : sender ∈ room.members.entries) :
    Delivers (.idle server trace) client_fd msg_in (room_text_from_notice roomname sender.username text) fun fd =>
      ∃ other ∈ room.members.entries, other ≠ sender ∧ other.socket_fd = fd := by
  have hcopies := hserver.rooms roomname room hroom
  have hcontains := (hcopies.mem_members_iff hserver.users hsender.registered).mp
    (hcopies.members.mem_entries.mp hmember)
  refine ⟨_, ?_, received_recipients hserver.users hcopies.members hcopies.members_users hsender.registered
    hsender.connected (room_text_from_notice roomname sender.username text)⟩
  rw [run_message_handler_process reliable server trace client_fd msg_in hserver,
    reaction_of_sender hserver hsender (by simp [htype])]
  simp only [registered_reaction, htype, room_text_reaction, htext, room_reaction, hroomname, hroom, hcontains,
    if_true, Reaction.perform, tell_members_reliable, Server.room_recipients]

theorem delivers_outsider (msg_in : Message) (roomname : CString) (htype : msg_in.type = .ROOM_TEXT)
    (htext : msg_in.text = some text) (hroomname : msg_in.roomname = some roomname)
    (houtside : ∀ room, server.rooms.lookup roomname = some room → sender ∉ room.members.entries) :
    ∃ answer, answer.type = .RESPONSE ∧
      Delivers (.idle server trace) client_fd msg_in answer fun fd => fd = client_fd := by
  have hanswers : ∀ answer, reaction server client_fd msg_in = .reply client_fd answer →
      Delivers (.idle server trace) client_fd msg_in answer fun fd => fd = client_fd := by
    intro answer hreply
    refine ⟨[.send client_fd answer true], ?_, by simp, fun fd hne => by simp [Ne.symm hne]⟩
    rw [run_message_handler_process reliable server trace client_fd msg_in hserver, hreply]
    rfl
  rw [reaction_of_sender hserver hsender (by simp [htype])] at hanswers
  simp only [registered_reaction, htype, room_text_reaction, htext, room_reaction, hroomname] at hanswers
  cases hroom : server.rooms.lookup roomname with
  | none =>
    simp only [hroom, hsender.connected] at hanswers
    exact ⟨_, rfl, hanswers _ rfl⟩
  | some room =>
    have hcopies := hserver.rooms roomname room hroom
    have hcontains : room.members.contains_by_client_fd sender.socket_fd = false := by
      rw [← Bool.not_eq_true, ← hcopies.mem_members_iff hserver.users hsender.registered,
        ← hcopies.members.mem_entries]
      exact houtside room hroom
    rw [hsender.connected] at hcontains
    simp only [hroom, hcontains, Bool.false_eq_true, if_false, hsender.connected] at hanswers
    exact ⟨_, rfl, hanswers _ rfl⟩

theorem delivers_text (msg_in : Message) (addressee : User) (htype : msg_in.type = .TEXT)
    (htext : msg_in.text = some text) (husername : msg_in.username = some addressee.username)
    (haddressee : addressee ∈ server.users.entries) (hother : addressee ≠ sender) :
    Delivers (.idle server trace) client_fd msg_in (text_from_notice sender.username text) fun fd =>
      fd = addressee.socket_fd := by
  have hregistered := hserver.users.mem_entries.mp haddressee
  have hfound := hserver.users.find_by_username_iff.mpr ⟨hregistered, rfl⟩
  have hnames : sender.username ≠ addressee.username := fun hname =>
    hother (UsersTable.eq_of_username_eq hregistered hsender.registered hname.symm)
  refine ⟨[.send addressee.socket_fd (text_from_notice sender.username text) true], ?_, ?_, ?_⟩
  · rw [run_message_handler_process reliable server trace client_fd msg_in hserver,
      reaction_of_sender hserver hsender (by simp [htype])]
    simp only [registered_reaction, htype, text_reaction, husername, hfound, if_neg hnames, htext, Reaction.perform,
      send_or_depart_reliable]
  · rintro fd rfl
    simp
  · intro fd hne
    simp [Ne.symm hne]

end Routing

section Authenticity

variable {server : Server} {trace : List Effect}

theorem Caused.authentic {event : Event} {message : Message}
    (hcaused : Caused server event.client_fd event.message message) (hserver : server.Consistent)
    (hsigned : message.type ∈ signed_types) : Authentic (.idle server trace) event message := by
  have hauthentic : ∀ (user : User) (type : MessageType), event.message.type = type → type ≠ .UNKNOWN →
      server.Sender event.client_fd user → message.username = some user.username →
      Authentic (.idle server trace) event message := by
    intro user type htype hknown hsender hname
    exact ⟨_, _, user, Event.eq_request htype hknown, hserver.users.mem_entries.mpr hsender.registered,
      hsender.connected, hname⟩
  cases hcaused with
  | text_from user text htype hsender => exact hauthentic user .TEXT htype (by decide) hsender rfl
  | public_text_from user text htype hsender => exact hauthentic user .PUBLIC_TEXT htype (by decide) hsender rfl
  | room_text_from user roomname room text htype hsender hroomname hroom hmember =>
    exact hauthentic user .ROOM_TEXT htype (by decide) hsender rfl
  | invitation user roomname htype hsender => exact hauthentic user .INVITE htype (by decide) hsender rfl
  | new_status user text htype hsender => exact hauthentic user .STATUS htype (by decide) hsender rfl
  | user_list user htype hsender => exact absurd hsigned (by simp [user_list_message, signed_types])
  | other message hunsigned hlist => exact absurd hsigned hunsigned

theorem Caused.from_member {event : Event} {message : Message}
    (hcaused : Caused server event.client_fd event.message message) (hserver : server.Consistent)
    (htype : message.type = .ROOM_TEXT_FROM) : FromMember (.idle server trace) event := by
  cases hcaused with
  | room_text_from user roomname room text hrequest hsender hroomname hroom hmember =>
    have hcopies := hserver.rooms roomname room hroom
    exact ⟨_, _, roomname, room, user, Event.eq_request hrequest (by decide), hroomname, hroom,
      hcopies.members.mem_entries.mpr hmember, hsender.connected⟩
  | other message hunsigned hlist =>
    rw [htype] at hunsigned
    exact absurd (by decide) hunsigned
  | _ => cases htype

end Authenticity

/-- In every reachable state texts that can be sent are routed, signed messages
are authentic and only members reach a room. -/
theorem texts_are_routed_and_authentic {net : Net} {history : List (World × Event)} {world : World}
    (hrun : ServerRun net history world) :
    (∀ client_fd sender text, sender ∈ world.server.users.entries → sender.socket_fd = client_fd →
      RoutesTexts world client_fd sender text) ∧
    ∀ event, ∃ effects, Emitted net world event effects ∧
      ∀ fd message sent, Effect.send fd message sent ∈ effects →
        (message.type ∈ signed_types → Authentic world event message) ∧
        (message.type = .ROOM_TEXT_FROM → FromMember world event) := by
  obtain ⟨hidle, hserver⟩ := run_ready hrun
  constructor
  · intro client_fd sender text hregistered hfd
    have hsender : world.server.Sender client_fd sender := ⟨hserver.users.mem_entries.mp hregistered, hfd⟩
    rw [hidle]
    constructor
    · exact delivers_public_text hserver hsender text
    · exact delivers_room_text hserver hsender text
    · exact delivers_outsider hserver hsender text
    · exact delivers_text hserver hsender text
  · intro event
    obtain ⟨effects, hemitted, hcaused⟩ := serve_emits net world.trace hserver event
    rw [← hidle] at hemitted
    refine ⟨effects, hemitted, fun fd message sent hmem => ?_⟩
    have hcause := hcaused fd message sent hmem
    rw [hidle]
    exact ⟨hcause.authentic hserver, hcause.from_member hserver⟩

/-- The texts of one of two members of a room. -/
theorem texts_are_routed_in_meeting :
    ∃ world sender, sender.username = .lit "ana" ∧ (world.server.rooms.lookup (.lit "sala")).isSome ∧
      RoutesTexts world 4 sender (.lit "hola") := by
  obtain ⟨history, world, hrun, htest⟩ := exists_run_of_serve_all reliable meeting
    (fun _ world => (world.server.rooms.lookup (.lit "sala")).isSome &&
      world.server.users.entries.any fun user => user.username = .lit "ana" && user.socket_fd = 4)
    (by decide +kernel)
  simp only [Bool.and_eq_true, List.any_eq_true, decide_eq_true_eq] at htest
  obtain ⟨hroom, sender, hregistered, hname, hfd⟩ := htest
  exact ⟨world, sender, hname, hroom,
    (texts_are_routed_and_authentic hrun).1 4 sender (.lit "hola") hregistered hfd⟩

end ojalvo
