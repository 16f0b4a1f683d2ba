import OjalvoChat.Library.Since
import OjalvoChat.Protocol.Arrivals

namespace ojalvo

section Naming

variable (net : Net) (fd : Fd) (name key : CString)

/-- A connection is sent this response while an event is served. -/
def Answers (before : World) (event : Event) (operation result : CString) (extra : Option CString) : Prop :=
  ∃ effects sent, (final_world ((serve net event).run before)).trace = before.trace ++ effects ∧
    Effect.send fd (response operation result extra) sent ∈ effects

/-- A client identifies itself with this name. -/
def IdentifiedAs (before : World) (event : Event) : Prop :=
  ∃ msg_in extra, event = .request fd msg_in ∧ msg_in.type = .IDENTIFY ∧ msg_in.username = some name ∧
    Answers net fd before event (.lit "IDENTIFY") (.lit "SUCCESS") extra

/-- The client has identified itself with this name and has been registered ever
since. -/
def IdentifiedSince (history : List (World × Event)) (world : World) : Prop :=
  Since (fun _ => IdentifiedAs net fd name) (fun _ _ => True)
    (fun world => ∃ username, world.server.Registered fd username) history world

/-- A room is created, under some key, for a NEW_ROOM with this name. -/
def CreatedAs (before : World) (event : Event) : Prop :=
  ∃ creator_fd msg_in extra, event = .request creator_fd msg_in ∧ msg_in.type = .NEW_ROOM ∧
    msg_in.roomname = some name ∧ key ∉ before.server.rooms ∧
    Answers net creator_fd before event (.lit "NEW_ROOM") (.lit "SUCCESS") extra

/-- The room has been created for a NEW_ROOM with this name and has existed ever
since. -/
def CreatedSince (history : List (World × Event)) (world : World) : Prop :=
  Since (fun _ => CreatedAs net name key) (fun _ _ => True) (fun world => key ∈ world.server.rooms) history world

/-- A request that names a user. -/
def NamesUser (msg_in : Message) : Prop :=
  (msg_in.type = .TEXT ∧ msg_in.username = some name) ∨
    (msg_in.type = .INVITE ∧ ∃ usernames, msg_in.usernames = some usernames ∧ name ∈ usernames)

/-- A request that names a room. -/
def NamesRoom (msg_in : Message) : Prop :=
  msg_in.type ∈ [MessageType.INVITE, .JOIN_ROOM, .ROOM_USERS, .ROOM_TEXT, .LEAVE_ROOM, .NEW_ROOM] ∧
    msg_in.roomname = some name

/-- In a request of another client the name stands for this client: it is found
under it, a text reaches it, the invited users include it, and nobody is told that
there is no such user. -/
structure RefersToClient (world : World) (client_fd : Fd) (msg_in : Message) : Prop where
  resolved : ∃ user, (users_table_find_by_username .server_users (some name)).run world = .ok (some user) world ∧
    user.socket_fd = fd
  delivered : msg_in.type = .TEXT → ∀ text, msg_in.text = some text → ∃ sender,
    (message_handler_process net msg_in client_fd).run world =
      .ok true { world with trace := world.trace ++ [.send fd (text_from_notice sender text) true] }
  invited : msg_in.type = .INVITE → ∀ usernames invited_users, msg_in.usernames = some usernames →
    (find_invited_users usernames).run world = .ok (.ok invited_users) world →
    ∃ user ∈ invited_users, user.socket_fd = fd
  known : ∀ other_fd operation,
    ¬ Answers net other_fd world (.request client_fd msg_in) operation (.lit "NO_SUCH_USER") (some name)

/-- In a request the name stands for this room: it is found under it, another room
of this name is refused, and nobody is told that there is no such room. -/
structure RefersToRoom (world : World) (client_fd : Fd) (msg_in : Message) : Prop where
  resolved : ∃ room, world.server.rooms.lookup name = some room ∧ room.roomname = key
  taken : msg_in.type = .NEW_ROOM →
    Answers net client_fd world (.request client_fd msg_in) (.lit "NEW_ROOM") (.lit "ROOM_ALREADY_EXISTS") (some key)
  known : ∀ other_fd operation,
    ¬ Answers net other_fd world (.request client_fd msg_in) operation (.lit "NO_SUCH_ROOM") (some name)

end Naming

section Responses

variable {net : Net} {server : Server} {trace : List Effect} {client_fd fd : Fd} {msg_in : Message}
  {allowed : Message → Prop} {operation result : CString} {extra : Option CString}

theorem not_answers_of_emits (hserver : server.Consistent)
    (hemits : ((reaction server client_fd msg_in).perform net client_fd server trace).Emits allowed trace)
    (hother : ¬ allowed (response operation result extra)) :
    ¬ Answers net fd (.idle server trace) (.request client_fd msg_in) operation result extra := by
  rintro ⟨effects, sent, htrace, hmem⟩
  rw [final_world_serve net trace hserver] at htrace
  obtain ⟨others, hothers, hallowed⟩ := hemits
  obtain rfl := List.append_cancel_left (hothers.symm.trans htrace)
  exact hother (hallowed _ _ _ hmem)

/-- Responses come from refusals and replies, apart from those that confirm. -/
theorem Permitted.emits_responses {reaction : Reaction} (hpermitted : Permitted server client_fd msg_in reaction)
    (hother : ∀ message, message.type ≠ .RESPONSE → allowed message)
    (hsuccess : ∀ operation extra, allowed (response operation (.lit "SUCCESS") extra))
    (hverdict : ∀ message, reaction.verdict = some message → allowed message) :
    (reaction.perform net client_fd server trace).Emits allowed trace := by
  refine (reaction.emits_sends net client_fd server trace).mono fun message hsends => ?_
  cases hsends with
  | verdict _ _ hmessage => exact hverdict message hmessage
  | registered user => exact hsuccess _ _
  | created room creator => exact hsuccess _ _
  | let_in roomname user => exact hsuccess _ _
  | farewell _ fd user hfound => exact hother _ nofun
  | unregistered user fd found hfound => exact hother _ nofun
  | new_user user => exact hother _ nofun
  | new_status user status text => exact hother _ nofun
  | joined roomname user => exact hother _ nofun
  | left roomname user => exact hother _ nofun
  | published message =>
    cases hpermitted with
    | publish user text htype hsender htext => exact hother _ nofun
  | invited roomname invited_users invitation =>
    cases hpermitted with
    | invite user _ room usernames _ htype hsender hroomname husernames hroom hmember hinvited => exact hother _ nofun
  | told roomname message =>
    cases hpermitted with
    | tell_room user _ room text htype hsender hroomname hroom hmember htext => exact hother _ nofun

end Responses

section Histories

variable {net : Net} {history : List (World × Event)} {world : World} {fd : Fd} {name key : CString}

/-- An IDENTIFY of a registered client is not confirmed. -/
theorem not_identifiedAs_of_registered {server : Server} {trace : List Effect} {event : Event} {username : CString}
    (hserver : server.Consistent) (hregistered : server.Registered fd username) :
    ¬ IdentifiedAs net fd name (.idle server trace) event := by
  rintro ⟨msg_in, extra, rfl, htype, husername, hanswers⟩
  obtain ⟨user, huser, -, hfd⟩ := hserver.users.lists_iff.mp hregistered
  have hfound := hserver.users.find_by_client_fd_iff.mpr ⟨huser, hfd⟩
  have hreaction : reaction server fd msg_in =
      if user.username ≠ name.cut 8 then .refuse invalid_response else .ignore true := by
    simp only [reaction, htype, reduceCtorEq, if_false, if_true, identify_reaction, husername, hfound]
  have hemits : ((reaction server fd msg_in).perform net fd server trace).Emits
      (fun message => message.result ≠ some (.lit "SUCCESS")) trace := by
    rw [hreaction]
    split
    · exact (emits_departed (fun user _ => (Option.some_ne_none _).symm) true).after_send (by decide)
    · exact emits_idle true
  exact not_answers_of_emits hserver hemits (fun hother => hother rfl) hanswers

theorem registered_of_identifiedSince (hrun : ServerRun net history world)
    (hsince : IdentifiedSince net fd name history world) : world.server.Registered fd (name.cut 8) := by
  induction hsince with
  | begin hbegins hholds =>
    cases hrun with
    | step hprefix hserved =>
      obtain ⟨hidle, hserver⟩ := run_ready hprefix
      obtain ⟨username, hregistered⟩ := hholds
      rw [hidle] at hserved hbegins
      cases registered_of_served hserver hserved hregistered with
      | inl hbefore => exact absurd hbegins (not_identifiedAs_of_registered hserver hbefore)
      | inr hnow =>
        obtain ⟨-, msg_in, requested, hevent, -, husername, rfl⟩ := hnow
        obtain ⟨other, extra, hrequest, -, hname, -⟩ := hbegins
        cases hevent.symm.trans hrequest
        cases husername.symm.trans hname
        exact hregistered
  | last hearlier hkeeps hholds ih =>
    cases hrun with
    | step hprefix hserved =>
      have hbefore := ih hprefix
      obtain ⟨hidle, hserver⟩ := run_ready hprefix
      obtain ⟨username, hregistered⟩ := hholds
      rw [hidle] at hserved
      cases registered_of_served hserver hserved hregistered with
      | inl hstill =>
        obtain ⟨user, huser, rfl, hfd⟩ := hserver.users.lists_iff.mp hstill
        obtain ⟨known, hknown, hname, hknownfd⟩ := hserver.users.lists_iff.mp hbefore
        obtain rfl := hserver.users.eq_of_socket_fd_eq hknown huser (hknownfd.trans hfd.symm)
        rwa [← hname]
      | inr hnow => exact absurd hbefore (hnow.1 _)

theorem key_of_createdSince (hrun : ServerRun net history world)
    (hsince : CreatedSince net name key history world) : key = name.cut 16 := by
  induction hsince with
  | begin hbegins hholds =>
    cases hrun with
    | step hprefix hserved =>
      obtain ⟨hidle, hserver⟩ := run_ready hprefix
      obtain ⟨creator_fd, msg_in, extra, rfl, -, hroomname, hfree, -⟩ := hbegins
      rw [hidle] at hserved
      cases room_of_served hserver hserved hholds with
      | inl hbefore => exact absurd hbefore hfree
      | inr hnow =>
        obtain ⟨-, requested, -, -, hrequested, hkey⟩ := hnow
        cases hroomname.symm.trans hrequested
        exact hkey
  | last hearlier hkeeps hholds ih =>
    cases hrun with
    | step hprefix hserved => exact ih hprefix

end Histories

section Clients

variable {server : Server} {trace : List Effect} {client_fd fd : Fd} {msg_in : Message} {name : CString}
  {user sender : User}

variable (hserver : server.Consistent) (hsender : server.Sender client_fd sender)
  (hknown : server.users.find_by_username name = some user)
include hserver hsender hknown

theorem run_text_to_known (hother : sender.username ≠ user.username) (htype : msg_in.type = .TEXT)
    (husername : msg_in.username = some name) {text : CString} (htext : msg_in.text = some text) :
    (message_handler_process reliable msg_in client_fd).run (.idle server trace) =
      .ok true (.idle server (trace ++ [.send user.socket_fd (text_from_notice sender.username text) true])) := by
  rw [run_message_handler_process reliable server trace client_fd msg_in hserver,
    reaction_of_sender hserver hsender (by simp [htype])]
  simp only [registered_reaction, htype, text_reaction, husername, hknown, if_neg hother, htext, Reaction.perform,
    send_or_depart_reliable]

/-- A request that names a known user is not answered that there is none. -/
theorem verdict_to_known_user (hnames : NamesUser name msg_in) (message : Message)
    (hverdict : (reaction server client_fd msg_in).verdict = some message) (hresponse : message.type = .RESPONSE)
    (hresult : message.result = some (.lit "NO_SUCH_USER")) : message.extra ≠ some name := by
  cases hnames with
  | inl htext =>
    obtain ⟨htype, husername⟩ := htext
    rw [reaction_of_sender hserver hsender (by simp [htype])] at hverdict
    simp only [registered_reaction, htype, text_reaction, husername, hknown] at hverdict
    split at hverdict
    · cases hverdict
    · split at hverdict
      · cases hverdict
      · cases hverdict
        cases hresponse
  | inr hinvite =>
    obtain ⟨htype, usernames, husernames, hlisted⟩ := hinvite
    rw [reaction_of_sender hserver hsender (by simp [htype])] at hverdict
    simp only [registered_reaction, htype, invite_reaction, husernames] at hverdict
    split at hverdict
    · rename_i heq
      cases heq
      split at hverdict
      · cases hverdict
        exact absurd (Option.some.inj hresult) (by decide)
      · split at hverdict
        · split at hverdict
          · rename_i missing hmissing
            cases hverdict
            intro hextra
            obtain ⟨-, -, -, -, hnobody⟩ := exists_of_invited_records_error hmissing
            cases hknown.symm.trans (Option.some.inj hextra ▸ hnobody)
          · cases hverdict
        · cases hverdict
          exact absurd (Option.some.inj hresult) (by decide)
    · cases hverdict

theorem not_answers_no_such_user (hnames : NamesUser name msg_in) (other_fd : Fd) (operation : CString) :
    ¬ Answers net other_fd (.idle server trace) (.request client_fd msg_in) operation (.lit "NO_SUCH_USER")
      (some name) := by
  have hemits : ((reaction server client_fd msg_in).perform net client_fd server trace).Emits
      (fun message => message.type = .RESPONSE → message.result = some (.lit "NO_SUCH_USER") →
        message.extra ≠ some name) trace :=
    (reaction_permitted client_fd msg_in hserver).emits_responses
      (fun message htype hresponse => absurd hresponse htype)
      (fun operation extra _ hresult => absurd (Option.some.inj hresult) (by decide))
      (verdict_to_known_user hserver hsender hknown hnames)
  exact not_answers_of_emits hserver hemits fun hother => hother rfl rfl rfl

end Clients

/-- A name that is cut stands for its client as long as it fits. -/
theorem refersToClient_iff {server : Server} {trace : List Effect} {client_fd fd : Fd} {msg_in : Message}
    {name : CString} (hserver : server.Consistent) (hregistered : server.Registered fd (name.cut 8))
    (hsender : ∃ username, server.Registered client_fd username) (hother : client_fd ≠ fd)
    (hnames : NamesUser name msg_in) :
    RefersToClient reliable fd name (.idle server trace) client_fd msg_in ↔ strlen name ≤ 8 := by
  have hresolves : ∀ found, (users_table_find_by_username .server_users (some name)).run (.idle server trace) =
      .ok found (.idle server trace) ↔ server.users.find_by_username name = found := by
    intro found
    simp [users_table_find_by_username]
  constructor
  · intro hrefers
    obtain ⟨user, hfound, -⟩ := hrefers.resolved
    rw [hresolves] at hfound
    rw [← (hserver.users.find_by_username_iff.mp hfound).2]
    exact user.named.2
  · intro hfits
    rw [CString.cut_of_strlen_le hfits] at hregistered
    obtain ⟨user, huser, hname, hfd⟩ := hserver.users.lists_iff.mp hregistered
    obtain ⟨sender_name, sender, hmem, -, hsenderfd⟩ := hsender
    have hsender : server.Sender client_fd sender := ⟨hserver.users.mem_entries.mp hmem, hsenderfd⟩
    have hknown := hserver.users.find_by_username_iff.mpr ⟨huser, hname⟩
    have hdifferent : sender.username ≠ user.username := fun hsame =>
      hother (hsenderfd.symm.trans ((congrArg User.socket_fd
        (UsersTable.eq_of_username_eq hsender.registered huser hsame)).trans hfd))
    refine ⟨⟨user, (hresolves _).mpr hknown, hfd⟩, fun htype text htext => ⟨sender.username, ?_⟩,
      fun htype usernames invited_users husernames hinvited => ⟨user, ?_, hfd⟩,
      not_answers_no_such_user hserver hsender hknown hnames⟩
    · have husername : msg_in.username = some name := by
        cases hnames with
        | inl htexts => exact htexts.2
        | inr hinvites => cases htype.symm.trans hinvites.1
      rw [run_text_to_known hserver hsender hknown hdifferent htype husername htext, hfd]
    · rw [run_find_invited_users] at hinvited
      injection hinvited with hrecords
      have hlisted : name ∈ usernames := by
        cases hnames with
        | inl htexts => cases htype.symm.trans htexts.1
        | inr hinvites =>
          obtain ⟨-, others, hothers, hlisted⟩ := hinvites
          cases husernames.symm.trans hothers
          exact hlisted
      have hmap := invited_records_eq_ok_iff.mp hrecords
      have hinside : some user ∈ invited_users.map some :=
        hmap ▸ List.mem_map.mpr ⟨name, hlisted, hknown⟩
      obtain ⟨invited, hmem, heq⟩ := List.mem_map.mp hinside
      exact Option.some.inj heq ▸ hmem

theorem response_result_ne {operation result other : CString} {extra : Option CString} (hother : result ≠ other) :
    (response operation result extra).result ≠ some other := fun hsame => hother (Option.some.inj hsame)

section Rooms

variable {server : Server} {trace : List Effect} {client_fd : Fd} {msg_in : Message} {name : CString} {room : Room}
  {sender : User} (hserver : server.Consistent) (hsender : server.Sender client_fd sender)
  (hroom : server.rooms.lookup name = some room) (hnames : NamesRoom name msg_in)
include hserver hsender hroom

/-- A second room of a known name is refused. -/
theorem reaction_to_known_room (htype : msg_in.type = .NEW_ROOM) (hroomname : msg_in.roomname = some name) :
    reaction server client_fd msg_in =
      .reply sender.socket_fd (response (.lit "NEW_ROOM") (.lit "ROOM_ALREADY_EXISTS") (name.cut 16)) := by
  rw [reaction_of_sender hserver hsender (by simp [htype])]
  simp only [registered_reaction, htype, new_room_reaction, hroomname, hroom]

include hnames

/-- A request that names a known room is not answered that there is none. -/
theorem verdict_to_known_room (message : Message)
    (hverdict : (reaction server client_fd msg_in).verdict = some message) :
    message.result ≠ some (.lit "NO_SUCH_ROOM") := by
  obtain ⟨htype, hroomname⟩ := hnames
  simp only [List.mem_cons, List.not_mem_nil, or_false] at htype
  rw [reaction_of_sender hserver hsender (by
    refine ⟨fun hother => ?_, fun hother => ?_, fun hother => ?_⟩ <;> simp [hother] at htype)] at hverdict
  rcases htype with htype | htype | htype | htype | htype | htype
  · simp only [registered_reaction, htype, invite_reaction, hroomname] at hverdict
    split at hverdict
    · rename_i heq _
      cases heq
      rw [hroom] at hverdict
      dsimp only at hverdict
      split at hverdict
      · split at hverdict
        · cases hverdict
          exact response_result_ne (by decide)
        · cases hverdict
      · cases hverdict
        exact response_result_ne (by decide)
    · cases hverdict
  · simp only [registered_reaction, htype, join_room_reaction, room_reaction, hroomname, hroom] at hverdict
    split at hverdict
    · cases hverdict
    · split at hverdict
      · cases hverdict
      · cases hverdict
        exact response_result_ne (by decide)
  · simp only [registered_reaction, htype, room_users_reaction, room_reaction, hroomname, hroom] at hverdict
    split at hverdict
    · cases hverdict
      exact (Option.some_ne_none _).symm
    · cases hverdict
      exact response_result_ne (by decide)
  · simp only [registered_reaction, htype, room_text_reaction, room_reaction, hroomname, hroom] at hverdict
    split at hverdict
    · cases hverdict
    · split at hverdict
      · cases hverdict
      · cases hverdict
        exact response_result_ne (by decide)
  · simp only [registered_reaction, htype, leave_room_reaction, room_reaction, hroomname, hroom] at hverdict
    split at hverdict
    · cases hverdict
    · cases hverdict
      exact response_result_ne (by decide)
  · rw [← reaction_of_sender hserver hsender (by simp [htype]),
      reaction_to_known_room hserver hsender hroom htype hroomname] at hverdict
    cases hverdict
    exact response_result_ne (by decide)

theorem not_answers_no_such_room (other_fd : Fd) (operation : CString) (extra : Option CString) :
    ¬ Answers net other_fd (.idle server trace) (.request client_fd msg_in) operation (.lit "NO_SUCH_ROOM") extra := by
  have hemits : ((reaction server client_fd msg_in).perform net client_fd server trace).Emits
      (fun message => message.type = .RESPONSE → message.result ≠ some (.lit "NO_SUCH_ROOM")) trace :=
    (reaction_permitted client_fd msg_in hserver).emits_responses
      (fun message htype hresponse => absurd hresponse htype)
      (fun operation extra _ => response_result_ne (by decide))
      fun message hverdict _ => verdict_to_known_room hserver hsender hroom hnames message hverdict
  exact not_answers_of_emits hserver hemits fun hother => hother rfl rfl

end Rooms

/-- A name that is cut stands for its room as long as it fits. -/
theorem refersToRoom_iff {server : Server} {trace : List Effect} {client_fd : Fd} {msg_in : Message}
    {name key : CString} (hserver : server.Consistent) (hkey : key = name.cut 16) (hexists : key ∈ server.rooms)
    (hsender : ∃ username, server.Registered client_fd username) (hnames : NamesRoom name msg_in) :
    RefersToRoom reliable name key (.idle server trace) client_fd msg_in ↔ strlen name ≤ 16 := by
  constructor
  · intro hrefers
    obtain ⟨room, hroom, -⟩ := hrefers.resolved
    rw [← hserver.keyed name room hroom]
    exact room.named.2
  · intro hfits
    rw [CString.cut_of_strlen_le hfits] at hkey
    subst hkey
    obtain ⟨room, hroom⟩ := HashTable.exists_lookup_of_mem hexists
    obtain ⟨username, sender, hmem, -, hsenderfd⟩ := hsender
    have hsender : server.Sender client_fd sender := ⟨hserver.users.mem_entries.mp hmem, hsenderfd⟩
    refine ⟨⟨room, hroom, hserver.keyed key room hroom⟩, fun htype => ?_,
      fun other_fd operation => not_answers_no_such_room hserver hsender hroom hnames other_fd operation (some key)⟩
    refine ⟨[.send client_fd _ true], true, ?_, List.mem_singleton_self _⟩
    rw [final_world_serve reliable trace hserver]
    simp only [Event.reaction, Event.client_fd, reaction_to_known_room hserver hsender hroom htype hnames.2, hsenderfd,
      CString.cut_of_strlen_le hfits]
    rfl

section Tests

variable {server : Server} {trace : List Effect} {fd : Fd} {name : CString} {msg_in : Message}

/-- An IDENTIFY that registers a user is confirmed. -/
theorem answers_of_register {user : User} (hserver : server.Consistent)
    (hregister : reaction server fd msg_in = .register user) :
    Answers reliable fd (.idle server trace) (.request fd msg_in) (.lit "IDENTIFY") (.lit "SUCCESS") user.username := by
  refine ⟨.send fd (response (.lit "IDENTIFY") (.lit "SUCCESS") user.username) true ::
    sends (new_user_notice user.username) (recipients (server.register user).users.entries fd), true, ?_,
    List.mem_cons_self⟩
  rw [final_world_serve reliable trace hserver]
  simp only [Event.reaction, Event.client_fd, hregister, Reaction.perform, send_or_depart_reliable, announce_reliable,
    final_world, List.append_assoc, List.singleton_append]

/-- The event registers the client under what fits of the name. -/
def identifies (fd : Fd) (name : CString) (before : World) (event : Event) : Bool :=
  match event with
  | .request client_fd msg_in =>
    match reaction before.server client_fd msg_in with
    | .register _ => client_fd = fd && msg_in.type = .IDENTIFY && msg_in.username = some name
    | _ => false
  | _ => false

theorem identifiedSince_of_check {history : List (World × Event)} {world : World}
    (hrun : ServerRun reliable history world)
    (hcheck : Since.check (identifies fd name) (fun _ _ => true)
      (fun world => world.server.users.entries.any fun user => user.socket_fd = fd) history world = true) :
    IdentifiedSince reliable fd name history world := by
  refine hrun.since_of_check (fun history before event hprefix hidentifies => ?_) (fun _ _ _ => trivial)
    (fun world hentries => ?_) hcheck
  · obtain ⟨hidle, hserver⟩ := run_ready hprefix
    cases event with
    | accept client_fd => cases hidentifies
    | invalid client_fd => cases hidentifies
    | request client_fd msg_in =>
      dsimp only [identifies] at hidentifies
      split at hidentifies
      · rename_i user hregister
        simp only [Bool.and_eq_true, decide_eq_true_eq] at hidentifies
        obtain ⟨⟨rfl, htype⟩, husername⟩ := hidentifies
        rw [hidle]
        exact ⟨msg_in, _, rfl, htype, husername, answers_of_register hserver hregister⟩
      · cases hidentifies
  · obtain ⟨user, hmem, hfd⟩ := List.any_eq_true.mp hentries
    exact ⟨user.username, user, hmem, rfl, of_decide_eq_true hfd⟩

end Tests

/-- A long name and a short one. -/
def long_name : List Event := [
  .request 4 { message_init with type := .IDENTIFY, username := some (.lit "cristobal") },
  .request 5 { message_init with type := .IDENTIFY, username := some (.lit "ana") }]

end ojalvo
