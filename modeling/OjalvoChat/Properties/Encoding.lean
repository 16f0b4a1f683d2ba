import OjalvoChat.Library.Utf8
import OjalvoChat.Protocol.Vocabulary

namespace ojalvo

/-- The bytes of a string are the encoding of some characters. -/
def CString.Readable (text : CString) : Prop := Utf8 text.bytes

instance (text : CString) : Decidable text.Readable := inferInstanceAs (Decidable (Utf8 text.bytes))

/-- All strings in the fields of a message are valid UTF-8. -/
def Message.Readable (msg : Message) : Prop := ∀ text ∈ msg.strings, text.Readable

/-- All names in the tables and all strings of the messages sent are valid UTF-8. -/
structure World.Readable (world : World) : Prop where
  users : ∀ user ∈ world.server.users, user.username.Readable
  rooms : ∀ roomname room, world.server.rooms.lookup roomname = some room → roomname.Readable ∧
    (∀ user ∈ room.members, user.username.Readable) ∧ ∀ user ∈ room.guests, user.username.Readable
  messages : ∀ fd message sent, Effect.send fd message sent ∈ world.trace → message.Readable

/-- The request brings a new name that is cut inside a character: the ninth byte of
the name of a client that has none yet, or the seventeenth of the name for a room,
continues a character. -/
inductive SplitsName (server : Server) (client_fd : Fd) (msg_in : Message) : Prop where
  | username (requested : CString) (htype : msg_in.type = .IDENTIFY)
    (hunknown : server.users.find_by_client_fd client_fd = none) (husername : msg_in.username = some requested)
    (hsplit : ¬ CutsBetween requested.bytes 8)
  | roomname (user : User) (requested : CString) (htype : msg_in.type = .NEW_ROOM)
    (hsender : server.Sender client_fd user) (hroomname : msg_in.roomname = some requested)
    (hsplit : ¬ CutsBetween requested.bytes 16)

section Strings

theorem CString.readable_lit (text : String) : (CString.lit text).Readable :=
  (utf8_toUTF8 text).takeWhile_ne_zero

theorem CString.Readable.cut_iff {text : CString} (hreadable : text.Readable) (limit : Nat) :
    (text.cut limit).Readable ↔ CutsBetween text.bytes limit := hreadable.take_iff limit

/-- A name that is cut inside a character has been longer than what is kept. -/
theorem strlen_cut_of_split {text : CString} {limit : Nat} (hsplit : ¬ CutsBetween text.bytes limit) :
    strlen (text.cut limit) = limit ∧ limit < strlen text := by
  have hlonger : limit < strlen text := by
    by_contra hshort
    refine hsplit fun byte hbyte => ?_
    rw [List.getElem?_eq_none (Nat.le_of_not_lt hshort)] at hbyte
    cases hbyte
  rw [strlen_cut]
  omega

end Strings

section Steps

variable {server : Server} {trace : List Effect} {event : Event}

/-- What the server repeats is readable as long as no name is cut inside a
character. -/
theorem repeatable_of_readable (hreadable : World.Readable (.idle server trace))
    (hmessage : event.message.Readable) (hwhole : ¬ SplitsName server event.client_fd event.message) :
    Repeatable CString.Readable server event.client_fd event.message where
  literals := CString.readable_lit
  users := hreadable.users
  fields := hmessage
  identified htype hunknown requested husername := by
    have hrequested := hmessage requested (by simp [Message.strings, husername])
    by_contra hcut
    exact hwhole (.username requested htype hunknown husername (mt (hrequested.cut_iff 8).mpr hcut))
  created user htype hsender requested hroomname := by
    have hrequested := hmessage requested (by simp [Message.strings, hroomname])
    by_contra hcut
    exact hwhole (.roomname user requested htype hsender hroomname (mt (hrequested.cut_iff 16).mpr hcut))

/-- The names in the tables are names that were there before, or new ones. -/
theorem readable_settled (net : Net) (fds : List Fd) (hserver : server.Consistent)
    (hreadable : World.Readable (.idle server trace))
    (hrepeatable : Repeatable CString.Readable server event.client_fd event.message) {later : List Effect}
    (hmessages : ∀ fd message sent, Effect.send fd message sent ∈ later → message.Readable) :
    World.Readable (.idle (((event.reaction server).settled net server trace).evict_all fds) later) := by
  have hsettled := ((event.permitted hserver).settled_consistent net trace hserver).evict_all fds
  have husers : ∀ user ∈ (((event.reaction server).settled net server trace).evict_all fds).users,
      user.username.Readable := by
    intro user huser
    have hregistered : Server.Registered _ user.socket_fd user.username :=
      hsettled.users.lists_iff.mpr ⟨user, huser, rfl, rfl⟩
    cases registered_of_settled hserver hregistered with
    | inl hbefore =>
      obtain ⟨known, hknown, hname, -⟩ := hserver.users.lists_iff.mp hbefore
      rw [← hname]
      exact hreadable.users known hknown
    | inr hnow =>
      obtain ⟨hunknown, msg_in, requested, rfl, htype, husername, hname⟩ := hnow
      rw [hname]
      refine hrepeatable.identified htype ?_ requested husername
      rw [hserver.users.find_by_client_fd_eq_none_iff]
      exact fun other hother hfd => hunknown _ (hserver.users.lists_iff.mpr ⟨other, hother, rfl, hfd⟩)
  refine ⟨husers, fun roomname room hroom => ⟨?_, ?_, ?_⟩, hmessages⟩
  · cases room_of_settled hserver (HashTable.mem_of_lookup hroom) with
    | inl hbefore =>
      obtain ⟨known, hknown⟩ := HashTable.exists_lookup_of_mem hbefore
      exact (hreadable.rooms roomname known hknown).1
    | inr hnow =>
      obtain ⟨user, requested, hsender, htype, hroomname, rfl⟩ := hnow
      exact hrepeatable.created user htype hsender requested hroomname
  · exact fun user hmember => husers user ((hsettled.rooms roomname room hroom).members_users user hmember)
  · exact fun user hguest => husers user ((hsettled.rooms roomname room hroom).guests_users user hguest)

theorem readable_serve (net : Net) (hserver : server.Consistent) (hreadable : World.Readable (.idle server trace))
    (hmessage : event.message.Readable) (hwhole : ¬ SplitsName server event.client_fd event.message) :
    (final_world ((serve net event).run (.idle server trace))).Readable := by
  have hrepeatable := repeatable_of_readable hreadable hmessage hwhole
  obtain ⟨effects, htrace, hspoken⟩ := serve_speaks net trace hserver hrepeatable
  have hmessages : ∀ fd message sent, Effect.send fd message sent ∈ trace ++ effects → message.Readable := by
    intro fd message sent hmem
    rcases List.mem_append.mp hmem with hbefore | hnow
    · exact hreadable.messages fd message sent hbefore
    · exact (hspoken fd message sent hnow).strings
  obtain ⟨husers, hrooms, hsent⟩ := readable_settled net
    ((event.reaction server).casualties net event.client_fd server trace) hserver hreadable hrepeatable hmessages
  have hfinal := final_server_serve net trace hserver event
  constructor
  · rw [hfinal]
    exact husers
  · rw [hfinal]
    exact hrooms
  · rw [htrace]
    exact hsent

/-- The message with which a handler begins is sent, whatever follows. -/
theorem sends_first {net : Net} {server : Server} {trace : List Effect} {client_fd failed_fd : Fd} {message : Message}
    {continuation : List Effect → Outcome}
    (hcontinuation : ∀ trace, (continuation trace).Emits (fun _ => True) trace) :
    ∃ sent, Effect.send client_fd message sent ∈
      (final_world (send_or_depart net client_fd message failed_fd server trace continuation)).trace := by
  refine ⟨net trace client_fd message, ?_⟩
  unfold send_or_depart
  dsimp only
  split
  · obtain ⟨effects, htrace, -⟩ := hcontinuation (trace ++ [.send client_fd message (net trace client_fd message)])
    simp [htrace]
  · simp [final_world, departed]

theorem not_readable_of_sent {world : World} {fd : Fd} {operation result text : CString} {sent : Bool}
    (hunreadable : ¬ text.Readable) (hsent : Effect.send fd (response operation result text) sent ∈ world.trace) :
    ¬ world.Readable := by
  intro hworld
  exact hunreadable (hworld.messages fd _ sent hsent text (by simp [strings_response]))

/-- A name that is cut inside a character is sent back to the client or kept in the
tables. -/
theorem not_readable_of_splits {net : Net} {client_fd : Fd} {msg_in : Message} (hserver : server.Consistent)
    (hmessage : msg_in.Readable) (hsplits : SplitsName server client_fd msg_in) :
    ¬ (final_world ((reaction server client_fd msg_in).perform net client_fd server trace)).Readable := by
  cases hsplits with
  | username requested htype hunknown husername hsplit =>
    have hrequested := hmessage requested (by simp [Message.strings, husername])
    have hunreadable := mt (hrequested.cut_iff 8).mp hsplit
    obtain ⟨hlength, -⟩ := strlen_cut_of_split hsplit
    have hreaction : reaction server client_fd msg_in = identify_reaction server client_fd msg_in := by
      simp [reaction, htype]
    rw [hreaction]
    cases htaken : server.users.find_by_username (requested.cut 8) with
    | some user =>
      have huser := (hserver.users.find_by_username_iff.mp htaken).1
      have hother := hserver.users.find_by_client_fd_eq_none_iff.mp hunknown user huser
      simp only [identify_reaction, husername, hunknown, htaken, ne_eq, hother, not_false_eq_true, if_true]
      have hsent (refusal : Message) : Effect.send client_fd refusal (net trace client_fd refusal) ∈
          (final_world ((Reaction.refuse refusal).perform net client_fd server trace)).trace := by
        simp [Reaction.perform, final_world, departed]
      exact not_readable_of_sent hunreadable (hsent _)
    | none =>
      cases hinit : user_init (requested.cut 8) client_fd with
      | none =>
        rw [user_init_eq_none_iff, hlength] at hinit
        exact absurd hinit (by decide)
      | some user =>
        simp only [identify_reaction, husername, hunknown, htaken, hinit, Reaction.perform]
        obtain ⟨sent, hsent⟩ := sends_first fun trace => emits_announce trivial
        rw [← (user_init_eq_some_iff.mp hinit).1] at hunreadable
        exact not_readable_of_sent hunreadable hsent
  | roomname user requested htype hsender hroomname hsplit =>
    have hrequested := hmessage requested (by simp [Message.strings, hroomname])
    have hunreadable := mt (hrequested.cut_iff 16).mp hsplit
    obtain ⟨hlength, -⟩ := strlen_cut_of_split hsplit
    rw [reaction_of_sender hserver hsender (by simp [htype])]
    simp only [registered_reaction, htype, new_room_reaction, hroomname]
    split
    · obtain ⟨sent, hsent⟩ := sends_first fun trace => emits_idle true
      exact not_readable_of_sent hunreadable hsent
    · rename_i room hfree hroom
      exact fun hworld => hunreadable (hworld.rooms _ room hroom).1
    · rw [dif_pos ⟨by rw [hlength]; decide, by rw [hlength]; decide⟩]
      obtain ⟨sent, hsent⟩ := sends_first fun trace => emits_idle true
      exact not_readable_of_sent hunreadable hsent

theorem readable_serve_iff {net : Net} (hserver : server.Consistent) (hreadable : World.Readable (.idle server trace))
    (hmessage : event.message.Readable) :
    (final_world ((serve net event).run (.idle server trace))).Readable ↔
      ¬ SplitsName server event.client_fd event.message := by
  refine ⟨fun hafter hsplits => ?_, readable_serve net hserver hreadable hmessage⟩
  rw [final_world_serve net trace hserver] at hafter
  cases event with
  | accept client_fd => cases hsplits <;> contradiction
  | request client_fd msg_in => exact not_readable_of_splits hserver hmessage hsplits hafter
  | invalid client_fd => cases hsplits <;> contradiction

end Steps

section Runs

variable {net : Net} {history : List (World × Event)} {world : World}

theorem readable_init : World.Readable (.idle server_init []) where
  users user huser := absurd huser (UsersTable.not_mem_init user)
  rooms roomname room hroom := by simp [server_init] at hroom
  messages fd message sent hmem := absurd hmem List.not_mem_nil

/-- A run goes on from the world in which its last event has left the server. -/
theorem readable_of_run (hrun : ServerRun net history world)
    (hmoments : ∀ moment ∈ history, (final_world ((serve net moment.2).run moment.1)).Readable) : world.Readable := by
  cases hrun with
  | start => exact readable_init
  | step hprefix hserved =>
    have hlast := hmoments _ List.mem_cons_self
    rwa [show (serve net _).run _ = _ from hserved] at hlast

/-- Valid UTF-8 comes out of valid UTF-8 exactly in the runs in which no new name is
cut inside a character. -/
theorem texts_stay_readable_iff (hrun : ServerRun net history world) (event : Event)
    (hinputs : ∀ moment ∈ (world, event) :: history, moment.2.message.Readable) :
    (∀ moment ∈ (world, event) :: history, (final_world ((serve net moment.2).run moment.1)).Readable) ↔
      ∀ moment ∈ (world, event) :: history,
        ¬ SplitsName moment.1.server moment.2.client_fd moment.2.message := by
  induction hrun generalizing event with
  | start =>
    simp only [List.forall_mem_singleton] at hinputs ⊢
    exact readable_serve_iff Server.consistent_init readable_init hinputs
  | step hprefix hserved ih =>
    have hrun := hprefix.step hserved
    obtain ⟨hnow, hearlier⟩ := List.forall_mem_cons.mp hinputs
    obtain ⟨hidle, hserver⟩ := run_ready hrun
    refine List.forall_mem_cons.trans (Iff.trans ?_ List.forall_mem_cons.symm)
    refine (and_congr_left fun hmoments => ?_).trans (and_congr_right' (ih _ hearlier))
    have hworld := readable_of_run hrun hmoments
    rw [hidle] at hworld ⊢
    exact readable_serve_iff hserver hworld hnow

end Runs

section Tests

/-- A request of a client that identifies itself. -/
def identify_as (username : CString) : Message := { message_init with type := .IDENTIFY, username := some username }

variable {username : CString}

theorem readable_identify_as (hreadable : username.Readable) : (identify_as username).Readable := by
  have hstrings : (identify_as username).strings = [username] := rfl
  simpa [Message.Readable, hstrings] using hreadable

theorem splitsName_identify_as_iff {client_fd : Fd} :
    SplitsName server_init client_fd (identify_as username) ↔ ¬ CutsBetween username.bytes 8 := by
  constructor
  · intro hsplits
    cases hsplits with
    | username requested htype hunknown husername hsplit =>
      cases husername
      exact hsplit
    | roomname user requested htype hsender hroomname hsplit => cases htype
  · exact fun hsplit => .username username rfl rfl rfl hsplit

/-- A name with accents that is cut between two characters. -/
theorem texts_stay_readable_iff_for_accents :
    (final_world ((serve reliable (.request 4 (identify_as (.lit "maría_josé")))).run
      (.idle server_init []))).Readable := by
  have hreadable : (CString.lit "maría_josé").Readable := by decide +kernel
  have hcuts : CutsBetween (CString.lit "maría_josé").bytes 8 := by decide +kernel
  generalize CString.lit "maría_josé" = username at hreadable hcuts ⊢
  have hstart : ServerRun reliable [] (.idle server_init []) := .start
  refine (texts_stay_readable_iff hstart (.request 4 (identify_as username)) ?_).mpr ?_ _ List.mem_cons_self
  · exact List.forall_mem_singleton.mpr (readable_identify_as hreadable)
  · exact List.forall_mem_singleton.mpr fun hsplits => splitsName_identify_as_iff.mp hsplits hcuts

/-- The eighth and the ninth byte of this name are one letter. -/
theorem letter_is_cut : ¬ ∀ net history world event, ServerRun net history world →
    (∀ moment ∈ (world, event) :: history, moment.2.message.Readable) →
    ∀ moment ∈ (world, event) :: history, (final_world ((serve net moment.2).run moment.1)).Readable := by
  intro halways
  obtain ⟨username, hreadable, hsplit⟩ : ∃ username : CString, username.Readable ∧ ¬ CutsBetween username.bytes 8 :=
    ⟨.lit "sebastián", by decide +kernel, by decide +kernel⟩
  have hinput : (Event.request 4 (identify_as username)).message.Readable := readable_identify_as hreadable
  have hafter := halways reliable [] (.idle server_init []) (.request 4 (identify_as username)) .start
    (List.forall_mem_singleton.mpr hinput) _ List.mem_cons_self
  refine (readable_serve_iff Server.consistent_init readable_init hinput).mp hafter ?_
  exact splitsName_identify_as_iff.mpr hsplit

end Tests

end ojalvo
