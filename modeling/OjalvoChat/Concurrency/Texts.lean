import OjalvoChat.Concurrency.Progress
import OjalvoChat.Concurrency.Untraced
import OjalvoChat.Protocol.Presence
import OjalvoChat.Protocol.Views

namespace ojalvo

/-- The messages that pass on a text to one client, or to all. -/
def text_types : List MessageType := [.TEXT_FROM, .PUBLIC_TEXT_FROM]

/-- The texts of a user that have reached a descriptor, in order. -/
def heard (fd : Fd) (username : CString) (effects : List Effect) : List Message :=
  (received fd effects).filter fun message => decide (message.type ∈ text_types ∧ message.username = some username)

section Heard

variable (fd : Fd) (username : CString)

theorem heard_append (first second : List Effect) :
    heard fd username (first ++ second) = heard fd username first ++ heard fd username second := by
  rw [heard, received_append, List.filter_append]
  rfl

/-- Whoever is sent one message hears nothing else. -/
theorem mem_received_sends {message other : Message} {fds : List Fd} (hmem : other ∈ received fd (sends message fds)) :
    other = message ∧ fd ∈ fds := by
  obtain ⟨reached, hreached, heq⟩ := List.mem_map.mp (mem_received hmem)
  cases heq
  exact ⟨rfl, hreached⟩

theorem heard_sends_other {message : Message} {fds : List Fd}
    (hother : ¬ (message.type ∈ text_types ∧ message.username = some username ∧ fd ∈ fds)) :
    heard fd username (sends message fds) = [] := by
  refine List.filter_eq_nil_iff.mpr fun other hmem htext => hother ?_
  obtain ⟨rfl, hfd⟩ := mem_received_sends fd hmem
  obtain ⟨htype, hname⟩ := of_decide_eq_true htext
  exact ⟨htype, hname, hfd⟩

theorem heard_sends {message : Message} {fds : List Fd} (hnodup : fds.Nodup) (hfd : fd ∈ fds)
    (htype : message.type ∈ text_types) (hname : message.username = some username) :
    heard fd username (sends message fds) = [message] := by
  rw [heard, received_sends fd message hnodup, if_pos hfd]
  exact List.filter_eq_self.mpr fun other hmem => by
    rw [List.mem_singleton.mp hmem]
    exact decide_eq_true ⟨htype, hname⟩

end Heard

/-- An action that passes on no text. -/
def Hushed {A : Type} (action : Action A) : Prop :=
  ∀ server trace value after, action.run (.idle server trace) = .ok value after →
    ∃ effects, after.trace = trace ++ effects ∧ ∀ fd username, heard fd username effects = []

section Hushed

variable {A : Type}

theorem hushed_of_untraced {action : Action A} (huntraced : Untraced action) : Hushed action := by
  intro server trace value after hrun
  refine ⟨[], ?_, fun _ _ => rfl⟩
  rw [huntraced.ok hrun]
  exact (List.append_nil _).symm

theorem hushed_for_each {message : Message} (client_fd : Fd) (context : SendContext)
    (hsaid : message.type ∉ text_types) :
    Hushed (users_table_for_each .server_users (send_if_is_not_self reliable message client_fd) context) := by
  intro server trace value after hrun
  rw [run_for_each_reliable] at hrun
  cases hrun
  exact ⟨_, rfl, fun fd username => heard_sends_other fd username fun htext => hsaid htext.1⟩

theorem hushed_socketed {action : Action A} (hsocketed : Socketed reliable (fun type => type ∉ text_types) action) :
    Hushed action := by
  intro server trace value after hrun
  cases hsocketed with
  | notify_members roomname message client_fd hmembers hsaid =>
    rw [run_room_table_with] at hrun
    cases hroom : server.rooms.lookup roomname with
    | none =>
      rw [hroom] at hrun
      cases hrun
      exact ⟨[], (List.append_nil _).symm, fun _ _ => rfl⟩
    | some room =>
      rw [hroom] at hrun
      dsimp only at hrun
      rw [run_notify_members_reliable message client_fd roomname room server hroom trace] at hrun
      cases hrun
      exact ⟨_, rfl, fun fd username => heard_sends_other fd username fun htext => hsaid htext.1⟩
  | send client_fd message hone hsaid =>
    rw [World.idle, run_server_send] at hrun
    cases hrun
    refine ⟨sends message [client_fd], rfl, fun fd username => ?_⟩
    exact heard_sends_other fd username fun htext => hsaid htext.1
  | disconnect client_fd =>
    rw [World.idle, run_server_disconnect_client] at hrun
    cases hrun
    exact ⟨[.close client_fd], rfl, fun _ _ => rfl⟩

/-- What says no text passes on none. -/
theorem Handler.Built.hushed {given : Option CString → Prop} {program : Handler A}
    (hprogram : program.Built reliable given fun type => type ∉ text_types) :
    program.Each Hushed fun _ => True := by
  refine hprogram.each (fun action hpart => ?_) (hushed_of_untraced (untraced_users_table_size _))
    (fun message client_fd context _ hsaid => hushed_for_each client_fd context hsaid)
    (hushed_of_untraced (untraced_stop _))
  rcases hpart.untraced_or_socketed with huntraced | hsocketed
  · exact hushed_of_untraced huntraced
  · exact hushed_socketed hsocketed

end Hushed

/-- Two clients, one of whom reads what the other says. -/
structure Correspondents where
  sender_fd : Fd
  sender : CString
  reader_fd : Fd
  reader : CString

/-- Both are registered, each on its own connection. -/
structure Correspondents.Present (pair : Correspondents) (server : Server) : Prop where
  sender : server.Registered pair.sender_fd pair.sender
  reader : server.Registered pair.reader_fd pair.reader
  apart : pair.sender_fd ≠ pair.reader_fd

/-- What the reader is to hear when the sender makes a request. -/
def Correspondents.passed_on (pair : Correspondents) (msg_in : Message) : List Message :=
  match msg_in.type, msg_in.text with
  | .PUBLIC_TEXT, some text => [public_text_from_notice pair.sender text]
  | .TEXT, some text => if msg_in.username = some pair.reader then [text_from_notice pair.sender text] else []
  | _, _ => []

/-- The plan of a thread by which the reader hears, one after the other, the texts
that the ghost value lists. -/
def text_plan (A : Type) (pair : Correspondents) : Program.Plan Stop World A (List Message) where
  proper _ world := world = .idle world.server world.trace ∧ world.server.users.Indexed ∧ pair.Present world.server
  pledge texts program :=
    match program with
    | .ret _ => texts = []
    | .act _ _ => True
  takes texts _ before after later := ∃ effects, after.trace = before.trace ++ effects ∧
    texts = heard pair.reader_fd pair.sender effects ++ later
  jams _ _ _ := True

/-- A thread by which the reader hears these texts of the sender, and no others. -/
abbrev Handler.Tells {A : Type} (pair : Correspondents) (texts : List Message) (program : Handler A) : Prop :=
  program.Follows (text_plan A pair) texts

section Tells

variable {A B : Type} {pair : Correspondents} {texts : List Message}

/-- The rule for an action that passes on the first of the texts, or none. -/
theorem tells_act {action : Action A} {next : A → Handler B}
    (haction : ∀ server trace value after, server.users.Indexed → pair.Present server →
      action.run (.idle server trace) = .ok value after →
      ∃ effects later, after.trace = trace ++ effects ∧ texts = heard pair.reader_fd pair.sender effects ++ later ∧
        (next value).Tells pair later) :
    Handler.Tells pair texts (liftM action >>= next) := by
  refine Program.follows_lift_bind trivial fun world hproper => ?_
  obtain ⟨hidle, hindexed, hpresent⟩ := hproper
  cases hrun : action.run world with
  | error why stopped => trivial
  | ok value after =>
    rw [hidle] at hrun
    obtain ⟨effects, later, htrace, htexts, hnext⟩ := haction _ _ value after hindexed hpresent hrun
    exact ⟨later, ⟨effects, htrace, htexts⟩, hnext⟩

/-- The rule for an action that has nothing to do with the sockets. -/
theorem tells_look {action : Action A} {next : A → Handler B} (huntraced : Untraced action)
    (hnext : ∀ server trace value after, server.users.Indexed → pair.Present server →
      action.run (.idle server trace) = .ok value after → (next value).Tells pair texts) :
    Handler.Tells pair texts (liftM action >>= next) := by
  refine tells_act fun server trace value after hindexed hpresent hrun => ?_
  refine ⟨[], texts, ?_, rfl, hnext server trace value after hindexed hpresent hrun⟩
  rw [huntraced.ok hrun]
  exact (List.append_nil _).symm

theorem tells_strdup {text : CString} {next : Option CString → Handler B}
    (hnext : (next (some text)).Tells pair texts) : Handler.Tells pair texts (liftM (strdup (some text)) >>= next) := by
  refine tells_look (untraced_strdup _) fun server trace value after _ _ hrun => ?_
  rw [World.idle, run_strdup_some] at hrun
  cases hrun
  exact hnext

theorem tells_query {query : UsersTable → A} {next : A → Handler B}
    (hnext : ∀ server : Server, server.users.Indexed → pair.Present server →
      (next (query server.users)).Tells pair texts) :
    Handler.Tells pair texts (liftM (users_table_query .server_users query) >>= next) := by
  refine tells_look (untraced_users_table_query _ _) fun server trace value after hindexed hpresent hrun => ?_
  have hquery : (users_table_query .server_users query).run (.idle server trace) =
      .ok (query server.users) (.idle server trace) := by simp
  rw [hquery] at hrun
  cases hrun
  exact hnext server hindexed hpresent

theorem tells_pure (value : A) : Handler.Tells pair [] (pure value : Handler A) := rfl

/-- A thread that passes on no text. -/
theorem tells_of_hushed {program : Handler A} (hhushed : program.Each Hushed fun _ => True) :
    program.Tells pair [] := by
  induction program with
  | ret value => exact tells_pure value
  | act action next ih =>
    refine tells_act fun server trace value after _ _ hrun => ?_
    obtain ⟨effects, htrace, hnothing⟩ := hhushed.1 server trace value after hrun
    exact ⟨effects, [], htrace, by rw [hnothing]; rfl, ih value (hhushed.2 value)⟩

end Tells

/-- What a request of some client makes the reader hear of the sender. -/
def Correspondents.said (pair : Correspondents) (client_fd : Fd) (msg_in : Message) : List Message :=
  if client_fd = pair.sender_fd then pair.passed_on msg_in else []

section Present

variable {pair : Correspondents} {server : Server} {client_fd fd : Fd} {username : CString} {user : User}

/-- A user has the descriptor of a connection if it has its name. -/
theorem socket_fd_eq_iff (hindexed : server.users.Indexed) (hregistered : server.Registered fd username)
    (hmem : user ∈ server.users) : user.socket_fd = fd ↔ user.username = username := by
  obtain ⟨found, hfound, rfl, rfl⟩ := hindexed.lists_iff.mp hregistered
  constructor
  · intro hfd
    rw [hindexed.eq_of_socket_fd_eq hmem hfound hfd]
  · intro hname
    rw [UsersTable.eq_of_username_eq hmem hfound hname]

/-- The reader is among those who are told what the sender says to all. -/
theorem Correspondents.Present.reader_mem_recipients (hpresent : pair.Present server)
    (hown : client_fd = pair.sender_fd) : pair.reader_fd ∈ recipients server.users.entries client_fd := by
  obtain ⟨user, hmem, -, hfd⟩ := hpresent.reader
  exact mem_recipients.mpr ⟨hown ▸ hpresent.apart.symm, user, hmem, hfd⟩

variable (hindexed : server.users.Indexed) (hpresent : pair.Present server)
include hindexed hpresent

theorem Correspondents.Present.sender_ne_reader : pair.sender ≠ pair.reader := by
  obtain ⟨user, hmem, hname, hfd⟩ := hindexed.lists_iff.mp hpresent.sender
  intro hsame
  have hreader := (socket_fd_eq_iff hindexed hpresent.reader hmem).mpr (hname.trans hsame)
  exact hpresent.apart (hfd.symm.trans hreader)

/-- A client that is found is the sender if it has the name of the sender. -/
theorem Correspondents.Present.found_iff (hfound : server.users.find_by_client_fd client_fd = some user) :
    client_fd = pair.sender_fd ↔ user.username = pair.sender := by
  obtain ⟨hmem, rfl⟩ := hindexed.find_by_client_fd_iff.mp hfound
  exact socket_fd_eq_iff hindexed hpresent.sender hmem

/-- Who is not registered is not the sender. -/
theorem Correspondents.Present.said_stranger (msg_in : Message)
    (hfound : server.users.find_by_client_fd client_fd = none) : pair.said client_fd msg_in = [] := by
  refine if_neg fun hown => ?_
  obtain ⟨user, hmem, -, hfd⟩ := hindexed.lists_iff.mp hpresent.sender
  exact hindexed.find_by_client_fd_eq_none_iff.mp hfound user hmem (hfd.trans hown.symm)

end Present

section Handlers

variable {pair : Correspondents} {msg_in : Message} {client_fd : Fd} {A B : Type}

theorem Handler.Tells.bind {texts : List Message} {program : Handler A} {next : A → Handler B}
    (htells : program.Tells pair texts) (hnext : ∀ value, (next value).Tells pair []) :
    Handler.Tells pair texts (program >>= next) := by
  change Handler.Tells pair texts (Program.bind program next)
  induction program generalizing texts with
  | ret value =>
    have hnothing : texts = [] := htells
    rw [hnothing]
    exact hnext value
  | act action rest ih =>
    refine ⟨trivial, fun world hproper => ?_⟩
    have haction := htells.2 world hproper
    cases hrun : action.run world with
    | error why stopped => trivial
    | ok value after =>
      rw [hrun] at haction
      obtain ⟨later, htakes, hrest⟩ := haction
      exact ⟨later, htakes, ih value hrest⟩

theorem tells_send_or_disconnect {fd failed_fd : Fd} {message : Message} :
    Handler.Tells pair (heard pair.reader_fd pair.sender (sends message [fd]))
      (send_or_disconnect reliable fd message failed_fd) := by
  refine tells_act fun server trace value after _ _ hrun => ?_
  rw [World.idle, run_server_send] at hrun
  cases hrun
  exact ⟨sends message [fd], [], rfl, (List.append_nil _).symm, tells_pure true⟩

theorem tells_response {fd failed_fd : Fd} {message : Message} (htype : message.type = .RESPONSE) :
    Handler.Tells pair [] (send_or_disconnect reliable fd message failed_fd) := by
  have hsend : Handler.Tells pair (heard pair.reader_fd pair.sender (sends message [fd]))
      (send_or_disconnect reliable fd message failed_fd) := tells_send_or_disconnect
  rwa [heard_sends_other _ _ fun htext => by simp [htype, text_types] at htext] at hsend

/-- A text reaches the reader if it is the sender's and addressed to the reader. -/
theorem tells_process_text (htype : msg_in.type = .TEXT) (husername : msg_in.username.isSome)
    (htext : msg_in.text.isSome) :
    (process_text reliable msg_in client_fd).Tells pair (pair.said client_fd msg_in) := by
  obtain ⟨username, husername⟩ := Option.isSome_iff_exists.mp husername
  obtain ⟨text, htext⟩ := Option.isSome_iff_exists.mp htext
  have hsaid : pair.said client_fd msg_in =
      if client_fd = pair.sender_fd ∧ username = pair.reader then [text_from_notice pair.sender text] else [] := by
    simp [Correspondents.said, Correspondents.passed_on, htype, htext, husername, ite_and]
  unfold process_text
  rw [husername, htext]
  refine tells_look (untraced_users_table_find_by_username _ _) fun server trace value after hindexed hpresent
    hrun => ?_
  have hquery : (users_table_find_by_username .server_users (some username)).run (.idle server trace) =
      .ok (server.users.find_by_username username) (.idle server trace) := by simp [users_table_find_by_username]
  rw [hquery] at hrun
  cases hrun
  cases haddressee : server.users.find_by_username username with
  | none =>
    have hnothing : pair.said client_fd msg_in = [] := by
      refine hsaid.trans (if_neg fun hboth => ?_)
      obtain ⟨user, hmem, hname, -⟩ := hindexed.lists_iff.mp hpresent.reader
      exact hindexed.find_by_username_eq_none_iff.mp haddressee user hmem (hname.trans hboth.2.symm)
    rw [hnothing]
    exact tells_strdup (tells_strdup (tells_strdup (tells_response rfl)))
  | some user_to =>
    obtain ⟨haddressed, hto⟩ := hindexed.find_by_username_iff.mp haddressee
    have hreader : user_to.socket_fd = pair.reader_fd ↔ username = pair.reader :=
      hto ▸ socket_fd_eq_iff hindexed hpresent.reader haddressed
    refine tells_query fun server hindexed hpresent => ?_
    dsimp only
    split
    · rename_i hself
      have hnothing : pair.said client_fd msg_in = [] := by
        refine hsaid.trans (if_neg fun hboth => ?_)
        obtain ⟨user, hfound, hname⟩ := Option.map_eq_some_iff.mp hself
        have hsender := (hpresent.found_iff hindexed hfound).mp hboth.1
        exact hpresent.sender_ne_reader hindexed (hsender.symm.trans (hname.trans (hto.trans hboth.2)))
      rw [hnothing]
      exact tells_pure true
    · refine tells_query fun server hindexed hpresent => ?_
      cases hfound : server.users.find_by_client_fd client_fd with
      | none =>
        rw [hpresent.said_stranger hindexed msg_in hfound]
        exact tells_pure false
      | some user_from =>
        have hsender := hpresent.found_iff hindexed hfound
        have hheard : pair.said client_fd msg_in =
            heard pair.reader_fd pair.sender
              (sends (text_from_notice user_from.username text) [user_to.socket_fd]) := by
          rw [hsaid]
          split
          · rename_i hboth
            rw [← hsender.mp hboth.1]
            exact (heard_sends _ _ (List.nodup_singleton _) (List.mem_singleton.mpr (hreader.mpr hboth.2).symm)
              List.mem_cons_self rfl).symm
          · rename_i hnot
            refine (heard_sends_other _ _ fun htext => hnot ⟨hsender.mpr ?_, hreader.mp ?_⟩).symm
            · exact Option.some.inj htext.2.1
            · exact (List.mem_singleton.mp htext.2.2).symm
        rw [hheard]
        exact tells_strdup (tells_strdup tells_send_or_disconnect)

/-- A public text of the sender reaches the reader, among all others. -/
theorem tells_process_public_text (htype : msg_in.type = .PUBLIC_TEXT) (htext : msg_in.text.isSome) :
    (process_public_text reliable msg_in client_fd).Tells pair (pair.said client_fd msg_in) := by
  obtain ⟨text, htext⟩ := Option.isSome_iff_exists.mp htext
  have hsaid : pair.said client_fd msg_in =
      if client_fd = pair.sender_fd then [public_text_from_notice pair.sender text] else [] := by
    simp [Correspondents.said, Correspondents.passed_on, htype, htext]
  unfold process_public_text
  rw [htext]
  refine tells_query fun server hindexed hpresent => ?_
  cases hfound : server.users.find_by_client_fd client_fd with
  | none =>
    rw [hpresent.said_stranger hindexed msg_in hfound]
    exact tells_pure false
  | some user_from =>
    have hsender := hpresent.found_iff hindexed hfound
    refine tells_strdup (tells_strdup ?_)
    refine tells_look (untraced_users_table_size _) fun server trace mx_users after _ _ _ => ?_
    refine tells_act fun server trace context after hindexed hpresent hrun => ?_
    rw [run_for_each_reliable] at hrun
    cases hrun
    refine ⟨_, [], rfl, ?_, ?_⟩
    · rw [List.append_nil, hsaid]
      split
      · rename_i hown
        rw [← hsender.mp hown]
        exact (heard_sends _ _ (nodup_recipients hindexed _) (hpresent.reader_mem_recipients hown)
          (List.mem_cons_of_mem _ List.mem_cons_self) rfl).symm
      · rename_i hother
        exact (heard_sends_other _ _ fun htext => hother (hsender.mpr (Option.some.inj htext.2.1))).symm
    · change Handler.Tells pair [] (disconnect_failed .server_users (List.replicate (_ + 1) (-1)) >>= _)
      rw [List.replicate_succ, disconnect_failed, if_pos rfl]
      exact tells_pure true

theorem grants_plain : Grants (fun text => text.isSome) fun type => type ∉ text_types where
  text _ := rfl
  plain type hplain := by cases type <;> simp_all [text_types, MessageType.carries_text]

/-- Whoever is not identified is refused; the others say what they have to say. -/
theorem tells_message_handler_process (htext : msg_in.type = .TEXT ∨ msg_in.type = .PUBLIC_TEXT)
    (hgiven : msg_in.Given fun text => text.isSome) :
    (message_handler_process reliable msg_in client_fd).Tells pair (pair.said client_fd msg_in) := by
  unfold message_handler_process
  rw [if_neg (by grind), if_neg (by grind), if_neg (by grind)]
  refine tells_query fun server hindexed hpresent => ?_
  rw [hindexed.contains_by_client_fd_eq]
  cases hfound : server.users.find_by_client_fd client_fd with
  | none =>
    rw [hpresent.said_stranger hindexed msg_in hfound]
    exact tells_of_hushed (built_not_identified grants_plain client_fd).hushed
  | some user =>
    dsimp only
    rcases htext with htype | htype
    · rw [htype]
      exact tells_process_text htype (hgiven.addressee htype) (hgiven.text htype)
    · rw [htype]
      exact tells_process_public_text htype (hgiven.public_text htype)

/-- Only what the sender says makes the reader hear something of it. -/
theorem Correspondents.said_plain (hplain : msg_in.type ≠ .TEXT ∧ msg_in.type ≠ .PUBLIC_TEXT) :
    pair.said client_fd msg_in = [] := by
  unfold Correspondents.said Correspondents.passed_on
  split
  · split
    · exact absurd ‹_› hplain.2
    · exact absurd ‹_› hplain.1
    · rfl
  · rfl

/-- What says no text passes on none. -/
theorem hushed_serve {line : Option Message}
    (hplain : ∀ msg_in, line = some msg_in → msg_in.type ≠ .TEXT ∧ msg_in.type ≠ .PUBLIC_TEXT) :
    (serve reliable (Event.of_line client_fd line)).Each Hushed fun _ => True := by
  refine (built_serve grants_plain (fun msg_in hline => ?_) fun msg_in hline => ?_).hushed
  · obtain ⟨htext, hpublic⟩ := hplain msg_in hline
    exact ⟨fun htype => absurd htype htext, fun htype => absurd htype htext, fun htype => absurd htype hpublic⟩
  · obtain ⟨htext, hpublic⟩ := hplain msg_in hline
    exact ⟨fun htype => absurd htype htext, fun htype => absurd htype hpublic, fun _ => by simp [text_types]⟩

/-- What the handler of a line makes the reader hear of the sender. -/
theorem tells_serve (hgiven : msg_in.Given fun text => text.isSome) :
    (serve reliable (.request client_fd msg_in)).Tells pair (pair.said client_fd msg_in) := by
  by_cases htext : msg_in.type = .TEXT ∨ msg_in.type = .PUBLIC_TEXT
  · exact (tells_message_handler_process htext hgiven).bind fun _ => tells_pure ()
  · have hplain := not_or.mp htext
    rw [Correspondents.said_plain hplain]
    have hhushed : (serve reliable (Event.of_line client_fd (some msg_in))).Each Hushed fun _ => True :=
      hushed_serve fun other hother => Option.some.inj hother ▸ hplain
    exact tells_of_hushed hhushed

end Handlers

end ojalvo
