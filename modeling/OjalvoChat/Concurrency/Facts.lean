import OjalvoChat.Concurrency.Actions
import OjalvoChat.Concurrency.Pool
import OjalvoChat.MessageHandler.Quiet

namespace ojalvo

section Kinds

variable {A : Type}

/-- An action that removes a name from `server->users`. -/
def Unregisters (username : CString) (action : Action A) : Prop :=
  ∀ server trace, ∃ value after, action.run (.idle server trace) = .ok value after ∧
    after.server.users = server.users.remove username

/-- An action that removes a room. -/
def Drops (roomname : CString) (action : Action A) : Prop :=
  ∀ server trace, ∃ value after, action.run (.idle server trace) = .ok value after ∧
    after.server.rooms = server.rooms.erase roomname

/-- An action that makes somebody a member of a room, if the room exists. -/
def Seats (roomname : CString) (action : Action A) : Prop :=
  ∃ user, ∀ server trace, ∃ value after, action.run (.idle server trace) = .ok value after ∧
    ∀ room, server.rooms.lookup roomname = some room →
      (after.server.rooms.lookup roomname).map Room.members = some (room.members.add user)

/-- An action that sends a private text to a descriptor. -/
def SendsText (fd : Fd) (action : Action A) : Prop :=
  ∀ server trace, ∃ value after message sent, action.run (.idle server trace) = .ok value after ∧
    message.type = .TEXT_FROM ∧ after.trace = trace ++ [.send fd message sent]

/-- An action that leaves the world alone. -/
def Idles (action : Action A) : Prop :=
  ∀ world : World, world.Proper → ∀ value after, action.run world = .ok value after → after = world

end Kinds

/-- A handler that has found the addressee of a private text and has it to send:
it does nothing else before. -/
def Handler.Committed (fd : Fd) (program : Handler Unit) : Prop :=
  program.Until Idles (SendsText fd) ∧ program.May (SendsText fd)

/-- What a handler has learnt from the answers of its actions and still relies on:
that its client is not registered or is registered under a name, that a send
failed, which user it is about to disconnect or evict and from which name it has
cleared the rooms, the record of its client, of another user, and of the
addressee of a private text, and in which room it has seated its client, missed
the room, or found nobody left. -/
inductive Fact where
  | absent
  | named (username : CString)
  | failed (fd : Fd)
  | departing (user : User)
  | evicting (user : User)
  | cleared (username : CString)
  | self (user : User)
  | known (user : User)
  | addressee (user : User)
  | joined (roomname : CString)
  | lost (roomname : CString)
  | emptied (roomname : CString)

/-- What the remaining program of the handler of a client has to satisfy while it
relies on a fact. -/
def Fact.Pledge (client_fd : Fd) (program : Handler Unit) (fact : Fact) : Prop :=
  match fact with
  | .departing user => program.Must (Unregisters user.username) ∧ program.Must (Closing client_fd)
  | .evicting user => program.Must (Unregisters user.username)
  | .cleared username => program.Next (Unregisters username)
  | .addressee user => program.Committed user.socket_fd
  | .emptied roomname => program.Next (Drops roomname)
  | _ => True

/-- Whether a fact outlives a deed of the handler itself. -/
def Fact.Survives (deed : Deed) (fact : Fact) : Prop :=
  match fact with
  | .absent | .named _ => ∀ user, deed ≠ .register user
  | .cleared _ | .addressee _ | .joined _ | .emptied _ => ∃ effects, deed = .tell effects
  | _ => True

/-- The room that a request asks to join or to open. -/
def Event.entered (event : Event) : Option CString :=
  match event.message.type with
  | .JOIN_ROOM => event.message.roomname
  | .NEW_ROOM => event.message.roomname.map fun roomname => roomname.cut 16
  | _ => none

/-- The facts that a deed establishes, given the tables before it. -/
def Fact.Brought (client_fd : Fd) (event : Event) (facts : List Fact) (program : Handler Unit) (server : Server)
    (deed : Deed) (fact : Fact) : Prop :=
  match fact with
  | .absent => deed = .look ∧ server.users.find_by_client_fd client_fd = none
  | .named username => ∃ user, deed = .register user ∧ user.username = username
  | .failed fd => ∃ message, Effect.send fd message false ∈ deed.effects
  | .departing user => deed = .look ∧ server.users.find_by_client_fd client_fd = some user
  | .evicting user => deed = .look ∧ ∃ fd, .failed fd ∈ facts ∧ server.users.find_by_client_fd fd = some user
  | .cleared username => deed = .clear username
  | .self user => deed = .look ∧ server.users.find_by_client_fd client_fd = some user
  | .known user => deed = .look ∧ ∃ username, server.users.find_by_username username = some user
  | .addressee user => deed = .look ∧ event.message.type = .TEXT ∧
    ∃ username, event.message.username = some username ∧ server.users.find_by_username username = some user
  | .joined roomname => (server.rooms.lookup roomname).isSome ∧
    ∃ user, deed = .seat roomname user ∨ deed = .let_in roomname user
  | .lost roomname =>
    server.rooms.lookup roomname = none ∧ program.Next (Seats roomname) ∧ event.entered = some roomname
  | .emptied roomname => ∃ username, deed = .unseat roomname username ∧
    ∀ room, (deed.apply server).rooms.lookup roomname = some room → room.members.entries.length = 0

/-- What a handler must rely on when it changes the tables. -/
def Deed.Allowed (client_fd : Fd) (event : Event) (facts : List Fact) (program : Handler Unit) (server : Server)
    (deed : Deed) : Prop :=
  match deed with
  | .register user => .absent ∈ facts ∧ user.socket_fd = client_fd ∧
    server.users.find_by_username user.username = none
  | .unregister username => .cleared username ∈ facts ∧
    ∃ user, (.departing user ∈ facts ∨ .evicting user ∈ facts) ∧ user.username = username
  | .clear username => ∃ user, (.departing user ∈ facts ∨ .evicting user ∈ facts) ∧ user.username = username
  | .open_room roomname _ => server.rooms.lookup roomname = none
  | .seat roomname user | .let_in roomname user =>
    .self user ∈ facts ∧ program.Next (Seats roomname) ∧ event.entered = some roomname
  | .invite _ user => .known user ∈ facts
  | .unseat roomname username => event.message.type = .LEAVE_ROOM ∧ event.message.roomname = some roomname ∧
    ∃ user, .self user ∈ facts ∧ user.username = username
  | .drop roomname => .emptied roomname ∈ facts
  | _ => True

/-- A response that confirms a request. -/
def Message.Confirms (message : Message) (operation : CString) : Prop :=
  message.type = .RESPONSE ∧ message.operation = some operation ∧ message.result = some (.lit "SUCCESS")

/-- What a handler must rely on when it sends a message. -/
inductive Sayable (client_fd : Fd) (event : Event) (facts : List Fact) : Fd → Message → Prop where
  | plain {message : Message} (fd : Fd) (hplain : message.Plain) : Sayable client_fd event facts fd message
  | identified (username : CString) (hnamed : .named username ∈ facts) :
    Sayable client_fd event facts client_fd (response (.lit "IDENTIFY") (.lit "SUCCESS") username)
  | seated (operation roomname : CString)
    (hrequest : (operation = .lit "JOIN_ROOM" ∧ event.message.type = .JOIN_ROOM) ∨
      (operation = .lit "NEW_ROOM" ∧ event.message.type = .NEW_ROOM))
    (hseated : .joined roomname ∈ facts ∨ .lost roomname ∈ facts) :
    Sayable client_fd event facts client_fd (response operation (.lit "SUCCESS") roomname)
  | text_from {message : Message} (user : User) (htype : message.type = .TEXT_FROM)
    (haddressee : .addressee user ∈ facts) : Sayable client_fd event facts user.socket_fd message

/-- One step of a handler: what it does is allowed by the facts that it relies on,
and it goes on with facts that outlive the step or are established by it. -/
structure HandlerStep (net : Net) (client_fd : Fd) (event : Event) (facts : List Fact) (program : Handler Unit)
    (server : Server) (deed : Deed) (later : List Fact) : Prop where
  allowed : deed.Allowed client_fd event facts program server
  said : ∀ effect ∈ deed.effects, (∃ fd, effect = .close fd) ∨ Sends net (Sayable client_fd event facts) effect
  kept : ∀ fact ∈ later,
    (fact ∈ facts ∧ fact.Survives deed) ∨ fact.Brought client_fd event facts program server deed

/-- The plan of a handler. -/
def handler_plan (net : Net) (client_fd : Fd) (event : Event) : Program.Plan Stop World Unit (List Fact) where
  proper _ := World.Proper
  pledge facts program := ∀ fact ∈ facts, fact.Pledge client_fd program
  takes facts program before after later :=
    ∃ deed, after = Deed.perform deed before ∧ HandlerStep net client_fd event facts program before.server deed later
  jams why before stopped :=
    match why with
    | .blocked _ => Jams net before stopped
    | _ => True

abbrev Keeps (net : Net) (client_fd : Fd) (event : Event) (facts : List Fact) (program : Handler Unit) : Prop :=
  program.Follows (handler_plan net client_fd event) facts

section Rules

variable {net : Net} {client_fd : Fd} {event : Event} {facts more : List Fact} {A : Type}

theorem Sayable.mono {fd : Fd} {message : Message} (hsayable : Sayable client_fd event facts fd message)
    (hsub : facts ⊆ more) : Sayable client_fd event more fd message := by
  cases hsayable with
  | plain fd hplain => exact .plain fd hplain
  | identified username hnamed => exact .identified username (hsub hnamed)
  | seated operation roomname hrequest hseated =>
    exact .seated operation roomname hrequest (hseated.imp (fun hmem => hsub hmem) fun hmem => hsub hmem)
  | text_from user htype haddressee => exact .text_from user htype (hsub haddressee)

/-- A private text goes to the addressee that the handler has found. -/
theorem Sayable.addressee {fd : Fd} {message : Message} (hsayable : Sayable client_fd event facts fd message)
    (htext : message.type = .TEXT_FROM) : ∃ user : User, fd = user.socket_fd ∧ .addressee user ∈ facts := by
  cases hsayable with
  | plain fd hplain => exact absurd htext hplain.1
  | identified username hnamed => cases htext
  | seated operation roomname hrequest hseated => cases htext
  | text_from user htype haddressee => exact ⟨user, rfl, haddressee⟩

theorem Deed.Allowed.mono {program : Handler Unit} {server : Server} {deed : Deed}
    (hallowed : deed.Allowed client_fd event facts program server) (hsub : facts ⊆ more) :
    deed.Allowed client_fd event more program server := by
  cases deed with
  | register user => exact ⟨hsub hallowed.1, hallowed.2⟩
  | unregister username =>
    obtain ⟨hcleared, user, htarget, hname⟩ := hallowed
    exact ⟨hsub hcleared, user, htarget.imp (fun hmem => hsub hmem) fun hmem => hsub hmem, hname⟩
  | clear username =>
    obtain ⟨user, htarget, hname⟩ := hallowed
    exact ⟨user, htarget.imp (fun hmem => hsub hmem) fun hmem => hsub hmem, hname⟩
  | seat roomname user => exact ⟨hsub hallowed.1, hallowed.2⟩
  | let_in roomname user => exact ⟨hsub hallowed.1, hallowed.2⟩
  | invite roomname user => exact hsub hallowed
  | unseat roomname username =>
    obtain ⟨htype, hroomname, user, hself, hname⟩ := hallowed
    exact ⟨htype, hroomname, user, hsub hself, hname⟩
  | drop roomname => exact hsub hallowed
  | open_room roomname named => exact hallowed
  | _ => trivial

theorem HandlerStep.mono {program : Handler Unit} {server : Server} {deed : Deed} {later : List Fact}
    (hstep : HandlerStep net client_fd event facts program server deed later) (hsub : facts ⊆ more) :
    HandlerStep net client_fd event more program server deed later where
  allowed := hstep.allowed.mono hsub
  said effect hmem := by
    refine (hstep.said effect hmem).imp_right ?_
    rintro ⟨fd, message, trace, heffect, hsayable⟩
    exact ⟨fd, message, trace, heffect, hsayable.mono hsub⟩
  kept fact hmem := by
    refine (hstep.kept fact hmem).imp (And.imp_left fun hold => hsub hold) fun hbrought => ?_
    cases fact with
    | evicting user =>
      obtain ⟨hlook, fd, hfailed, hfound⟩ := hbrought
      exact ⟨hlook, fd, hsub hfailed, hfound⟩
    | _ => exact hbrought

/-- A handler may give up facts at any time. -/
theorem Keeps.mono {program : Handler Unit} (hkeeps : Keeps net client_fd event facts program) (hsub : facts ⊆ more)
    (hpledge : ∀ fact ∈ more, fact.Pledge client_fd program) : Keeps net client_fd event more program := by
  cases program with
  | ret value => exact hpledge
  | act action next =>
    refine ⟨hpledge, fun world hproper => ?_⟩
    have hact := hkeeps.2 world hproper
    split at hact
    · obtain ⟨later, ⟨deed, hafter, hstep⟩, hlater⟩ := hact
      exact ⟨later, ⟨deed, hafter, hstep.mono hsub⟩, hlater⟩
    · exact hact

/-- The rule for one action. -/
theorem keeps_act {action : Action A} {next : A → Handler Unit} {spec : Server → A → Deed → Prop}
    (haction : Does net action spec) (hpledge : ∀ fact ∈ facts, fact.Pledge client_fd (liftM action >>= next))
    (hnext : ∀ server value deed, spec server value deed → ∃ later,
      HandlerStep net client_fd event facts (liftM action >>= next) server deed later ∧
        Keeps net client_fd event later (next value)) :
    Keeps net client_fd event facts (liftM action >>= next) := by
  refine Program.follows_lift_bind hpledge fun world hproper => ?_
  have hdoes := haction world hproper
  cases hrun : action.run world with
  | ok value after =>
    rw [hrun] at hdoes
    obtain ⟨deed, hafter, hspec⟩ := hdoes
    obtain ⟨later, hstep, hkeeps⟩ := hnext world.server value deed hspec
    exact ⟨later, ⟨deed, hafter, hstep⟩, hkeeps⟩
  | error why stopped =>
    rw [hrun] at hdoes
    cases why with
    | blocked mutex => exact hdoes
    | _ => trivial

/-- An action that only reads. It may establish facts, and facts may be given up. -/
theorem keeps_look {action : Action A} {next : A → Handler Unit} {spec : Server → A → Prop}
    (haction : Reads net action spec)
    (hpledge : ∀ fact ∈ facts, fact.Pledge client_fd (liftM action >>= next))
    (hnext : ∀ server value, spec server value → ∃ later,
      (∀ fact ∈ later, fact ∈ facts ∨
        fact.Brought client_fd event facts (liftM action >>= next) server .look) ∧
      Keeps net client_fd event later (next value)) :
    Keeps net client_fd event facts (liftM action >>= next) := by
  refine keeps_act haction hpledge ?_
  rintro server value deed ⟨hspec, rfl⟩
  obtain ⟨later, hlater, hkeeps⟩ := hnext server value hspec
  refine ⟨later, ⟨trivial, List.forall_mem_nil _, fun fact hfact => ?_⟩, hkeeps⟩
  rcases hlater fact hfact with hold | hnew
  · refine Or.inl ⟨hold, ?_⟩
    cases fact <;> simp [Fact.Survives]
  · exact Or.inr hnew

/-- As `keeps_look`, without new facts. -/
theorem keeps_skip {action : Action A} {next : A → Handler Unit} {spec : Server → A → Prop}
    (haction : Reads net action spec)
    (hpledge : ∀ fact ∈ facts, fact.Pledge client_fd (liftM action >>= next))
    (hnext : ∀ server value, spec server value → Keeps net client_fd event facts (next value)) :
    Keeps net client_fd event facts (liftM action >>= next) :=
  keeps_look haction hpledge fun server value hspec => ⟨facts, fun _ => Or.inl, hnext server value hspec⟩

/-- A send. Its failure is a fact. -/
theorem keeps_send {fd : Fd} {message : Message} {next : Bool → Handler Unit}
    (hsayable : Sayable client_fd event facts fd message)
    (hpledge : ∀ fact ∈ facts, fact.Pledge client_fd (liftM (server_send net fd message) >>= next))
    {kept : List Fact} (hkept : kept ⊆ facts) (htrue : Keeps net client_fd event kept (next true))
    (hfalse : Keeps net client_fd event (.failed fd :: kept) (next false)) :
    Keeps net client_fd event facts (liftM (server_send net fd message) >>= next) := by
  refine keeps_act (does_server_send fd message) hpledge ?_
  rintro server value deed ⟨trace, hvalue, rfl⟩
  have hsaid : ∀ effect ∈ (Deed.tell [.send fd message value]).effects,
      (∃ fd, effect = .close fd) ∨ Sends net (Sayable client_fd event facts) effect := by
    intro effect hmem
    obtain rfl := List.mem_singleton.mp hmem
    exact Or.inr ⟨fd, message, trace, by rw [hvalue], hsayable⟩
  have hold : ∀ fact ∈ kept, fact ∈ facts ∧ fact.Survives (.tell [.send fd message value]) := by
    intro fact hmem
    refine ⟨hkept hmem, ?_⟩
    cases fact <;> simp [Fact.Survives]
  cases value with
  | true => exact ⟨kept, ⟨trivial, hsaid, fun fact hmem => Or.inl (hold fact hmem)⟩, htrue⟩
  | false =>
    refine ⟨.failed fd :: kept, ⟨trivial, hsaid, fun fact hmem => ?_⟩, hfalse⟩
    rcases List.mem_cons.mp hmem with rfl | hkeptfact
    · exact Or.inr ⟨message, List.mem_singleton_self _⟩
    · exact Or.inl (hold fact hkeptfact)

end Rules

end ojalvo
