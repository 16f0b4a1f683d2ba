import OjalvoChat.Protocol.Perform

namespace ojalvo

/-- What one action of a handler does: it changes a table or it does something on
the sockets. -/
inductive Deed where
  | tell (effects : List Effect)
  | register (user : User)
  | unregister (username : CString)
  | clear (username : CString)
  | mark (client_fd : Fd) (status : UserStatus)
  | mark_rooms (client_fd : Fd) (status : UserStatus)
  | open_room (roomname : CString) (named : 0 < strlen roomname ∧ strlen roomname ≤ ROOM_ROOMNAME_MAX_LENGTH)
  | seat (roomname : CString) (user : User)
  | invite (roomname : CString) (user : User)
  | let_in (roomname : CString) (user : User)
  | unseat (roomname : CString) (username : CString)
  | drop (roomname : CString)

/-- An action that only reads. -/
abbrev Deed.look : Deed := .tell []

def Deed.apply (deed : Deed) (server : Server) : Server :=
  match deed with
  | .tell _ => server
  | .register user => server.register user
  | .unregister username => { server with users := server.users.remove username }
  | .clear username => server.adjust_rooms (Room.forget username)
  | .mark client_fd status => { server with users := server.users.change_status_by_client_fd client_fd status }
  | .mark_rooms client_fd status => server.adjust_rooms (Room.update_status client_fd status)
  | .open_room roomname named => { server with rooms := server.rooms.insert roomname (room_new roomname named) }
  | .seat roomname user => server.adjust_room roomname (Room.change_members fun members => members.add user)
  | .invite roomname user => server.add_guest roomname user
  | .let_in roomname user => server.let_in roomname user
  | .unseat roomname username =>
    server.adjust_room roomname (Room.change_members fun members => members.remove username)
  | .drop roomname => { server with rooms := server.rooms.erase roomname }

def Deed.effects (deed : Deed) : List Effect :=
  match deed with
  | .tell effects => effects
  | _ => []

def Deed.perform (deed : Deed) (world : World) : World :=
  { world with server := deed.apply world.server, trace := world.trace ++ deed.effects }

/-- A world in which allocation works and no mutex is held, except possibly that
of the rooms, by a thread that is stuck. -/
structure World.Proper (world : World) : Prop where
  alloc : world.alloc = allocating
  held : world.held = [] ∨ world.held = [.rooms]

/-- A message that neither confirms anything nor carries a private text. -/
def Message.Plain (message : Message) : Prop :=
  message.type ≠ .TEXT_FROM ∧ message.result ≠ some (.lit "SUCCESS")

/-- A send of a message of some kind, judged by the network. -/
def Sends (net : Net) (kind : Fd → Message → Prop) (effect : Effect) : Prop :=
  ∃ fd message trace, effect = .send fd message (net trace fd message) ∧ kind fd message

/-- A thread gets stuck on the mutex of the rooms: another thread has it, or it has
it itself, in a broadcast of which a send has failed. -/
def Jams (net : Net) (before stopped : World) : Prop :=
  ∃ effects, (∀ effect ∈ effects, Sends net (fun _ message => message.Plain) effect) ∧
    (before.held = [.rooms] ∨ ∃ fd message, Effect.send fd message false ∈ effects) ∧
    stopped = { before with held := [.rooms], trace := before.trace ++ effects }

/-- What an action does in every proper world, when it does not fail: its answer
and its deed are related to the tables that it finds. -/
def Does {A : Type} (net : Net) (action : Action A) (spec : Server → A → Deed → Prop) : Prop :=
  ∀ world : World, world.Proper →
    match action.run world with
    | .ok value after => ∃ deed, after = Deed.perform deed world ∧ spec world.server value deed
    | .error (.blocked _) stopped => Jams net world stopped
    | .error _ _ => True

/-- An action that changes nothing, with what its answer tells about the tables. -/
abbrev Reads {A : Type} (net : Net) (action : Action A) (spec : Server → A → Prop) : Prop :=
  Does net action fun server value deed => spec server value ∧ deed = .look

section Does

variable {A : Type} {net : Net} {action : Action A} {spec : Server → A → Deed → Prop}

/-- An action that no mutex of the rooms keeps from completing. -/
theorem does_of_ok
    (hrun : ∀ server held trace, held = [] ∨ held = [.rooms] →
      ∃ value deed, action.run ⟨server, held, trace, allocating⟩ =
        .ok value (Deed.perform deed ⟨server, held, trace, allocating⟩) ∧ spec server value deed) :
    Does net action spec := by
  rintro ⟨server, held, trace, alloc⟩ ⟨rfl, hheld⟩
  obtain ⟨value, deed, hok, hspec⟩ := hrun server held trace hheld
  rw [hok]
  exact ⟨deed, rfl, hspec⟩

/-- An action that needs the mutex of the rooms. -/
theorem does_of_lock
    (hfree : ∀ server trace, ∃ value deed, action.run ⟨server, [], trace, allocating⟩ =
      .ok value (Deed.perform deed ⟨server, [], trace, allocating⟩) ∧ spec server value deed)
    (hblocked : ∀ server trace, action.run ⟨server, [.rooms], trace, allocating⟩ =
      .error (.blocked .rooms) ⟨server, [.rooms], trace, allocating⟩) :
    Does net action spec := by
  rintro ⟨server, held, trace, alloc⟩ ⟨rfl, rfl | rfl⟩
  · obtain ⟨value, deed, hok, hspec⟩ := hfree server trace
    rw [hok]
    exact ⟨deed, rfl, hspec⟩
  · rw [hblocked]
    exact ⟨[], List.forall_mem_nil _, Or.inl rfl, by simp⟩

end Does

end ojalvo
