import OjalvoChat.ClientHandler.Invalid
import OjalvoChat.Library.Run
import OjalvoChat.Protocol.Refinement
import OjalvoChat.Protocol.Settlement

namespace ojalvo

/-- What reaches the server: a connection, a request that was read on a
connection, or a line that is no message. -/
inductive Event where
  | accept (client_fd : Fd)
  | request (client_fd : Fd) (msg_in : Message)
  | invalid (client_fd : Fd)

/-- The code that runs on an event. -/
def serve (net : Net) (event : Event) : Handler Unit :=
  match event with
  | .accept client_fd => liftM (server_accept_client client_fd)
  | .request client_fd msg_in => do
    let _ ← message_handler_process net msg_in client_fd
  | .invalid client_fd => handle_invalid_line net client_fd

/-- One event, processed to its end. -/
def Served (net : Net) (before : World) (event : Event) (after : World) : Prop :=
  (serve net event).run before = .ok () after

/-- Events processed one at a time from the initial state, under any pattern of
results of the sends. A run ends before an event that does not complete. -/
abbrev ServerRun (net : Net) (history : List (World × Event)) (world : World) : Prop :=
  Run (Served net) (.idle server_init []) history world

/-- No thread holds a lock and the tables are consistent. -/
structure World.Ready (world : World) : Prop where
  idle : world = .idle world.server world.trace
  consistent : world.server.Consistent

theorem ready_idle {server : Server} {trace : List Effect} (hserver : server.Consistent) :
    (World.idle server trace).Ready := ⟨rfl, hserver⟩

/-- The reaction behind an event. -/
def Event.reaction (server : Server) (event : Event) : Reaction :=
  match event with
  | .accept _ => .ignore true
  | .request client_fd msg_in => ojalvo.reaction server client_fd msg_in
  | .invalid _ => .refuse invalid_response

def Event.client_fd (event : Event) : Fd :=
  match event with
  | .accept client_fd => client_fd
  | .request client_fd _ => client_fd
  | .invalid client_fd => client_fd

/-- The message of an event. Lines that are no message count as one without
fields. -/
def Event.message (event : Event) : Message :=
  match event with
  | .request _ msg_in => msg_in
  | _ => message_init

theorem Event.eq_request {event : Event} {type : MessageType} (htype : event.message.type = type)
    (hknown : type ≠ .UNKNOWN) : event = .request event.client_fd event.message := by
  cases event with
  | request client_fd msg_in => rfl
  | accept client_fd => exact absurd htype.symm hknown
  | invalid client_fd => exact absurd htype.symm hknown

section Served

variable {net : Net} {server : Server} {trace : List Effect} {client_fd : Fd} {msg_in : Message} {after : World}

theorem run_handle_invalid_line (hserver : server.Consistent) :
    (handle_invalid_line net client_fd).run (.idle server trace) =
      .ok () (departed net server (trace ++ [.send client_fd invalid_response (net trace client_fd invalid_response)])
        client_fd) := by
  have hcontains := hserver.users.contains_by_client_fd_eq client_fd
  cases hfound : server.users.find_by_client_fd client_fd with
  | none =>
    simp [handle_invalid_line, users_table_contains_by_client_fd, hcontains, hfound, departed, Server.depart,
      departure_notices, invalid_response]
    exact ⟨rfl, rfl⟩
  | some user =>
    simp [handle_invalid_line, users_table_contains_by_client_fd, hcontains, hfound, message_handler_process,
      run_process_disconnect, invalid_response]
    rfl

theorem served_accept (hserved : Served net (.idle server trace) (.accept client_fd) after) :
    after = .idle server (trace ++ [.accept client_fd]) := by
  cases hserved
  rfl

theorem served_request (hserver : server.Consistent)
    (hserved : Served net (.idle server trace) (.request client_fd msg_in) after) :
    ∃ answer, (reaction server client_fd msg_in).perform net client_fd server trace = .ok answer after := by
  simp only [Served, serve, Program.run_bind, run_message_handler_process net server trace client_fd msg_in hserver]
    at hserved
  cases hperform : (reaction server client_fd msg_in).perform net client_fd server trace with
  | error why world =>
    rw [hperform] at hserved
    cases hserved
  | ok answer world =>
    rw [hperform] at hserved
    cases hserved
    exact ⟨answer, rfl⟩

/-- A line that is no message has the effect of a refusal. -/
theorem served_invalid (hserver : server.Consistent)
    (hserved : Served net (.idle server trace) (.invalid client_fd) after) :
    (Reaction.refuse invalid_response).perform net client_fd server trace = .ok true after := by
  simp only [Served, serve, run_handle_invalid_line hserver] at hserved
  cases hserved
  rfl

theorem Event.permitted (event : Event) (hserver : server.Consistent) :
    Permitted server event.client_fd event.message (event.reaction server) := by
  cases event with
  | accept client_fd => exact .ignore true
  | request client_fd msg_in => exact reaction_permitted client_fd msg_in hserver
  | invalid client_fd => exact refuse_invalid

/-- A served event is a connection, or its reaction has gone through. -/
theorem served_cases {event : Event} (hserver : server.Consistent)
    (hserved : Served net (.idle server trace) event after) :
    (∃ client_fd, event = .accept client_fd ∧ after = .idle server (trace ++ [.accept client_fd])) ∨
      ∃ answer, (event.reaction server).perform net event.client_fd server trace = .ok answer after := by
  cases event with
  | accept client_fd => exact Or.inl ⟨client_fd, rfl, served_accept hserved⟩
  | request client_fd msg_in => exact Or.inr (served_request hserver hserved)
  | invalid client_fd => exact Or.inr ⟨true, served_invalid hserver hserved⟩

/-- What one event can do to the tables. -/
theorem served_leaves {event : Event} (hserver : server.Consistent)
    (hserved : Served net (.idle server trace) event after) :
    ∃ later, after = .idle
      (((event.reaction server).settled net server trace).evict_all
        ((event.reaction server).casualties net event.client_fd server trace)) later := by
  rcases served_cases hserver hserved with ⟨client_fd, rfl, rfl⟩ | ⟨answer, hok⟩
  · exact ⟨_, rfl⟩
  · exact (event.permitted hserver).leaves net trace hserver answer after hok

theorem served_ready {before : World} {event : Event} (hready : before.Ready)
    (hserved : Served net before event after) :
    after.Ready := by
  obtain ⟨hidle, hserver⟩ := hready
  rw [hidle] at hserved
  obtain ⟨later, rfl⟩ := served_leaves hserver hserved
  exact ready_idle (((event.permitted hserver).settled_consistent _ _ hserver).evict_all _)

end Served

/-- Between two events every run is ready for the next one. -/
theorem run_ready {net : Net} {history : List (World × Event)} {world : World} (hrun : ServerRun net history world) :
    world.Ready :=
  hrun.invariant (ready_idle Server.consistent_init) fun _ _ _ => served_ready

/-- The network on which no send fails. -/
def reliable : Net := fun _ _ _ => true

/-- One event, as far as it completes. -/
def serve_once (net : Net) (world : World) (event : Event) : Option World :=
  match (serve net event).run world with
  | .ok _ after => some after
  | .error _ _ => none

theorem served_of_serve_once {net : Net} {before after : World} {event : Event}
    (honce : serve_once net before event = some after) : Served net before event after := by
  unfold serve_once at honce
  unfold Served
  cases hserve : (serve net event).run before with
  | ok _ world =>
    rw [hserve] at honce
    rw [Option.some.inj honce]
  | error why stopped =>
    rw [hserve] at honce
    cases honce

/-- A test of what some events lead to finds a run. -/
theorem exists_run_of_serve_all (net : Net) (events : List Event) (test : List (World × Event) → World → Bool)
    (htest : (Run.follow (serve_once net) events [] (.idle server_init [])).any (fun run => test run.1 run.2) = true) :
    ∃ history world, ServerRun net history world ∧ test history world = true :=
  Run.exists_of_follow (fun _ _ _ => served_of_serve_once) events test htest

/-- Two users in one room. -/
def meeting : List Event := [
  .request 4 { message_init with type := .IDENTIFY, username := some (.lit "ana") },
  .request 5 { message_init with type := .IDENTIFY, username := some (.lit "luis") },
  .request 4 { message_init with type := .NEW_ROOM, roomname := some (.lit "sala") },
  .request 4 { message_init with type := .INVITE, roomname := some (.lit "sala"), usernames := some [.lit "luis"] },
  .request 5 { message_init with type := .JOIN_ROOM, roomname := some (.lit "sala") }]

end ojalvo
