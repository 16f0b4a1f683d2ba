import OjalvoChat.ClientHandler.Client
import OjalvoChat.Protocol.Connected

namespace ojalvo

/-- While a connection lives its own thread moves, or something else reaches the
server. -/
inductive Moment where
  | own (step : ClientStep)
  | other (event : Event)

/-- The world together with the thread of one connection. -/
abbrev Connection := World × ClientThread

section Steps

variable (cJSON_Parse : CString → Option CJson) (net : Net) (client_fd : Fd)

/-- One step. Other clients have other descriptors. -/
def connection_step (connection : Connection) (moment : Moment) : Option Connection :=
  match moment with
  | .own step => handle_client cJSON_Parse net client_fd step connection.1 connection.2
  | .other event =>
    if event.client_fd = client_fd then none
    else (serve_once net connection.1 event).map fun world => (world, connection.2)

/-- A connection that has been accepted. -/
def accepted (world : World) : World := { world with trace := world.trace ++ [.accept client_fd] }

theorem served_accepted (world : World) : Served net world (.accept client_fd) (accepted client_fd world) := rfl

/-- A run of `handle_client` on a new connection, among the requests of others. -/
abbrev ConnectionRun (world : World) (history : List (Connection × Moment)) (connection : Connection) : Prop :=
  Run (fun before moment after => connection_step cJSON_Parse net client_fd before moment = some after)
    (accepted client_fd world, .receiving message_buffer_init) history connection

/-- The event that happens in a step, if any. -/
def moment_event (connection : Connection) (moment : Moment) : Option Event :=
  match moment, connection.2 with
  | .other event, _ => some event
  | .own .extract, .extracting buffer =>
    (message_buffer_extract buffer SERVER_BUFFER_SIZE).bind fun line => line_event cJSON_Parse line.1 line.2.1 client_fd
  | _, _ => none

/-- A step disconnects the connection: its reaction closes the descriptor. -/
def disconnects (connection : Connection) (moment : Moment) : Bool :=
  (moment_event cJSON_Parse client_fd connection moment).any fun event =>
    client_fd ∈ (event.reaction connection.1.server).closed net event.client_fd connection.1.server connection.1.trace

end Steps

section Runs

variable {cJSON_Parse : CString → Option CJson} {net : Net} {client_fd : Fd} {moment : Moment}

/-- A turn of the thread on its own leaves the world alone or serves the event of a
line. -/
theorem handle_client_cases {world : World} {thread : ClientThread} {step : ClientStep} {after : Connection}
    (hstep : handle_client cJSON_Parse net client_fd step world thread = some after) :
    (moment_event cJSON_Parse client_fd (world, thread) (.own step) = none ∧ after.1 = world) ∨
      ∃ event, moment_event cJSON_Parse client_fd (world, thread) (.own step) = some event ∧
        event ≠ .accept client_fd ∧ Served net world event after.1 := by
  unfold handle_client at hstep
  split at hstep
  · split at hstep
    · cases hstep
      exact Or.inl ⟨rfl, rfl⟩
    · cases hstep
  · cases hstep
    exact Or.inl ⟨rfl, rfl⟩
  · rename_i buffer
    cases hextract : message_buffer_extract buffer SERVER_BUFFER_SIZE with
    | none =>
      rw [hextract] at hstep
      cases hstep
      exact Or.inl ⟨by simp [moment_event, hextract], rfl⟩
    | some line =>
      obtain ⟨message, message_length, rest⟩ := line
      have hevent : moment_event cJSON_Parse client_fd (world, .extracting buffer) (.own .extract) =
          line_event cJSON_Parse message message_length client_fd := by simp [moment_event, hextract]
      rw [hevent]
      simp only [hextract, run_handle_line] at hstep
      cases hline : line_event cJSON_Parse message message_length client_fd with
      | none =>
        rw [hline] at hstep
        cases hstep
        exact Or.inl ⟨rfl, rfl⟩
      | some event =>
        rw [hline] at hstep
        have hother : event ≠ .accept client_fd := by
          rintro rfl
          exact line_event_ne_accept client_fd hline
        have hserved : Served net world event after.1 := by
          unfold Served
          cases hserve : (serve net event).run world with
          | error why stopped =>
            simp only [hserve] at hstep
            cases hstep
          | ok _ later =>
            simp only [hserve] at hstep
            cases hgoes : event.goes_on <;> rw [hgoes] at hstep <;> cases hstep <;> rfl
        exact Or.inr ⟨event, rfl, hother, hserved⟩
  · cases hstep

/-- A step leaves the world alone or serves one event. -/
theorem connection_step_cases {before after : Connection}
    (hstep : connection_step cJSON_Parse net client_fd before moment = some after) :
    (moment_event cJSON_Parse client_fd before moment = none ∧ after.1 = before.1) ∨
      ∃ event, moment_event cJSON_Parse client_fd before moment = some event ∧ event ≠ .accept client_fd ∧
        Served net before.1 event after.1 := by
  cases moment with
  | own step => exact handle_client_cases hstep
  | other event =>
    simp only [connection_step] at hstep
    split at hstep
    · cases hstep
    · rename_i hother
      obtain ⟨later, honce, rfl⟩ := Option.map_eq_some_iff.mp hstep
      refine Or.inr ⟨event, rfl, ?_, served_of_serve_once honce⟩
      rintro rfl
      exact hother rfl

end Runs

def ClientThread.has_returned (thread : ClientThread) : Bool :=
  match thread with
  | .returned => true
  | _ => false

/-- A test of what some steps lead to finds a run to the end of a connection. -/
theorem exists_connection_run (cJSON_Parse : CString → Option CJson) (net : Net) (client_fd : Fd) (world : World)
    (moments : List Moment) (test : List (Connection × Moment) → World → Bool)
    (htest : (Run.follow (connection_step cJSON_Parse net client_fd) moments []
      (accepted client_fd world, .receiving message_buffer_init)).any
      (fun run => run.2.2.has_returned && test run.1 run.2.1) = true) :
    ∃ history after, ConnectionRun cJSON_Parse net client_fd world history (after, .returned) ∧
      test history after = true := by
  obtain ⟨history, ⟨after, thread⟩, hconnection, hboth⟩ := Run.exists_of_follow (fun _ _ _ hstep => hstep) moments
    (fun history connection => connection.2.has_returned && test history connection.1) htest
  rw [Bool.and_eq_true] at hboth
  cases thread with
  | returned => exact ⟨history, after, hconnection, hboth.2⟩
  | receiving buffer => cases hboth.1
  | extracting buffer => cases hboth.1

end ojalvo
