import OjalvoChat.ClientHandler.Line
import OjalvoChat.Protocol.Closing
import OjalvoChat.ServerSend

namespace ojalvo

/-- What a line means to the server. An empty one means nothing. -/
def line_event (cJSON_Parse : CString → Option CJson) (message : List UInt8) (message_length : Nat) (client_fd : Fd) :
    Option Event :=
  let message := message_buffer_sanitize message message_length
  if message.length = 0 then none
  else
    match message_from_json cJSON_Parse (.of_bytes message) with
    | none => some (.invalid client_fd)
    | some msg_in => some (.request client_fd msg_in)

/-- A thread goes on after every line that is a message. -/
def Event.goes_on (event : Event) : Bool :=
  match event with
  | .invalid _ => false
  | _ => true

section Lines

variable {cJSON_Parse : CString → Option CJson} {message : List UInt8} {message_length : Nat} {client_fd : Fd}

theorem run_handle_line (net : Net) (world : World) :
    (handle_line cJSON_Parse net message message_length client_fd).run world =
      match line_event cJSON_Parse message message_length client_fd with
      | none => .ok true world
      | some event =>
        match (serve net event).run world with
        | .ok _ after => .ok event.goes_on after
        | .error why stopped => .error why stopped := by
  unfold handle_line line_event
  dsimp only
  split
  · rfl
  · cases message_from_json cJSON_Parse (.of_bytes (message_buffer_sanitize message message_length)) with
    | none =>
      simp only [Program.run_bind, serve]
      cases (handle_invalid_line net client_fd).run world <;> rfl
    | some msg_in =>
      simp only [Program.run_bind, serve]
      cases (message_handler_process net msg_in client_fd).run world <;> rfl

theorem final_world_handle_line (net : Net) (world : World) :
    final_world ((handle_line cJSON_Parse net message message_length client_fd).run world) =
      match line_event cJSON_Parse message message_length client_fd with
      | none => world
      | some event => final_world ((serve net event).run world) := by
  rw [run_handle_line]
  cases line_event cJSON_Parse message message_length client_fd with
  | none => rfl
  | some event =>
    dsimp only
    cases (serve net event).run world <;> rfl

theorem client_fd_of_line_event {event : Event}
    (hevent : line_event cJSON_Parse message message_length client_fd = some event) : event.client_fd = client_fd := by
  unfold line_event at hevent
  dsimp only at hevent
  split at hevent
  · cases hevent
  · split at hevent <;> cases hevent <;> rfl

theorem line_event_ne_accept (fd : Fd) :
    line_event cJSON_Parse message message_length client_fd ≠ some (.accept fd) := by
  unfold line_event
  dsimp only
  split
  · exact nofun
  · split <;> exact nofun

end Lines

section Events

variable (net : Net) {server : Server} (trace : List Effect) (hserver : server.Consistent) (event : Event)
include hserver

/-- The tables after an event, also when it stops. -/
theorem final_server_serve :
    (final_world ((serve net event).run (.idle server trace))).server =
      ((event.reaction server).settled net server trace).evict_all
        ((event.reaction server).casualties net event.client_fd server trace) := by
  rw [final_world_serve net trace hserver]
  have hfinal := (event.permitted hserver).final_server net trace hserver
  cases event with
  | accept client_fd => rfl
  | request client_fd msg_in => exact hfinal
  | invalid client_fd => exact hfinal

/-- The descriptors that an event closes and opens. -/
theorem closes_serve :
    ∃ effects, (final_world ((serve net event).run (.idle server trace))).trace = trace ++ effects ∧
      closed effects = (event.reaction server).closed net event.client_fd server trace ∧
      ∀ fd, Effect.accept fd ∈ effects → event = .accept fd := by
  rw [final_world_serve net trace hserver]
  obtain ⟨effects, htrace, hclosed, hopened⟩ := (event.reaction server).closes net event.client_fd server trace
  cases event with
  | accept client_fd => exact ⟨[.accept client_fd], rfl, rfl, by simp⟩
  | request client_fd msg_in => exact ⟨effects, htrace, hclosed, fun fd hmem => absurd hmem (hopened fd)⟩
  | invalid client_fd => exact ⟨effects, htrace, hclosed, fun fd hmem => absurd hmem (hopened fd)⟩

end Events

def identify_object : CJson := string_object [(.lit "type", .lit "IDENTIFY"), (.lit "username", .lit "ana")]

def disconnect_object : CJson := string_object [(.lit "type", .lit "DISCONNECT")]

/-- The bytes of some lines. -/
def sent_lines (objects : List CJson) : List UInt8 :=
  objects.flatMap fun object => cJSON_PrintUnformatted object ++ [10]

/-- A parser for the lines of a short visit. -/
def parse_visit (raw : CString) : Option CJson := parse_known [identify_object, disconnect_object] raw.bytes

end ojalvo
