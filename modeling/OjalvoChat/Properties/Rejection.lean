import OjalvoChat.MessageJson.Fields
import OjalvoChat.Protocol.Lines
import OjalvoChat.Protocol.Presence

namespace ojalvo

/-- The string fields that a request needs. The other types are for the server to
send. -/
def request_fields (type : MessageType) : Option (List CString) :=
  match type with
  | .IDENTIFY => some [.lit "username"]
  | .STATUS => some [.lit "status"]
  | .USERS => some []
  | .TEXT => some [.lit "username", .lit "text"]
  | .PUBLIC_TEXT => some [.lit "text"]
  | .NEW_ROOM => some [.lit "roomname"]
  | .INVITE => some [.lit "roomname"]
  | .JOIN_ROOM => some [.lit "roomname"]
  | .ROOM_USERS => some [.lit "roomname"]
  | .ROOM_TEXT => some [.lit "roomname", .lit "text"]
  | .LEAVE_ROOM => some [.lit "roomname"]
  | .DISCONNECT => some []
  | _ => none

/-- An object with a type that clients send and everything that this type needs. -/
structure CompleteRequest (json : CJson) (type : MessageType) : Prop where
  typed : ∃ name, get_string_field json (.lit "type") = some name ∧ parse_message_type name = type
  supplied : ∃ needed, request_fields type = some needed ∧ ∀ name ∈ needed, (get_string_field json name).isSome
  status : type = .STATUS →
    ∃ status ∈ [CString.lit "ACTIVE", .lit "AWAY", .lit "BUSY"], get_string_field json (.lit "status") = some status
  usernames : type = .INVITE →
    ∃ items, cJSON_GetObjectItemCaseSensitive json (.lit "usernames") = some (.array items)

/-- The line holds a complete request. -/
def CompleteLine (cJSON_Parse : CString → Option CJson) (line : List UInt8) : Prop :=
  ∃ json type, cJSON_Parse (.of_bytes line) = some json ∧ CompleteRequest json type

/-- The line is no object with a type. -/
def Typeless (cJSON_Parse : CString → Option CJson) (line : List UInt8) : Prop :=
  ∀ json, cJSON_Parse (.of_bytes line) = some json → cJSON_GetObjectItemCaseSensitive json (.lit "type") = none

/-- The line asks for a status that does not exist. -/
def NamesNoStatus (cJSON_Parse : CString → Option CJson) (line : List UInt8) : Prop :=
  ∃ json status, cJSON_Parse (.of_bytes line) = some json ∧
    get_string_field json (.lit "type") = some (.lit "STATUS") ∧
    get_string_field json (.lit "status") = some status ∧ user_status_from_string (some status) = none

/-- The server answers a line with RESPONSE INVALID/INVALID and disconnects the
client. -/
def Rejects (cJSON_Parse : CString → Option CJson) (net : Net) (world : World) (message : List UInt8)
    (message_length : Nat) (client_fd : Fd) : Prop :=
  ∃ goes_on after sent effects,
    (handle_line cJSON_Parse net message message_length client_fd).run world = .ok goes_on after ∧
    after.trace = world.trace ++ .send client_fd invalid_response sent :: effects ∧
    Effect.close client_fd ∈ effects ∧ ∀ username, ¬ after.server.Registered client_fd username

section Reactions

variable {cJSON_Parse : CString → Option CJson} {raw : CString} {json : CJson} {msg : Message} {server : Server}
  {client_fd : Fd} {user : User}

/-- A reaction that does not begin with an INVALID to anybody. -/
def Reaction.Overlooks (reaction : Reaction) : Prop :=
  match reaction with
  | .ignore _ => True
  | .crash => True
  | .reply _ message => message.operation ≠ invalid_response.operation
  | _ => False

/-- The request lacks a field that its handler reads, or has no handler. -/
def Message.Lacks (msg : Message) : Prop :=
  match msg.type with
  | .IDENTIFY => msg.username = none
  | .STATUS => msg.status = none
  | .USERS => False
  | .TEXT => msg.username = none ∨ msg.text = none
  | .PUBLIC_TEXT => msg.text = none
  | .NEW_ROOM => msg.roomname = none
  | .INVITE => msg.roomname = none ∨ msg.usernames = none
  | .JOIN_ROOM => msg.roomname = none
  | .ROOM_USERS => msg.roomname = none
  | .ROOM_TEXT => msg.roomname = none ∨ msg.text = none
  | .LEAVE_ROOM => msg.roomname = none
  | .DISCONNECT => False
  | _ => True

theorem get_usernames_of_not_array {item : Option CJson} (hother : ∀ items, item ≠ some (.array items)) :
    get_usernames item = none := by
  unfold get_usernames
  split
  · exact absurd rfl (hother _)
  · rfl

/-- There are three statuses. -/
theorem user_status_from_string_eq_none {status : CString}
    (hother : status ∉ [CString.lit "ACTIVE", .lit "AWAY", .lit "BUSY"]) :
    user_status_from_string (some status) = none := by
  simp only [List.mem_cons, List.not_mem_nil, or_false, not_or] at hother
  simp [user_status_from_string, hother]

section Incomplete

variable (hparse : cJSON_Parse raw = some json) (haccepted : message_from_json cJSON_Parse raw = some msg)
  (hincomplete : ∀ type, ¬ CompleteRequest json type)
  (hstatuses : ∀ status, get_string_field json (.lit "type") = some (.lit "STATUS") →
    get_string_field json (.lit "status") = some status → user_status_from_string (some status) ≠ none)
include hparse haccepted hincomplete hstatuses

/-- Only a string field that is needed, or the list of an invitation, can be what an
object lacks. -/
theorem exists_missing_field {needed : List CString} (hneeded : request_fields msg.type = some needed)
    (husernames : msg.type = .INVITE →
      ∃ items, cJSON_GetObjectItemCaseSensitive json (.lit "usernames") = some (.array items)) :
    ∃ field ∈ needed, get_string_field json field = none := by
  obtain ⟨-, htype, -⟩ := fields_of_message_from_json hparse haccepted
  cases htyped : get_string_field json (.lit "type") with
  | none =>
    rw [htyped] at htype
    rw [htype] at hneeded
    cases hneeded
  | some name =>
    rw [htyped] at htype
    dsimp only at htype
    by_contra hsupplied
    have hfields : ∀ field ∈ needed, (get_string_field json field).isSome := fun field hmem =>
      Option.isSome_iff_ne_none.mpr fun hnone => hsupplied ⟨field, hmem, hnone⟩
    refine hincomplete msg.type ⟨⟨name, htyped, htype.symm⟩, ⟨needed, hneeded, hfields⟩, fun hasks => ?_, husernames⟩
    rw [hasks] at hneeded htype
    cases hneeded
    obtain ⟨status, hsome⟩ := Option.isSome_iff_exists.mp (hfields _ (List.mem_singleton_self _))
    refine ⟨status, ?_, hsome⟩
    by_contra hother
    refine hstatuses status ?_ hsome (user_status_from_string_eq_none hother)
    rw [htyped, eq_of_parse_message_type htype.symm (by decide)]
    rfl

/-- An object that is no complete request is decoded to a message that lacks
something, unless it asks for an unknown status. -/
theorem lacks_of_incomplete : msg.Lacks := by
  obtain ⟨-, -, husername, hstatus, htext, hroomname, husernames⟩ := fields_of_message_from_json hparse haccepted
  have hmissing : ∀ {type needed}, msg.type = type → request_fields type = some needed → type ≠ .INVITE →
      ∃ field ∈ needed, get_string_field json field = none := by
    rintro type needed rfl hneeded hother
    exact exists_missing_field hparse haccepted hincomplete hstatuses hneeded fun hinvites => absurd hinvites hother
  have hsingle : ∀ {type field}, msg.type = type → request_fields type = some [field] → type ≠ .INVITE →
      get_string_field json field = none := by
    intro type field htype hneeded hother
    obtain ⟨missing, hmem, hnone⟩ := hmissing htype hneeded hother
    rwa [List.mem_singleton.mp hmem] at hnone
  have hpair : ∀ {type first second}, msg.type = type → request_fields type = some [first, second] →
      type ≠ .INVITE → get_string_field json first = none ∨ get_string_field json second = none := by
    intro type first second htype hneeded hother
    obtain ⟨missing, hmem, hnone⟩ := hmissing htype hneeded hother
    rcases List.mem_pair.mp hmem with rfl | rfl
    · exact Or.inl hnone
    · exact Or.inr hnone
  have hempty : ∀ {type}, msg.type = type → request_fields type = some [] → type ≠ .INVITE → False := by
    intro type htype hneeded hother
    obtain ⟨missing, hmem, -⟩ := hmissing htype hneeded hother
    exact List.not_mem_nil hmem
  unfold Message.Lacks
  cases htype : msg.type with
  | IDENTIFY => exact husername.trans (hsingle htype rfl (by decide))
  | STATUS => exact hstatus.trans (hsingle htype rfl (by decide))
  | USERS => exact hempty htype rfl (by decide)
  | TEXT => exact (hpair htype rfl (by decide)).imp husername.trans htext.trans
  | PUBLIC_TEXT => exact htext.trans (hsingle htype rfl (by decide))
  | NEW_ROOM => exact hroomname.trans (hsingle htype rfl (by decide))
  | INVITE =>
    by_cases harray : ∃ items, cJSON_GetObjectItemCaseSensitive json (.lit "usernames") = some (.array items)
    · have hneeded : request_fields msg.type = some [.lit "roomname"] := by rw [htype]; rfl
      obtain ⟨missing, hmem, hnone⟩ :=
        exists_missing_field hparse haccepted hincomplete hstatuses hneeded fun _ => harray
      rw [List.mem_singleton.mp hmem] at hnone
      exact Or.inl (hroomname.trans hnone)
    · rw [husernames]
      exact Or.inr (get_usernames_of_not_array fun items hitems => harray ⟨items, hitems⟩)
  | JOIN_ROOM => exact hroomname.trans (hsingle htype rfl (by decide))
  | ROOM_USERS => exact hroomname.trans (hsingle htype rfl (by decide))
  | ROOM_TEXT => exact (hpair htype rfl (by decide)).imp hroomname.trans htext.trans
  | LEAVE_ROOM => exact hroomname.trans (hsingle htype rfl (by decide))
  | DISCONNECT => exact hempty htype rfl (by decide)
  | _ => trivial

end Incomplete

/-- A TEXT without a field is ignored or crashes. -/
theorem overlooks_text_reaction (hlacks : msg.username = none ∨ msg.text = none) :
    (text_reaction server user msg).Overlooks := by
  unfold text_reaction
  cases husername : msg.username with
  | none => trivial
  | some username =>
    have htext : msg.text = none := hlacks.resolve_left (by rw [husername]; exact Option.some_ne_none username)
    dsimp only
    cases server.users.find_by_username username with
    | none => exact show some (CString.lit "TEXT") ≠ some (CString.lit "INVALID") by decide
    | some user_to =>
      dsimp only
      split
      · trivial
      · rw [htext]
        trivial

/-- A request that lacks a field is not refused. -/
theorem overlooks_registered_reaction (hlacks : msg.Lacks) : (registered_reaction server user msg).Overlooks := by
  unfold registered_reaction
  unfold Message.Lacks at hlacks
  cases htype : msg.type with
  | STATUS =>
    rw [htype] at hlacks
    simp only [status_reaction, show msg.status = none from hlacks]
    trivial
  | TEXT =>
    rw [htype] at hlacks
    exact overlooks_text_reaction hlacks
  | PUBLIC_TEXT =>
    rw [htype] at hlacks
    simp only [public_text_reaction, show msg.text = none from hlacks]
    trivial
  | NEW_ROOM =>
    rw [htype] at hlacks
    simp only [new_room_reaction, show msg.roomname = none from hlacks]
    trivial
  | INVITE =>
    rw [htype] at hlacks
    dsimp only [invite_reaction]
    cases hlacks with
    | inl hroomname =>
      rw [hroomname]
      trivial
    | inr husernames =>
      rw [husernames]
      cases msg.roomname <;> trivial
  | JOIN_ROOM =>
    rw [htype] at hlacks
    simp only [join_room_reaction, show msg.roomname = none from hlacks]
    trivial
  | ROOM_USERS =>
    rw [htype] at hlacks
    simp only [room_users_reaction, show msg.roomname = none from hlacks]
    trivial
  | ROOM_TEXT =>
    rw [htype] at hlacks
    dsimp only [room_text_reaction]
    cases htext : msg.text with
    | none => trivial
    | some text =>
      have hroomname : msg.roomname = none := hlacks.resolve_right (by rw [htext]; exact Option.some_ne_none text)
      rw [hroomname]
      trivial
  | LEAVE_ROOM =>
    rw [htype] at hlacks
    simp only [leave_room_reaction, show msg.roomname = none from hlacks]
    trivial
  | USERS =>
    rw [htype] at hlacks
    exact hlacks.elim
  | _ => trivial

theorem overlooks_reaction (hserver : server.Consistent) (hsender : server.Sender client_fd user) (hlacks : msg.Lacks) :
    (reaction server client_fd msg).Overlooks := by
  by_cases hunknown : msg.type = .UNKNOWN
  · rw [reaction, if_pos hunknown]
    trivial
  by_cases hdisconnect : msg.type = .DISCONNECT
  · unfold Message.Lacks at hlacks
    rw [hdisconnect] at hlacks
    exact hlacks.elim
  by_cases hidentify : msg.type = .IDENTIFY
  · unfold Message.Lacks at hlacks
    rw [hidentify] at hlacks
    rw [reaction, if_neg hunknown, if_neg hdisconnect, if_pos hidentify, identify_reaction,
      show msg.username = none from hlacks]
    trivial
  rw [reaction_of_sender hserver hsender ⟨hunknown, hdisconnect, hidentify⟩]
  exact overlooks_registered_reaction hlacks

end Reactions

section Lines

variable {cJSON_Parse : CString → Option CJson} {net : Net} {server : Server} {trace : List Effect}
  {message : List UInt8} {message_length : Nat} {client_fd : Fd} {msg : Message} {event : Event}

/-- The decoder refuses exactly the lines without a typed object. -/
theorem message_from_json_eq_none_iff {line : List UInt8} :
    message_from_json cJSON_Parse (.of_bytes line) = none ↔ Typeless cJSON_Parse line := by
  cases hparse : cJSON_Parse (.of_bytes line) with
  | none =>
    have hrefused : message_from_json cJSON_Parse (.of_bytes line) = none := by simp only [message_from_json, hparse]
    refine iff_of_true hrefused fun json hjson => ?_
    cases hparse.symm.trans hjson
  | some json =>
    have htypeless : Typeless cJSON_Parse line ↔ cJSON_GetObjectItemCaseSensitive json (.lit "type") = none :=
      ⟨fun htypeless => htypeless json hparse, fun hnone other hother => by
        cases hparse.symm.trans hother
        exact hnone⟩
    rw [htypeless]
    simp only [message_from_json, hparse]
    cases json with
    | object fields =>
      dsimp only
      cases cJSON_GetObjectItemCaseSensitive (.object fields) (.lit "type") with
      | none => exact iff_of_true rfl rfl
      | some type_item => exact iff_of_false (Option.some_ne_none _) (Option.some_ne_none type_item)
    | _ => exact iff_of_true rfl rfl

/-- A refusal tells the client and disconnects it. -/
theorem rejects_of_refuse (hserver : server.Consistent)
    (hline : line_event cJSON_Parse message message_length client_fd = some event)
    (hrefuses : event.reaction server = .refuse invalid_response) :
    Rejects cJSON_Parse net (.idle server trace) message message_length client_fd := by
  have hclient := client_fd_of_line_event hline
  have hserve : (serve net event).run (.idle server trace) =
      .ok () (departed net server (trace ++ [.send client_fd invalid_response (net trace client_fd invalid_response)])
        client_fd) := by
    cases event with
    | accept fd => cases hrefuses
    | request fd msg_in =>
      obtain rfl : fd = client_fd := hclient
      simp only [serve, Program.run_bind, run_message_handler_process net server trace fd msg_in hserver]
      rw [show reaction server fd msg_in = .refuse invalid_response from hrefuses]
      rfl
    | invalid fd =>
      obtain rfl : fd = client_fd := hclient
      exact run_handle_invalid_line hserver
  let answered := trace ++ [.send client_fd invalid_response (net trace client_fd invalid_response)]
  refine ⟨event.goes_on, departed net server answered client_fd, net trace client_fd invalid_response,
    departure_notices net server answered client_fd ++ [.close client_fd], ?_, ?_, ?_, fun username hstays => ?_⟩
  · rw [run_handle_line, hline]
    simp only [hserve]
    rfl
  · rw [departed, List.append_assoc, List.append_assoc]
    rfl
  · exact List.mem_append_right _ (List.mem_singleton_self _)
  · rw [departed, World.idle, hserver.depart_eq, hserver.registered_evict_all] at hstays
    exact hstays.2 self_mem_departing

/-- What a request makes the server overlook is not rejected. -/
theorem not_rejects_of_overlooks (hserver : server.Consistent)
    (hline : line_event cJSON_Parse message message_length client_fd = some (.request client_fd msg))
    (hoverlooks : (reaction server client_fd msg).Overlooks) :
    ¬ Rejects cJSON_Parse net (.idle server trace) message message_length client_fd := by
  rintro ⟨goes_on, after, sent, effects, hrun, htrace, -⟩
  rw [run_handle_line, hline] at hrun
  simp only [serve, Program.run_bind, run_message_handler_process net server trace client_fd msg hserver] at hrun
  cases hreaction : reaction server client_fd msg with
  | ignore answer =>
    rw [hreaction] at hrun
    cases hrun
    have hempty := List.append_cancel_left ((List.append_nil trace).trans htrace)
    cases hempty
  | crash =>
    rw [hreaction] at hrun
    cases hrun
  | reply fd message =>
    rw [hreaction] at hrun hoverlooks
    have hfirst : ∃ others, after.trace = trace ++ .send fd message (net trace fd message) :: others := by
      simp only [Reaction.perform, send_or_depart] at hrun
      cases hsent : net trace fd message with
      | true =>
        rw [hsent] at hrun
        cases hrun
        exact ⟨[], rfl⟩
      | false =>
        rw [hsent] at hrun
        cases hrun
        exact ⟨_, by rw [departed, List.append_assoc, List.append_assoc]; rfl⟩
    obtain ⟨others, hothers⟩ := hfirst
    cases List.append_cancel_left (hothers.symm.trans htrace)
    exact hoverlooks rfl
  | _ =>
    rw [hreaction] at hoverlooks
    exact hoverlooks.elim

theorem rejects_iff (hserver : server.Consistent) (hregistered : ∃ username, server.Registered client_fd username)
    (hline : (message_buffer_sanitize message message_length).length ≠ 0)
    (hincomplete : ¬ CompleteLine cJSON_Parse (message_buffer_sanitize message message_length)) :
    Rejects cJSON_Parse net (.idle server trace) message message_length client_fd ↔
      Typeless cJSON_Parse (message_buffer_sanitize message message_length) ∨
        NamesNoStatus cJSON_Parse (message_buffer_sanitize message message_length) := by
  obtain ⟨username, user, hentry, -, hfd⟩ := hregistered
  have hsender : server.Sender client_fd user := ⟨hserver.users.mem_entries.mp hentry, hfd⟩
  cases haccepted : message_from_json cJSON_Parse (.of_bytes (message_buffer_sanitize message message_length)) with
  | none =>
    have hevent : line_event cJSON_Parse message message_length client_fd = some (.invalid client_fd) := by
      simp only [line_event, if_neg hline, haccepted]
    exact iff_of_true (rejects_of_refuse hserver hevent rfl) (Or.inl (message_from_json_eq_none_iff.mp haccepted))
  | some msg =>
    have hevent : line_event cJSON_Parse message message_length client_fd = some (.request client_fd msg) := by
      simp only [line_event, if_neg hline, haccepted]
    have htyped : ¬ Typeless cJSON_Parse (message_buffer_sanitize message message_length) := by
      rw [← message_from_json_eq_none_iff, haccepted]
      exact nofun
    rw [or_iff_right htyped]
    by_cases hstatus : NamesNoStatus cJSON_Parse (message_buffer_sanitize message message_length)
    · refine iff_of_true (rejects_of_refuse hserver hevent ?_) hstatus
      obtain ⟨json, status, hparse, hname, hstated, hunread⟩ := hstatus
      obtain ⟨-, htype, -, hasked, -⟩ := fields_of_message_from_json hparse haccepted
      rw [hname] at htype
      have hasks : msg.type = .STATUS := htype.trans (parse_message_type_to_string .STATUS)
      rw [Event.reaction, reaction_of_sender hserver hsender (by simp [hasks])]
      simp only [registered_reaction, hasks, status_reaction, hasked, hstated, hunread]
    · refine iff_of_false (not_rejects_of_overlooks hserver hevent (overlooks_reaction hserver hsender ?_)) hstatus
      cases hparse : cJSON_Parse (.of_bytes (message_buffer_sanitize message message_length)) with
      | none => simp only [message_from_json, hparse, reduceCtorEq] at haccepted
      | some json =>
        exact lacks_of_incomplete hparse haccepted (fun type hcomplete => hincomplete ⟨json, type, hparse, hcomplete⟩)
          fun status hname hstated hunread => hstatus ⟨json, status, hparse, hname, hstated, hunread⟩

end Lines

/-- Of the lines of a registered client that are no complete request, the server
rejects those that are no typed object and those that ask for an unknown status. -/
theorem incomplete_lines_are_rejected_iff {net : Net} {history : List (World × Event)} {world : World}
    (hrun : ServerRun net history world) (cJSON_Parse : CString → Option CJson) (message : List UInt8)
    (message_length : Nat) (client_fd : Fd) (hregistered : ∃ username, world.server.Registered client_fd username)
    (hline : (message_buffer_sanitize message message_length).length ≠ 0)
    (hincomplete : ¬ CompleteLine cJSON_Parse (message_buffer_sanitize message message_length)) :
    Rejects cJSON_Parse net world message message_length client_fd ↔
      Typeless cJSON_Parse (message_buffer_sanitize message message_length) ∨
        NamesNoStatus cJSON_Parse (message_buffer_sanitize message message_length) := by
  obtain ⟨hidle, hserver⟩ := run_ready hrun
  rw [hidle]
  exact rejects_iff hserver hregistered hline hincomplete

/-- A request of a type that does not exist. -/
def greeting_object : CJson := string_object [(.lit "type", .lit "HOLA")]

def greeting_line : List UInt8 := cJSON_PrintUnformatted greeting_object

def parse_greeting (raw : CString) : Option CJson := parse_known [greeting_object] raw.bytes

theorem parse_greeting_line :
    parse_greeting (.of_bytes (message_buffer_sanitize greeting_line greeting_line.length)) = some greeting_object :=
  rfl

theorem greeting_line_nonempty : (message_buffer_sanitize greeting_line greeting_line.length).length ≠ 0 := nofun

theorem greeting_line_incomplete :
    ¬ CompleteLine parse_greeting (message_buffer_sanitize greeting_line greeting_line.length) := by
  rintro ⟨json, type, hparse, hcomplete⟩
  cases parse_greeting_line.symm.trans hparse
  obtain ⟨name, hname, htype⟩ := hcomplete.typed
  obtain ⟨needed, hneeded, -⟩ := hcomplete.supplied
  cases hname
  have hunknown : type = .UNKNOWN := htype.symm.trans (by decide +kernel)
  rw [hunknown] at hneeded
  cases hneeded

theorem greeting_line_overlooked :
    ¬ (Typeless parse_greeting (message_buffer_sanitize greeting_line greeting_line.length) ∨
      NamesNoStatus parse_greeting (message_buffer_sanitize greeting_line greeting_line.length)) := by
  rintro (htypeless | ⟨json, status, hparse, hname, -⟩)
  · cases htypeless greeting_object parse_greeting_line
  · cases parse_greeting_line.symm.trans hparse
    revert hname
    decide

theorem incomplete_lines_are_rejected_iff_for_greeting :
    ∃ world, world.server.Registered 4 (.lit "ana") ∧
      ¬ Rejects parse_greeting reliable world greeting_line greeting_line.length 4 := by
  obtain ⟨history, world, hrun, htest⟩ := exists_run_of_serve_all reliable meeting
    (fun _ world => world.server.Registered 4 (.lit "ana")) (by decide +kernel)
  have hregistered : world.server.Registered 4 (.lit "ana") := of_decide_eq_true htest
  exact ⟨world, hregistered, (incomplete_lines_are_rejected_iff hrun parse_greeting greeting_line greeting_line.length 4
    ⟨_, hregistered⟩ greeting_line_nonempty greeting_line_incomplete).not.mpr greeting_line_overlooked⟩

/-- A registered client sends a request of an unknown type, and nothing happens. -/
theorem incomplete_line_is_not_rejected :
    ¬ ∀ history world, ServerRun reliable history world → ∀ cJSON_Parse message message_length client_fd,
      (∃ username, world.server.Registered client_fd username) →
      (message_buffer_sanitize message message_length).length ≠ 0 →
      ¬ CompleteLine cJSON_Parse (message_buffer_sanitize message message_length) →
      Rejects cJSON_Parse reliable world message message_length client_fd := by
  intro halways
  obtain ⟨history, world, hrun, htest⟩ := exists_run_of_serve_all reliable meeting
    (fun _ world => world.server.Registered 4 (.lit "ana")) (by decide +kernel)
  have hregistered : world.server.Registered 4 (.lit "ana") := of_decide_eq_true htest
  obtain ⟨hidle, hserver⟩ := run_ready hrun
  have hrejects := halways history world hrun parse_greeting greeting_line greeting_line.length 4 ⟨_, hregistered⟩
    greeting_line_nonempty greeting_line_incomplete
  rw [hidle] at hrejects
  refine greeting_line_overlooked ((rejects_iff hserver ⟨_, hregistered⟩ ?_ ?_).mp hrejects)
  · exact greeting_line_nonempty
  · exact greeting_line_incomplete

end ojalvo
