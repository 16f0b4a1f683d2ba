import OjalvoChat.Message

namespace ojalvo

def get_string_field (json : CJson) (field_name : CString) : Option CString :=
  match cJSON_GetObjectItemCaseSensitive json field_name with
  | some (.string valuestring) => some valuestring
  | _ => none

/-- The comparisons of `parse_message_type`, in order. -/
def message_type_names : List (CString × MessageType) := [
  (.lit "IDENTIFY", .IDENTIFY),
  (.lit "STATUS", .STATUS),
  (.lit "USERS", .USERS),
  (.lit "TEXT", .TEXT),
  (.lit "PUBLIC_TEXT", .PUBLIC_TEXT),
  (.lit "NEW_ROOM", .NEW_ROOM),
  (.lit "INVITE", .INVITE),
  (.lit "INVITATION", .INVITATION),
  (.lit "JOIN_ROOM", .JOIN_ROOM),
  (.lit "ROOM_USERS", .ROOM_USERS),
  (.lit "ROOM_TEXT", .ROOM_TEXT),
  (.lit "LEAVE_ROOM", .LEAVE_ROOM),
  (.lit "DISCONNECT", .DISCONNECT),
  (.lit "NEW_STATUS", .NEW_STATUS),
  (.lit "USER_LIST", .USER_LIST),
  (.lit "TEXT_FROM", .TEXT_FROM),
  (.lit "PUBLIC_TEXT_FROM", .PUBLIC_TEXT_FROM),
  (.lit "JOINED_ROOM", .JOINED_ROOM),
  (.lit "ROOM_USER_LIST", .ROOM_USER_LIST),
  (.lit "ROOM_TEXT_FROM", .ROOM_TEXT_FROM),
  (.lit "LEFT_ROOM", .LEFT_ROOM),
  (.lit "NEW_USER", .NEW_USER),
  (.lit "DISCONNECTED", .DISCONNECTED),
  (.lit "RESPONSE", .RESPONSE)]

def parse_message_type (type_str : Option CString) : MessageType :=
  match type_str with
  | none => .UNKNOWN
  | some type_str => ((message_type_names.find? fun entry => type_str = entry.1).map Prod.snd).getD .UNKNOWN

def message_type_to_string (type : MessageType) : CString :=
  match type with
  | .IDENTIFY => .lit "IDENTIFY"
  | .STATUS => .lit "STATUS"
  | .USERS => .lit "USERS"
  | .TEXT => .lit "TEXT"
  | .PUBLIC_TEXT => .lit "PUBLIC_TEXT"
  | .NEW_ROOM => .lit "NEW_ROOM"
  | .INVITE => .lit "INVITE"
  | .INVITATION => .lit "INVITATION"
  | .JOIN_ROOM => .lit "JOIN_ROOM"
  | .ROOM_USERS => .lit "ROOM_USERS"
  | .ROOM_TEXT => .lit "ROOM_TEXT"
  | .LEAVE_ROOM => .lit "LEAVE_ROOM"
  | .DISCONNECT => .lit "DISCONNECT"
  | .NEW_STATUS => .lit "NEW_STATUS"
  | .USER_LIST => .lit "USER_LIST"
  | .TEXT_FROM => .lit "TEXT_FROM"
  | .PUBLIC_TEXT_FROM => .lit "PUBLIC_TEXT_FROM"
  | .ROOM_TEXT_FROM => .lit "ROOM_TEXT_FROM"
  | .JOINED_ROOM => .lit "JOINED_ROOM"
  | .ROOM_USER_LIST => .lit "ROOM_USER_LIST"
  | .LEFT_ROOM => .lit "LEFT_ROOM"
  | .NEW_USER => .lit "NEW_USER"
  | .DISCONNECTED => .lit "DISCONNECTED"
  | .RESPONSE => .lit "RESPONSE"
  | .UNKNOWN => .lit "UNKNOWN"

/-- Every message type is read back from its own name. -/
theorem parse_message_type_to_string (type : MessageType) :
    parse_message_type (some (message_type_to_string type)) = type := by
  cases type <;> decide

/-- A string that is read as a message type is its name. -/
theorem eq_of_parse_message_type {name : CString} {type : MessageType} (hread : parse_message_type (some name) = type)
    (hknown : type ≠ .UNKNOWN) : name = message_type_to_string type := by
  have hnames : ∀ entry ∈ message_type_names, entry.1 = message_type_to_string entry.2 := by decide +kernel
  simp only [parse_message_type] at hread
  cases hfind : message_type_names.find? fun entry => name = entry.1 with
  | none =>
    rw [hfind] at hread
    exact absurd hread.symm hknown
  | some entry =>
    rw [hfind] at hread
    have hname : name = entry.1 := by simpa using List.find?_some hfind
    rw [hname, ← show entry.2 = type from hread]
    exact hnames entry (List.mem_of_find?_eq_some hfind)

/-- The strings of an array. A missing, empty or different value gives none. -/
def get_usernames (item : Option CJson) : Option (List CString) :=
  match item with
  | some (.array (first :: rest)) =>
    some ((first :: rest).filterMap fun elem =>
      match elem with
      | .string valuestring => some valuestring
      | _ => none)
  | _ => none

/-- `cJSON_Parse` is a parameter: it belongs to another library. -/
def message_from_json (cJSON_Parse : CString → Option CJson) (json_raw : CString) : Option Message :=
  match cJSON_Parse json_raw with
  | some (.object fields) =>
    let json := CJson.object fields
    match cJSON_GetObjectItemCaseSensitive json (.lit "type") with
    | none => none
    | some type_item =>
      let type := match type_item with
        | .string valuestring => parse_message_type valuestring
        | _ => .UNKNOWN
      let (users, rest) := cJSON_DetachItemFromObject json (.lit "users")
      some {
        type
        username := get_string_field json (.lit "username")
        operation := get_string_field json (.lit "operation")
        result := get_string_field json (.lit "result")
        extra := get_string_field json (.lit "extra")
        status := get_string_field json (.lit "status")
        users
        text := get_string_field json (.lit "text")
        roomname := get_string_field json (.lit "roomname")
        usernames := get_usernames (cJSON_GetObjectItemCaseSensitive rest (.lit "usernames")) }
  | _ => none

def add_string_field (json : CJson) (field_name : CString) (field : Option CString) : CJson :=
  match field with
  | none => json
  | some text => cJSON_AddStringToObject json field_name text

/-- The object that `message_to_json` prints. -/
def message_object (msg : Message) : CJson :=
  let json := cJSON_AddStringToObject cJSON_CreateObject (.lit "type") (message_type_to_string msg.type)
  let json := add_string_field json (.lit "username") msg.username
  let json := add_string_field json (.lit "operation") msg.operation
  let json := add_string_field json (.lit "result") msg.result
  let json := add_string_field json (.lit "extra") msg.extra
  let json := add_string_field json (.lit "status") msg.status
  let json := add_string_field json (.lit "text") msg.text
  let json := add_string_field json (.lit "roomname") msg.roomname
  let json := match msg.users with
    | none => json
    | some users => cJSON_AddItemToObject json (.lit "users") users
  match msg.usernames with
  | some (first :: rest) => cJSON_AddItemToObject json (.lit "usernames") (.array ((first :: rest).map .string))
  | _ => json

/-- The text of a message, unless it exceeds the buffer. -/
def message_to_json (msg : Message) (out_json_size : Nat) : Option (List UInt8) :=
  let printed := cJSON_PrintUnformatted (message_object msg)
  if printed.length + 1 > out_json_size then none else some printed

theorem message_to_json_eq_some_iff {msg : Message} {out_json_size : Nat} {out_json : List UInt8} :
    message_to_json msg out_json_size = some out_json ↔
      cJSON_PrintUnformatted (message_object msg) = out_json ∧ out_json.length < out_json_size := by
  unfold message_to_json
  dsimp only
  constructor
  · intro hencode
    split at hencode
    · cases hencode
    · cases hencode
      exact ⟨rfl, by omega⟩
  · rintro ⟨rfl, hfits⟩
    exact if_neg (by omega)

end ojalvo
