import Mathlib.Logic.Function.Basic
import OjalvoChat.Client.Json
import OjalvoChat.Message

namespace ojalvo

/-- A dictionary, as the value of each key. -/
abbrev Dictionary := String → Option String

def Dictionary.set (users : Dictionary) (key value : String) : Dictionary := Function.update users key (some value)

inductive ServerMessage where
  | ResponseMessage (Operation Result : String) (Extra : Option String)
  | NewUserMessage (Username : String)
  | NewStatusMessage (Username Status : String)
  | UserListMessage (Users : Dictionary)
  | TextFromMessage (Username Text : String)
  | PublicTextFromMessage (Username Text : String)
  | InvitationMessage (Username RoomName : String)
  | JoinedRoomMessage (RoomName Username : String)
  | RoomUserListMessage (RoomName : String) (Users : Dictionary)
  | RoomTextFromMessage (RoomName Username Text : String)
  | LeftRoomMessage (RoomName Username : String)
  | DisconnectedMessage (Username : String)

namespace ServerMessage

section Parsing

variable (unescapes : JsonString → String → Bool)

def Get (root : JsonElement) (name : String) : Throws (Option String) := do
  match ← root.TryGetProperty unescapes name with
  | some p => p.GetString
  | none => return none

/-- Sets the entry of one property. -/
def SetUser (users : Dictionary) (prop : JsonString × JsonElement) : Throws Dictionary := do
  let username ← prop.1.GetText
  let status ← prop.2.GetString
  return users.set username (status.getD "")

def GetUsers (root : JsonElement) : Throws Dictionary := do
  match ← root.TryGetProperty unescapes "users" with
  | some obj => (← obj.EnumerateObject).foldlM SetUser fun _ => none
  | none => return fun _ => none

/-- `JsonDocument.Parse` is a parameter, without a value when it throws a
JsonException, which is caught. -/
def Parse (JsonDocument_Parse : String → Option JsonElement) (line : String) : Throws (Option ServerMessage) :=
  match JsonDocument_Parse line with
  | none => return none
  | some root => do
    match ← root.TryGetProperty unescapes "type" with
    | none => return none
    | some typeProp =>
      let type := (← typeProp.GetString).getD ""
      match type with
      | "RESPONSE" =>
        return some (.ResponseMessage ((← Get unescapes root "operation").getD "") ((← Get unescapes root "result").getD "")
          (← Get unescapes root "extra"))
      | "NEW_USER" => return some (.NewUserMessage ((← Get unescapes root "username").getD ""))
      | "NEW_STATUS" =>
        return some (.NewStatusMessage ((← Get unescapes root "username").getD "") ((← Get unescapes root "status").getD ""))
      | "USER_LIST" => return some (.UserListMessage (← GetUsers unescapes root))
      | "TEXT_FROM" =>
        return some (.TextFromMessage ((← Get unescapes root "username").getD "") ((← Get unescapes root "text").getD ""))
      | "PUBLIC_TEXT_FROM" =>
        return some (.PublicTextFromMessage ((← Get unescapes root "username").getD "") ((← Get unescapes root "text").getD ""))
      | "INVITATION" =>
        return some (.InvitationMessage ((← Get unescapes root "username").getD "") ((← Get unescapes root "roomname").getD ""))
      | "JOINED_ROOM" =>
        return some (.JoinedRoomMessage ((← Get unescapes root "roomname").getD "") ((← Get unescapes root "username").getD ""))
      | "ROOM_USER_LIST" =>
        return some (.RoomUserListMessage ((← Get unescapes root "roomname").getD "") (← GetUsers unescapes root))
      | "ROOM_TEXT_FROM" =>
        return some (.RoomTextFromMessage ((← Get unescapes root "roomname").getD "") ((← Get unescapes root "username").getD "")
          ((← Get unescapes root "text").getD ""))
      | "LEFT_ROOM" =>
        return some (.LeftRoomMessage ((← Get unescapes root "roomname").getD "") ((← Get unescapes root "username").getD ""))
      | "DISCONNECTED" => return some (.DisconnectedMessage ((← Get unescapes root "username").getD ""))
      | _ => return none

end Parsing

section Objects

variable (unescapes : JsonString → String → Bool) (properties : List (JsonString × JsonElement)) (name value : String)

@[simp] theorem TryGetProperty_object :
    (JsonElement.object properties).TryGetProperty unescapes name =
      find_property unescapes name properties.reverse := rfl

@[simp] theorem GetText_units : JsonString.GetText (utf16_units value) = pure value := by
  rw [JsonString.GetText, utf16_text_units]
  rfl

@[simp] theorem GetString_string : (JsonElement.string value).GetString = pure (some value) := by
  rw [JsonElement.GetString, GetText_units]
  rfl

@[simp] theorem EnumerateObject_object : (JsonElement.object properties).EnumerateObject = pure properties := rfl

end Objects

end ServerMessage

end ojalvo
