import OjalvoChat.Client.ServerMessage

namespace ojalvo

/-- What the user has typed and is not yet read, line by line. -/
abbrev Console := StateM (List String)

namespace View

/-- The next line, or nothing at the end of the input. -/
def Prompt : Console (Option String) := modifyGet fun lines => (lines.head?, lines.tail)

def AskMessageType : Console (Option String) := Prompt

def AskUsername : Console (Option String) := Prompt

def AskStatus : Console (Option String) := Prompt

def AskRecipient : Console (Option String) := Prompt

def AskText : Console (Option String) := Prompt

def AskPublicText : Console (Option String) := Prompt

def AskRoomName : Console (Option String) := Prompt

def AskGuests : Console (Option String) := Prompt

end View

namespace Controller

section Loop

-- These depend on the culture and on Unicode tables.
variable (ToLower ToUpper Trim : String → String)

def Split (raw : String) : List String := (raw.toList.splitOn ',').map String.ofList

def usernamesArray (usernamesRaw : String) : List String :=
  ((Split usernamesRaw).map Trim).filter fun u => 0 < u.length

/-- One pass of the loop in `SendLoopAsync`: the message type, and the object to
serialise unless the pass ends early. -/
def SendLoopPass : Console (String × Option JsonElement) := do
  let messageType := ToLower (Trim ((← View.AskMessageType).getD ""))
  match messageType with
  | "help" => return (messageType, none)
  | "disconnect" => return (messageType, some (.object [("type", .string "DISCONNECT")]))
  | "identify" =>
    let username := (← View.AskUsername).getD ""
    return (messageType, some (.object [("type", .string "IDENTIFY"), ("username", .string username)]))
  | "status" =>
    let status := (← View.AskStatus).getD ""
    let status := ToUpper status
    return (messageType, some (.object [("type", .string "STATUS"), ("status", .string status)]))
  | "users" => return (messageType, some (.object [("type", .string "USERS")]))
  | "text" =>
    let usernameText := (← View.AskRecipient).getD ""
    let text := (← View.AskText).getD ""
    return (messageType, some (.object
      [("type", .string "TEXT"), ("username", .string usernameText), ("text", .string text)]))
  | "public" =>
    let publicText := (← View.AskPublicText).getD ""
    return (messageType, some (.object [("type", .string "PUBLIC_TEXT"), ("text", .string publicText)]))
  | "new room" =>
    let roomname := (← View.AskRoomName).getD ""
    return (messageType, some (.object [("type", .string "NEW_ROOM"), ("roomname", .string roomname)]))
  | "join" =>
    let roomName := (← View.AskRoomName).getD ""
    return (messageType, some (.object [("type", .string "JOIN_ROOM"), ("roomname", .string roomName)]))
  | "room users" =>
    let room := (← View.AskRoomName).getD ""
    return (messageType, some (.object [("type", .string "ROOM_USERS"), ("roomname", .string room)]))
  | "room text" =>
    let roomNm := (← View.AskRoomName).getD ""
    let roomTxt := (← View.AskText).getD ""
    return (messageType, some (.object
      [("type", .string "ROOM_TEXT"), ("roomname", .string roomNm), ("text", .string roomTxt)]))
  | "leave room" =>
    let roomN := (← View.AskRoomName).getD ""
    return (messageType, some (.object [("type", .string "LEAVE_ROOM"), ("roomname", .string roomN)]))
  | "invite" =>
    let roomNam := (← View.AskRoomName).getD ""
    let usernamesRaw := (← View.AskGuests).getD ""
    return (messageType, some (.object [("type", .string "INVITE"), ("roomname", .string roomNam),
      ("usernames", .array ((usernamesArray Trim usernamesRaw).map fun u => .string (utf16_units u)))]))
  | _ => return (messageType, none)

/-- The requests of the first passes, each with its message type. The loop ends with
a DISCONNECT. -/
def SendLoopAsync (passes : Nat) (lines : List String) : List (String × JsonElement) :=
  match passes with
  | 0 => []
  | passes + 1 =>
    match (SendLoopPass ToLower ToUpper Trim).run lines with
    | ((_, none), rest) => SendLoopAsync passes rest
    | ((messageType, some outgoing), rest) =>
      if messageType = "disconnect" then [(messageType, outgoing)]
      else (messageType, outgoing) :: SendLoopAsync passes rest

end Loop

/-- What the receiving loop calls on the view. -/
inductive Shown where
  | ShowInvalidMessage (raw : String)
  | Display (message : ServerMessage)
  | ShowServerClosed

/-- What is shown for the lines that arrive, and the exception that ends the loop if
one escapes from the parser. -/
def ReceiveLoopAsync (unescapes : JsonString → String → Bool) (JsonDocument_Parse : String → Option JsonElement)
    (lines : List String) : List Shown × Option InvalidOperationException :=
  match lines with
  | [] => ([.ShowServerClosed], none)
  | line :: rest =>
    if line.length = 0 then ReceiveLoopAsync unescapes JsonDocument_Parse rest
    else
      match ServerMessage.Parse unescapes JsonDocument_Parse line with
      | .error exception => ([], some exception)
      | .ok message =>
        let shown :=
          match message with
          | none => .ShowInvalidMessage line
          | some message => .Display message
        let (later, exception) := ReceiveLoopAsync unescapes JsonDocument_Parse rest
        (shown :: later, exception)

end Controller

end ojalvo
