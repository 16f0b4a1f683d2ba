import OjalvoChat.CJson

namespace ojalvo

inductive MessageType where
  | IDENTIFY
  | STATUS
  | USERS
  | TEXT
  | PUBLIC_TEXT
  | NEW_ROOM
  | INVITE
  | INVITATION
  | JOIN_ROOM
  | ROOM_USERS
  | ROOM_TEXT
  | LEAVE_ROOM
  | DISCONNECT
  | NEW_USER
  | NEW_STATUS
  | USER_LIST
  | TEXT_FROM
  | PUBLIC_TEXT_FROM
  | JOINED_ROOM
  | ROOM_USER_LIST
  | ROOM_TEXT_FROM
  | LEFT_ROOM
  | DISCONNECTED
  | RESPONSE
  | UNKNOWN
  deriving DecidableEq, Repr

/-- A protocol message. A field is `none` where the source holds NULL; the
count of `usernames` is the length of the list. -/
@[ext] structure Message where
  type : MessageType
  username : Option CString
  operation : Option CString
  result : Option CString
  extra : Option CString
  status : Option CString
  users : Option CJson
  text : Option CString
  roomname : Option CString
  usernames : Option (List CString)

def message_init : Message where
  type := .UNKNOWN
  username := none
  operation := none
  result := none
  extra := none
  status := none
  users := none
  text := none
  roomname := none
  usernames := none

end ojalvo
