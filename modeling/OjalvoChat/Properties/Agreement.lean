import OjalvoChat.Client.Controller
import OjalvoChat.Client.ServerMessage
import OjalvoChat.MessageJson.Fields
import OjalvoChat.Properties.Encoding
import OjalvoChat.ServerSend

namespace ojalvo

/-- A field is present and has these characters. -/
def Holds (field : Option CString) (value : String) : Prop := ∃ text, field = some text ∧ text.unicode = some value

/-- A dictionary has exactly the entries of an object. -/
def HoldsUsers (object : Option CJson) (users : Dictionary) : Prop :=
  ∃ fields, object = some (.object fields) ∧ ∀ name status, users name = some status ↔
    ∃ field ∈ fields, field.1.unicode = some name ∧ field.2.document = some (.string status)

/-- Every property of the parsed message has the value of the field of the message
that was sent. -/
def ServerMessage.Carries (parsed : ServerMessage) (message : Message) : Prop :=
  match parsed with
  | .ResponseMessage operation result extra => message.type = .RESPONSE ∧ Holds message.operation operation ∧
      Holds message.result result ∧ message.extra.map CString.unicode = extra.map some
  | .NewUserMessage username => message.type = .NEW_USER ∧ Holds message.username username
  | .NewStatusMessage username status =>
    message.type = .NEW_STATUS ∧ Holds message.username username ∧ Holds message.status status
  | .UserListMessage users => message.type = .USER_LIST ∧ HoldsUsers message.users users
  | .TextFromMessage username text =>
    message.type = .TEXT_FROM ∧ Holds message.username username ∧ Holds message.text text
  | .PublicTextFromMessage username text =>
    message.type = .PUBLIC_TEXT_FROM ∧ Holds message.username username ∧ Holds message.text text
  | .InvitationMessage username roomname =>
    message.type = .INVITATION ∧ Holds message.username username ∧ Holds message.roomname roomname
  | .JoinedRoomMessage roomname username =>
    message.type = .JOINED_ROOM ∧ Holds message.roomname roomname ∧ Holds message.username username
  | .RoomUserListMessage roomname users =>
    message.type = .ROOM_USER_LIST ∧ Holds message.roomname roomname ∧ HoldsUsers message.users users
  | .RoomTextFromMessage roomname username text => message.type = .ROOM_TEXT_FROM ∧ Holds message.roomname roomname ∧
      Holds message.username username ∧ Holds message.text text
  | .LeftRoomMessage roomname username =>
    message.type = .LEFT_ROOM ∧ Holds message.roomname roomname ∧ Holds message.username username
  | .DisconnectedMessage username => message.type = .DISCONNECTED ∧ Holds message.username username

/-- `server_send` sends the message, which fits the buffer with its newline, as this
line. -/
def SentAs (message : Message) (line : String) : Prop :=
  ∃ response, message_to_json message SERVER_BUFFER_SIZE = some response ∧
    response.length ≤ SERVER_BUFFER_SIZE - 2 ∧ response_line response = line.toUTF8.data.toList ++ [10]

/-- A field of the decoded request is present and has the value that was serialised. -/
def Same (outgoing : JsonElement) (name : String) (field : Option CString) : Prop :=
  ∃ (properties : List (JsonString × JsonElement)) (value : String), outgoing = .object properties ∧
    property properties name = some (.string value) ∧ Holds field value

/-- The list of names in the decoded request has the values that were serialised. An
empty list does not come through. -/
def SameNames (outgoing : JsonElement) (usernames : Option (List CString)) : Prop :=
  ∃ (properties : List (JsonString × JsonElement)) (names : List String), outgoing = .object properties ∧
    property properties "usernames" = some (.array (names.map fun name => .string (utf16_units name))) ∧
    (names ≠ [] → ∃ texts, usernames = some texts ∧
      List.Forall₂ (fun text name => text.unicode = some name) texts names)

/-- The server reads a request as the user means it, with everything that its handler
uses. -/
def Conveys (messageType : String) (outgoing : JsonElement) (decoded : Message) : Prop :=
  match messageType with
  | "disconnect" => decoded.type = .DISCONNECT
  | "identify" => decoded.type = .IDENTIFY ∧ Same outgoing "username" decoded.username
  | "status" => decoded.type = .STATUS ∧ Same outgoing "status" decoded.status
  | "users" => decoded.type = .USERS
  | "text" =>
    decoded.type = .TEXT ∧ Same outgoing "username" decoded.username ∧ Same outgoing "text" decoded.text
  | "public" => decoded.type = .PUBLIC_TEXT ∧ Same outgoing "text" decoded.text
  | "new room" => decoded.type = .NEW_ROOM ∧ Same outgoing "roomname" decoded.roomname
  | "join" => decoded.type = .JOIN_ROOM ∧ Same outgoing "roomname" decoded.roomname
  | "room users" => decoded.type = .ROOM_USERS ∧ Same outgoing "roomname" decoded.roomname
  | "room text" =>
    decoded.type = .ROOM_TEXT ∧ Same outgoing "roomname" decoded.roomname ∧ Same outgoing "text" decoded.text
  | "leave room" => decoded.type = .LEAVE_ROOM ∧ Same outgoing "roomname" decoded.roomname
  | "invite" =>
    decoded.type = .INVITE ∧ Same outgoing "roomname" decoded.roomname ∧ SameNames outgoing decoded.usernames
  | _ => False

section Strings

/-- The characters of the names and values of some string fields. -/
abbrev Spelled (fields : List (CString × CString)) (pairs : List (String × String)) : Prop :=
  List.Forall₂ (fun field pair => field.1.unicode = some pair.1 ∧ field.2.unicode = some pair.2) fields pairs

variable {fields : List (CString × CString)} {pairs : List (String × String)}

theorem Spelled.cons_lit {name value : String} {text : CString} (hname : 0 ∉ name.toUTF8.data.toList)
    (hvalue : text.unicode = some value) (hspelled : Spelled fields pairs) :
    Spelled ((.lit name, text) :: fields) ((name, value) :: pairs) :=
  .cons ⟨CString.unicode_lit hname, hvalue⟩ hspelled

/-- Readable fields can be spelled. -/
theorem exists_spelled (hvalid : ∀ field ∈ fields, field.1.Readable ∧ field.2.Readable) :
    ∃ pairs, Spelled fields pairs := by
  induction fields with
  | nil => exact ⟨[], .nil⟩
  | cons field rest ih =>
    obtain ⟨⟨hname, hvalue⟩, hrest⟩ := List.forall_mem_cons.mp hvalid
    obtain ⟨name, hname⟩ := CString.exists_unicode hname
    obtain ⟨value, hvalue⟩ := CString.exists_unicode hvalue
    obtain ⟨others, hothers⟩ := ih hrest
    exact ⟨(name, value) :: others, .cons ⟨hname, hvalue⟩ hothers⟩

/-- The properties of an object of texts. -/
def string_properties (pairs : List (String × String)) : List (JsonString × JsonElement) :=
  pairs.map fun pair => (utf16_units pair.1, .string (utf16_units pair.2))

theorem field_documents_strings (hspelled : Spelled fields pairs) :
    field_documents (fields.map fun field => (field.1, .string field.2)) = some (string_properties pairs) := by
  rw [field_documents_eq_some_iff, string_properties, List.forall₂_map_left_iff, List.forall₂_map_right_iff]
  refine hspelled.imp fun field pair hread => ⟨CString.utf16_eq_units_iff.mpr hread.1, ?_⟩
  rw [document_eq_string_iff]
  exact ⟨field.2, rfl, hread.2⟩

/-- An object of texts is read as what it spells. -/
theorem document_string_object (hspelled : Spelled fields pairs) :
    (string_object fields).document = some (.object (string_properties pairs)) := by
  rw [document_eq_object_iff]
  exact ⟨_, rfl, field_documents_strings hspelled⟩

/-- The dictionary of some pairs. -/
def Dictionary.set_all (users : Dictionary) (pairs : List (String × String)) : Dictionary :=
  pairs.foldl (fun users pair => users.set pair.1 pair.2) users

/-- A list of users is read without exception. -/
theorem foldlM_SetUser (pairs : List (String × String)) (users : Dictionary) :
    (string_properties pairs).foldlM ServerMessage.SetUser users =
      (pure (users.set_all pairs) : Throws Dictionary) := by
  induction pairs generalizing users with
  | nil => rfl
  | cons pair rest ih =>
    have hset : ServerMessage.SetUser users (utf16_units pair.1, .string (utf16_units pair.2)) =
        pure (users.set pair.1 pair.2) := by simp [ServerMessage.SetUser]
    rw [string_properties, List.map_cons, List.foldlM_cons, hset, pure_bind]
    exact ih _

/-- Where keys do not repeat, every entry stays. -/
theorem Dictionary.set_all_iff {pairs : List (String × String)} (hnodup : (pairs.map Prod.fst).Nodup)
    (users : Dictionary) (name status : String) :
    users.set_all pairs name = some status ↔
      (name, status) ∈ pairs ∨ (name ∉ pairs.map Prod.fst ∧ users name = some status) := by
  induction pairs generalizing users with
  | nil => simp [Dictionary.set_all]
  | cons pair rest ih =>
    obtain ⟨key, value⟩ := pair
    obtain ⟨hfresh, hrest⟩ := List.nodup_cons.mp hnodup
    have hlater := ih hrest (users.set key value)
    rw [show users.set_all ((key, value) :: rest) = (users.set key value).set_all rest from rfl, hlater]
    by_cases hsame : name = key
    · subst hsame
      have habsent : (name, status) ∉ rest := fun hmem => hfresh (List.mem_map.mpr ⟨_, hmem, rfl⟩)
      simp [Dictionary.set, habsent, hfresh, eq_comm]
    · simp [Dictionary.set, hsame]

theorem mem_of_spelled (hspelled : Spelled fields pairs) (name value : String) :
    (name, value) ∈ pairs ↔ ∃ field ∈ fields, field.1.unicode = some name ∧ field.2.unicode = some value := by
  induction hspelled with
  | nil => simp
  | @cons field pair fields pairs hread hrest ih =>
    rw [List.mem_cons, ih, List.exists_mem_cons_iff]
    refine or_congr_left ?_
    simp only [hread.1, hread.2, Option.some.injEq, Prod.ext_iff, eq_comm]

/-- Distinct names have distinct characters. -/
theorem nodup_of_spelled (hspelled : Spelled fields pairs) (hnodup : (fields.map Prod.fst).Nodup) :
    (pairs.map Prod.fst).Nodup := by
  induction hspelled with
  | nil => exact List.nodup_nil
  | @cons field pair fields pairs hread hrest ih =>
    obtain ⟨hfresh, hothers⟩ := List.nodup_cons.mp hnodup
    refine List.nodup_cons.mpr ⟨fun hmem => hfresh ?_, ih hothers⟩
    obtain ⟨other, hother, hname⟩ := List.mem_map.mp hmem
    obtain ⟨found, hfound, hkey, -⟩ := (mem_of_spelled hrest other.1 other.2).mp hother
    rw [CString.unicode_inj hread.1 (hname ▸ hkey)]
    exact List.mem_map_of_mem hfound

/-- The client reads from a user list what the server wrote. -/
theorem holdsUsers_set_all (hspelled : Spelled fields pairs) (hnodup : (fields.map Prod.fst).Nodup) :
    HoldsUsers (some (string_object fields)) (Dictionary.set_all (fun _ => none) pairs) := by
  refine ⟨_, rfl, fun name status => ?_⟩
  rw [Dictionary.set_all_iff (nodup_of_spelled hspelled hnodup), or_iff_left (fun hold => absurd hold.2 nofun),
    mem_of_spelled hspelled]
  constructor
  · rintro ⟨field, hmem, hname, hstatus⟩
    exact ⟨_, List.mem_map_of_mem hmem, hname, document_eq_string_iff.mpr ⟨field.2, rfl, hstatus⟩⟩
  · rintro ⟨_, hmem, hname, hdocument⟩
    obtain ⟨field, hfield, rfl⟩ := List.mem_map.mp hmem
    obtain ⟨text, htext, hstatus⟩ := document_eq_string_iff.mp hdocument
    cases htext
    exact ⟨field, hfield, hname, hstatus⟩

end Strings

section Messages

variable {unescapes : JsonString → String → Bool} {JsonDocument_Parse : String → Option JsonElement} {line : String}
  {message : Message} {pairs : List (String × String)}

/-- How the client reads a line with an object of strings only. -/
theorem parse_of_spelled {fields : List (CString × CString)}
    (hparse : JsonDocument_Parse line = (message_object message).document)
    (hobject : message_object message = string_object fields) (hspelled : Spelled fields pairs) :
    JsonDocument_Parse line = some (.object (string_properties pairs)) := by
  rw [hparse, hobject, document_string_object hspelled]

section Fields

variable {type name other third : String} {first second last : CString}

/-- A message with one text is read as it was sent. -/
theorem parse_single (hparse : JsonDocument_Parse line = (message_object message).document)
    (hobject : message_object message = string_object [(.lit "type", .lit type), (.lit name, first)])
    (hnames : ∀ literal ∈ [type, name], 0 ∉ literal.toUTF8.data.toList) (hfirst : first.Readable) :
    ∃ value, first.unicode = some value ∧
      JsonDocument_Parse line = some (.object (string_properties [("type", type), (name, value)])) := by
  obtain ⟨value, hvalue⟩ := CString.exists_unicode hfirst
  have htype := CString.unicode_lit (hnames type (by simp))
  have hspelled := Spelled.cons_lit (hnames name (by simp)) hvalue .nil
  exact ⟨value, hvalue, parse_of_spelled hparse hobject (hspelled.cons_lit (by decide) htype)⟩

/-- A message with two texts is read as it was sent. -/
theorem parse_pair (hparse : JsonDocument_Parse line = (message_object message).document)
    (hobject : message_object message =
      string_object [(.lit "type", .lit type), (.lit name, first), (.lit other, second)])
    (hnames : ∀ literal ∈ [type, name, other], 0 ∉ literal.toUTF8.data.toList)
    (hreadable : ∀ text ∈ [first, second], text.Readable) :
    ∃ value more, first.unicode = some value ∧ second.unicode = some more ∧
      JsonDocument_Parse line = some (.object (string_properties [("type", type), (name, value), (other, more)])) := by
  obtain ⟨value, hvalue⟩ := CString.exists_unicode (hreadable first (by simp))
  obtain ⟨more, hmore⟩ := CString.exists_unicode (hreadable second (by simp))
  have htype := CString.unicode_lit (hnames type (by simp))
  have hspelled := (Spelled.cons_lit (hnames other (by simp)) hmore .nil).cons_lit (hnames name (by simp)) hvalue
  exact ⟨value, more, hvalue, hmore, parse_of_spelled hparse hobject (hspelled.cons_lit (by decide) htype)⟩

/-- A message with three texts is read as it was sent. -/
theorem parse_triple (hparse : JsonDocument_Parse line = (message_object message).document)
    (hobject : message_object message = string_object
      [(.lit "type", .lit type), (.lit name, first), (.lit other, second), (.lit third, last)])
    (hnames : ∀ literal ∈ [type, name, other, third], 0 ∉ literal.toUTF8.data.toList)
    (hreadable : ∀ text ∈ [first, second, last], text.Readable) :
    ∃ value more most, first.unicode = some value ∧ second.unicode = some more ∧ last.unicode = some most ∧
      JsonDocument_Parse line =
        some (.object (string_properties [("type", type), (name, value), (other, more), (third, most)])) := by
  obtain ⟨value, hvalue⟩ := CString.exists_unicode (hreadable first (by simp))
  obtain ⟨more, hmore⟩ := CString.exists_unicode (hreadable second (by simp))
  obtain ⟨most, hmost⟩ := CString.exists_unicode (hreadable last (by simp))
  have htype := CString.unicode_lit (hnames type (by simp))
  have hspelled := ((Spelled.cons_lit (hnames third (by simp)) hmost .nil).cons_lit (hnames other (by simp))
    hmore).cons_lit (hnames name (by simp)) hvalue
  exact ⟨value, more, most, hvalue, hmore, hmost,
    parse_of_spelled hparse hobject (hspelled.cons_lit (by decide) htype)⟩

end Fields

/-- The client reads this message and its fields. -/
def ReadAsSent (unescapes : JsonString → String → Bool) (JsonDocument_Parse : String → Option JsonElement)
    (line : String) (message : Message) : Prop :=
  ∃ parsed, ServerMessage.Parse unescapes JsonDocument_Parse line = pure (some parsed) ∧ parsed.Carries message

section Readings

variable {username roomname text status : CString}

/-- A response, with what it is about or without. -/
theorem parse_response {operation result : CString} {extra : Option CString}
    (hvalid : (response operation result extra).Readable)
    (hparse : JsonDocument_Parse line = (message_object (response operation result extra)).document) :
    ReadAsSent unescapes JsonDocument_Parse line (response operation result extra) := by
  cases extra with
  | none =>
    obtain ⟨value, outcome, hvalue, houtcome, hdocument⟩ := parse_pair hparse rfl (by decide) hvalid
    refine ⟨.ResponseMessage value outcome none, ?_, rfl, ⟨operation, rfl, hvalue⟩, ⟨result, rfl, houtcome⟩, rfl⟩
    simp [ServerMessage.Parse, hdocument, ServerMessage.Get, string_properties, find_property]
  | some text =>
    obtain ⟨value, outcome, more, hvalue, houtcome, hmore, hdocument⟩ := parse_triple hparse rfl (by decide) hvalid
    refine ⟨.ResponseMessage value outcome (some more), ?_, rfl, ⟨operation, rfl, hvalue⟩, ⟨result, rfl, houtcome⟩,
      congrArg some hmore⟩
    simp [ServerMessage.Parse, hdocument, ServerMessage.Get, string_properties, find_property]

theorem parse_new_user (hvalid : (new_user_notice username).Readable)
    (hparse : JsonDocument_Parse line = (message_object (new_user_notice username)).document) :
    ReadAsSent unescapes JsonDocument_Parse line (new_user_notice username) := by
  obtain ⟨name, hname, hdocument⟩ := parse_single hparse rfl (by decide) (hvalid username List.mem_cons_self)
  refine ⟨.NewUserMessage name, ?_, rfl, username, rfl, hname⟩
  simp [ServerMessage.Parse, hdocument, ServerMessage.Get, string_properties, find_property]

theorem parse_disconnected (hvalid : (disconnected_notice username).Readable)
    (hparse : JsonDocument_Parse line = (message_object (disconnected_notice username)).document) :
    ReadAsSent unescapes JsonDocument_Parse line (disconnected_notice username) := by
  obtain ⟨name, hname, hdocument⟩ := parse_single hparse rfl (by decide) (hvalid username List.mem_cons_self)
  refine ⟨.DisconnectedMessage name, ?_, rfl, username, rfl, hname⟩
  simp [ServerMessage.Parse, hdocument, ServerMessage.Get, string_properties, find_property]

theorem parse_new_status (hvalid : (new_status_notice username status).Readable)
    (hparse : JsonDocument_Parse line = (message_object (new_status_notice username status)).document) :
    ReadAsSent unescapes JsonDocument_Parse line (new_status_notice username status) := by
  obtain ⟨name, value, hname, hvalue, hdocument⟩ := parse_pair hparse rfl (by decide) hvalid
  refine ⟨.NewStatusMessage name value, ?_, rfl, ⟨username, rfl, hname⟩, status, rfl, hvalue⟩
  simp [ServerMessage.Parse, hdocument, ServerMessage.Get, string_properties, find_property]

theorem parse_text_from (hvalid : (text_from_notice username text).Readable)
    (hparse : JsonDocument_Parse line = (message_object (text_from_notice username text)).document) :
    ReadAsSent unescapes JsonDocument_Parse line (text_from_notice username text) := by
  obtain ⟨name, value, hname, hvalue, hdocument⟩ := parse_pair hparse rfl (by decide) hvalid
  refine ⟨.TextFromMessage name value, ?_, rfl, ⟨username, rfl, hname⟩, text, rfl, hvalue⟩
  simp [ServerMessage.Parse, hdocument, ServerMessage.Get, string_properties, find_property]

theorem parse_public_text_from (hvalid : (public_text_from_notice username text).Readable)
    (hparse : JsonDocument_Parse line = (message_object (public_text_from_notice username text)).document) :
    ReadAsSent unescapes JsonDocument_Parse line (public_text_from_notice username text) := by
  obtain ⟨name, value, hname, hvalue, hdocument⟩ := parse_pair hparse rfl (by decide) hvalid
  refine ⟨.PublicTextFromMessage name value, ?_, rfl, ⟨username, rfl, hname⟩, text, rfl, hvalue⟩
  simp [ServerMessage.Parse, hdocument, ServerMessage.Get, string_properties, find_property]

theorem parse_invitation (hvalid : (invitation_notice username roomname).Readable)
    (hparse : JsonDocument_Parse line = (message_object (invitation_notice username roomname)).document) :
    ReadAsSent unescapes JsonDocument_Parse line (invitation_notice username roomname) := by
  obtain ⟨name, room, hname, hroom, hdocument⟩ := parse_pair hparse rfl (by decide) hvalid
  refine ⟨.InvitationMessage name room, ?_, rfl, ⟨username, rfl, hname⟩, roomname, rfl, hroom⟩
  simp [ServerMessage.Parse, hdocument, ServerMessage.Get, string_properties, find_property]

theorem parse_joined_room (hvalid : (joined_room_notice roomname username).Readable)
    (hparse : JsonDocument_Parse line = (message_object (joined_room_notice roomname username)).document) :
    ReadAsSent unescapes JsonDocument_Parse line (joined_room_notice roomname username) := by
  obtain ⟨name, room, hname, hroom, hdocument⟩ := parse_pair hparse rfl (by decide) hvalid
  refine ⟨.JoinedRoomMessage room name, ?_, rfl, ⟨roomname, rfl, hroom⟩, username, rfl, hname⟩
  simp [ServerMessage.Parse, hdocument, ServerMessage.Get, string_properties, find_property]

theorem parse_left_room (hvalid : (left_room_notice roomname username).Readable)
    (hparse : JsonDocument_Parse line = (message_object (left_room_notice roomname username)).document) :
    ReadAsSent unescapes JsonDocument_Parse line (left_room_notice roomname username) := by
  obtain ⟨name, room, hname, hroom, hdocument⟩ := parse_pair hparse rfl (by decide) hvalid
  refine ⟨.LeftRoomMessage room name, ?_, rfl, ⟨roomname, rfl, hroom⟩, username, rfl, hname⟩
  simp [ServerMessage.Parse, hdocument, ServerMessage.Get, string_properties, find_property]

theorem parse_room_text_from (hvalid : (room_text_from_notice roomname username text).Readable)
    (hparse : JsonDocument_Parse line = (message_object (room_text_from_notice roomname username text)).document) :
    ReadAsSent unescapes JsonDocument_Parse line (room_text_from_notice roomname username text) := by
  obtain ⟨name, value, room, hname, hvalue, hroom, hdocument⟩ := parse_triple hparse rfl (by decide) hvalid
  refine ⟨.RoomTextFromMessage room name value, ?_, rfl, ⟨roomname, rfl, hroom⟩, ⟨username, rfl, hname⟩, text, rfl,
    hvalue⟩
  simp [ServerMessage.Parse, hdocument, ServerMessage.Get, string_properties, find_property]

end Readings

section Users

variable {contents : UsersTable}

/-- The users in a list, as the client reads them. -/
theorem exists_spelled_users (hindexed : contents.Indexed)
    (hvalid : ∀ text ∈ (users_object contents).strings, text.Readable) :
    ∃ pairs, (users_object contents).document = some (.object (string_properties pairs)) ∧
      HoldsUsers (some (users_object contents)) (Dictionary.set_all (fun _ => none) pairs) := by
  have hobject : users_object contents =
      string_object (contents.entries.map fun user => (user.username, user_status_to_string user.status)) := by
    rw [users_object_eq, string_object, List.map_map]
    rfl
  rw [strings_users_object] at hvalid
  obtain ⟨pairs, hspelled⟩ : ∃ pairs,
      Spelled (contents.entries.map fun user => (user.username, user_status_to_string user.status)) pairs := by
    refine exists_spelled fun field hmem => ?_
    obtain ⟨user, huser, rfl⟩ := List.mem_map.mp hmem
    exact ⟨hvalid _ (List.mem_flatMap.mpr ⟨user, huser, by simp⟩),
      hvalid _ (List.mem_flatMap.mpr ⟨user, huser, by simp⟩)⟩
  rw [hobject]
  refine ⟨pairs, document_string_object hspelled, holdsUsers_set_all hspelled ?_⟩
  rw [List.map_map]
  exact hindexed.nodup_usernames

theorem utf16_lit {name : String} (hfree : 0 ∉ name.toUTF8.data.toList) :
    (CString.lit name).utf16 = some (utf16_units name) :=
  CString.utf16_eq_units_iff.mpr (CString.unicode_lit hfree)

/-- A user list is read as it was sent. -/
theorem parse_user_list (hindexed : contents.Indexed) (hvalid : (user_list_message contents).Readable)
    (hparse : JsonDocument_Parse line = (message_object (user_list_message contents)).document) :
    ReadAsSent unescapes JsonDocument_Parse line (user_list_message contents) := by
  have hstrings : (user_list_message contents).strings = (users_object contents).strings := by
    simp [Message.strings, user_list_message, message_init]
  obtain ⟨pairs, husers, hholds⟩ := exists_spelled_users hindexed (hstrings ▸ hvalid)
  have hdocument : JsonDocument_Parse line = some (.object [("type", .string "USER_LIST"),
      ("users", .object (string_properties pairs))]) := by
    rw [hparse, document_eq_object_iff]
    refine ⟨_, rfl, field_documents_eq_some_iff.mpr (.cons ⟨?_, ?_⟩ (.cons ⟨?_, husers⟩ .nil))⟩
    · exact utf16_lit (by decide)
    · exact document_eq_string_iff.mpr ⟨_, rfl, CString.unicode_lit (by decide)⟩
    · exact utf16_lit (by decide)
  refine ⟨.UserListMessage (Dictionary.set_all (fun _ => none) pairs), ?_, rfl, hholds⟩
  simp [ServerMessage.Parse, hdocument, ServerMessage.GetUsers, foldlM_SetUser, find_property]

/-- The user list of a room is read as it was sent. -/
theorem parse_room_user_list {roomname : CString} (hindexed : contents.Indexed)
    (hvalid : (room_user_list_message roomname contents).Readable)
    (hparse : JsonDocument_Parse line = (message_object (room_user_list_message roomname contents)).document) :
    ReadAsSent unescapes JsonDocument_Parse line (room_user_list_message roomname contents) := by
  have hstrings : (room_user_list_message roomname contents).strings =
      (users_object contents).strings ++ [roomname] := by
    simp [Message.strings, room_user_list_message, message_init]
  rw [Message.Readable, hstrings, List.forall_mem_append, List.forall_mem_singleton] at hvalid
  obtain ⟨pairs, husers, hholds⟩ := exists_spelled_users hindexed hvalid.1
  obtain ⟨room, hroom⟩ := CString.exists_unicode hvalid.2
  have hdocument : JsonDocument_Parse line = some (.object [("type", .string "ROOM_USER_LIST"),
      ("roomname", .string room), ("users", .object (string_properties pairs))]) := by
    rw [hparse, document_eq_object_iff]
    refine ⟨_, rfl, field_documents_eq_some_iff.mpr (.cons ⟨?_, ?_⟩ (.cons ⟨?_, ?_⟩ (.cons ⟨?_, husers⟩ .nil)))⟩
    · exact utf16_lit (by decide)
    · exact document_eq_string_iff.mpr ⟨_, rfl, CString.unicode_lit (by decide)⟩
    · exact utf16_lit (by decide)
    · exact document_eq_string_iff.mpr ⟨_, rfl, hroom⟩
    · exact utf16_lit (by decide)
  refine ⟨.RoomUserListMessage room (Dictionary.set_all (fun _ => none) pairs), ?_, rfl, ⟨roomname, rfl, hroom⟩,
    hholds⟩
  simp [ServerMessage.Parse, hdocument, ServerMessage.Get, ServerMessage.GetUsers, foldlM_SetUser, find_property]

end Users

/-- Whatever the server composes, the client reads. -/
theorem parse_spoken (hspoken : Spoken (fun _ => True) message) (hvalid : message.Readable)
    (hparse : JsonDocument_Parse line = (message_object message).document) :
    ReadAsSent unescapes JsonDocument_Parse line message := by
  cases hspoken with
  | reply operation result extra hoperation hresult hextra => exact parse_response hvalid hparse
  | new_user username husername => exact parse_new_user hvalid hparse
  | new_status username status husername hstatus => exact parse_new_status hvalid hparse
  | user_list contents hindexed husers hstatuses => exact parse_user_list hindexed hvalid hparse
  | text_from username text husername htext => exact parse_text_from hvalid hparse
  | public_text_from username text husername htext => exact parse_public_text_from hvalid hparse
  | invitation username roomname husername hroomname => exact parse_invitation hvalid hparse
  | joined_room roomname username hroomname husername => exact parse_joined_room hvalid hparse
  | room_user_list roomname contents hroomname hindexed husers hstatuses =>
    exact parse_room_user_list hindexed hvalid hparse
  | room_text_from roomname username text hroomname husername htext => exact parse_room_text_from hvalid hparse
  | left_room roomname username hroomname husername => exact parse_left_room hvalid hparse
  | disconnected username husername => exact parse_disconnected hvalid hparse

end Messages

section Requests

variable {cJSON_Parse : CString → Option CJson} {raw : CString} {json : CJson}

/-- The fields of an object and the properties that the client has for them. -/
abbrev Documented (fields : List (CString × CJson)) (properties : List (JsonString × JsonElement)) : Prop :=
  List.Forall₂ (fun field property => field.1.utf16 = some property.1 ∧ field.2.document = some property.2)
    fields properties

theorem Documented.string {fields : List (CString × CJson)} {properties : List (JsonString × JsonElement)}
    {name value : String} (hdocumented : Documented fields ((utf16_units name, .string value) :: properties))
    (hfree : 0 ∉ name.toUTF8.data.toList) :
    ∃ text rest, fields = (.lit name, .string text) :: rest ∧ text.unicode = some value ∧
      Documented rest properties := by
  obtain ⟨⟨key, item⟩, rest, ⟨hkey, hitem⟩, hrest, rfl⟩ := List.forall₂_cons_right_iff.mp hdocumented
  obtain ⟨text, rfl, htext⟩ := document_eq_string_iff.mp hitem
  obtain rfl := CString.unicode_inj (CString.utf16_eq_units_iff.mp hkey) (CString.unicode_lit hfree)
  exact ⟨text, rest, rfl, htext, hrest⟩

/-- The server has the type that the client serialised. -/
theorem exists_fields_of_request {type : String} {properties : List (JsonString × JsonElement)}
    (hdocument : json.document = some (.object (("type", .string type) :: properties)))
    (hfree : 0 ∉ type.toUTF8.data.toList) :
    ∃ fields, json = .object ((.lit "type", .string (.lit type)) :: fields) ∧ Documented fields properties := by
  obtain ⟨fields, rfl, hfields⟩ := document_eq_object_iff.mp hdocument
  obtain ⟨text, rest, rfl, htext, hrest⟩ :=
    Documented.string (field_documents_eq_some_iff.mp hfields) (by decide)
  obtain rfl := CString.unicode_inj htext (CString.unicode_lit hfree)
  exact ⟨rest, rfl, hrest⟩

/-- The field of a request that has this name, if it is a text. -/
def Message.text_field (msg : Message) (name : String) : Option CString :=
  match name with
  | "username" => msg.username
  | "status" => msg.status
  | "text" => msg.text
  | "roomname" => msg.roomname
  | _ => none

section Decoded

variable (type : MessageType) {typename name value more : String} (hparse : cJSON_Parse raw = some json)
  (htype : message_type_to_string type = .lit typename) (hfree : 0 ∉ typename.toUTF8.data.toList)
include hparse htype hfree

/-- A request without fields. -/
theorem decoded_plain (hdocument : json.document = some (.object [("type", .string typename)])) :
    ∃ decoded, message_from_json cJSON_Parse raw = some decoded ∧ decoded.type = type := by
  obtain ⟨fields, rfl, hfields⟩ := exists_fields_of_request hdocument hfree
  cases hfields
  have hobject : cJSON_Parse raw =
      some (object_of [(.lit "type", some (.string (message_type_to_string type)))]) := htype ▸ hparse
  obtain ⟨decoded, haccepted, hread, -⟩ := decoded_object_of [.lit "type"] hobject rfl (by decide) List.mem_cons_self
  exact ⟨decoded, haccepted, hread⟩

/-- A request with one text. -/
theorem decoded_with (hname : name ∈ ["username", "status", "text", "roomname"])
    (hdocument : json.document = some (.object [("type", .string typename), (utf16_units name, .string value)])) :
    ∃ decoded, message_from_json cJSON_Parse raw = some decoded ∧ decoded.type = type ∧
      Holds (decoded.text_field name) value := by
  have hall : ∀ name ∈ ["username", "status", "text", "roomname"],
      0 ∉ name.toUTF8.data.toList ∧ [CString.lit "type", .lit name].Nodup := by decide
  have hliteral := hall name hname
  obtain ⟨fields, rfl, hfields⟩ := exists_fields_of_request hdocument hfree
  obtain ⟨text, rest, rfl, htext, hrest⟩ := hfields.string hliteral.1
  cases hrest
  have hobject : cJSON_Parse raw = some (object_of
      [(.lit "type", some (.string (message_type_to_string type))), (.lit name, some (.string text))]) :=
    htype ▸ hparse
  obtain ⟨decoded, haccepted, hread, husername, hstatus, htexts, hroomname, -⟩ :=
    decoded_object_of [.lit "type", .lit name] hobject rfl hliteral.2 List.mem_cons_self
  refine ⟨decoded, haccepted, hread, text, ?_, htext⟩
  simp only [List.mem_cons, List.not_mem_nil, or_false] at hname
  rcases hname with rfl | rfl | rfl | rfl
  · exact husername text (by simp)
  · exact hstatus text (by simp)
  · exact htexts text (by simp)
  · exact hroomname text (by simp)

/-- A request with a name and a text. -/
theorem decoded_with_text (hname : name ∈ ["username", "roomname"])
    (hdocument : json.document =
      some (.object [("type", .string typename), (utf16_units name, .string value), ("text", .string more)])) :
    ∃ decoded, message_from_json cJSON_Parse raw = some decoded ∧ decoded.type = type ∧
      Holds (decoded.text_field name) value ∧ Holds decoded.text more := by
  have hall : ∀ name ∈ ["username", "roomname"],
      0 ∉ name.toUTF8.data.toList ∧ [CString.lit "type", .lit name, .lit "text"].Nodup := by decide
  have hliteral := hall name hname
  obtain ⟨fields, rfl, hfields⟩ := exists_fields_of_request hdocument hfree
  obtain ⟨first, rest, rfl, hfirst, hrest⟩ := hfields.string hliteral.1
  obtain ⟨text, last, rfl, htext, hlast⟩ := hrest.string (by decide)
  cases hlast
  have hobject : cJSON_Parse raw = some (object_of
      [(.lit "type", some (.string (message_type_to_string type))), (.lit name, some (.string first)),
        (.lit "text", some (.string text))]) := htype ▸ hparse
  obtain ⟨decoded, haccepted, hread, husername, -, htexts, hroomname, -⟩ :=
    decoded_object_of [.lit "type", .lit name, .lit "text"] hobject rfl hliteral.2 List.mem_cons_self
  refine ⟨decoded, haccepted, hread, ⟨first, ?_, hfirst⟩, text, htexts text (by simp), htext⟩
  simp only [List.mem_cons, List.not_mem_nil, or_false] at hname
  rcases hname with rfl | rfl
  · exact husername first (by simp)
  · exact hroomname first (by simp)

end Decoded

/-- An array of strings, as the server has it. -/
theorem exists_strings_of_documents {items : List CJson} {names : List String}
    (hitems : List.Forall₂ (fun item element => item.document = some element) items
      (names.map fun name => .string (utf16_units name))) :
    ∃ texts : List CString, items = texts.map .string ∧
      List.Forall₂ (fun text name => text.unicode = some name) texts names := by
  induction names generalizing items with
  | nil =>
    cases hitems
    exact ⟨[], rfl, .nil⟩
  | cons name rest ih =>
    obtain ⟨item, others, hitem, hothers, rfl⟩ := List.forall₂_cons_right_iff.mp hitems
    obtain ⟨text, rfl, htext⟩ := document_eq_string_iff.mp hitem
    obtain ⟨texts, rfl, htexts⟩ := ih hothers
    exact ⟨text :: texts, rfl, .cons htext htexts⟩

/-- An array of texts gives the names. -/
theorem get_usernames_strings {texts : List CString} (hsome : texts ≠ []) :
    get_usernames (some (.array (texts.map .string))) = some texts := by
  obtain ⟨first, rest, rfl⟩ := List.exists_cons_of_ne_nil hsome
  exact get_usernames_usernames_item (some (first :: rest))

/-- The list of an invitation, unless it is empty. -/
theorem decoded_invite {names : List String} {value : String} (hparse : cJSON_Parse raw = some json)
    (hdocument : json.document = some (.object [("type", .string "INVITE"), ("roomname", .string value),
      ("usernames", .array (names.map fun name => .string (utf16_units name)))])) :
    ∃ decoded, message_from_json cJSON_Parse raw = some decoded ∧ decoded.type = .INVITE ∧
      Holds decoded.roomname value ∧ (names ≠ [] → ∃ texts, decoded.usernames = some texts ∧
        List.Forall₂ (fun text name => text.unicode = some name) texts names) := by
  obtain ⟨fields, rfl, hfields⟩ := exists_fields_of_request hdocument (by decide)
  obtain ⟨text, rest, rfl, htext, hrest⟩ := hfields.string (by decide)
  obtain ⟨⟨key, item⟩, last, ⟨hkey, hitem⟩, hlast, rfl⟩ := List.forall₂_cons_right_iff.mp hrest
  cases hlast
  have husernames : (CString.lit "usernames").unicode = some "usernames" := CString.unicode_lit (by decide)
  obtain rfl := CString.unicode_inj (CString.utf16_eq_units_iff.mp hkey) husernames
  obtain ⟨items, rfl, hitems⟩ := document_eq_array_iff.mp hitem
  obtain ⟨texts, rfl, htexts⟩ := exists_strings_of_documents (item_documents_eq_some_iff.mp hitems)
  have hobject : cJSON_Parse raw = some (object_of
      [(.lit "type", some (.string (message_type_to_string .INVITE))), (.lit "roomname", some (.string text)),
        (.lit "usernames", some (.array (texts.map .string)))]) := hparse
  obtain ⟨decoded, haccepted, htype, -, -, -, hroomname, hlist⟩ := decoded_object_of
    [.lit "type", .lit "roomname", .lit "usernames"] hobject rfl (by decide) List.mem_cons_self
  refine ⟨decoded, haccepted, htype, ⟨text, hroomname text (by simp), htext⟩, fun hnames => ?_⟩
  have hsome : texts ≠ [] := by
    rintro rfl
    cases htexts
    exact hnames rfl
  exact ⟨texts, (hlist _ (by simp)).trans (get_usernames_strings hsome), htexts⟩

section Serialised

variable {typename name other value more : String} {field : Option CString}

/-- The last property of a request. -/
theorem same_last (properties : List (JsonString × JsonElement)) (hholds : Holds field value) :
    Same (.object (properties ++ [(utf16_units name, .string (utf16_units value))])) name field :=
  ⟨_, value, rfl, by simp [property], hholds⟩

/-- The one before the last. -/
theorem same_before (properties : List (JsonString × JsonElement)) (hother : other ≠ name) {element : JsonElement}
    (hholds : Holds field value) :
    Same (.object (properties ++ [(utf16_units name, .string (utf16_units value)), (utf16_units other, element)])) name field :=
  ⟨_, value, rfl, by simp [property, hother], hholds⟩

end Serialised

/-- What one pass of the loop sends is understood by the server. -/
theorem conveys_of_pass {ToLower ToUpper Trim : String → String} {lines rest : List String} {messageType : String}
    {outgoing : JsonElement}
    (hpass : (Controller.SendLoopPass ToLower ToUpper Trim).run lines = ((messageType, some outgoing), rest))
    (hparse : cJSON_Parse raw = some json) (hdocument : json.document = some outgoing) :
    ∃ decoded, message_from_json cJSON_Parse raw = some decoded ∧ Conveys messageType outgoing decoded := by
  unfold Controller.SendLoopPass at hpass
  rw [StateT.run_bind] at hpass
  generalize View.AskMessageType.run lines = first at hpass
  obtain ⟨answer, lines⟩ := first
  change StateT.run _ lines = _ at hpass
  dsimp only at hpass
  generalize ToLower (Trim (answer.getD "")) = typed at hpass
  split at hpass <;> cases hpass
  · obtain ⟨decoded, haccepted, htype⟩ := decoded_plain .DISCONNECT hparse rfl (by decide) hdocument
    exact ⟨decoded, haccepted, htype⟩
  · obtain ⟨decoded, haccepted, htype, hfield⟩ := decoded_with .IDENTIFY hparse rfl (by decide) (by decide) hdocument
    exact ⟨decoded, haccepted, htype, same_last [_] hfield⟩
  · obtain ⟨decoded, haccepted, htype, hfield⟩ := decoded_with .STATUS hparse rfl (by decide) (by decide) hdocument
    exact ⟨decoded, haccepted, htype, same_last [_] hfield⟩
  · obtain ⟨decoded, haccepted, htype⟩ := decoded_plain .USERS hparse rfl (by decide) hdocument
    exact ⟨decoded, haccepted, htype⟩
  · obtain ⟨decoded, haccepted, htype, hfield, htext⟩ :=
      decoded_with_text .TEXT hparse rfl (by decide) (by decide) hdocument
    exact ⟨decoded, haccepted, htype, same_before [_] (by decide) hfield, same_last [_, _] htext⟩
  · obtain ⟨decoded, haccepted, htype, hfield⟩ :=
      decoded_with .PUBLIC_TEXT hparse rfl (by decide) (by decide) hdocument
    exact ⟨decoded, haccepted, htype, same_last [_] hfield⟩
  · obtain ⟨decoded, haccepted, htype, hfield⟩ := decoded_with .NEW_ROOM hparse rfl (by decide) (by decide) hdocument
    exact ⟨decoded, haccepted, htype, same_last [_] hfield⟩
  · obtain ⟨decoded, haccepted, htype, hfield⟩ := decoded_with .JOIN_ROOM hparse rfl (by decide) (by decide) hdocument
    exact ⟨decoded, haccepted, htype, same_last [_] hfield⟩
  · obtain ⟨decoded, haccepted, htype, hfield⟩ :=
      decoded_with .ROOM_USERS hparse rfl (by decide) (by decide) hdocument
    exact ⟨decoded, haccepted, htype, same_last [_] hfield⟩
  · obtain ⟨decoded, haccepted, htype, hfield, htext⟩ :=
      decoded_with_text .ROOM_TEXT hparse rfl (by decide) (by decide) hdocument
    exact ⟨decoded, haccepted, htype, same_before [_] (by decide) hfield, same_last [_, _] htext⟩
  · obtain ⟨decoded, haccepted, htype, hfield⟩ :=
      decoded_with .LEAVE_ROOM hparse rfl (by decide) (by decide) hdocument
    exact ⟨decoded, haccepted, htype, same_last [_] hfield⟩
  · obtain ⟨decoded, haccepted, htype, hroomname, hnames⟩ := decoded_invite hparse hdocument
    exact ⟨decoded, haccepted, htype, same_before [_] (by decide) hroomname, _, _, rfl, by simp [property], hnames⟩

end Requests

section Loop

/-- What the loop sends is understood by the server. -/
theorem conveys_of_loop {ToLower ToUpper Trim : String → String} {passes : Nat} {lines : List String}
    {request : String × JsonElement} (hmem : request ∈ Controller.SendLoopAsync ToLower ToUpper Trim passes lines)
    {cJSON_Parse : CString → Option CJson} {raw : CString} {json : CJson} (hparse : cJSON_Parse raw = some json)
    (hdocument : json.document = some request.2) :
    ∃ decoded, message_from_json cJSON_Parse raw = some decoded ∧ Conveys request.1 request.2 decoded := by
  induction passes generalizing lines with
  | zero => cases hmem
  | succ passes ih =>
    rw [Controller.SendLoopAsync] at hmem
    split at hmem
    · exact ih hmem
    · rename_i messageType outgoing rest hpass
      have hnow : request = (messageType, outgoing) →
          ∃ decoded, message_from_json cJSON_Parse raw = some decoded ∧ Conveys request.1 request.2 decoded := by
        rintro rfl
        exact conveys_of_pass hpass hparse hdocument
      split at hmem
      · exact hnow (List.mem_singleton.mp hmem)
      · rcases List.mem_cons.mp hmem with hfirst | hlater
        · exact hnow hfirst
        · exact ih hlater

/-- Whatever is asked of it, the server only sends messages of its vocabulary. -/
theorem spoken_of_run {net : Net} {history : List (World × Event)} {world : World} (hrun : ServerRun net history world)
    (event : Event) : ∀ fd message sent,
      Effect.send fd message sent ∈ (final_world ((serve net event).run world)).trace →
        Spoken (fun _ => True) message := by
  have hrepeatable : ∀ server client_fd msg_in, Repeatable (fun _ => True) server client_fd msg_in := by
    intro server client_fd msg_in
    constructor <;> simp
  induction hrun generalizing event with
  | start =>
    obtain ⟨effects, htrace, hspoken⟩ := serve_speaks net [] Server.consistent_init (hrepeatable _ event.client_fd _)
    rw [htrace]
    exact hspoken
  | @step history before after last hprefix hserved ih =>
    have hlonger := hprefix.step hserved
    obtain ⟨hidle, hserver⟩ := run_ready hlonger
    have hearlier := ih last
    rw [show (serve net last).run before = .ok () after from hserved] at hearlier
    rw [hidle]
    obtain ⟨effects, htrace, hspoken⟩ := serve_speaks net _ hserver (hrepeatable _ event.client_fd _)
    rw [htrace]
    intro fd message sent hmem
    rcases List.mem_append.mp hmem with hbefore | hnow
    · exact hearlier fd message sent hbefore
    · exact hspoken fd message sent hnow

theorem print_of_sentAs {message : Message} {line : String} (hsent : SentAs message line) :
    line.toUTF8.data.toList = cJSON_PrintUnformatted (message_object message) := by
  obtain ⟨response, hencode, hfits, hline⟩ := hsent
  obtain ⟨hprinted, -⟩ := message_to_json_eq_some_iff.mp hencode
  have hsize : 2 < SERVER_BUFFER_SIZE := by decide
  rw [response_line, if_pos (by omega)] at hline
  rw [hprinted, List.append_cancel_right hline]

end Loop

/-- Each end reads what the other one writes as it is meant. -/
theorem client_and_server_agree (unescapes : JsonString → String → Bool) {net : Net} {history : List (World × Event)} {world : World}
    (hrun : ServerRun net history world) (event : Event) :
    (∀ fd message sent, Effect.send fd message sent ∈ (final_world ((serve net event).run world)).trace →
      message.Readable → ∀ line, SentAs message line → ∀ JsonDocument_Parse : String → Option JsonElement,
        (∀ text : String, text.toUTF8.data.toList = cJSON_PrintUnformatted (message_object message) →
          JsonDocument_Parse text = (message_object message).document) →
        ∃ parsed, ServerMessage.Parse unescapes JsonDocument_Parse line = .ok (some parsed) ∧
          parsed.Carries message) ∧
      ∀ ToLower ToUpper Trim passes lines,
        ∀ request ∈ Controller.SendLoopAsync ToLower ToUpper Trim passes lines,
          ∀ (JsonSerializer_Serialize : JsonElement → String) (cJSON_Parse : CString → Option CJson) (json : CJson),
            cJSON_Parse (.lit (JsonSerializer_Serialize request.2)) = some json →
            json.document = some request.2 →
            ∃ decoded, message_from_json cJSON_Parse (.lit (JsonSerializer_Serialize request.2)) = some decoded ∧
              Conveys request.1 request.2 decoded := by
  refine ⟨fun fd message sent hmem hvalid line hsent JsonDocument_Parse hparse => ?_, ?_⟩
  · exact parse_spoken (spoken_of_run hrun event fd message sent hmem) hvalid (hparse line (print_of_sentAs hsent))
  · intro ToLower ToUpper Trim passes lines request hmem JsonSerializer_Serialize cJSON_Parse json hparse hdocument
    exact conveys_of_loop hmem hparse hdocument

section Tests

theorem sends_confirmation (username : CString)
    (hnamed : 0 < strlen username ∧ strlen username ≤ USER_USERNAME_MAX_LENGTH) :
    ∃ sent, Effect.send 4 (response (.lit "IDENTIFY") (.lit "SUCCESS") username) sent ∈
      (final_world ((serve reliable (.request 4 (identify_as username))).run (.idle server_init []))).trace := by
  have hregister : (Event.request 4 (identify_as username)).reaction server_init =
      .register ⟨username, 4, .ACTIVE, hnamed⟩ := by
    have hcut : username.cut 8 = username := CString.cut_of_strlen_le hnamed.2
    have hunknown : server_init.users.find_by_client_fd 4 = none := rfl
    have hfree : server_init.users.find_by_username username = none := rfl
    simp [Event.reaction, reaction, identify_as, identify_reaction, hcut, hunknown, hfree, user_init, hnamed]
  rw [final_world_serve reliable [] Server.consistent_init, hregister]
  dsimp only [Event.client_fd, Reaction.perform]
  exact sends_first fun trace => emits_announce trivial

/-- The line that confirms a name, and the one that asks for it. -/
def confirmation : String :=
  "\x7b\"type\":\"RESPONSE\",\"operation\":\"IDENTIFY\",\"result\":\"SUCCESS\",\"extra\":\"ana\"\x7d"

def introduction : String := "\x7b\"type\":\"IDENTIFY\",\"username\":\"ana\"\x7d"

theorem client_and_server_agree_on_introduction :
    (∃ message parsed, SentAs message confirmation ∧ parsed.Carries message ∧
      ServerMessage.Parse (fun _ _ => true)
        (fun text => if text = confirmation then (message_object message).document else none) confirmation =
          .ok (some parsed)) ∧
      ∃ outgoing decoded, Conveys "identify" outgoing decoded ∧
        message_from_json (fun raw => parse_known [string_object
          [(.lit "type", .lit "IDENTIFY"), (.lit "username", .lit "ana")]] raw.bytes) (.lit introduction) =
            some decoded := by
  have hstart : ServerRun reliable [] (.idle server_init []) := .start
  obtain ⟨hserver, hclient⟩ := client_and_server_agree (fun _ _ => true) hstart (.request 4 (identify_as (.lit "ana")))
  constructor
  · obtain ⟨sent, hsent⟩ := sends_confirmation (.lit "ana") (by decide)
    have hvalid : (response (.lit "IDENTIFY") (.lit "SUCCESS") (CString.lit "ana")).Readable := by
      rw [Message.Readable, strings_response]
      decide +kernel
    have hline : SentAs (response (.lit "IDENTIFY") (.lit "SUCCESS") (CString.lit "ana")) confirmation :=
      ⟨_, message_to_json_eq_some_iff.mpr ⟨rfl, by decide +kernel⟩, by decide +kernel, by decide +kernel⟩
    generalize response (.lit "IDENTIFY") (.lit "SUCCESS") (CString.lit "ana") = message at hsent hvalid hline
    obtain ⟨parsed, hparsed, hcarries⟩ := hserver 4 message sent hsent hvalid confirmation hline
      (fun text => if text = confirmation then (message_object message).document else none) fun text htext =>
        if_pos (toUTF8_inj (htext.trans (print_of_sentAs hline).symm))
    exact ⟨message, parsed, hline, hcarries, hparsed⟩
  · have hspelled : Spelled [(.lit "type", .lit "IDENTIFY"), (.lit "username", .lit "ana")]
        [("type", "IDENTIFY"), ("username", "ana")] :=
      .cons_lit (by decide) (CString.unicode_lit (by decide))
        (.cons_lit (by decide) (CString.unicode_lit (by decide)) .nil)
    obtain ⟨decoded, haccepted, hconveys⟩ := hclient id id id 1 ["identify", "ana"] _ List.mem_cons_self
      (fun _ => introduction) (fun raw => parse_known [string_object
        [(.lit "type", .lit "IDENTIFY"), (.lit "username", .lit "ana")]] raw.bytes) _ rfl
      (document_string_object hspelled)
    exact ⟨_, decoded, hconveys, haccepted⟩

end Tests

end ojalvo
