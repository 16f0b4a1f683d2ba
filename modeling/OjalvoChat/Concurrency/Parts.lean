import OjalvoChat.Concurrency.Pool

namespace ojalvo

/-- Whom a message is meant for. -/
inductive Audience where
  | one
  | members
  | everybody
  deriving DecidableEq

def MessageType.audience (type : MessageType) : Audience :=
  match type with
  | .NEW_USER | .NEW_STATUS | .PUBLIC_TEXT_FROM | .DISCONNECTED => .everybody
  | .JOINED_ROOM | .LEFT_ROOM | .ROOM_TEXT_FROM => .members
  | _ => .one

/-- The messages that pass on what a client has said. -/
def MessageType.carries_text (type : MessageType) : Bool :=
  match type with
  | .TEXT_FROM | .PUBLIC_TEXT_FROM | .ROOM_TEXT_FROM => true
  | _ => false

/-- The actions that handlers are made of, as far as the texts they use unchecked
are `given` and the messages they send are of a type that may be `said`. -/
inductive Part (net : Net) (given : Option CString → Prop) (said : MessageType → Prop) :
    {A : Type} → Action A → Prop where
  | strdup (text : Option CString) (hgiven : given text) : Part net given said (strdup text)
  | strndup (text : Option CString) (limit : Nat) (hgiven : given text) : Part net given said (strndup text limit)
  | users_table_query {A : Type} (query : UsersTable → A) : Part net given said (users_table_query .server_users query)
  | users_table_find_by_username (username : Option CString) (hgiven : given username) :
    Part net given said (users_table_find_by_username .server_users username)
  | users_table_add (username : CString) (client_fd : Fd) :
    Part net given said (users_table_add .server_users username client_fd)
  | users_table_remove (username : CString) : Part net given said (users_table_remove .server_users username)
  | users_table_change_status (client_fd : Fd) (status : UserStatus) :
    Part net given said (users_table_change_status_by_client_fd .server_users client_fd status)
  | room_table_contains (roomname : CString) : Part net given said (room_table_contains roomname)
  | room_table_add (roomname : CString) : Part net given said (room_table_add roomname)
  | room_table_remove (roomname : CString) : Part net given said (room_table_remove roomname)
  | room_remove_data (user : User) : Part net given said (room_table_for_each (room_remove_data user))
  | room_update_status (user : User) (status : UserStatus) :
    Part net given said (room_table_for_each (room_update_status user status))
  | room_users (roomname : CString) (users_obj : CJson) :
    Part net given said (room_table_with roomname room_users users_obj)
  | room_is_a_member (roomname : CString) (context : RoomVisitorContext) :
    Part net given said (room_table_with roomname room_is_a_member context)
  | room_is_a_guest (roomname : CString) (context : RoomVisitorContext) :
    Part net given said (room_table_with roomname room_is_a_guest context)
  | room_add_creator (roomname : CString) (context : RoomVisitorContext) :
    Part net given said (room_table_with roomname room_add_creator context)
  | room_add_to_guests (roomname : CString) (context : RoomVisitorContext) :
    Part net given said (room_table_with roomname room_add_to_guests context)
  | room_from_guest_to_member (roomname : CString) (context : RoomVisitorContext) :
    Part net given said (room_table_with roomname room_from_guest_to_member context)
  | room_leave (roomname : CString) (context : RoomVisitorContext) :
    Part net given said (room_table_with roomname room_leave context)
  | room_notify_members (roomname : CString) (message : Message) (client_fd : Fd)
    (hmembers : message.type.audience = .members) (hsaid : said message.type) :
    Part net given said (room_table_with roomname (room_notify_members net message client_fd) ())
  | server_send (client_fd : Fd) (message : Message) (hone : message.type.audience = .one)
    (hsaid : said message.type) :
    Part net given said (server_send net client_fd message)
  | server_disconnect_client (client_fd : Fd) : Part net given said (server_disconnect_client client_fd)

/-- Programs made of these actions and of broadcasts to all users, whatever the
actions answer. -/
inductive Handler.Built (net : Net) (given : Option CString → Prop) (said : MessageType → Prop) :
    {A : Type} → Handler A → Prop where
  | ret {A : Type} (value : A) : Built net given said (.ret value)
  | act {A B : Type} {action : Action A} {next : A → Handler B} (hpart : Part net given said action)
    (hnext : ∀ value, Built net given said (next value)) :
    Built net given said (.act action next)
  | notify {B : Type} {message : Message} {client_fd : Fd} {next : Unit → Handler B}
    (heverybody : message.type.audience = .everybody) (hsaid : said message.type)
    (hnext : ∀ value, Built net given said (next value)) :
    Built net given said (notify_all_but_self net .server_users message client_fd >>= next)

namespace Handler

variable {net : Net} {given : Option CString → Prop} {said : MessageType → Prop} {A B : Type} {client_fd : Fd}

/-- Two programs of the parts, one after the other. -/
theorem Built.bind {program : Handler A} {next : A → Handler B} (hprogram : program.Built net given said)
    (hnext : ∀ value, (next value).Built net given said) : Handler.Built net given said (program >>= next) := by
  induction hprogram with
  | ret value => exact hnext value
  | act hpart _ ih => exact .act hpart fun value => ih value hnext
  | notify heverybody hsaid _ ih =>
    rw [bind_assoc]
    exact .notify heverybody hsaid fun value => ih value hnext

theorem built_pure (value : A) : Handler.Built net given said (pure value : Handler A) := .ret value

/-- A part, and what follows its answer. -/
theorem built_lift_bind {action : Action A} {next : A → Handler B} (hpart : Part net given said action)
    (hnext : ∀ value, (next value).Built net given said) : Handler.Built net given said (liftM action >>= next) :=
  .act hpart hnext

theorem built_lift {action : Action A} (hpart : Part net given said action) :
    Handler.Built net given said (liftM action : Handler A) := .act hpart .ret

/-- A broadcast to all users, and what follows it. -/
theorem built_notify_bind {message : Message} {next : Unit → Handler B}
    (heverybody : message.type.audience = .everybody) (hsaid : said message.type)
    (hnext : ∀ value, (next value).Built net given said) :
    Handler.Built net given said (notify_all_but_self net .server_users message client_fd >>= next) :=
  .notify heverybody hsaid hnext

end Handler

/-- What handlers may use and say whatever they are asked. -/
structure Grants (given : Option CString → Prop) (said : MessageType → Prop) : Prop where
  text : ∀ text, given (some text)
  plain : ∀ type : MessageType, type.carries_text = false → said type

/-- If everything is given and may be said, handlers have what they need. -/
theorem grants_all : Grants (fun _ => True) fun _ => True := ⟨fun _ => trivial, fun _ _ => trivial⟩

section Handlers

open Handler

variable {net : Net} {given : Option CString → Prop} {said : MessageType → Prop} {client_fd : Fd} {msg_in : Message}

/-- A disconnection is built from the parts. -/
theorem built_process_disconnect (hgrants : Grants given said) (client_fd : Fd) :
    Handler.Built net given said (process_disconnect net client_fd) := by
  have hclose : Handler.Built net given said (do
      server_disconnect_client client_fd
      return true : Handler Bool) :=
    built_lift_bind (.server_disconnect_client client_fd) fun _ => built_pure true
  refine built_lift_bind (.users_table_query _) fun found => ?_
  cases found with
  | none => exact hclose
  | some user =>
    refine built_lift_bind (.strdup _ (hgrants.text _)) fun username => ?_
    refine built_notify_bind rfl (hgrants.plain _ rfl) fun _ => ?_
    exact built_lift_bind (.room_remove_data user) fun _ => built_lift_bind (.users_table_remove _) fun _ => hclose

/-- A message to one client, with a disconnection if it fails. -/
theorem built_send_or_disconnect (hgrants : Grants given said) {fd failed_fd : Fd} {message : Message}
    (hone : message.type.audience = .one) (hsaid : said message.type) :
    Handler.Built net given said (send_or_disconnect net fd message failed_fd) := by
  refine built_lift_bind (.server_send fd message hone hsaid) fun sent => ?_
  cases sent with
  | true => exact built_pure true
  | false => exact built_process_disconnect hgrants failed_fd

theorem built_send_invalid_and_disconnect (hgrants : Grants given said) (client_fd : Fd) :
    Handler.Built net given said (send_invalid_and_disconnect net client_fd) := by
  refine built_lift_bind (.strdup _ (hgrants.text _)) fun operation => ?_
  refine built_lift_bind (.strdup _ (hgrants.text _)) fun result => ?_
  dsimp only
  split
  · exact built_pure false
  · exact built_lift_bind (.server_send _ _ rfl (hgrants.plain _ rfl)) fun _ =>
      built_process_disconnect hgrants client_fd

theorem built_process_identify (hgrants : Grants given said) :
    Handler.Built net given said (process_identify net msg_in client_fd) := by
  unfold process_identify
  cases hname : msg_in.username with
  | none => exact built_pure false
  | some requested =>
    refine built_lift_bind (.strndup _ _ (hgrants.text _)) fun username => ?_
    cases username with
    | none => exact built_pure false
    | some username =>
      refine built_lift_bind (.users_table_query _) fun registered => ?_
      cases registered with
      | some user =>
        dsimp only
        split
        · exact built_send_invalid_and_disconnect hgrants client_fd
        · exact built_pure true
      | none =>
        refine built_lift_bind (.users_table_find_by_username _ (hgrants.text _)) fun taken => ?_
        cases taken with
        | some user =>
          dsimp only
          split
          · refine built_lift_bind (.strdup _ (hgrants.text _)) fun operation => ?_
            refine built_lift_bind (.strdup _ (hgrants.text _)) fun result => ?_
            refine built_lift_bind (.strdup _ (hgrants.text _)) fun extra => ?_
            refine built_lift_bind (.server_send _ _ rfl (hgrants.plain _ rfl)) fun _ => ?_
            exact (built_process_disconnect hgrants client_fd).bind fun _ => built_pure true
          · exact built_pure true
        | none =>
          refine built_lift_bind (.users_table_add _ _) fun added => ?_
          cases added with
          | false => exact built_pure false
          | true =>
            refine built_lift_bind (.strdup _ (hgrants.text _)) fun operation => ?_
            refine built_lift_bind (.strdup _ (hgrants.text _)) fun result => ?_
            refine built_lift_bind (.strdup _ (hgrants.text _)) fun extra => ?_
            refine built_lift_bind (.server_send _ _ rfl (hgrants.plain _ rfl)) fun sent => ?_
            cases sent with
            | false => exact built_process_disconnect hgrants client_fd
            | true =>
              exact built_lift_bind (.strdup _ (hgrants.text _)) fun name =>
                built_notify_bind rfl (hgrants.plain _ rfl) fun _ => built_pure true

theorem built_process_status (hgrants : Grants given said) :
    Handler.Built net given said (process_status net msg_in client_fd) := by
  unfold process_status
  cases hstatus : msg_in.status with
  | none => exact built_pure false
  | some requested =>
    refine built_lift_bind (.strdup _ (hgrants.text _)) fun text => ?_
    cases user_status_from_string text with
    | none => exact built_send_invalid_and_disconnect hgrants client_fd
    | some msg_status =>
      refine built_lift_bind (.users_table_query _) fun found => ?_
      cases found with
      | none => exact built_pure true
      | some user =>
        dsimp only
        split
        · refine built_lift_bind (.users_table_change_status _ _) fun _ => ?_
          refine built_lift_bind (.room_update_status _ _) fun _ => ?_
          refine built_lift_bind (.strdup _ (hgrants.text _)) fun username => ?_
          refine built_lift_bind (.strdup _ (hgrants.text _)) fun status => ?_
          exact built_notify_bind rfl (hgrants.plain _ rfl) fun _ => built_pure true
        · exact built_pure true

theorem built_process_users (hgrants : Grants given said) :
    Handler.Built net given said (process_users net client_fd) :=
  built_lift_bind (.users_table_query _) fun _ => built_send_or_disconnect hgrants rfl (hgrants.plain _ rfl)

/-- TEXT uses the name of the addressee and the text unchecked, and passes the text
on. -/
theorem built_process_text (hgrants : Grants given said) (husername : given msg_in.username)
    (htext : given msg_in.text) (hsaid : said .TEXT_FROM) :
    Handler.Built net given said (process_text net msg_in client_fd) := by
  refine built_lift_bind (.users_table_find_by_username _ husername) fun addressee => ?_
  cases addressee with
  | some user_to =>
    refine built_lift_bind (.users_table_query _) fun compared => ?_
    dsimp only
    split
    · exact built_pure true
    · refine built_lift_bind (.users_table_query _) fun sender => ?_
      cases sender with
      | none => exact built_pure false
      | some user_from =>
        refine built_lift_bind (.strdup _ (hgrants.text _)) fun username => ?_
        refine built_lift_bind (.strdup _ htext) fun text => ?_
        split
        · exact built_pure false
        · exact built_send_or_disconnect hgrants rfl hsaid
  | none =>
    refine built_lift_bind (.strdup _ (hgrants.text _)) fun operation => ?_
    refine built_lift_bind (.strdup _ (hgrants.text _)) fun result => ?_
    refine built_lift_bind (.strdup _ husername) fun extra => ?_
    dsimp only
    split
    · exact built_pure false
    · exact built_send_or_disconnect hgrants rfl (hgrants.plain _ rfl)

/-- PUBLIC_TEXT uses the text unchecked and passes it on. -/
theorem built_process_public_text (hgrants : Grants given said) (htext : given msg_in.text)
    (hsaid : said .PUBLIC_TEXT_FROM) :
    Handler.Built net given said (process_public_text net msg_in client_fd) := by
  refine built_lift_bind (.users_table_query _) fun sender => ?_
  cases sender with
  | none => exact built_pure false
  | some user_from =>
    refine built_lift_bind (.strdup _ (hgrants.text _)) fun username => ?_
    refine built_lift_bind (.strdup _ htext) fun text => ?_
    dsimp only
    split
    · exact built_pure false
    · exact built_notify_bind rfl hsaid fun _ => built_pure true

/-- The answer that most requests about a room end with. -/
theorem built_room_response (hgrants : Grants given said) (text : CString) {rest : Option CString → Message}
    (hone : ∀ result, (rest result).type.audience = .one) (hsaid : ∀ result, said (rest result).type) :
    Handler.Built net given said (do
      let result ← strdup text
      if result.isNone then return false
      send_or_disconnect net client_fd (rest result) client_fd) := by
  refine built_lift_bind (.strdup _ (hgrants.text _)) fun result => ?_
  split
  · exact built_pure false
  · exact built_send_or_disconnect hgrants (hone result) (hsaid result)

theorem built_process_new_room (hgrants : Grants given said) :
    Handler.Built net given said (process_new_room net msg_in client_fd) := by
  unfold process_new_room
  cases hroomname : msg_in.roomname with
  | none => exact built_pure false
  | some roomname =>
    refine built_lift_bind (.strndup _ _ (hgrants.text _)) fun rm_name => ?_
    cases rm_name with
    | none => exact built_pure false
    | some rm_name =>
      refine built_lift_bind (.strdup _ (hgrants.text _)) fun operation => ?_
      refine built_lift_bind (.strdup _ (hgrants.text _)) fun extra => ?_
      split
      · exact built_pure false
      refine built_lift_bind (.room_table_contains _) fun exists_already => ?_
      cases exists_already with
      | true => exact built_room_response hgrants _ (fun _ => rfl) fun _ => hgrants.plain _ rfl
      | false =>
        refine built_lift_bind (.strdup _ (hgrants.text _)) fun result => ?_
        split
        · exact built_pure false
        refine built_lift_bind (.room_table_add _) fun added => ?_
        cases added with
        | false => exact built_pure false
        | true =>
          refine built_lift_bind (.users_table_query _) fun found => ?_
          cases found with
          | none => exact built_pure false
          | some room_creator =>
            exact built_lift_bind (.room_add_creator _ _) fun _ =>
              built_send_or_disconnect hgrants rfl (hgrants.plain _ rfl)

/-- The names in an invitation are never null. -/
theorem built_find_invited_users (hgrants : Grants given said) (usernames : List CString) :
    Handler.Built net given said (find_invited_users usernames) := by
  induction usernames with
  | nil => exact built_pure _
  | cons username rest ih =>
    refine built_lift_bind (.users_table_find_by_username _ (hgrants.text _)) fun found => ?_
    cases found with
    | none => exact built_pure _
    | some user => exact ih.bind fun others => built_pure _

theorem built_invite_users (hgrants : Grants given said) (roomname : CString) {invitation : Message}
    (hone : invitation.type.audience = .one) (hsaid : said invitation.type) (invited_users : List User) :
    Handler.Built net given said (invite_users net roomname invitation invited_users) := by
  induction invited_users with
  | nil => exact built_pure none
  | cons invited_user rest ih =>
    refine built_lift_bind (.room_is_a_member _ _) fun first => built_lift_bind (.room_is_a_guest _ _) fun context => ?_
    split
    · exact built_pure (some true)
    refine built_lift_bind (.room_add_to_guests _ _) fun _ => ?_
    refine built_lift_bind (.server_send _ _ hone hsaid) fun sent => ?_
    cases sent with
    | true => exact ih
    | false => exact (built_process_disconnect hgrants _).bind fun disconnected => built_pure (some disconnected)

theorem built_process_invite (hgrants : Grants given said) :
    Handler.Built net given said (process_invite net msg_in client_fd) := by
  unfold process_invite
  split
  · rename_i roomname usernames _ _
    refine built_lift_bind (.strdup _ (hgrants.text _)) fun operation => ?_
    split
    · exact built_pure false
    refine built_lift_bind (.room_table_contains _) fun room_exists => ?_
    cases room_exists with
    | false =>
      refine built_lift_bind (.strdup _ (hgrants.text _)) fun result => ?_
      refine built_lift_bind (.strdup _ (hgrants.text _)) fun extra => ?_
      split
      · exact built_pure false
      · exact built_send_or_disconnect hgrants rfl (hgrants.plain _ rfl)
    | true =>
      refine built_lift_bind (.users_table_query _) fun found => ?_
      cases found with
      | none => exact built_send_invalid_and_disconnect hgrants client_fd
      | some user_from =>
        refine built_lift_bind (.room_is_a_member _ _) fun context => ?_
        split
        · refine (built_find_invited_users hgrants usernames).bind fun invited => ?_
          cases invited with
          | error missing =>
            refine built_lift_bind (.strdup _ (hgrants.text _)) fun result => ?_
            refine built_lift_bind (.strdup _ (hgrants.text _)) fun extra => ?_
            split
            · exact built_pure false
            · exact built_send_or_disconnect hgrants rfl (hgrants.plain _ rfl)
          | ok invited_users =>
            refine built_lift_bind (.strdup _ (hgrants.text _)) fun username => ?_
            refine built_lift_bind (.strdup _ (hgrants.text _)) fun invitation_room => ?_
            split
            · exact built_pure false
            · exact (built_invite_users hgrants roomname rfl (hgrants.plain _ rfl) invited_users).bind fun left =>
                built_pure _
        · exact built_send_invalid_and_disconnect hgrants client_fd
  · exact built_pure false

/-- Requests about a room begin alike. -/
theorem built_room_request (hgrants : Grants given said) (name roomname : CString)
    {rest : Option CString → Option CString → User → RoomVisitorContext → Handler Bool}
    (hrest : ∀ operation extra user_from context, (rest operation extra user_from context).Built net given said) :
    Handler.Built net given said (do
      let operation ← strdup name
      let extra ← strdup roomname
      if operation.isNone ∨ extra.isNone then return false
      let room_exists ← room_table_contains roomname
      if !room_exists then
        let result ← strdup (CString.lit "NO_SUCH_ROOM")
        if result.isNone then return false
        let response := { message_init with type := .RESPONSE, operation, result, extra }
        send_or_disconnect net client_fd response client_fd
      else
        let found ← users_table_find_by_client_fd .server_users client_fd
        match found with
        | none => send_invalid_and_disconnect net client_fd
        | some user_from =>
          let context ← room_table_with roomname room_is_a_member
            { user := user_from, is_in_room := false, is_empty_now := false }
          rest operation extra user_from context) := by
  refine built_lift_bind (.strdup _ (hgrants.text _)) fun operation => ?_
  refine built_lift_bind (.strdup _ (hgrants.text _)) fun extra => ?_
  split
  · exact built_pure false
  refine built_lift_bind (.room_table_contains _) fun room_exists => ?_
  cases room_exists with
  | false => exact built_room_response hgrants _ (fun _ => rfl) fun _ => hgrants.plain _ rfl
  | true =>
    refine built_lift_bind (.users_table_query _) fun found => ?_
    cases found with
    | none => exact built_send_invalid_and_disconnect hgrants client_fd
    | some user_from => exact built_lift_bind (.room_is_a_member _ _) fun context => hrest _ _ _ _

theorem built_process_join_room (hgrants : Grants given said) :
    Handler.Built net given said (process_join_room net msg_in client_fd) := by
  unfold process_join_room
  cases hroomname : msg_in.roomname with
  | none => exact built_pure false
  | some roomname =>
    refine built_room_request hgrants _ roomname fun operation extra user_from context => ?_
    split
    · exact built_pure true
    refine built_lift_bind (.room_is_a_guest _ _) fun context => ?_
    split
    · refine built_lift_bind (.room_from_guest_to_member _ _) fun _ => ?_
      refine built_lift_bind (.strdup _ (hgrants.text _)) fun result => ?_
      split
      · exact built_pure false
      refine built_lift_bind (.server_send _ _ rfl (hgrants.plain _ rfl)) fun sent => ?_
      cases sent with
      | false => exact built_process_disconnect hgrants client_fd
      | true =>
        refine built_lift_bind (.strdup _ (hgrants.text _)) fun joined_name => ?_
        refine built_lift_bind (.strdup _ (hgrants.text _)) fun username => ?_
        exact built_lift_bind (.room_notify_members _ _ _ rfl (hgrants.plain _ rfl)) fun _ => built_pure true
    · exact built_room_response hgrants _ (fun _ => rfl) fun _ => hgrants.plain _ rfl

theorem built_process_room_users (hgrants : Grants given said) :
    Handler.Built net given said (process_room_users net msg_in client_fd) := by
  unfold process_room_users
  cases hroomname : msg_in.roomname with
  | none => exact built_pure false
  | some roomname =>
    refine built_room_request hgrants _ roomname fun operation extra user_from context => ?_
    split
    · refine built_lift_bind (.strdup _ (hgrants.text _)) fun list_name => ?_
      split
      · exact built_pure false
      · exact built_lift_bind (.room_users _ _) fun users => built_send_or_disconnect hgrants rfl (hgrants.plain _ rfl)
    · exact built_room_response hgrants _ (fun _ => rfl) fun _ => hgrants.plain _ rfl

/-- ROOM_TEXT checks its fields, and passes the text on. -/
theorem built_process_room_text (hgrants : Grants given said) (hsaid : said .ROOM_TEXT_FROM) :
    Handler.Built net given said (process_room_text net msg_in client_fd) := by
  unfold process_room_text
  split
  · rename_i roomname text _ _
    refine built_room_request hgrants _ roomname fun operation extra user_from context => ?_
    split
    · refine built_lift_bind (.strdup _ (hgrants.text _)) fun text_room => ?_
      refine built_lift_bind (.strdup _ (hgrants.text _)) fun username => ?_
      refine built_lift_bind (.strdup _ (hgrants.text _)) fun room_text => ?_
      split
      · exact built_pure false
      · exact built_lift_bind (.room_notify_members _ _ _ rfl hsaid) fun _ => built_pure true
    · exact built_room_response hgrants _ (fun _ => rfl) fun _ => hgrants.plain _ rfl
  · exact built_pure false

theorem built_process_leave_room (hgrants : Grants given said) :
    Handler.Built net given said (process_leave_room net msg_in client_fd) := by
  unfold process_leave_room
  cases hroomname : msg_in.roomname with
  | none => exact built_pure false
  | some roomname =>
    have hnotice (user_from : User) : Handler.Built net given said (do
        let left_name ← strdup roomname
        let username ← strdup user_from.username
        let left_room := { message_init with type := .LEFT_ROOM, roomname := left_name, username }
        room_table_with roomname (room_notify_members net left_room client_fd) ()
        return true : Handler Bool) := by
      refine built_lift_bind (.strdup _ (hgrants.text _)) fun left_name => ?_
      refine built_lift_bind (.strdup _ (hgrants.text _)) fun username => ?_
      exact built_lift_bind (.room_notify_members _ _ _ rfl (hgrants.plain _ rfl)) fun _ => built_pure true
    refine built_room_request hgrants _ roomname fun operation extra user_from context => ?_
    split
    · refine built_lift_bind (.room_leave _ _) fun context => ?_
      split
      · exact built_lift_bind (.room_table_remove _) fun _ => hnotice user_from
      · exact hnotice user_from
    · exact built_room_response hgrants _ (fun _ => rfl) fun _ => hgrants.plain _ rfl

/-- The fields that requests use unchecked. -/
structure Message.Given (given : Option CString → Prop) (msg_in : Message) : Prop where
  addressee : msg_in.type = .TEXT → given msg_in.username
  text : msg_in.type = .TEXT → given msg_in.text
  public_text : msg_in.type = .PUBLIC_TEXT → given msg_in.text

theorem given_all (msg_in : Message) : msg_in.Given fun _ => True :=
  ⟨fun _ => trivial, fun _ => trivial, fun _ => trivial⟩

/-- The messages that pass on what a request says. -/
structure Message.Says (said : MessageType → Prop) (msg_in : Message) : Prop where
  text : msg_in.type = .TEXT → said .TEXT_FROM
  public_text : msg_in.type = .PUBLIC_TEXT → said .PUBLIC_TEXT_FROM
  room_text : msg_in.type = .ROOM_TEXT → said .ROOM_TEXT_FROM

theorem says_all (msg_in : Message) : msg_in.Says fun _ => True :=
  ⟨fun _ => trivial, fun _ => trivial, fun _ => trivial⟩

/-- The answer to a request of a client that has not identified. -/
theorem built_not_identified (hgrants : Grants given said) (client_fd : Fd) : Handler.Built net given said (do
    let operation ← strdup (CString.lit "INVALID")
    let result ← strdup (CString.lit "NOT_IDENTIFIED")
    let not_identified := { message_init with type := .RESPONSE, operation, result }
    if operation.isNone ∨ result.isNone then return false
    let _ ← server_send net client_fd not_identified
    let _ ← process_disconnect net client_fd
    return true : Handler Bool) := by
  refine built_lift_bind (.strdup _ (hgrants.text _)) fun operation => ?_
  refine built_lift_bind (.strdup _ (hgrants.text _)) fun result => ?_
  dsimp only
  split
  · exact built_pure false
  · exact built_lift_bind (.server_send _ _ rfl (hgrants.plain _ rfl)) fun _ =>
      (built_process_disconnect hgrants client_fd).bind fun _ => built_pure true

/-- What a request is answered with is built from the parts, if its texts are given
and may be said. -/
theorem built_message_handler_process (hgrants : Grants given said) (hmessage : msg_in.Given given)
    (hmay : msg_in.Says said) :
    Handler.Built net given said (message_handler_process net msg_in client_fd) := by
  unfold message_handler_process
  split
  · exact built_pure false
  split
  · exact built_process_disconnect hgrants client_fd
  split
  · exact built_process_identify hgrants
  refine built_lift_bind (.users_table_query _) fun identified => ?_
  cases identified with
  | false =>
    exact built_not_identified hgrants client_fd
  | true =>
    dsimp only
    cases htype : msg_in.type with
    | STATUS => exact built_process_status hgrants
    | USERS => exact built_process_users hgrants
    | TEXT => exact built_process_text hgrants (hmessage.addressee htype) (hmessage.text htype) (hmay.text htype)
    | PUBLIC_TEXT => exact built_process_public_text hgrants (hmessage.public_text htype) (hmay.public_text htype)
    | NEW_ROOM => exact built_process_new_room hgrants
    | INVITE => exact built_process_invite hgrants
    | JOIN_ROOM => exact built_process_join_room hgrants
    | ROOM_USERS => exact built_process_room_users hgrants
    | ROOM_TEXT => exact built_process_room_text hgrants (hmay.room_text htype)
    | LEAVE_ROOM => exact built_process_leave_room hgrants
    | _ => exact built_pure true

/-- So is what follows a line that is no message. -/
theorem built_handle_invalid_line (hgrants : Grants given said) :
    Handler.Built net given said (handle_invalid_line net client_fd) := by
  refine built_lift_bind (.strdup _ (hgrants.text _)) fun operation => ?_
  refine built_lift_bind (.strdup _ (hgrants.text _)) fun result => ?_
  dsimp only
  split
  · exact built_pure ()
  refine built_lift_bind (.server_send _ _ rfl (hgrants.plain _ rfl)) fun _ => ?_
  refine built_lift_bind (.users_table_query _) fun registered => ?_
  cases registered with
  | true => exact (built_process_disconnect hgrants client_fd).bind fun _ => built_pure ()
  | false => exact built_lift (.server_disconnect_client client_fd)

/-- What a thread runs for a line is built from the parts. -/
theorem built_serve {line : Option Message} (hgrants : Grants given said)
    (hline : ∀ msg_in, line = some msg_in → msg_in.Given given)
    (hmay : ∀ msg_in, line = some msg_in → msg_in.Says said) :
    Handler.Built net given said (serve net (Event.of_line client_fd line)) := by
  cases line with
  | none => exact built_handle_invalid_line hgrants
  | some msg_in =>
    exact (built_message_handler_process hgrants (hline msg_in rfl) (hmay msg_in rfl)).bind fun _ => built_pure ()

end Handlers

section Each

variable {net : Net} {given : Option CString → Prop} {said : MessageType → Prop} {A : Type}
  {P : ∀ {B : Type}, Action B → Prop}

/-- What holds of the parts and of the actions of a broadcast holds of every action. -/
theorem Handler.Built.each {program : Handler A} (hprogram : program.Built net given said)
    (hpart : ∀ {B : Type} (action : Action B), Part net given said action → P action)
    (hsize : P (users_table_size .server_users))
    (hvisits : ∀ message client_fd context, message.type.audience = .everybody → said message.type →
      P (users_table_for_each .server_users (send_if_is_not_self net message client_fd) context))
    (hstop : P (stop .out_of_bounds : Action Unit)) : program.Each P fun _ => True := by
  have hloop (fds : List Int) : (disconnect_failed .server_users fds).Each P fun _ => True := by
    induction fds with
    | nil => exact Program.each_lift hstop fun _ => trivial
    | cons fd rest ih =>
      unfold disconnect_failed
      split
      · exact Program.each_pure trivial
      · refine Program.each_bind (Program.each_lift (hpart _ (.users_table_query _)) fun _ => trivial) fun found _ => ?_
        cases found with
        | none => exact ih
        | some user =>
          refine Program.each_bind (Program.each_lift (hpart _ (.room_remove_data user)) fun _ => trivial) fun _ _ => ?_
          exact Program.each_bind (Program.each_lift (hpart _ (.users_table_remove _)) fun _ => trivial) fun _ _ => ih
  induction hprogram with
  | ret value => trivial
  | act haction _ ih => exact ⟨hpart _ haction, ih⟩
  | @notify _ message client_fd _ heverybody hsaid _ ih =>
    have hnotify : (notify_all_but_self net .server_users message client_fd).Each P fun _ => True :=
      Program.each_bind (Program.each_lift hsize fun _ => trivial) fun _ _ =>
        Program.each_bind (Program.each_lift (hvisits _ _ _ heverybody hsaid) fun _ => trivial) fun context _ => hloop _
    exact Program.each_bind hnotify fun value _ => ih value

end Each

end ojalvo
