import Mathlib.Logic.Function.Basic
import Mathlib.Order.BooleanAlgebra.Set
import OjalvoChat.Library.Newcomers

/-! What the server is for, in terms of sets and functions: no sockets, no tables,
no locks and no message texts. -/

namespace ojalvo

/-- A room: who has joined it and who may join it. -/
@[ext] structure Hall (Client : Type) where
  members : Set Client
  guests : Set Client

/-- Who is known by which name and status, and who is in which room. -/
@[ext] structure Chat (Client Name Place Status : Type) where
  profile : Client → Option (Name × Status)
  hall : Place → Option (Hall Client)

/-- What is fixed for all clients. -/
structure Rules (Name Place Status : Type) where
  nameable : Set Name
  openable : Set Place
  initial : Status

inductive RoomOperation where
  | INVITE
  | JOIN_ROOM
  | ROOM_USERS
  | ROOM_TEXT
  | LEAVE_ROOM

/-- What a client can ask for. -/
inductive Request (Name Place Status Text : Type) where
  | identify (name : Name)
  /-- No status if the text names none. -/
  | set_status (status : Option Status)
  | list_users
  | text (addressee : Name) (text : Option Text)
  | public_text (text : Text)
  /-- The server shortens long names of rooms. -/
  | new_room (place : Place) (shortened : Bool)
  | invite (place : Place) (names : List Name)
  | join_room (place : Place)
  | room_users (place : Place)
  | room_text (place : Place) (text : Text)
  | leave_room (place : Place)
  | disconnect
  /-- A request that lacks a field, or a message that only servers send. -/
  | incomplete
  /-- A line that is no message. -/
  | garbage

/-- The requests that are for users only. -/
def Request.Plain {Name Place Status Text : Type} (request : Request Name Place Status Text) : Prop :=
  match request with
  | .identify _ => False
  | .disconnect => False
  | .garbage => False
  | _ => True

/-- What a client can be told. -/
inductive Notice (Name Place Status Text : Type) where
  | identified (name : Name)
  | user_already_exists (name : Name)
  | not_identified
  | invalid
  | user_list (users : Set (Name × Status))
  | no_such_user (name : Name)
  | room_created (place : Place)
  | room_already_exists (place : Place)
  | no_such_room (operation : RoomOperation) (place : Place)
  | not_joined (operation : RoomOperation) (place : Place)
  | no_such_invited (name : Name)
  | not_invited (place : Place)
  | joined (place : Place)
  | room_user_list (place : Place) (users : Set (Name × Status))
  | new_user (name : Name)
  | new_status (name : Name) (status : Status)
  | text_from (name : Name) (text : Text)
  | public_text_from (name : Name) (text : Text)
  | invitation (name : Name) (place : Place)
  | joined_room (place : Place) (name : Name)
  | room_text_from (place : Place) (name : Name) (text : Text)
  | left_room (place : Place) (name : Name)
  | disconnected (name : Name)

noncomputable section Chats

open Classical

variable {Client Name Place Status Text : Type}

def Chat.empty : Chat Client Name Place Status where
  profile _ := none
  hall _ := none

namespace Chat

variable (chat : Chat Client Name Place Status) (client : Client)

def Known (name : Name) : Prop := ∃ status, chat.profile client = some (name, status)

def Taken (name : Name) : Prop := ∃ client, chat.Known client name

/-- The users among some clients, as a list shows them. -/
def profiles (clients : Set Client) : Set (Name × Status) :=
  { entry | ∃ client ∈ clients, chat.profile client = some entry }

def inside (hall : Hall Client) : Set Name :=
  { name | ∃ client, (client ∈ hall.members ∨ client ∈ hall.guests) ∧ chat.Known client name }

def set_profile (name : Name) (status : Status) : Chat Client Name Place Status :=
  { chat with profile := Function.update chat.profile client (some (name, status)) }

def set_hall (place : Place) (hall : Option (Hall Client)) : Chat Client Name Place Status :=
  { chat with hall := Function.update chat.hall place hall }

/-- A client who leaves the server leaves every room. The rooms stay. -/
def without : Chat Client Name Place Status where
  profile := Function.update chat.profile client none
  hall place := (chat.hall place).map fun hall =>
    { members := hall.members \ {client}, guests := hall.guests \ {client} }

section Updates

variable {client} {other : Client} {name : Name} {status : Status} {place elsewhere : Place}
  {hall : Option (Hall Client)}

theorem profile_set_profile : (chat.set_profile client name status).profile client = some (name, status) := by
  simp [set_profile]

theorem profile_set_profile_of_ne (hother : other ≠ client) :
    (chat.set_profile client name status).profile other = chat.profile other := Function.update_of_ne hother ..

/-- Who has gone is not known any more. -/
theorem profile_without : (chat.without client).profile client = none := by simp [without]

/-- The others stay known as they were. -/
theorem profile_without_of_ne (hother : other ≠ client) : (chat.without client).profile other = chat.profile other :=
  Function.update_of_ne hother ..

/-- Somebody who is not known and in no hall can go unnoticed. -/
theorem without_eq_self (hunknown : chat.profile client = none)
    (houtside : ∀ place hall, chat.hall place = some hall → client ∉ hall.members ∧ client ∉ hall.guests) :
    chat.without client = chat := by
  refine Chat.ext (Function.update_eq_self_iff.mpr hunknown.symm) (funext fun place => ?_)
  cases hhall : chat.hall place with
  | none => simp only [without, hhall, Option.map_none]
  | some hall =>
    obtain ⟨hmember, hguest⟩ := houtside place hall hhall
    simp only [without, hhall, Option.map_some, Set.sdiff_singleton_eq_self hmember, Set.sdiff_singleton_eq_self hguest]

theorem hall_set_hall : (chat.set_hall place hall).hall place = hall := by simp [set_hall]

theorem hall_set_hall_of_ne (helsewhere : elsewhere ≠ place) :
    (chat.set_hall place hall).hall elsewhere = chat.hall elsewhere := Function.update_of_ne helsewhere ..

/-- A hall may be replaced by itself. -/
theorem set_hall_eq_self (hhall : chat.hall place = hall) : chat.set_hall place hall = chat :=
  Chat.ext rfl (Function.update_eq_self_iff.mpr hhall.symm)

/-- Of two changes of a hall the last one counts. -/
theorem set_hall_set_hall (later : Option (Hall Client)) :
    (chat.set_hall place hall).set_hall place later = chat.set_hall place later :=
  Chat.ext rfl (by simp [set_hall])

end Updates

/-- A client is known under one name. -/
theorem known_unique {chat : Chat Client Name Place Status} {client : Client} {name other : Name}
    (hknown : chat.Known client name) (hother : chat.Known client other) : name = other := by
  obtain ⟨status, hprofile⟩ := hknown
  obtain ⟨own, hown⟩ := hother
  rw [hprofile] at hown
  exact congrArg Prod.fst (Option.some.inj hown)

variable {chat client} in
/-- A guest brings one name. -/
theorem inside_insert_guest {name : Name} (howner : ∀ other, chat.Known other name ↔ other = client)
    (hall : Hall Client) :
    chat.inside { hall with guests := insert client hall.guests } = insert name (chat.inside hall) := by
  ext other
  constructor
  · rintro ⟨found, hmember | rfl | hguest, hknown⟩
    · exact Or.inr ⟨found, Or.inl hmember, hknown⟩
    · exact Or.inl (known_unique hknown ((howner found).mpr rfl))
    · exact Or.inr ⟨found, Or.inr hguest, hknown⟩
  · rintro (rfl | ⟨found, hinside, hknown⟩)
    · exact ⟨client, Or.inr (Set.mem_insert client hall.guests), (howner client).mpr rfl⟩
    · exact ⟨found, hinside.imp_right (Set.mem_insert_of_mem client), hknown⟩

end Chat

section Audiences

variable (client : Client) (notice : Notice Name Place Status Text)

def to_nobody : Client → List (Notice Name Place Status Text) := fun _ => []

def to_one : Client → List (Notice Name Place Status Text) := fun other => if other = client then [notice] else []

/-- All of some clients, except the one who is behind it. -/
def to_others (clients : Set Client) : Client → List (Notice Name Place Status Text) := fun other =>
  if other ≠ client ∧ other ∈ clients then [notice] else []

/-- Nobody hears of what he does himself. -/
theorem to_others_insert (clients : Set Client) :
    to_others client notice (insert client clients) = to_others client notice clients := by
  funext other
  by_cases hself : other = client
  · simp [to_others, hself]
  · simp [to_others, hself]

end Audiences

namespace Chat

variable (rules : Rules Name Place Status) (chat : Chat Client Name Place Status) (client : Client)

def users : Set Client := { client | chat.profile client ≠ none }

/-- To whoever has the name. -/
def to_named (name : Name) (notices : List (Notice Name Place Status Text)) :
    Client → List (Notice Name Place Status Text) := fun other => if chat.Known other name then notices else []

variable {chat client} in
/-- A name that one client has reaches this client and nobody else. -/
theorem to_named_eq_to_one {name : Name} (howner : ∀ other, chat.Known other name ↔ other = client)
    (notice : Notice Name Place Status Text) : chat.to_named name [notice] = to_one client notice :=
  funext fun other => if_congr (howner other) rfl rfl

/-- The first of the names that nobody has. -/
def first_free (names : List Name) : Option Name := names.find? fun listed => ¬ chat.Taken listed

variable {chat} in
/-- The first name that nobody has is the one behind the names that are taken. -/
theorem first_free_append {known rest : List Name} {missing : Name} (hknown : ∀ listed ∈ known, chat.Taken listed)
    (hmissing : ¬ chat.Taken missing) : chat.first_free (known ++ missing :: rest) = some missing :=
  List.find?_eq_some_iff_append.mpr ⟨decide_eq_true hmissing, known, rest, rfl, by simpa using hknown⟩

variable {chat} in
/-- Where all names are taken none is free. -/
theorem first_free_eq_none {names : List Name} (hknown : ∀ listed ∈ names, chat.Taken listed) :
    chat.first_free names = none :=
  List.find?_eq_none.mpr (by simpa using hknown)

def farewell : Client → List (Notice Name Place Status Text) :=
  match chat.profile client with
  | none => to_nobody
  | some (name, _) => to_others client (.disconnected name) chat.users

/-- An answer after which the client is disconnected. -/
def refuse (notice : Notice Name Place Status Text) :
    Chat Client Name Place Status × (Client → List (Notice Name Place Status Text)) :=
  (chat.without client, fun other => to_one client notice other ++ chat.farewell client other)

def identify (name : Name) : Chat Client Name Place Status × (Client → List (Notice Name Place Status Text)) :=
  match chat.profile client with
  | some (known, _) => if known ≠ name then chat.refuse client .invalid else (chat, to_nobody)
  | none =>
    if chat.Taken name then chat.refuse client (.user_already_exists name)
    else if name ∈ rules.nameable then
      (chat.set_profile client name rules.initial, fun other =>
        to_one client (.identified name) other ++ to_others client (.new_user name) chat.users other)
    else (chat, to_nobody)

/-- A request about a room. -/
def about (operation : RoomOperation) (place : Place)
    (react : Hall Client → Chat Client Name Place Status × (Client → List (Notice Name Place Status Text))) :
    Chat Client Name Place Status × (Client → List (Notice Name Place Status Text)) :=
  match chat.hall place with
  | none => (chat, to_one client (.no_such_room operation place))
  | some hall => react hall

/-- All are invited up to the first who is in the room already. -/
def invite (name : Name) (place : Place) (names : List Name) (hall : Hall Client) :
    Chat Client Name Place Status × (Client → List (Notice Name Place Status Text)) :=
  let invited := { other | ∃ listed ∈ newcomers (chat.inside hall) names, chat.Known other listed }
  (chat.set_hall place (some { hall with guests := hall.guests ∪ invited }), fun other =>
    if other ∈ invited then [.invitation name place] else [])

/-- The answer to a client who is known. -/
def answer (name : Name) (status : Status) (request : Request Name Place Status Text) :
    Chat Client Name Place Status × (Client → List (Notice Name Place Status Text)) :=
  match request with
  | .set_status none => chat.refuse client .invalid
  | .set_status (some wanted) =>
    if status ≠ wanted then
      (chat.set_profile client name wanted, to_others client (.new_status name wanted) chat.users)
    else (chat, to_nobody)
  | .list_users => (chat, to_one client (.user_list (chat.profiles Set.univ)))
  | .text addressee text =>
    if ¬ chat.Taken addressee then (chat, to_one client (.no_such_user addressee))
    else if name = addressee then (chat, to_nobody)
    else (chat, chat.to_named addressee (text.map (Notice.text_from name)).toList)
  | .public_text text => (chat, to_others client (.public_text_from name text) chat.users)
  | .new_room place shortened =>
    match chat.hall place with
    | some _ => (chat, if shortened then to_nobody else to_one client (.room_already_exists place))
    | none =>
      if place ∈ rules.openable then
        (chat.set_hall place (some { members := {client}, guests := ∅ }), to_one client (.room_created place))
      else (chat, to_nobody)
  | .invite place names =>
    chat.about client .INVITE place fun hall =>
      if client ∉ hall.members then chat.refuse client .invalid
      else
        match chat.first_free names with
        | some missing => (chat, to_one client (.no_such_invited missing))
        | none => chat.invite name place names hall
  | .join_room place =>
    chat.about client .JOIN_ROOM place fun hall =>
      if client ∈ hall.members then (chat, to_nobody)
      else if client ∈ hall.guests then
        (chat.set_hall place (some { members := insert client hall.members, guests := hall.guests \ {client} }),
          fun other => to_one client (.joined place) other ++
            to_others client (.joined_room place name) hall.members other)
      else (chat, to_one client (.not_invited place))
  | .room_users place =>
    chat.about client .ROOM_USERS place fun hall =>
      if client ∈ hall.members then (chat, to_one client (.room_user_list place (chat.profiles hall.members)))
      else (chat, to_one client (.not_joined .ROOM_USERS place))
  | .room_text place text =>
    chat.about client .ROOM_TEXT place fun hall =>
      if client ∈ hall.members then (chat, to_others client (.room_text_from place name text) hall.members)
      else (chat, to_one client (.not_joined .ROOM_TEXT place))
  | .leave_room place =>
    chat.about client .LEAVE_ROOM place fun hall =>
      if client ∈ hall.members then
        -- a room ends with its last member
        (chat.set_hall place
            (if hall.members \ {client} = ∅ then none else some { hall with members := hall.members \ {client} }),
          to_others client (.left_room place name) hall.members)
      else (chat, to_one client (.not_joined .LEAVE_ROOM place))
  | _ => (chat, to_nobody)

/-- What one request of a client leads to. -/
def serve (request : Request Name Place Status Text) :
    Chat Client Name Place Status × (Client → List (Notice Name Place Status Text)) :=
  match request with
  | .garbage => chat.refuse client .invalid
  | .disconnect => (chat.without client, chat.farewell client)
  | .identify name => chat.identify rules client name
  | request =>
    match chat.profile client with
    | none => chat.refuse client .not_identified
    | some (name, status) => chat.answer rules client name status request

section Serve

variable {rules chat client} {request : Request Name Place Status Text} (hplain : request.Plain)
include hplain

/-- Whoever is not known is refused everything but to be identified. -/
theorem serve_unknown (hunknown : chat.profile client = none) :
    chat.serve rules client request = chat.refuse client .not_identified := by
  cases request with
  | identify => cases hplain
  | disconnect => cases hplain
  | garbage => cases hplain
  | _ => simp only [serve, hunknown]

/-- Whoever is known gets the answer to the request. -/
theorem serve_known {name : Name} {status : Status} (hknown : chat.profile client = some (name, status)) :
    chat.serve rules client request = chat.answer rules client name status request := by
  cases request with
  | identify => cases hplain
  | disconnect => cases hplain
  | garbage => cases hplain
  | _ => simp only [serve, hknown]

end Serve

/-- What requests in a row lead to, with all that every client has been told. -/
def serve_all (requests : List (Client × Request Name Place Status Text)) :
    Chat Client Name Place Status × (Client → List (Notice Name Place Status Text)) :=
  requests.foldl
    (fun before sent =>
      let after := before.1.serve rules sent.1 sent.2
      (after.1, fun other => before.2 other ++ after.2 other))
    (.empty, to_nobody)

/-- The last request is served after all others. -/
theorem serve_all_append (requests : List (Client × Request Name Place Status Text)) (client : Client)
    (request : Request Name Place Status Text) :
    serve_all rules (requests ++ [(client, request)]) =
      let before := serve_all rules requests
      let after := before.1.serve rules client request
      (after.1, fun other => before.2 other ++ after.2 other) := by
  simp only [serve_all, List.foldl_append, List.foldl_cons, List.foldl_nil]

end Chat

end Chats

end ojalvo
