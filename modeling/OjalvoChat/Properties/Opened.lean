import OjalvoChat.Protocol.Presence
import OjalvoChat.Protocol.Starving

namespace ojalvo

/-- NEW_ROOM is answered once, about the name under which rooms are stored: either
there is such a room, or there is one now, with its creator alone in it. -/
def AnswersNewRoom (world : World) (client_fd : Fd) (username requested : CString) (msg_in : Message) : Prop :=
  ∃ answer after result,
    (message_handler_process reliable msg_in client_fd).run { world with alloc := allocating } = .ok answer after ∧
    after.trace = world.trace ++ [.send client_fd (response (.lit "NEW_ROOM") result (requested.cut 16)) true] ∧
    if requested.cut 16 ∈ world.server.rooms then
      result = .lit "ROOM_ALREADY_EXISTS" ∧ after.server.rooms = world.server.rooms
    else
      result = .lit "SUCCESS" ∧
        (∀ fd name, after.server.Member (requested.cut 16) fd name ↔ fd = client_fd ∧ name = username) ∧
        ∀ fd name, ¬ after.server.Guest (requested.cut 16) fd name

section Requests

variable {server : Server} {trace : List Effect} {client_fd : Fd} {username requested : CString} {msg_in : Message}
  (hserver : server.Consistent) (hregistered : server.Registered client_fd username)
  (htype : msg_in.type = .NEW_ROOM) (hroomname : msg_in.roomname = some requested)
include hserver

/-- Names longer than a room can have are never found. -/
theorem lookup_of_long_name (hlong : 16 < strlen requested) : server.rooms.lookup requested = none := by
  cases hroom : server.rooms.lookup requested with
  | none => rfl
  | some room =>
    have hshort : strlen room.roomname ≤ 16 := room.named.2
    rw [hserver.keyed requested room hroom] at hshort
    omega

include hregistered htype

variable (trace) in
theorem run_new_room : ∃ user ∈ server.users, user.username = username ∧ user.socket_fd = client_fd ∧
    (message_handler_process reliable msg_in client_fd).run (.idle server trace) =
      (new_room_reaction server user msg_in).perform reliable client_fd server trace := by
  obtain ⟨user, huser, hname, hfd⟩ := hserver.users.lists_iff.mp hregistered
  refine ⟨user, huser, hname, hfd, ?_⟩
  rw [run_message_handler_process reliable server trace client_fd msg_in hserver,
    reaction_of_sender hserver ⟨huser, hfd⟩ (by simp [htype])]
  simp only [registered_reaction, htype]

include hroomname

/-- A room that is found under the name as requested. -/
theorem answers_new_room_of_short_name (hshort : strlen requested ≤ 16) (hroom : requested ∈ server.rooms) :
    AnswersNewRoom (.idle server trace) client_fd username requested msg_in := by
  obtain ⟨room, hfound⟩ := HashTable.exists_lookup_of_mem hroom
  obtain ⟨user, -, -, hfd, hprocess⟩ := run_new_room trace hserver hregistered htype
  have hcut := CString.cut_of_strlen_le hshort
  simp only [new_room_reaction, hroomname, hcut, hfound] at hprocess
  rw [hfd] at hprocess
  refine ⟨true, _, _, hprocess, by rw [hcut]; rfl, ?_⟩
  rw [hcut, if_pos hroom]
  exact ⟨rfl, rfl⟩

/-- A room that is opened. -/
theorem answers_new_room_of_free_name (hnonempty : 0 < strlen requested) (hfree : requested.cut 16 ∉ server.rooms) :
    AnswersNewRoom (.idle server trace) client_fd username requested msg_in := by
  obtain ⟨user, huser, hname, hfd, hprocess⟩ := run_new_room trace hserver hregistered htype
  have hstored : server.rooms.lookup (requested.cut 16) = none := AList.lookup_eq_none.mpr hfree
  have hasked : server.rooms.lookup requested = none := by
    by_cases hlong : 16 < strlen requested
    · exact lookup_of_long_name hserver hlong
    · rwa [CString.cut_of_strlen_le (Nat.le_of_not_lt hlong)] at hstored
  have hnamed : 0 < strlen (requested.cut 16) ∧ strlen (requested.cut 16) ≤ ROOM_ROOMNAME_MAX_LENGTH := by
    rw [strlen_cut]
    exact ⟨lt_min (by decide) hnonempty, min_le_left 16 _⟩
  simp only [new_room_reaction, hroomname, hasked, hstored, dif_pos hnamed] at hprocess
  refine ⟨true, _, _, hprocess, rfl, ?_⟩
  rw [if_neg hfree]
  have hmember (fd : Fd) (name : CString) :
      (server.create_room (room_new (requested.cut 16) hnamed) user).Member (requested.cut 16) fd name ↔ _ :=
    Server.Consistent.member_create_room hnamed hstored
  refine ⟨rfl, fun fd name => (hmember fd name).trans ?_, fun fd name hguest => ?_⟩
  · rw [hname, hfd]
    constructor
    · rintro (⟨room, hroom, -⟩ | ⟨-, rfl, rfl⟩)
      · cases hstored.symm.trans hroom
      · exact ⟨rfl, rfl⟩
    · rintro ⟨rfl, rfl⟩
      exact Or.inr ⟨rfl, rfl, rfl⟩
  · obtain ⟨room, hroom, -⟩ := (Server.Consistent.guest_create_room hnamed hstored).mp hguest
    cases hstored.symm.trans hroom

/-- A longer name of a room that is there is found under neither name: the room
is not opened, and nothing is said. -/
theorem not_answers_new_room_of_long_name (hlong : 16 < strlen requested) (hroom : requested.cut 16 ∈ server.rooms) :
    ¬ AnswersNewRoom (.idle server trace) client_fd username requested msg_in := by
  obtain ⟨room, hstored⟩ := HashTable.exists_lookup_of_mem hroom
  obtain ⟨user, -, -, -, hprocess⟩ := run_new_room trace hserver hregistered htype
  simp only [new_room_reaction, hroomname, lookup_of_long_name hserver hlong, hstored] at hprocess
  rintro ⟨answer, after, result, hanswer, htrace, -⟩
  cases hprocess.symm.trans hanswer
  simp at htrace

end Requests

/-- NEW_ROOM is answered, but for names that are longer than the name of a room
that they begin with. -/
theorem new_room_is_answered_iff {net : Net} {history : List (World × Event × (Nat → Bool))} {world : World}
    (hrun : StarvedRun net history world) {client_fd : Fd} {username requested : CString} {msg_in : Message}
    (hregistered : world.server.Registered client_fd username) (htype : msg_in.type = .NEW_ROOM)
    (hroomname : msg_in.roomname = some requested) (hnonempty : 0 < strlen requested) :
    AnswersNewRoom world client_fd username requested msg_in ↔
      ¬ (16 < strlen requested ∧ requested.cut 16 ∈ world.server.rooms) := by
  obtain ⟨hheld, hserver⟩ := starved_run_ready hrun
  obtain ⟨server, held, trace, alloc⟩ := world
  cases hheld
  change AnswersNewRoom (.idle server trace) client_fd username requested msg_in ↔ _
  by_cases hroom : requested.cut 16 ∈ server.rooms
  · by_cases hlong : 16 < strlen requested
    · exact iff_of_false (not_answers_new_room_of_long_name hserver hregistered htype hroomname hlong hroom)
        fun hnot => hnot ⟨hlong, hroom⟩
    · have hshort : strlen requested ≤ 16 := Nat.le_of_not_lt hlong
      rw [CString.cut_of_strlen_le hshort] at hroom
      exact iff_of_true (answers_new_room_of_short_name hserver hregistered htype hroomname hshort hroom)
        fun hboth => hlong hboth.1
  · exact iff_of_true (answers_new_room_of_free_name hserver hregistered htype hroomname hnonempty hroom)
      fun hboth => hroom hboth.2

/-- The request to open a room. -/
def opening (roomname : CString) : Message :=
  { message_init with type := .NEW_ROOM, roomname := some roomname }

theorem new_room_is_answered_iff_in_meeting :
    ∃ world : World, world.server.Registered 4 (.lit "ana") ∧
      AnswersNewRoom world 4 (.lit "ana") (.lit "sala") (opening (.lit "sala")) := by
  obtain ⟨history, world, hrun, htest⟩ := exists_run_of_serve_all reliable (meeting.take 3)
    (fun _ world => world.server.Registered 4 (.lit "ana")) (by decide +kernel)
  obtain ⟨starved, hstarved⟩ := exists_starved_run hrun
  have hregistered := of_decide_eq_true htest
  exact ⟨world, hregistered, (new_room_is_answered_iff hstarved hregistered rfl rfl (by decide +kernel)).mpr
    fun hboth => absurd hboth.1 (by decide +kernel)⟩

/-- A name of seventeen bytes is asked for when its first sixteen are a room. -/
theorem longer_name_is_not_answered :
    ¬ ∀ history world, StarvedRun reliable history world → ∀ client_fd username requested msg_in,
      world.server.Registered client_fd username → msg_in.type = .NEW_ROOM → msg_in.roomname = some requested →
      0 < strlen requested → AnswersNewRoom world client_fd username requested msg_in := by
  intro halways
  obtain ⟨history, world, hrun, htest⟩ := exists_run_of_serve_all reliable
    (meeting.take 1 ++ [.request 4 (opening (.lit "abcdefghijklmnop"))])
    (fun _ world => world.server.Registered 4 (.lit "ana") ∧
      (CString.lit "abcdefghijklmnopq").cut 16 ∈ world.server.rooms) (by decide +kernel)
  obtain ⟨hregistered, hroom⟩ := of_decide_eq_true htest
  obtain ⟨starved, hstarved⟩ := exists_starved_run hrun
  obtain ⟨hidle, hserver⟩ := run_ready hrun
  have hanswers := halways starved world hstarved 4 (.lit "ana") (.lit "abcdefghijklmnopq")
    (opening (.lit "abcdefghijklmnopq")) hregistered rfl rfl (by decide +kernel)
  rw [hidle] at hanswers
  exact not_answers_new_room_of_long_name hserver hregistered rfl rfl (by decide +kernel) hroom hanswers

end ojalvo
