import OjalvoChat.Protocol.Delivery
import OjalvoChat.Protocol.Recipients
import OjalvoChat.Protocol.Runs

namespace ojalvo

/-- The requests that end in a broadcast to a room: the room as it is before,
the notice, and the effects that precede the broadcast. -/
inductive RoomNotice (net : Net) (server : Server) (trace : List Effect) (client_fd : Fd) (msg_in : Message) :
    Room → Message → List Effect → Prop where
  | text (user : User) (roomname : CString) (room : Room) (text : CString) (htype : msg_in.type = .ROOM_TEXT)
    (hsender : server.Sender client_fd user) (hroomname : msg_in.roomname = some roomname)
    (hroom : server.rooms.lookup roomname = some room) (hmember : user ∈ room.members)
    (htext : msg_in.text = some text) :
    RoomNotice net server trace client_fd msg_in room (room_text_from_notice roomname user.username text) trace
  | joined (user : User) (roomname : CString) (room : Room) (htype : msg_in.type = .JOIN_ROOM)
    (hsender : server.Sender client_fd user) (hroomname : msg_in.roomname = some roomname)
    (hroom : server.rooms.lookup roomname = some room) (hguest : user ∈ room.guests)
    (hanswered : net trace client_fd (response (.lit "JOIN_ROOM") (.lit "SUCCESS") roomname) = true) :
    RoomNotice net server trace client_fd msg_in room (joined_room_notice roomname user.username)
      (trace ++ [.send client_fd (response (.lit "JOIN_ROOM") (.lit "SUCCESS") roomname) true])
  | left (user : User) (roomname : CString) (room : Room) (htype : msg_in.type = .LEAVE_ROOM)
    (hsender : server.Sender client_fd user) (hroomname : msg_in.roomname = some roomname)
    (hroom : server.rooms.lookup roomname = some room) (hmember : user ∈ room.members) :
    RoomNotice net server trace client_fd msg_in room (left_room_notice roomname user.username) trace

/-- Some member of the room cannot be told. -/
def Unheard (net : Net) (server : Server) (trace : List Effect) (client_fd : Fd) (msg_in : Message) : Prop :=
  ∃ room message earlier, RoomNotice net server trace client_fd msg_in room message earlier ∧
    ∃ fd, Effect.send fd message false ∈ broadcast net message earlier (recipients room.members.entries client_fd)

/-- The thread waits for a mutex that it holds itself. -/
def Outcome.Deadlocked (outcome : Outcome) : Prop := ∃ mutex stopped, outcome = .error (.blocked mutex) stopped

section Outcomes

variable {net : Net} {server : Server} {trace : List Effect} {client_fd : Fd} {msg_in : Message}

theorem not_deadlocked_ok (answer : Bool) (world : World) : ¬ Outcome.Deadlocked (.ok answer world) := by
  rintro ⟨mutex, stopped, heq⟩
  cases heq

/-- A single message is never what a handler gets stuck on. -/
theorem deadlocked_send_or_depart_iff (message : Message) (failed_fd : Fd) (continuation : List Effect → Outcome) :
    (send_or_depart net client_fd message failed_fd server trace continuation).Deadlocked ↔
      net trace client_fd message = true ∧ (continuation (trace ++ [.send client_fd message true])).Deadlocked := by
  unfold send_or_depart
  cases net trace client_fd message with
  | true => simp
  | false => simpa using not_deadlocked_ok true _

theorem not_deadlocked_reply (fd : Fd) (message : Message) :
    ¬ ((Reaction.reply fd message).perform net client_fd server trace).Deadlocked := by
  simp only [Reaction.perform, deadlocked_send_or_depart_iff]
  exact fun hdeadlocked => not_deadlocked_ok true _ hdeadlocked.2

/-- A broadcast to a room gets stuck exactly if a send of it fails. -/
theorem deadlocked_tell_members_iff (roomname : CString) (message : Message) :
    (tell_members net client_fd roomname message server trace).Deadlocked ↔
      ∃ fd, Effect.send fd message false ∈
        broadcast net message trace (server.room_recipients roomname client_fd) := by
  simp only [tell_members]
  by_cases hfailed : failures (broadcast net message trace (server.room_recipients roomname client_fd)) = []
  · rw [if_pos hfailed]
    refine iff_of_false (not_deadlocked_ok true _) ?_
    rintro ⟨fd, hsend⟩
    have hmem := mem_failures.mpr ⟨message, hsend⟩
    rw [hfailed] at hmem
    cases hmem
  · rw [if_neg hfailed]
    refine iff_of_true ⟨_, _, rfl⟩ ?_
    obtain ⟨fd, hmem⟩ := List.exists_mem_of_ne_nil _ hfailed
    obtain ⟨other, hsend⟩ := mem_failures.mp hmem
    obtain ⟨_, _, _, heq⟩ := exists_of_mem_broadcast hsend
    cases heq
    exact ⟨fd, hsend⟩

/-- Sending invitations never gets stuck. -/
theorem not_deadlocked_invite_all (roomname : CString) (invitation : Message) (invited_users : List User) :
    ¬ (invite_all net roomname invitation invited_users server trace).Deadlocked := by
  induction invited_users generalizing server trace with
  | nil => exact not_deadlocked_ok true _
  | cons user rest ih =>
    unfold invite_all
    split
    · exact not_deadlocked_ok true _
    · rw [deadlocked_send_or_depart_iff]
      exact fun hdeadlocked => ih hdeadlocked.2

/-- Only a room broadcast blocks, and it does when a member cannot be told. -/
theorem Permitted.deadlocked {reaction : Reaction} (hpermitted : Permitted server client_fd msg_in reaction)
    (hserver : server.Consistent) (hdeadlocked : (reaction.perform net client_fd server trace).Deadlocked) :
    Unheard net server trace client_fd msg_in := by
  cases hpermitted with
  | crash habsent =>
    obtain ⟨mutex, stopped, heq⟩ := hdeadlocked
    cases heq
  | answer operation result extra => exact absurd hdeadlocked (not_deadlocked_reply _ _)
  | user_list user htype hsender => exact absurd hdeadlocked (not_deadlocked_reply _ _)
  | room_user_list roomname room htype hroom => exact absurd hdeadlocked (not_deadlocked_reply _ _)
  | text user user_to text htype hsender haddressee hother htext =>
    exact absurd hdeadlocked (not_deadlocked_reply _ _)
  | register user hfd hactive hname hunknown =>
    exact absurd ((deadlocked_send_or_depart_iff ..).mp hdeadlocked).2 (not_deadlocked_ok true _)
  | create user requested named htype hsender hroomname hfree =>
    simp only [Reaction.perform, deadlocked_send_or_depart_iff] at hdeadlocked
    exact absurd hdeadlocked.2 (not_deadlocked_ok true _)
  | invite user roomname room usernames invited_users htype hsender hroomname husernames hroom hmember hinvited =>
    simp only [Reaction.perform] at hdeadlocked
    exact absurd hdeadlocked (not_deadlocked_invite_all _ _ _)
  | join user roomname room htype hsender hroomname hroom houtside hguest =>
    obtain ⟨hanswered, htold⟩ := (deadlocked_send_or_depart_iff ..).mp hdeadlocked
    rw [deadlocked_tell_members_iff, ← hsender.connected, hserver.recipients_let_in hroom hsender.registered houtside,
      hsender.connected] at htold
    exact ⟨room, _, _, .joined user roomname room htype hsender hroomname hroom hguest hanswered, htold⟩
  | tell_room user roomname room text htype hsender hroomname hroom hmember htext =>
    have htold := (deadlocked_tell_members_iff ..).mp hdeadlocked
    simp only [Server.room_recipients, hroom] at htold
    exact ⟨room, _, trace, .text user roomname room text htype hsender hroomname hroom hmember htext, htold⟩
  | quit user roomname room htype hsender hroomname hroom hmember =>
    have htold := (deadlocked_tell_members_iff ..).mp hdeadlocked
    rw [← hsender.connected, hserver.recipients_quit hroom hmember, hsender.connected] at htold
    exact ⟨room, _, trace, .left user roomname room htype hsender hroomname hroom hmember, htold⟩
  | _ => exact absurd hdeadlocked (not_deadlocked_ok _ _)

/-- A room broadcast that a member cannot hear blocks. -/
theorem RoomNotice.deadlocked {room : Room} {message : Message} {earlier : List Effect}
    (hnotice : RoomNotice net server trace client_fd msg_in room message earlier) (hserver : server.Consistent)
    (hfailed : ∃ fd, Effect.send fd message false ∈
      broadcast net message earlier (recipients room.members.entries client_fd)) :
    ((reaction server client_fd msg_in).perform net client_fd server trace).Deadlocked := by
  cases hnotice with
  | text user roomname room text htype hsender hroomname hroom hmember htext =>
    have hcopies := hserver.rooms roomname room hroom
    have hcontains := (hcopies.mem_members_iff hserver.users hsender.registered).mp hmember
    rw [reaction_of_sender hserver hsender (by simp [htype])]
    simp only [registered_reaction, htype, room_text_reaction, htext, room_reaction, hroomname, hroom, hcontains,
      if_true, Reaction.perform, deadlocked_tell_members_iff, Server.room_recipients]
    exact hfailed
  | joined user roomname room htype hsender hroomname hroom hguest hanswered =>
    have hcopies := hserver.rooms roomname room hroom
    have hcontains := (hcopies.mem_guests_iff hserver.users hsender.registered).mp hguest
    have houtside : room.members.contains_by_client_fd user.socket_fd = false := by
      rw [← Bool.not_eq_true, ← hcopies.mem_members_iff hserver.users hsender.registered]
      exact fun hmember => hcopies.disjoint user hmember hguest
    have hrecipients := hserver.recipients_let_in hroom hsender.registered houtside
    rw [hsender.connected] at hrecipients
    rw [reaction_of_sender hserver hsender (by simp [htype])]
    simp only [registered_reaction, htype, join_room_reaction, room_reaction, hroomname, hroom, houtside, hcontains,
      Bool.false_eq_true, if_false, if_true, Reaction.perform, deadlocked_send_or_depart_iff,
      deadlocked_tell_members_iff, hrecipients]
    exact ⟨hanswered, hfailed⟩
  | left user roomname room htype hsender hroomname hroom hmember =>
    have hcopies := hserver.rooms roomname room hroom
    have hcontains := (hcopies.mem_members_iff hserver.users hsender.registered).mp hmember
    have hrecipients := hserver.recipients_quit hroom hmember
    rw [hsender.connected] at hrecipients
    rw [reaction_of_sender hserver hsender (by simp [htype])]
    simp only [registered_reaction, htype, leave_room_reaction, room_reaction, hroomname, hroom, hcontains, if_true,
      Reaction.perform, deadlocked_tell_members_iff, hrecipients]
    exact hfailed

/-- Whatever keeps the thread from completing is a mutex. -/
def Outcome.StopsOnMutex (outcome : Outcome) : Prop :=
  ∀ why stopped, outcome = .error why stopped → ∃ mutex, why = .blocked mutex

theorem stops_on_mutex_ok (answer : Bool) (world : World) : Outcome.StopsOnMutex (.ok answer world) := by
  rintro why stopped ⟨⟩

theorem stops_on_mutex_tell_members (roomname : CString) (message : Message) :
    (tell_members net client_fd roomname message server trace).StopsOnMutex := by
  intro why stopped hstopped
  simp only [tell_members] at hstopped
  split at hstopped
  · cases hstopped
  · cases hstopped
    exact ⟨_, rfl⟩

theorem stops_on_mutex_send_or_depart (message : Message) (failed_fd : Fd) (continuation : List Effect → Outcome)
    (hcontinuation : ∀ trace, (continuation trace).StopsOnMutex) :
    (send_or_depart net client_fd message failed_fd server trace continuation).StopsOnMutex := by
  unfold send_or_depart
  dsimp only
  split
  · exact hcontinuation _
  · exact stops_on_mutex_ok true _

theorem stops_on_mutex_invite_all (roomname : CString) (invitation : Message) (invited_users : List User) :
    (invite_all net roomname invitation invited_users server trace).StopsOnMutex := by
  induction invited_users generalizing server trace with
  | nil => exact stops_on_mutex_ok true _
  | cons user rest ih =>
    unfold invite_all
    split
    · exact stops_on_mutex_ok true _
    · exact stops_on_mutex_send_or_depart _ _ _ fun trace => ih

/-- Apart from the use of an absent field, only a mutex keeps a request from
completing. -/
theorem stops_on_mutex_perform {reaction : Reaction} (hfields : reaction ≠ .crash) :
    (reaction.perform net client_fd server trace).StopsOnMutex := by
  cases reaction with
  | crash => exact absurd rfl hfields
  | reply fd message => exact stops_on_mutex_send_or_depart _ _ _ fun _ => stops_on_mutex_ok true _
  | register user => exact stops_on_mutex_send_or_depart _ _ _ fun _ => stops_on_mutex_ok true _
  | create room creator => exact stops_on_mutex_send_or_depart _ _ _ fun _ => stops_on_mutex_ok true _
  | invite roomname invited_users invitation => exact stops_on_mutex_invite_all _ _ _
  | join roomname user => exact stops_on_mutex_send_or_depart _ _ _ fun _ => stops_on_mutex_tell_members _ _
  | tell_room roomname message => exact stops_on_mutex_tell_members _ _
  | quit roomname user => exact stops_on_mutex_tell_members _ _
  | _ => exact stops_on_mutex_ok _ _

end Outcomes

/-- In every reachable state a request deadlocks with itself exactly when it
ends in a broadcast to a room that some member cannot be told. Otherwise it
completes, unless it uses an absent field. -/
theorem no_self_deadlock_iff_all_hear {net : Net} {history : List (World × Event)} {world : World}
    (hrun : ServerRun net history world) (client_fd : Fd) (msg_in : Message) :
    ((∀ mutex stopped,
        (message_handler_process net msg_in client_fd).run world ≠ .error (.blocked mutex) stopped) ↔
      ¬ Unheard net world.server world.trace client_fd msg_in) ∧
    (¬ Unheard net world.server world.trace client_fd msg_in →
      ∀ why stopped, (message_handler_process net msg_in client_fd).run world = .error why stopped → why = .null) := by
  obtain ⟨hidle, hserver⟩ := run_ready hrun
  rw [hidle, run_message_handler_process net world.server world.trace client_fd msg_in hserver]
  have hiff : ((reaction world.server client_fd msg_in).perform net client_fd world.server world.trace).Deadlocked ↔
      Unheard net world.server world.trace client_fd msg_in :=
    ⟨(reaction_permitted client_fd msg_in hserver).deadlocked hserver, fun ⟨_, _, _, hnotice, hfailed⟩ =>
      hnotice.deadlocked hserver hfailed⟩
  rw [← hiff]
  refine ⟨by simp [Outcome.Deadlocked], fun hfree why stopped hstopped => ?_⟩
  by_cases hcrash : reaction world.server client_fd msg_in = .crash
  · rw [hcrash] at hstopped
    cases hstopped
    rfl
  · obtain ⟨mutex, rfl⟩ := stops_on_mutex_perform hcrash why stopped hstopped
    exact absurd ⟨mutex, stopped, hstopped⟩ hfree

/-- A member who hears everything except the texts of the room. -/
def deaf_to_room_texts : Net := fun _ fd message => !(fd = 5 && message.type = .ROOM_TEXT_FROM)

def greeting : Message :=
  { message_init with type := .ROOM_TEXT, roomname := some (.lit "sala"), text := some (.lit "hola") }

def Outcome.deadlocked (outcome : Outcome) : Bool :=
  match outcome with
  | .error (.blocked _) _ => true
  | _ => false

theorem Outcome.deadlocked_iff {outcome : Outcome} : outcome.deadlocked = true ↔ outcome.Deadlocked := by
  constructor
  · intro htest
    unfold Outcome.deadlocked at htest
    split at htest
    · exact ⟨_, _, rfl⟩
    · cases htest
  · rintro ⟨mutex, stopped, rfl⟩
    rfl

/-- Where all sends succeed, everybody hears the text. -/
theorem no_self_deadlock_iff_in_meeting :
    ∃ world : World, (world.server.rooms.lookup (.lit "sala")).isSome = true ∧
      (∀ mutex stopped, (message_handler_process reliable greeting 4).run world ≠ .error (.blocked mutex) stopped) ∧
      ∀ why stopped, (message_handler_process reliable greeting 4).run world = .error why stopped → why = .null := by
  obtain ⟨history, world, hrun, htest⟩ := exists_run_of_serve_all reliable meeting
    (fun _ world => (world.server.rooms.lookup (.lit "sala")).isSome) (by decide +kernel)
  obtain ⟨hfree, hcompletes⟩ := no_self_deadlock_iff_all_hear hrun 4 greeting
  have hheard : ¬ Unheard reliable world.server world.trace 4 greeting := by
    rintro ⟨room, message, earlier, -, fd, hfailed⟩
    simp [broadcast_reliable, sends] at hfailed
  exact ⟨world, htest, hfree.mpr hheard, hcompletes hheard⟩

/-- A text to a room with a member that cannot be reached blocks its thread for
ever. -/
theorem room_text_can_deadlock :
    ¬ ∀ (net : Net) (history : List (World × Event)) (world : World), ServerRun net history world →
      ∀ (client_fd : Fd) (msg_in : Message) (mutex : Mutex) (stopped : World),
        (message_handler_process net msg_in client_fd).run world ≠ .error (.blocked mutex) stopped := by
  intro hnever
  obtain ⟨history, world, hrun, htest⟩ := exists_run_of_serve_all deaf_to_room_texts meeting
    (fun _ world =>
      Outcome.deadlocked ((message_handler_process deaf_to_room_texts greeting 4).run world)) (by decide +kernel)
  obtain ⟨mutex, stopped, hblocked⟩ := Outcome.deadlocked_iff.mp htest
  exact hnever deaf_to_room_texts history world hrun 4 greeting mutex stopped hblocked

end ojalvo
