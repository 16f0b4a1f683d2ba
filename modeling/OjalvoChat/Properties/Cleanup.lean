import OjalvoChat.Protocol.Connection
import OjalvoChat.Protocol.Refusal

namespace ojalvo

/-- What a finished connection should leave behind: no entry, and its descriptor
closed once. -/
structure LeavesNothing (client_fd : Fd) (start after : World) : Prop where
  users : ∀ username, ¬ after.server.Registered client_fd username
  members : ∀ roomname username, ¬ after.server.Member roomname client_fd username
  guests : ∀ roomname username, ¬ after.server.Guest roomname client_fd username
  closed_once : ∃ effects, after.trace = start.trace ++ effects ∧ (closed effects).count client_fd = 1

/-- A step in which the connection is disconnected. -/
def Dismissed (cJSON_Parse : CString → Option CJson) (net : Net) (client_fd : Fd) (moment : Connection × Moment) :
    Prop :=
  ∃ event, moment_event cJSON_Parse client_fd moment.1 moment.2 = some event ∧
    Disconnects net moment.1.1 client_fd event

/-- Exactly one step of a history disconnects the connection. -/
def DismissedOnce (cJSON_Parse : CString → Option CJson) (net : Net) (client_fd : Fd)
    (history : List (Connection × Moment)) : Prop :=
  ∃ later moment earlier, history = later ++ moment :: earlier ∧ Dismissed cJSON_Parse net client_fd moment ∧
    ∀ other ∈ later ++ earlier, ¬ Dismissed cJSON_Parse net client_fd other

section Counting

variable {net : Net} {server : Server} {trace : List Effect} {client_fd fd : Fd}

/-- A failed answer closes one descriptor. -/
theorem count_closed_unanswered (message : Message) (failed_fd : Fd) :
    (closed_unanswered net client_fd message failed_fd trace).length ≤ 1 := by
  unfold closed_unanswered
  split <;> simp

/-- At the first failed invitation the others are left. -/
theorem count_closed_invitations (roomname : CString) (invitation : Message) (invited_users : List User) :
    (closed_invitations net roomname invitation invited_users server trace).length ≤ 1 := by
  induction invited_users generalizing server trace with
  | nil => simp [closed_invitations]
  | cons user rest ih =>
    unfold closed_invitations
    dsimp only
    split
    · simp
    · split
      · exact ih
      · simp

/-- No request closes two descriptors. -/
theorem Reaction.length_closed_le (reaction : Reaction) (net : Net) (client_fd : Fd) (server : Server)
    (trace : List Effect) : (reaction.closed net client_fd server trace).length ≤ 1 := by
  cases reaction with
  | reply fd message => exact count_closed_unanswered message client_fd
  | register user => exact count_closed_unanswered _ client_fd
  | create room creator => exact count_closed_unanswered _ client_fd
  | invite roomname invited_users invitation => exact count_closed_invitations roomname invitation invited_users
  | join roomname user => exact count_closed_unanswered _ client_fd
  | _ => simp [Reaction.closed]

/-- No reaction closes a descriptor twice. -/
theorem Reaction.count_closed (reaction : Reaction) :
    (reaction.closed net client_fd server trace).count fd =
      if fd ∈ reaction.closed net client_fd server trace then 1 else 0 := by
  have hlength := reaction.length_closed_le net client_fd server trace
  split
  · rename_i hmem
    have hpositive := List.count_pos_iff.mpr hmem
    have hbound := List.count_le_length (a := fd) (l := reaction.closed net client_fd server trace)
    omega
  · rename_i habsent
    exact List.count_eq_zero.mpr habsent

end Counting

/-- A test that succeeds once on a list singles out one element. -/
theorem countP_eq_one_iff {A : Type*} {p : A → Bool} {P : A → Prop} {list : List A}
    (hsame : ∀ element ∈ list, (p element = true ↔ P element)) :
    list.countP p = 1 ↔
      ∃ before element after, list = before ++ element :: after ∧ P element ∧ ∀ other ∈ before ++ after, ¬ P other := by
  constructor
  · intro hone
    obtain ⟨element, hmem, hholds⟩ := List.countP_pos_iff.mp (hone.symm ▸ Nat.one_pos)
    obtain ⟨before, after, rfl⟩ := List.append_of_mem hmem
    rw [List.countP_append, List.countP_cons_of_pos hholds] at hone
    have hbefore : before.countP p = 0 := by omega
    have hafter : after.countP p = 0 := by omega
    refine ⟨before, element, after, rfl, (hsame element hmem).mp hholds, fun other hother hother_holds => ?_⟩
    rcases List.mem_append.mp hother with hin | hin
    · exact List.countP_eq_zero.mp hbefore other hin ((hsame other (by simp [hin])).mpr hother_holds)
    · exact List.countP_eq_zero.mp hafter other hin ((hsame other (by simp [hin])).mpr hother_holds)
  · rintro ⟨before, element, after, rfl, hholds, hothers⟩
    have hbefore : before.countP p = 0 := List.countP_eq_zero.mpr fun other hin hother =>
      hothers other (List.mem_append_left after hin) ((hsame other (by simp [hin])).mp hother)
    have hafter : after.countP p = 0 := List.countP_eq_zero.mpr fun other hin hother =>
      hothers other (List.mem_append_right before hin) ((hsame other (by simp [hin])).mp hother)
    rw [List.countP_append, List.countP_cons_of_pos ((hsame element (by simp)).mpr hholds), hbefore, hafter]

section Connections

variable {cJSON_Parse : CString → Option CJson} {net : Net} {client_fd : Fd} {world : World}
  {history : List (Connection × Moment)} {connection : Connection}

/-- What holds throughout the life of a connection that began at an open world. -/
structure Alive (client_fd : Fd) (start : World) (closings : Nat) (world : World) : Prop where
  ready : world.Ready
  connected : world.Connected
  closes : ∃ effects, world.trace = start.trace ++ effects ∧ Effect.accept client_fd ∉ effects ∧
    (closed effects).count client_fd = closings

theorem Alive.served {start before after : World} {event : Event} {closings : Nat} (hhonest : net.Honest)
    (halive : Alive client_fd start closings before) (hserved : Served net before event after)
    (hother : event ≠ .accept client_fd) :
    Alive client_fd start (closings +
      if client_fd ∈ (event.reaction before.server).closed net event.client_fd before.server before.trace then 1 else 0)
      after := by
  obtain ⟨⟨hidle, hserver⟩, hconnected, effects, htrace, hnew, hcount⟩ := halive
  have hready := served_ready ⟨hidle, hserver⟩ hserved
  rw [hidle] at hserved hconnected
  obtain ⟨more, hmore, hclosed, hopened⟩ := closes_serve net before.trace hserver event
  rw [hserved] at hmore
  refine ⟨hready, served_connected hhonest hserver hconnected hserved, effects ++ more, ?_, ?_, ?_⟩
  · rw [← List.append_assoc, ← htrace]
    exact hmore
  · rw [List.mem_append]
    rintro (hmem | hmem)
    · exact hnew hmem
    · exact hother (hopened client_fd hmem)
  · rw [closed_append, List.count_append, hcount, hclosed, Reaction.count_closed]

/-- While the connection lives, each of its moments closes it once if it disconnects
it, and otherwise not. -/
theorem Alive.step {start : World} {before after : Connection} {moment : Moment} {closings : Nat}
    (hhonest : net.Honest) (halive : Alive client_fd start closings before.1)
    (hstep : connection_step cJSON_Parse net client_fd before moment = some after) :
    Alive client_fd start (closings + if disconnects cJSON_Parse net client_fd before moment then 1 else 0)
      after.1 := by
  rcases connection_step_cases hstep with ⟨hnone, hsame⟩ | ⟨event, hevent, hother, hserved⟩
  · rw [hsame]
    simpa [disconnects, hnone] using halive
  · simpa [disconnects, hevent] using halive.served hhonest hserved hother

/-- How often a connection was closed is how often it was disconnected. -/
theorem alive_of_connection_run (hhonest : net.Honest) {earlier : List (World × Event)}
    (hrun : ServerRun net earlier world)
    (hconnection : ConnectionRun cJSON_Parse net client_fd world history connection) :
    Alive client_fd (accepted client_fd world) (history.countP fun moment =>
      disconnects cJSON_Parse net client_fd moment.1 moment.2) connection.1 := by
  have haccepted : ServerRun net ((world, .accept client_fd) :: earlier) (accepted client_fd world) :=
    hrun.step (served_accepted net client_fd world)
  induction hconnection with
  | start => exact ⟨run_ready haccepted, run_connected hhonest haccepted, [], by simp, List.not_mem_nil, rfl⟩
  | step hprefix hstep ih =>
    rw [List.countP_cons]
    exact ih.step hhonest hstep

/-- At every moment of a connection the server is ready for an event. -/
theorem ready_of_connection_run {earlier : List (World × Event)} (hrun : ServerRun net earlier world)
    (hconnection : ConnectionRun cJSON_Parse net client_fd world history connection) :
    ∀ moment ∈ history, moment.1.1.Ready := by
  have haccepted : ServerRun net ((world, .accept client_fd) :: earlier) (accepted client_fd world) :=
    hrun.step (served_accepted net client_fd world)
  have hkept := hconnection.invariant_under (I := fun connection => connection.1.Ready) (C := fun _ _ => True)
    (fun _ _ _ => trivial) (run_ready haccepted) fun before moment after hready _ hstep => by
      rcases connection_step_cases hstep with ⟨-, hsame⟩ | ⟨event, -, -, hserved⟩
      · rw [hsame]
        exact hready
      · exact served_ready hready hserved
  exact fun moment hmem => (hkept.2 moment.1 moment.2 hmem).1

/-- The test for a disconnection is right. -/
theorem disconnects_eq_true_iff {moment : Connection × Moment} (hready : moment.1.1.Ready) :
    disconnects cJSON_Parse net client_fd moment.1 moment.2 = true ↔
      Dismissed cJSON_Parse net client_fd moment := by
  obtain ⟨⟨before, thread⟩, step⟩ := moment
  obtain ⟨hidle, hserver⟩ := hready
  dsimp only at hidle hserver
  unfold disconnects Dismissed
  rw [Option.any_eq_true]
  refine exists_congr fun event => and_congr_right fun _ => ?_
  rw [decide_eq_true_iff, ← disconnects_iff hserver event, ← hidle]

theorem count_disconnects_eq_one_iff {earlier : List (World × Event)} (hrun : ServerRun net earlier world)
    (hconnection : ConnectionRun cJSON_Parse net client_fd world history connection) :
    (history.countP fun moment => disconnects cJSON_Parse net client_fd moment.1 moment.2) = 1 ↔
      DismissedOnce cJSON_Parse net client_fd history :=
  countP_eq_one_iff fun moment hmem =>
    disconnects_eq_true_iff (ready_of_connection_run hrun hconnection moment hmem)

end Connections

/-- A connection leaves nothing behind if and only if it is disconnected exactly
once while it lives. -/
theorem finished_connection_leaves_nothing_iff (cJSON_Parse : CString → Option CJson) {net : Net}
    (hhonest : net.Honest) {earlier : List (World × Event)} {world : World} (hrun : ServerRun net earlier world)
    {client_fd : Fd} {history : List (Connection × Moment)} {after : World}
    (hconnection : ConnectionRun cJSON_Parse net client_fd world history (after, .returned)) :
    LeavesNothing client_fd (accepted client_fd world) after ↔
      DismissedOnce cJSON_Parse net client_fd history := by
  obtain ⟨hready, hconnected, effects, htrace, hnew, hcount⟩ := alive_of_connection_run hhonest hrun hconnection
  rw [← count_disconnects_eq_one_iff hrun hconnection]
  constructor
  · rintro ⟨-, -, -, others, hothers, honce⟩
    have hsame : others = effects := List.append_cancel_left (hothers.symm.trans htrace)
    rw [← hcount, ← hsame]
    exact honce
  · intro hone
    have hclose : Effect.close client_fd ∈ effects := by
      rw [← mem_closed, ← List.count_pos_iff]
      omega
    have hclosed : is_open after.trace client_fd = false := by
      change after.trace = _ at htrace
      rw [htrace]
      exact is_open_append_of_close hclose hnew
    have hnobody : ∀ username, ¬ after.server.Registered client_fd username := by
      intro username hregistered
      have hopen := hconnected client_fd username hregistered
      change is_open after.trace client_fd = true at hopen
      rw [hclosed] at hopen
      cases hopen
    exact ⟨hnobody, fun roomname username hmember => hnobody username (hready.consistent.registered_of_member hmember),
      fun roomname username hguest => hnobody username (hready.consistent.registered_of_guest hguest),
      effects, htrace, hcount.trans hone⟩

/-- A client that sends some lines in one chunk and hangs up. -/
def brief_visit (objects : List CJson) : List Moment :=
  .own (.receive (sent_lines objects)) ::
    (objects.map fun _ => .own .extract) ++ [.own .extract, .own .hang_up]

theorem brief_visit_leaves_nothing_iff :
    ∃ history after, ConnectionRun parse_visit sockets 4 (.idle server_init []) history (after, .returned) ∧
      LeavesNothing 4 (accepted 4 (.idle server_init [])) after := by
  obtain ⟨history, after, hconnection, htest⟩ := exists_connection_run parse_visit sockets 4 (.idle server_init [])
    (brief_visit [identify_object, disconnect_object])
    (fun history _ => (history.countP fun moment => disconnects parse_visit sockets 4 moment.1 moment.2) = 1)
    (by decide +kernel)
  exact ⟨history, after, hconnection,
    (finished_connection_leaves_nothing_iff parse_visit honest_sockets .start hconnection).mpr
      ((count_disconnects_eq_one_iff .start hconnection).mp (of_decide_eq_true htest))⟩

/-- A client that identifies itself and hangs up stays registered. -/
theorem hanging_up_leaves_user :
    ¬ ∀ history after, ConnectionRun parse_visit sockets 4 (.idle server_init []) history (after, .returned) →
      LeavesNothing 4 (accepted 4 (.idle server_init [])) after := by
  intro hnever
  obtain ⟨history, after, hconnection, htest⟩ := exists_connection_run parse_visit sockets 4 (.idle server_init [])
    (brief_visit [identify_object]) (fun _ after => after.server.users.Lists 4 (.lit "ana")) (by decide +kernel)
  exact (hnever history after hconnection).users (.lit "ana") (of_decide_eq_true htest)

end ojalvo
