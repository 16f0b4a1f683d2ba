import OjalvoChat.ClientHandler.Threads
import OjalvoChat.MessageHandler.Quiet
import OjalvoChat.Protocol.Lines

namespace ojalvo

/-- The line that a thread handles. -/
def Thread.handles (cJSON_Parse : CString → Option CJson) (thread : Thread) : Option Event :=
  match thread.phase with
  | .between _ => none
  | .processing message message_length _ _ => line_event cJSON_Parse message message_length thread.client_fd

/-- A step of a thread concerns the connection of the thread: `recv` is called only
while the descriptor belongs to that connection, a line that is extracted and
handled was sent there, and only this descriptor is closed, while it still
belongs there. -/
def Attributed (cJSON_Parse : CString → Option CJson) (net : Net) (before : System) (move : Move) : Prop :=
  match move with
  | .accept _ => True
  | .receive index _ => ∀ thread, before.threads[index]? = some thread → before.owners thread.client_fd = some index
  | .hang_up index => ∀ thread, before.threads[index]? = some thread → before.owners thread.client_fd = some index
  | .extract index => ∀ thread buffer message message_length rest, before.threads[index]? = some thread →
    thread.phase = .between (.extracting buffer) →
    message_buffer_extract buffer SERVER_BUFFER_SIZE = some (message, message_length, rest) →
    before.owners thread.client_fd = some index ∧
      thread.sources.take message_length = List.replicate message_length index
  | .act index => ∀ thread, before.threads[index]? = some thread →
    (∀ msg_in, thread.handles cJSON_Parse = some (.request thread.client_fd msg_in) →
      before.owners thread.client_fd = some index) ∧
    ∀ after, system_step cJSON_Parse net before (.act index) = some after →
      ∀ fd ∈ closed_between before.world after.world, fd = thread.client_fd ∧ before.owners fd = some index

/-- The next action of a thread is to close a descriptor. -/
def Thread.about_to_close (thread : Thread) (world : World) : Bool :=
  match thread.phase with
  | .processing _ _ (.act body _) _ =>
    match body.run world with
    | .ok _ after => !(closed_between world after).isEmpty
    | .error _ _ => false
  | _ => false

/-- A thread that handles a line that is a message moves and is about to close a
descriptor. -/
def System.disconnects (cJSON_Parse : CString → Option CJson) (system : System) (move : Move) : Bool :=
  match move with
  | .act index =>
    (system.threads[index]?).any fun thread =>
      match thread.handles cJSON_Parse with
      | some (.request _ _) => thread.about_to_close system.world
      | _ => false
  | _ => false

section Lines

variable {cJSON_Parse : CString → Option CJson} {net : Net} {client_fd : Fd} {message : List UInt8}
  {message_length : Nat}

theorem closes_once_handle_invalid_line : Handler.ClosesOnce client_fd (handle_invalid_line net client_fd) := by
  unfold handle_invalid_line
  refine Program.Each.once_bind (quiet_lift (quiet_strdup _)) fun operation _ => ?_
  refine Program.Each.once_bind (quiet_lift (quiet_strdup _)) fun result _ => ?_
  dsimp only
  split
  · exact (Program.each_pure trivial).once
  · refine Program.Each.once_bind (quiet_lift (quiet_server_send _ _ _)) fun sent _ => ?_
    refine Program.Each.once_bind (quiet_lift (quiet_users_table_query _ _)) fun registered _ => ?_
    split
    · have hdeparture : Handler.ClosesOnce client_fd
          (message_handler_process net { message_init with type := .DISCONNECT } client_fd) := by
        unfold message_handler_process
        rw [if_neg (by decide), if_pos rfl]
        exact closes_once_process_disconnect net client_fd
      exact Program.Once.bind hdeparture fun _ _ => Program.each_pure trivial
    · exact Program.once_lift (closing_server_disconnect_client client_fd) fun _ => trivial

/-- A thread that handles a line that is no message closes its own descriptor, at
most once, and returns. -/
theorem closes_once_handle_line {fd : Fd}
    (hinvalid : line_event cJSON_Parse message message_length client_fd = some (.invalid fd)) :
    (handle_line cJSON_Parse net message message_length client_fd).Once Quiet (Closing client_fd)
      fun goes_on => goes_on = false := by
  unfold line_event at hinvalid
  unfold handle_line
  dsimp only at hinvalid ⊢
  split at hinvalid
  · cases hinvalid
  · rename_i hsome
    rw [if_neg hsome]
    cases hparse : message_from_json cJSON_Parse (.of_bytes (message_buffer_sanitize message message_length)) with
    | none => exact Program.Once.bind closes_once_handle_invalid_line fun _ _ => Program.each_pure rfl
    | some msg_in =>
      rw [hparse] at hinvalid
      cases hinvalid

theorem quiet_handle_line (hblank : line_event cJSON_Parse message message_length client_fd = none) :
    (handle_line cJSON_Parse net message message_length client_fd).Quiet := by
  unfold line_event at hblank
  unfold handle_line
  dsimp only at hblank ⊢
  split at hblank
  · rename_i hempty
    rw [if_pos hempty]
    exact Program.each_pure trivial
  · split at hblank <;> cases hblank

end Lines

section Ownership

/-- The descriptor of a thread belongs to its connection and the buffer holds
bytes of that connection only. -/
def Thread.Owns (thread : Thread) (owners : Fd → Option Nat) (index : Nat) (buffer : MessageBuffer) : Prop :=
  owners thread.client_fd = some index ∧ thread.sources = List.replicate buffer.data.length index

/-- What is left to do for a thread that handles a line that is no message: it
closes its descriptor, or has closed it, and returns. -/
def Thread.Leaves (thread : Thread) (owners : Fd → Option Nat) (index : Nat) (program : Handler Bool) : Prop :=
  (owners thread.client_fd = some index ∧
    program.Once Quiet (Closing thread.client_fd) fun goes_on => goes_on = false) ∨
  program.Each Quiet fun goes_on => goes_on = false

/-- A thread owns its descriptor until it leaves. -/
def Thread.Sound (thread : Thread) (cJSON_Parse : CString → Option CJson) (owners : Fd → Option Nat) (index : Nat) :
    Prop :=
  match thread.phase with
  | .between (.receiving buffer) => thread.Owns owners index buffer
  | .between (.extracting buffer) => thread.Owns owners index buffer
  | .between .returned => True
  | .processing message message_length program rest =>
    match line_event cJSON_Parse message message_length thread.client_fd with
    | none => thread.Owns owners index rest ∧ program.Quiet
    | some (.invalid _) => thread.Leaves owners index program
    | some _ => thread.Owns owners index rest

def System.Sound (cJSON_Parse : CString → Option CJson) (system : System) : Prop :=
  ∀ index (thread : Thread), system.threads[index]? = some thread → thread.Sound cJSON_Parse system.owners index

variable {cJSON_Parse : CString → Option CJson} {net : Net} {owners later : Fd → Option Nat} {index : Nat}
  {thread : Thread} {buffer rest : MessageBuffer}

theorem Thread.Sound.owns_receiving (hsound : thread.Sound cJSON_Parse owners index)
    (hphase : thread.phase = .between (.receiving buffer)) : thread.Owns owners index buffer := by
  unfold Thread.Sound at hsound
  rw [hphase] at hsound
  exact hsound

theorem Thread.Sound.owns_extracting (hsound : thread.Sound cJSON_Parse owners index)
    (hphase : thread.phase = .between (.extracting buffer)) : thread.Owns owners index buffer := by
  unfold Thread.Sound at hsound
  rw [hphase] at hsound
  exact hsound

theorem Thread.Sound.owns_of_request {msg_in : Message} (hsound : thread.Sound cJSON_Parse owners index)
    (hrequest : thread.handles cJSON_Parse = some (.request thread.client_fd msg_in)) :
    owners thread.client_fd = some index := by
  unfold Thread.Sound at hsound
  unfold Thread.handles at hrequest
  cases hphase : thread.phase with
  | between position =>
    rw [hphase] at hrequest
    cases hrequest
  | processing message message_length program rest =>
    rw [hphase] at hsound hrequest
    dsimp only at hsound hrequest
    rw [hrequest] at hsound
    exact hsound.1

theorem Thread.Owns.of_owners (howns : thread.Owns owners index buffer)
    (hkept : owners thread.client_fd = some index → later thread.client_fd = some index) :
    thread.Owns later index buffer := ⟨hkept howns.1, howns.2⟩

theorem Thread.Sound.of_owners (hsound : thread.Sound cJSON_Parse owners index)
    (hkept : owners thread.client_fd = some index → later thread.client_fd = some index) :
    thread.Sound cJSON_Parse later index := by
  unfold Thread.Sound at hsound ⊢
  cases hphase : thread.phase with
  | between position =>
    rw [hphase] at hsound
    cases position with
    | receiving buffer => exact Thread.Owns.of_owners hsound hkept
    | extracting buffer => exact Thread.Owns.of_owners hsound hkept
    | returned => trivial
  | processing message message_length program rest =>
    rw [hphase] at hsound
    dsimp only at hsound ⊢
    split at hsound
    · exact ⟨hsound.1.of_owners hkept, hsound.2⟩
    · exact hsound.imp (fun hopen => ⟨hkept hopen.1, hopen.2⟩) id
    · exact hsound.of_owners hkept

/-- When one thread has moved and no descriptor of another connection has been
released, the other threads are sound as before. -/
theorem System.Sound.set_thread {system : System} (hsound : system.Sound cJSON_Parse)
    (hkept : ∀ fd other, other ≠ index → system.owners fd = some other → later fd = some other)
    (hmoved : thread.Sound cJSON_Parse later index) (world : World) :
    System.Sound cJSON_Parse { world, threads := system.threads.set index thread, owners := later } := by
  intro other found hfound
  rw [List.getElem?_set] at hfound
  split at hfound
  · rename_i hsame
    subst hsame
    split at hfound
    · cases hfound
      exact hmoved
    · cases hfound
  · rename_i hother
    exact (hsound other found hfound).of_owners (hkept found.client_fd other (Ne.symm hother))

theorem Thread.Owns.receive (howns : thread.Owns owners index buffer) (chunk : List UInt8) :
    Thread.Sound { thread with
      sources := thread.sources ++ List.replicate chunk.length index
      phase := .between (client_receive buffer chunk) } cJSON_Parse owners index := by
  unfold client_receive message_buffer_append
  split
  · trivial
  · rename_i appended happended
    split at happended
    · cases happended
    · cases happended
      refine ⟨howns.1, ?_⟩
      change thread.sources ++ _ = List.replicate (buffer.data ++ chunk).length index
      rw [howns.2, ← List.replicate_add, List.length_append]

theorem Thread.Owns.extract (howns : thread.Owns owners index buffer) :
    (thread.extract cJSON_Parse net buffer).Sound cJSON_Parse owners index := by
  unfold Thread.extract
  cases hextract : message_buffer_extract buffer SERVER_BUFFER_SIZE with
  | none => exact howns
  | some line =>
    obtain ⟨message, message_length, rest⟩ := line
    obtain ⟨hdata, rfl, -⟩ := message_buffer_extract_eq_some hextract
    have hrest : Thread.Owns { thread with
        sources := thread.sources.drop (message.length + 1)
        phase := .processing message message.length
          (handle_line cJSON_Parse net message message.length thread.client_fd) rest } owners index rest := by
      refine ⟨howns.1, ?_⟩
      change thread.sources.drop (message.length + 1) = _
      rw [howns.2, List.drop_replicate, hdata, List.length_append, List.length_cons]
      congr 1
      omega
    unfold Thread.Sound
    dsimp only
    split
    · rename_i hblank
      exact ⟨hrest, quiet_handle_line hblank⟩
    · rename_i hinvalid
      exact Or.inl ⟨howns.1, closes_once_handle_line hinvalid⟩
    · exact hrest

end Ownership

section Steps

variable {cJSON_Parse : CString → Option CJson} {net : Net} {owners : Fd → Option Nat} {index : Nat} {thread : Thread}

theorem closed_between_of_quiet {A : Type} {body : Action A} {before after : World} {value : A} (hquiet : Quiet body)
    (hrun : body.run before = .ok value after) : closed_between before after = [] := by
  obtain ⟨effects, htrace, hclosed⟩ := hquiet before value after hrun
  rw [closed_between, htrace, List.drop_left, hclosed]

theorem closed_between_of_closing {A : Type} {body : Action A} {before after : World} {value : A} {client_fd : Fd}
    (hclosing : Closing client_fd body) (hrun : body.run before = .ok value after) :
    closed_between before after = [client_fd] := by
  rw [closed_between, hclosing before value after hrun, List.drop_left, closed_close]

@[simp] theorem release_nil : release [] owners = owners := by
  funext fd
  simp [release]

/-- One action of a line. Only a thread that leaves closes a descriptor, and that is
its own. -/
theorem Thread.Sound.act {A : Type} {message : List UInt8} {message_length : Nat} {body : Action A}
    {next : A → Handler Bool} {rest : MessageBuffer} {before after : World} {value : A}
    (hsound : thread.Sound cJSON_Parse owners index)
    (hphase : thread.phase = .processing message message_length (.act body next) rest)
    (hrun : body.run before = .ok value after)
    (hkeeps : ∀ msg_in, thread.handles cJSON_Parse = some (.request thread.client_fd msg_in) →
      closed_between before after = []) :
    (∀ fd ∈ closed_between before after, fd = thread.client_fd ∧ owners fd = some index) ∧
      Thread.Sound { thread with phase := .processing message message_length (next value) rest } cJSON_Parse
        (release (closed_between before after) owners) index := by
  have hhandles : thread.handles cJSON_Parse = line_event cJSON_Parse message message_length thread.client_fd := by
    rw [Thread.handles, hphase]
  rw [hhandles] at hkeeps
  unfold Thread.Sound at hsound ⊢
  rw [hphase] at hsound
  dsimp only at hsound ⊢
  cases hevent : line_event cJSON_Parse message message_length thread.client_fd with
  | none =>
    rw [hevent] at hsound
    obtain ⟨howns, hbody, hnext⟩ := hsound
    have hnone := closed_between_of_quiet hbody hrun
    rw [hnone, release_nil]
    exact ⟨List.forall_mem_nil _, howns, hnext value⟩
  | some event =>
    rw [hevent] at hsound
    cases event with
    | accept fd => exact absurd hevent (line_event_ne_accept fd)
    | request fd msg_in =>
      have hnone := hkeeps msg_in (client_fd_of_line_event hevent ▸ hevent)
      rw [hnone, release_nil]
      exact ⟨List.forall_mem_nil _, hsound⟩
    | invalid fd =>
      rcases hsound with ⟨hopen, ⟨hbody, hnext⟩ | ⟨hbody, hnext⟩⟩ | ⟨hbody, hnext⟩
      · have hnone := closed_between_of_quiet hbody hrun
        rw [hnone, release_nil]
        exact ⟨List.forall_mem_nil _, Or.inl ⟨hopen, hnext value⟩⟩
      · have hone := closed_between_of_closing hbody hrun
        rw [hone]
        refine ⟨fun fd hmem => ?_, Or.inr (hnext value)⟩
        obtain rfl := List.mem_singleton.mp hmem
        exact ⟨rfl, hopen⟩
      · have hnone := closed_between_of_quiet hbody hrun
        rw [hnone]
        exact ⟨List.forall_mem_nil _, Or.inr (hnext value)⟩

/-- The end of a line. -/
theorem Thread.Sound.ret {message : List UInt8} {message_length : Nat} {goes_on : Bool} {rest : MessageBuffer}
    (hsound : thread.Sound cJSON_Parse owners index)
    (hphase : thread.phase = .processing message message_length (.ret goes_on) rest) :
    Thread.Sound { thread with phase := .between (if goes_on then .extracting rest else .returned) } cJSON_Parse owners
      index := by
  unfold Thread.Sound at hsound
  rw [hphase] at hsound
  dsimp only at hsound
  split at hsound
  · cases goes_on with
    | true => exact hsound.1
    | false => trivial
  · obtain rfl : goes_on = false := by
      rcases hsound with ⟨-, hreturns⟩ | hreturns
      · exact hreturns
      · exact hreturns
    trivial
  · cases goes_on with
    | true => exact hsound
    | false => trivial

theorem system_step_act {system after : System} (hstep : system_step cJSON_Parse net system (.act index) = some after) :
    ∃ thread message message_length rest, system.threads[index]? = some thread ∧
      ((∃ goes_on, thread.phase = .processing message message_length (.ret goes_on) rest ∧
        after = system.set_thread index
          { thread with phase := .between (if goes_on then .extracting rest else .returned) }) ∨
      ∃ (A : Type) (body : Action A) (next : A → Handler Bool) (value : A),
        thread.phase = .processing message message_length (.act body next) rest ∧
        body.run system.world = .ok value after.world ∧
        after.threads = system.threads.set index
          { thread with phase := .processing message message_length (next value) rest } ∧
        after.owners = release (closed_between system.world after.world) system.owners) := by
  simp only [system_step, Option.bind_eq_bind, Option.bind_eq_some_iff] at hstep
  obtain ⟨thread, hthread, hstep⟩ := hstep
  split at hstep
  · rename_i message message_length goes_on rest hphase
    cases hstep
    exact ⟨thread, message, message_length, rest, hthread, Or.inl ⟨goes_on, hphase, rfl⟩⟩
  · rename_i message message_length A body next rest hphase
    split at hstep
    · rename_i value world hrun
      cases hstep
      exact ⟨thread, message, message_length, rest, hthread, Or.inr ⟨A, body, next, value, hphase, hrun, rfl, rfl⟩⟩
    · cases hstep
  · cases hstep

variable {system after : System}

/-- The thread of a new connection owns the descriptor that `accept` has handed
out, which no thread owned before. -/
theorem System.Sound.accept {client_fd : Fd} (hsound : system.Sound cJSON_Parse)
    (hstep : system_step cJSON_Parse net system (.accept client_fd) = some after) : after.Sound cJSON_Parse := by
  simp only [system_step] at hstep
  split at hstep
  · cases hstep
  · rename_i hfree
    cases hstep
    intro index thread hthread
    dsimp only at hthread ⊢
    rw [List.getElem?_append] at hthread
    split at hthread
    · refine (hsound index thread hthread).of_owners fun howner => ?_
      have hother : thread.client_fd ≠ client_fd := by
        rintro heq
        rw [heq, hfree] at howner
        cases howner
      rw [if_neg hother]
      exact howner
    · rename_i hbeyond
      have hlast : index - system.threads.length = 0 := by
        have hinside := (List.getElem?_eq_some_iff.mp hthread).1
        simp only [List.length_singleton] at hinside
        omega
      rw [hlast] at hthread
      cases hthread
      have hindex : index = system.threads.length := by omega
      subst hindex
      exact ⟨if_pos rfl, rfl⟩

/-- The thread that calls `recv` owns its descriptor. -/
theorem System.Sound.receive {chunk : List UInt8} (hsound : system.Sound cJSON_Parse)
    (hstep : system_step cJSON_Parse net system (.receive index chunk) = some after) :
    (∀ thread, system.threads[index]? = some thread → system.owners thread.client_fd = some index) ∧
      after.Sound cJSON_Parse := by
  simp only [system_step, Option.bind_eq_bind, Option.bind_eq_some_iff] at hstep
  obtain ⟨thread, hthread, hstep⟩ := hstep
  split at hstep
  · rename_i buffer source hphase howner
    have howns := (hsound index thread hthread).owns_receiving hphase
    obtain rfl : source = index := Option.some.inj (howner.symm.trans howns.1)
    split at hstep
    · cases hstep
      refine ⟨fun other hother => ?_, hsound.set_thread (fun _ _ _ => id) (howns.receive chunk) system.world⟩
      rw [hthread] at hother
      cases hother
      exact howner
    · cases hstep
  · cases hstep

theorem System.Sound.hang_up (hsound : system.Sound cJSON_Parse)
    (hstep : system_step cJSON_Parse net system (.hang_up index) = some after) :
    (∀ thread, system.threads[index]? = some thread → system.owners thread.client_fd = some index) ∧
      after.Sound cJSON_Parse := by
  simp only [system_step, Option.bind_eq_bind, Option.bind_eq_some_iff] at hstep
  obtain ⟨thread, hthread, hstep⟩ := hstep
  split at hstep
  · rename_i buffer hphase
    have howns := (hsound index thread hthread).owns_receiving hphase
    cases hstep
    have hreturned : Thread.Sound { thread with phase := .between .returned } cJSON_Parse system.owners index := trivial
    refine ⟨fun other hother => ?_, hsound.set_thread (fun _ _ _ => id) hreturned system.world⟩
    rw [hthread] at hother
    cases hother
    exact howns.1
  · cases hstep

theorem System.Sound.extract (hsound : system.Sound cJSON_Parse)
    (hstep : system_step cJSON_Parse net system (.extract index) = some after) :
    Attributed cJSON_Parse net system (.extract index) ∧ after.Sound cJSON_Parse := by
  simp only [system_step, Option.bind_eq_bind, Option.bind_eq_some_iff] at hstep
  obtain ⟨thread, hthread, hstep⟩ := hstep
  split at hstep
  · rename_i buffer hphase
    have howns := (hsound index thread hthread).owns_extracting hphase
    cases hstep
    refine ⟨?_, hsound.set_thread (fun _ _ _ => id) howns.extract system.world⟩
    intro other found message message_length rest hother hfound hextract
    rw [hthread] at hother
    cases hother
    rw [hphase] at hfound
    cases hfound
    obtain ⟨hdata, rfl, -⟩ := message_buffer_extract_eq_some hextract
    refine ⟨howns.1, ?_⟩
    rw [howns.2, List.take_replicate, hdata, List.length_append]
    congr 1
    omega
  · cases hstep

/-- A thread that handles a request owns its descriptor, and in a step that is no
disconnection only a thread that leaves closes one. -/
theorem System.Sound.act (hsound : system.Sound cJSON_Parse)
    (hkeeps : system.disconnects cJSON_Parse (.act index) = false)
    (hstep : system_step cJSON_Parse net system (.act index) = some after) :
    (∀ thread, system.threads[index]? = some thread →
      ∀ fd ∈ closed_between system.world after.world, fd = thread.client_fd ∧ system.owners fd = some index) ∧
      after.Sound cJSON_Parse := by
  obtain ⟨thread, message, message_length, rest, hthread, hcases⟩ := system_step_act hstep
  have hsoundthread := hsound index thread hthread
  rcases hcases with ⟨goes_on, hphase, rfl⟩ | ⟨A, body, next, value, hphase, hrun, hthreads, howners⟩
  · have hnone : closed_between system.world (system.set_thread index
        { thread with phase := .between (if goes_on then .extracting rest else .returned) }).world = [] := by
      rw [closed_between]
      change closed (system.world.trace.drop system.world.trace.length) = []
      rw [List.drop_length, closed_nil]
    refine ⟨fun _ _ => ?_, hsound.set_thread (fun _ _ _ => id) (hsoundthread.ret hphase) system.world⟩
    rw [hnone]
    exact List.forall_mem_nil _
  · have hquiet : ∀ msg_in, thread.handles cJSON_Parse = some (.request thread.client_fd msg_in) →
        closed_between system.world after.world = [] := by
      intro msg_in hrequest
      simpa [System.disconnects, Thread.about_to_close, hthread, hrequest, hphase, hrun] using hkeeps
    obtain ⟨hown, hmoved⟩ := hsoundthread.act hphase hrun hquiet
    refine ⟨fun other hother => ?_, ?_⟩
    · rw [hthread] at hother
      cases hother
      exact hown
    · have hkept : ∀ fd other, other ≠ index → system.owners fd = some other → after.owners fd = some other := by
        intro fd other hother howner
        rw [howners, release, if_neg]
        · exact howner
        · intro hmem
          rw [(hown fd hmem).2] at howner
          cases howner
          exact hother rfl
      rw [← howners] at hmoved
      have hset := hsound.set_thread hkept hmoved after.world
      rw [← hthreads] at hset
      exact hset

theorem system_step_sound {move : Move} (hsound : system.Sound cJSON_Parse)
    (hkeeps : system.disconnects cJSON_Parse move = false)
    (hstep : system_step cJSON_Parse net system move = some after) :
    Attributed cJSON_Parse net system move ∧ after.Sound cJSON_Parse := by
  cases move with
  | accept client_fd => exact ⟨trivial, hsound.accept hstep⟩
  | receive index chunk => exact hsound.receive hstep
  | hang_up index => exact hsound.hang_up hstep
  | extract index => exact hsound.extract hstep
  | act index =>
    obtain ⟨hcloses, hafter⟩ := hsound.act hkeeps hstep
    refine ⟨fun thread hthread => ⟨fun msg_in hrequest => ?_, fun later hlater => ?_⟩, hafter⟩
    · exact (hsound index thread hthread).owns_of_request hrequest
    · obtain rfl := Option.some.inj (hstep.symm.trans hlater)
      exact hcloses thread hthread

end Steps

/-- A run of the server with all its threads. -/
abbrev SystemRun (cJSON_Parse : CString → Option CJson) (net : Net) (history : List (System × Move)) (system : System) :
    Prop :=
  Run (fun before move after => system_step cJSON_Parse net before move = some after) system_init history system

/-- As long as no request disconnects anyone, all that the threads do concerns
their own connections. -/
theorem requests_are_attributed {cJSON_Parse : CString → Option CJson} {net : Net} {history : List (System × Move)}
    {system : System} (hrun : SystemRun cJSON_Parse net history system)
    (hkeeps : ∀ before move, (before, move) ∈ history → before.disconnects cJSON_Parse move = false) :
    ∀ before move, (before, move) ∈ history → Attributed cJSON_Parse net before move := by
  have hinit : system_init.Sound cJSON_Parse := fun _ _ => nofun
  obtain ⟨-, hmoments⟩ := hrun.invariant_under hkeeps hinit fun before move after hsound hcalm hstep =>
    (system_step_sound hsound hcalm hstep).2
  intro before move hmem
  obtain ⟨hsound, after, hstep⟩ := hmoments before move hmem
  exact (system_step_sound hsound (hkeeps before move hmem) hstep).1

/-- A test of what some moves lead to finds a run. -/
theorem exists_system_run (cJSON_Parse : CString → Option CJson) (net : Net) (moves : List Move)
    (test : List (System × Move) → Bool)
    (htest : (Run.follow (system_step cJSON_Parse net) moves [] system_init).any (fun run => test run.1) = true) :
    ∃ history system, SystemRun cJSON_Parse net history system ∧ test history = true :=
  Run.exists_of_follow (fun _ _ _ hstep => hstep) moves (fun history _ => test history) htest

/-- The moves of a thread that extracts a line and handles it. -/
def one_line (index actions : Nat) : List Move := .extract index :: List.replicate actions (.act index)

/-- A first connection is closed because of a line that is no message. Its
descriptor is handed out again, and the second client identifies itself. -/
theorem requests_are_attributed_after_reuse :
    ∃ history system, SystemRun parse_visit sockets history system ∧
      (∀ before move, (before, move) ∈ history → before.disconnects parse_visit move = false) ∧
      ∀ before move, (before, move) ∈ history → Attributed parse_visit sockets before move := by
  obtain ⟨history, system, hrun, htest⟩ := exists_system_run parse_visit sockets
    ([.accept 4, .receive 0 [65, 10]] ++ one_line 0 6 ++
      [.accept 4, .receive 1 (sent_lines [identify_object])] ++ one_line 1 12)
    (fun history => history.all fun moment => !moment.1.disconnects parse_visit moment.2) (by decide +kernel)
  have hkeeps : ∀ before move, (before, move) ∈ history → before.disconnects parse_visit move = false := by
    intro before move hmem
    simpa using List.all_eq_true.mp htest (before, move) hmem
  exact ⟨history, system, hrun, hkeeps, requests_are_attributed hrun hkeeps⟩

/-- A thread handles a request while its descriptor belongs to another
connection. -/
def System.impersonates (cJSON_Parse : CString → Option CJson) (system : System) (index : Nat) : Bool :=
  (system.threads[index]?).any fun thread =>
    match thread.handles cJSON_Parse with
    | some (.request fd _) => fd = thread.client_fd ∧ system.owners thread.client_fd ≠ some index
    | _ => false

/-- A client that sends DISCONNECT and IDENTIFY in one chunk registers a user on the
connection that is accepted in between. -/
theorem buffered_line_acts_for_next_client :
    ¬ ∀ history system, SystemRun parse_visit sockets history system →
      ∀ before move, (before, move) ∈ history → Attributed parse_visit sockets before move := by
  intro hnever
  obtain ⟨history, system, hrun, htest⟩ := exists_system_run parse_visit sockets
    ([.accept 4, .receive 0 (sent_lines [disconnect_object, identify_object])] ++ one_line 0 3 ++ [.accept 4] ++
      one_line 0 1)
    (fun history => history.any fun moment =>
      match moment.2 with
      | .act index => moment.1.impersonates parse_visit index
      | _ => false) (by decide +kernel)
  obtain ⟨⟨before, move⟩, hmem, himpersonates⟩ := List.any_eq_true.mp htest
  cases move with
  | act index =>
    obtain ⟨thread, hthread, hhandles⟩ := (Option.any_eq_true _ _).mp himpersonates
    have hattributed := hnever history system hrun before (.act index) hmem thread hthread
    split at hhandles
    · rename_i fd msg_in hrequest
      obtain ⟨rfl, hother⟩ := of_decide_eq_true hhandles
      exact hother (hattributed.1 msg_in hrequest)
    · cases hhandles
  | _ => cases himpersonates

end ojalvo
