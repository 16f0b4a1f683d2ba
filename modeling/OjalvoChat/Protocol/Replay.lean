import OjalvoChat.Protocol.Closing

namespace ojalvo

/-- The sends among some effects have the results that a network gives them. -/
def Replays (net : Net) (trace effects : List Effect) : Prop :=
  match effects with
  | [] => True
  | effect :: rest =>
    (∀ fd message sent, effect = .send fd message sent → net trace fd message = sent) ∧
      Replays net (trace ++ [effect]) rest

/-- The network whose results are those recorded in a trace. -/
def replay (recorded : List Effect) : Net := fun trace _ _ =>
  match recorded[trace.length]? with
  | some (.send _ _ sent) => sent
  | _ => false

/-- A net that repeats a trace repeats every part of it. -/
theorem replays_replay (trace effects later : List Effect) :
    Replays (replay (trace ++ effects ++ later)) trace effects := by
  induction effects generalizing trace with
  | nil => trivial
  | cons effect rest ih =>
    constructor
    · rintro fd message sent rfl
      simp [replay]
    · have hrest := ih (trace ++ [effect])
      simpa using hrest

/-- Both parts of what is repeated are. -/
theorem Replays.of_append {net : Net} {trace first second : List Effect}
    (hreplays : Replays net trace (first ++ second)) :
    Replays net trace first ∧ Replays net (trace ++ first) second := by
  induction first generalizing trace with
  | nil => exact ⟨trivial, by simpa using hreplays⟩
  | cons effect rest ih =>
    obtain ⟨hfirst, hsecond⟩ := ih hreplays.2
    exact ⟨⟨hreplays.1, hfirst⟩, by simpa using hsecond⟩

/-- An outcome with another history of effects. -/
def moved {A : Type} (outcome : EStateM.Result Stop World A) (trace : List Effect) : EStateM.Result Stop World A :=
  match outcome with
  | .ok value world => .ok value { world with trace := trace }
  | .error why world => .error why { world with trace := trace }

/-- A second outcome, after another history, repeats a first one as soon as its
sends have the same results. -/
def Outcome.Repeats (net : Net) (trace : List Effect) (outcome : Outcome) (later : List Effect) (repeated : Outcome) :
    Prop :=
  ∃ effects, (final_world outcome).trace = trace ++ effects ∧
    (Replays net later effects → repeated = moved outcome (later ++ effects))

section Repeats

variable {net other : Net} {server : Server} {trace later : List Effect} {client_fd : Fd}

theorem repeats_idle (answer : Bool) :
    Outcome.Repeats other trace (.ok answer (.idle server trace)) later (.ok answer (.idle server later)) :=
  ⟨[], by simp [final_world], fun _ => by simp [moved]⟩

/-- A broadcast comes out as it did. -/
theorem broadcast_of_replays {message : Message} {fds : List Fd}
    (hreplays : Replays other later (broadcast net message trace fds)) :
    broadcast other message later fds = broadcast net message trace fds := by
  induction fds generalizing trace later with
  | nil => rfl
  | cons fd rest ih =>
    obtain ⟨hfirst, hrest⟩ := hreplays
    have hsame := hfirst fd message _ rfl
    rw [broadcast, broadcast, hsame]
    exact congrArg _ (ih hrest)

/-- An announcement comes out as it did. -/
theorem repeats_announce (message : Message) :
    Outcome.Repeats other trace (announce net client_fd message server trace) later
      (announce other client_fd message server later) := by
  refine ⟨_, rfl, fun hreplays => ?_⟩
  simp only [announce, broadcast_of_replays hreplays, moved]

/-- A broadcast to a room comes out as it did. -/
theorem repeats_tell_members (roomname : CString) (message : Message) :
    Outcome.Repeats other trace (tell_members net client_fd roomname message server trace) later
      (tell_members other client_fd roomname message server later) := by
  refine ⟨broadcast net message trace (server.room_recipients roomname client_fd), ?_, fun hreplays => ?_⟩
  · unfold tell_members
    dsimp only
    split <;> rfl
  · unfold tell_members
    simp only [broadcast_of_replays hreplays]
    split <;> rfl

/-- A departure comes out as it did. -/
theorem repeats_departed (answer : Bool) :
    Outcome.Repeats other trace (.ok answer (departed net server trace client_fd)) later
      (.ok answer (departed other server later client_fd)) := by
  refine ⟨departure_notices net server trace client_fd ++ [.close client_fd], by simp [final_world, departed], ?_⟩
  intro hreplays
  have hnotices : departure_notices other server later client_fd = departure_notices net server trace client_fd := by
    have hfirst := hreplays.of_append.1
    unfold departure_notices at hfirst ⊢
    cases hfound : server.users.find_by_client_fd client_fd with
    | none => rfl
    | some user =>
      rw [hfound] at hfirst
      exact broadcast_of_replays hfirst
  have hdepart : server.depart other later client_fd = server.depart net trace client_fd := by
    simp only [Server.depart, hnotices]
  simp only [departed, hnotices, hdepart, moved, List.append_assoc]

/-- One send, and what follows on its result. -/
theorem repeats_send (fd : Fd) (message : Message) (rest repetition : Bool → List Effect → Outcome)
    (hrest : ∀ sent, Outcome.Repeats other (trace ++ [.send fd message sent])
      (rest sent (trace ++ [.send fd message sent])) (later ++ [.send fd message sent])
      (repetition sent (later ++ [.send fd message sent]))) :
    Outcome.Repeats other trace
      (rest (net trace fd message) (trace ++ [.send fd message (net trace fd message)])) later
      (repetition (other later fd message) (later ++ [.send fd message (other later fd message)])) := by
  obtain ⟨effects, htrace, hsame⟩ := hrest (net trace fd message)
  refine ⟨.send fd message (net trace fd message) :: effects, by simpa using htrace, fun hreplays => ?_⟩
  rw [hreplays.1 fd message _ rfl]
  simpa using hsame hreplays.2

theorem repeats_send_or_depart (message : Message) (failed_fd : Fd)
    {continuation repetition : List Effect → Outcome}
    (hcontinuation : ∀ trace later, (continuation trace).Repeats other trace later (repetition later)) :
    Outcome.Repeats other trace (send_or_depart net client_fd message failed_fd server trace continuation) later
      (send_or_depart other client_fd message failed_fd server later repetition) := by
  refine repeats_send client_fd message
    (fun sent trace => if sent then continuation trace else .ok true (departed net server trace failed_fd))
    (fun sent trace => if sent then repetition trace else .ok true (departed other server trace failed_fd)) ?_
  intro sent
  cases sent with
  | true => exact hcontinuation _ _
  | false => exact repeats_departed true

/-- Invitations come out as they did. -/
theorem repeats_invite_all (roomname : CString) (invitation : Message) (invited_users : List User) :
    Outcome.Repeats other trace (invite_all net roomname invitation invited_users server trace) later
      (invite_all other roomname invitation invited_users server later) := by
  induction invited_users generalizing server trace later with
  | nil => exact repeats_idle true
  | cons user rest ih =>
    unfold invite_all
    split
    · exact repeats_idle true
    · exact repeats_send_or_depart invitation user.socket_fd fun trace later => ih

/-- A reaction repeats itself when its sends have the same results. -/
theorem Reaction.repeats (reaction : Reaction) (net other : Net) (client_fd : Fd) (server : Server)
    (trace later : List Effect) :
    Outcome.Repeats other trace (reaction.perform net client_fd server trace) later
      (reaction.perform other client_fd server later) := by
  cases reaction with
  | ignore answer => exact repeats_idle answer
  | crash => exact ⟨[], by simp [final_world, Reaction.perform], fun _ => by simp [Reaction.perform, moved]⟩
  | reply fd message => exact repeats_send_or_depart message client_fd fun trace later => repeats_idle true
  | refuse message =>
    exact repeats_send client_fd message (fun _ trace => .ok true (departed net server trace client_fd))
      (fun _ trace => .ok true (departed other server trace client_fd)) fun sent => repeats_departed true
  | leave => exact repeats_departed true
  | register user => exact repeats_send_or_depart _ client_fd fun trace later => repeats_announce _
  | set_status user status text => exact repeats_announce _
  | publish message => exact repeats_announce message
  | create room creator => exact repeats_send_or_depart _ client_fd fun trace later => repeats_idle true
  | invite roomname invited_users invitation => exact repeats_invite_all roomname invitation invited_users
  | join roomname user => exact repeats_send_or_depart _ client_fd fun trace later => repeats_tell_members roomname _
  | tell_room roomname message => exact repeats_tell_members roomname message
  | quit roomname user => exact repeats_tell_members roomname _

end Repeats

section Served

variable {net : Net} {server : Server} {trace : List Effect} {event : Event} {after : World}

/-- What completes under one network completes in the same way under another
that gives its sends the same results, whatever has been sent before. -/
theorem served_of_replays (hserver : server.Consistent)
    (hserved : Served net (.idle server trace) event after) :
    ∃ effects, after = .idle after.server (trace ++ effects) ∧
      ∀ other later, Replays other later effects →
        Served other (.idle server later) event (.idle after.server (later ++ effects)) := by
  obtain ⟨base, hidle⟩ := served_leaves hserver hserved
  have hperformed : ∀ (reaction : Reaction) (answer : Bool),
      reaction.perform net event.client_fd server trace = .ok answer after →
      ∃ effects, after = .idle after.server (trace ++ effects) ∧
        ∀ other later, Replays other later effects → reaction.perform other event.client_fd server later =
          .ok answer (.idle after.server (later ++ effects)) := by
    intro reaction answer hperform
    have hrepeats := fun other later => reaction.repeats net other event.client_fd server trace later
    simp only [hperform] at hrepeats
    obtain ⟨effects, htrace, -⟩ := hrepeats net []
    refine ⟨effects, ?_, fun other later hreplays => ?_⟩
    · rw [hidle] at htrace ⊢
      exact congrArg _ htrace
    · obtain ⟨same, hsametrace, hsame⟩ := hrepeats other later
      obtain rfl : same = effects := List.append_cancel_left (hsametrace.symm.trans htrace)
      rw [hsame hreplays, hidle]
      rfl
  cases event with
  | accept client_fd =>
    cases served_accept hserved
    exact ⟨[.accept client_fd], rfl, fun other later _ => rfl⟩
  | request client_fd msg_in =>
    obtain ⟨answer, hperform⟩ := served_request hserver hserved
    obtain ⟨effects, hafter, hrepeat⟩ := hperformed _ answer hperform
    refine ⟨effects, hafter, fun other later hreplays => ?_⟩
    have hrun := hrepeat other later hreplays
    simp only [Served, serve, Program.run_bind, run_message_handler_process other server later client_fd msg_in hserver]
    simp only [Event.client_fd] at hrun
    rw [hrun]
    rfl
  | invalid client_fd =>
    obtain ⟨effects, hafter, hrepeat⟩ := hperformed _ true (served_invalid hserver hserved)
    refine ⟨effects, hafter, fun other later hreplays => ?_⟩
    have hrun := hrepeat other later hreplays
    simp only [Reaction.perform, Event.client_fd, EStateM.Result.ok.injEq, true_and] at hrun
    simp only [Served, serve, run_handle_invalid_line hserver, hrun]

/-- A run without some of its events, whose effects are exactly those that are
left out of the trace and which do not change the tables. It may begin after
another history of effects. -/
theorem run_without {start world : World} {history : List (World × Event)} (drop : Event → Bool) (keep : Effect → Bool)
    (hstart : start.Ready) (hrun : Run (Served net) start history world)
    (hsteps : ∀ before event after effects, (before, event) ∈ history → before.Ready → Served net before event after →
      after.trace = before.trace ++ effects →
      if drop event then after.server = before.server ∧ ∀ effect ∈ effects, keep effect = false
      else ∀ effect ∈ effects, keep effect = true) :
    ∃ effects, world.trace = start.trace ++ effects ∧
      ∀ other later, Replays other later (effects.filter keep) →
        ∃ repeated, Run (Served other) (.idle start.server later) repeated
            (.idle world.server (later ++ effects.filter keep)) ∧
          repeated.map Prod.snd = (history.map Prod.snd).filter fun event => ! drop event := by
  induction hrun with
  | start => exact ⟨[], by simp, fun other later _ => ⟨[], by simpa using .start, rfl⟩⟩
  | @step earlier before after event hprefix hserved ih =>
    obtain ⟨effects, htrace, hrepeat⟩ := ih fun before event after effects hmem =>
      hsteps before event after effects (List.mem_cons_of_mem _ hmem)
    have hready : before.Ready := hprefix.invariant hstart fun _ _ _ => served_ready
    have hidle := hready.idle
    have hserved' := hserved
    rw [hidle] at hserved'
    obtain ⟨more, hafter, hagain⟩ := served_of_replays hready.consistent hserved'
    have hmore : after.trace = before.trace ++ more := congrArg World.trace hafter
    have hkept := hsteps before event after more List.mem_cons_self hready hserved hmore
    refine ⟨effects ++ more, by rw [hmore, htrace, List.append_assoc], fun other later hreplays => ?_⟩
    rw [List.filter_append] at hreplays
    obtain ⟨hfirst, hsecond⟩ := hreplays.of_append
    obtain ⟨repeated, hrepeated, hevents⟩ := hrepeat other later hfirst
    rw [List.filter_append, ← List.append_assoc]
    cases hdrop : drop event with
    | true =>
      rw [hdrop, if_pos rfl] at hkept
      have hnone : more.filter keep = [] := List.filter_eq_nil_iff.mpr fun effect hmem => by
        rw [hkept.2 effect hmem]
        exact Bool.false_ne_true
      refine ⟨repeated, ?_, by simp [hevents, hdrop]⟩
      rw [hnone, List.append_nil, hkept.1]
      exact hrepeated
    | false =>
      rw [hdrop, if_neg Bool.false_ne_true] at hkept
      have hall : more.filter keep = more := List.filter_eq_self.mpr hkept
      rw [hall] at hsecond ⊢
      exact ⟨_, hrepeated.step (hagain other _ hsecond), by simp [hevents, hdrop]⟩

/-- A whole run, after another history of effects. -/
theorem run_of_replays {start world : World} {history : List (World × Event)} (hstart : start.Ready)
    (hrun : Run (Served net) start history world) :
    ∃ effects, world.trace = start.trace ++ effects ∧
      ∀ other later, Replays other later effects →
        ∃ repeated, Run (Served other) (.idle start.server later) repeated (.idle world.server (later ++ effects)) ∧
          repeated.map Prod.snd = history.map Prod.snd := by
  obtain ⟨effects, htrace, hrepeat⟩ := run_without (fun _ => false) (fun _ => true) hstart hrun (by simp)
  simp only [List.filter_true] at hrepeat
  exact ⟨effects, htrace, by simpa using hrepeat⟩

end Served

end ojalvo
