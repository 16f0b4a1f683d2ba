import OjalvoChat.Protocol.Failing
import OjalvoChat.Protocol.Lines
import OjalvoChat.Protocol.Presence

namespace ojalvo

/-- A request that neither closes a connection nor unregisters a user. -/
def DisconnectsNobody (net : Net) (world : World) (client_fd : Fd) (msg_in : Message) : Prop :=
  let after := final_world ((message_handler_process net msg_in client_fd).run world)
  (∃ effects, after.trace = world.trace ++ effects ∧ closed effects = []) ∧
    ∀ fd username, world.server.Registered fd username → after.server.Registered fd username

/-- When only the sends to one descriptor fail and one is tried, the request that
tries it disconnects that user and no other. -/
def ChargedTo (world : World) (client_fd : Fd) (msg_in : Message) (failed_fd : Fd) : Prop :=
  ∀ answer after effects,
    (message_handler_process (failing (· == failed_fd)) msg_in client_fd).run world = .ok answer after →
    after.trace = world.trace ++ effects → DisconnectsNobody reliable world client_fd msg_in →
    attempted failed_fd effects ≠ [] →
    (∀ username, ¬ after.server.Registered failed_fd username) ∧
      ∀ fd username, world.server.Registered fd username → fd ≠ failed_fd →
        after.server.Registered fd username ∧ Effect.close fd ∉ effects

/-- The request is a text that is delivered to a descriptor. -/
def TextsTo (server : Server) (client_fd : Fd) (msg_in : Message) (addressed : Fd) : Prop :=
  ∃ user user_to text, server.Sender client_fd user ∧ user_to ∈ server.users ∧ user_to.socket_fd = addressed ∧
    user.username ≠ user_to.username ∧ msg_in.type = .TEXT ∧ msg_in.username = some user_to.username ∧
    msg_in.text = some text

section Charges

variable {server : Server} {trace : List Effect} {client_fd failed_fd fd : Fd} {msg_in : Message}

/-- An outcome in which the failed descriptor, once tried, pays for it. -/
def Outcome.Charges (failed_fd : Fd) (base : Server) (trace : List Effect) (outcome : Outcome) : Prop :=
  ∀ answer after, outcome = .ok answer after → ∃ effects, after.trace = trace ++ effects ∧
    (attempted failed_fd effects ≠ [] →
      (∀ fd username, after.server.Registered fd username ↔ base.Registered fd username ∧ fd ≠ failed_fd) ∧
      ∀ fd ∈ closed effects, fd = failed_fd)

theorem charges_idle (answer : Bool) (trace : List Effect) :
    Outcome.Charges failed_fd server trace (.ok answer (.idle server trace)) := by
  rintro _ _ ⟨⟩
  exact ⟨[], (List.append_nil trace).symm, fun hattempted => absurd rfl hattempted⟩

theorem mem_of_attempted_broadcast {net : Net} {message : Message} {fds : List Fd}
    (hattempted : attempted fd (broadcast net message trace fds) ≠ []) : fd ∈ fds := by
  obtain ⟨found, hfound⟩ := List.exists_mem_of_ne_nil _ hattempted
  obtain ⟨sent, hmem⟩ := mem_attempted.mp hfound
  obtain ⟨other, hother, _, heq⟩ := exists_of_mem_broadcast hmem
  cases heq
  exact hother

theorem mem_failures_failing {message : Message} {fds : List Fd} :
    fd ∈ failures (broadcast (failing (· == failed_fd)) message trace fds) ↔ fd ∈ fds ∧ fd = failed_fd := by
  rw [failures_broadcast_failing, List.mem_filter, beq_iff_eq]

theorem charges_announce (hserver : server.Consistent) (message : Message) :
    (announce (failing (· == failed_fd)) client_fd message server trace).Charges failed_fd server trace := by
  rintro _ _ ⟨⟩
  refine ⟨_, rfl, fun hattempted => ⟨fun fd username => ?_, by simp⟩⟩
  have htried := mem_of_attempted_broadcast hattempted
  rw [World.idle, hserver.registered_evict_all, mem_failures_failing]
  refine and_congr_right fun _ => not_congr ⟨fun hfailed => hfailed.2, ?_⟩
  rintro rfl
  exact ⟨htried, rfl⟩

theorem charges_tell_members (roomname : CString) (message : Message) :
    (tell_members (failing (· == failed_fd)) client_fd roomname message server trace).Charges failed_fd server
      trace := by
  intro answer after hok
  simp only [tell_members] at hok
  split at hok
  · rename_i hreached
    cases hok
    refine ⟨_, rfl, fun hattempted => ?_⟩
    have hfailed : failed_fd ∈ failures (broadcast (failing (· == failed_fd)) message trace
        (server.room_recipients roomname client_fd)) :=
      mem_failures_failing.mpr ⟨mem_of_attempted_broadcast hattempted, rfl⟩
    rw [hreached] at hfailed
    cases hfailed
  · cases hok

/-- Whoever departs pays, and nobody else does. -/
theorem departed_pays (hserver : server.Consistent) (failed_fd : Fd) (trace : List Effect) :
    let after := departed (failing (· == failed_fd)) server trace failed_fd
    ∃ effects, after.trace = trace ++ effects ∧
      (∀ fd username, after.server.Registered fd username ↔ server.Registered fd username ∧ fd ≠ failed_fd) ∧
      ∀ fd ∈ closed effects, fd = failed_fd := by
  refine ⟨departure_notices (failing (· == failed_fd)) server trace failed_fd ++ [.close failed_fd],
    by simp [departed], fun fd username => ?_, fun fd hclosed => ?_⟩
  · rw [departed, World.idle, hserver.depart_eq, hserver.registered_evict_all]
    refine and_congr_right fun _ => not_congr ⟨fun hgone => ?_, ?_⟩
    · rcases List.mem_append.mp hgone with hfailed | hself
      · unfold departure_notices at hfailed
        split at hfailed
        · cases hfailed
        · exact (mem_failures_failing.mp hfailed).2
      · exact List.mem_singleton.mp hself
    · rintro rfl
      exact self_mem_departing
  · unfold departure_notices at hclosed
    split at hclosed
    · simpa using hclosed
    · simpa using hclosed

/-- A send that succeeds before the rest of an outcome. -/
theorem Outcome.Charges.after_send {outcome : Outcome} {message : Message}
    (hrest : outcome.Charges failed_fd server (trace ++ [.send fd message true])) (hother : fd ≠ failed_fd) :
    outcome.Charges failed_fd server trace := by
  intro answer after hok
  obtain ⟨effects, htrace, hcharges⟩ := hrest answer after hok
  refine ⟨.send fd message true :: effects, by simpa using htrace, fun hattempted => hcharges ?_⟩
  change attempted failed_fd ([.send fd message true] ++ effects) ≠ [] at hattempted
  rwa [attempted_append, attempted_send, if_neg hother, List.nil_append] at hattempted

theorem charges_send_or_depart (hserver : server.Consistent) (message : Message) (continuation : List Effect → Outcome)
    (hcontinuation : ∀ trace, (continuation trace).Charges failed_fd server trace) :
    (send_or_depart (failing (· == failed_fd)) fd message fd server trace continuation).Charges failed_fd server
      trace := by
  by_cases hfailed : fd = failed_fd
  · subst hfailed
    intro answer after hok
    have hunsent : failing (· == fd) trace fd message = false := by simp [failing]
    simp only [send_or_depart, hunsent, Bool.false_eq_true, if_false] at hok
    cases hok
    obtain ⟨effects, htrace, hregistered, hclosed⟩ := departed_pays hserver fd
      (trace ++ [.send fd message false])
    exact ⟨.send fd message false :: effects, by simpa using htrace, fun _ => ⟨hregistered, hclosed⟩⟩
  · have hsent : failing (· == failed_fd) trace fd message = true := by simp [failing, hfailed]
    simp only [send_or_depart, hsent, if_true]
    exact (hcontinuation _).after_send hfailed

theorem charges_invite_all {server : Server} {trace : List Effect} (hserver : server.Consistent) (roomname : CString)
    (invitation : Message) {invited_users : List User} (hinvited : ∀ invited ∈ invited_users, invited ∈ server.users) :
    (invite_all (failing (· == failed_fd)) roomname invitation invited_users server trace).Charges failed_fd server
      trace := by
  induction invited_users generalizing server trace with
  | nil => exact charges_idle true trace
  | cons user rest ih =>
    unfold invite_all
    by_cases hinside : server.in_room roomname user
    · rw [if_pos hinside]
      exact charges_idle true trace
    · have hadded := hserver.add_guest (hinvited user List.mem_cons_self) (Bool.not_eq_true _ ▸ hinside)
      rw [if_neg hinside]
      exact charges_send_or_depart hadded invitation _ fun trace =>
        ih hadded fun other hother => hinvited other (List.mem_cons_of_mem user hother)

/-- Only the addressee of a text does not pay for its own failure. -/
theorem Permitted.charges {reaction : Reaction} (hpermitted : Permitted server client_fd msg_in reaction)
    (hserver : server.Consistent) (hrefuse : ∀ message, reaction ≠ .refuse message) (hleave : reaction ≠ .leave)
    (hreply : ∀ message, reaction = .reply failed_fd message → failed_fd = client_fd) (trace : List Effect) :
    ∃ base : Server, (∀ fd username, server.Registered fd username → base.Registered fd username) ∧
      (reaction.perform (failing (· == failed_fd)) client_fd server trace).Charges failed_fd base trace := by
  have hsame : ∀ fd username, server.Registered fd username → server.Registered fd username := fun _ _ h => h
  have hanswer : ∀ message, (Reaction.perform (failing (· == failed_fd)) client_fd server trace
      (.reply client_fd message)).Charges failed_fd server trace := fun message =>
    charges_send_or_depart hserver message _ (charges_idle true)
  cases hpermitted with
  | ignore answer => exact ⟨server, hsame, charges_idle answer trace⟩
  | crash habsent => exact ⟨server, hsame, fun answer after hok => by cases hok⟩
  | answer operation result extra => exact ⟨server, hsame, hanswer _⟩
  | user_list user htype hsender => exact ⟨server, hsame, hanswer _⟩
  | room_user_list roomname room htype hroom => exact ⟨server, hsame, hanswer _⟩
  | text user user_to text htype hsender haddressee hother htext =>
    refine ⟨server, hsame, ?_⟩
    by_cases hfailed : user_to.socket_fd = failed_fd
    · have hself : user_to.socket_fd = client_fd := hfailed.trans (hreply _ (by rw [hfailed]))
      rw [hself]
      exact hanswer _
    · have hsent : ∀ message, failing (· == failed_fd) trace user_to.socket_fd message = true := by
        simp [failing, hfailed]
      simp only [Reaction.perform, send_or_depart, hsent, if_true]
      exact (charges_idle true _).after_send hfailed
  | refuse operation result extra => exact absurd rfl (hrefuse _)
  | leave => exact absurd rfl hleave
  | register user hfd hactive hname hunknown =>
    have hregistered := hserver.register hname hunknown
    refine ⟨server.register user, fun fd username hold => ?_, ?_⟩
    · exact (hserver.registered_register hname).mpr (Or.inl hold)
    · exact charges_send_or_depart hregistered _ _ fun trace => charges_announce hregistered _
  | set_status user status text htype hsender hread hchange =>
    have hset := hserver.set_status client_fd status
    refine ⟨server.set_status client_fd status, fun fd username hold => ?_, charges_announce hset _⟩
    exact (hserver.registered_set_status client_fd status).mpr hold
  | publish user text htype hsender htext => exact ⟨server, hsame, charges_announce hserver _⟩
  | create user requested named htype hsender hroomname hfree =>
    exact ⟨_, hsame, charges_send_or_depart (hserver.create_room hsender.registered named) _ _ (charges_idle true)⟩
  | invite user roomname room usernames invited_users htype hsender hroomname husernames hroom hmember hinvited =>
    exact ⟨server, hsame, charges_invite_all hserver roomname _ fun invited hmem => (hinvited invited hmem).1⟩
  | join user roomname room htype hsender hroomname hroom houtside hguest =>
    have hjoined : (server.let_in roomname user).Consistent := by
      refine hserver.let_in hsender.registered fun other hother => ?_
      rw [hroom] at hother
      cases hother
      exact houtside
    exact ⟨server.let_in roomname user, hsame, charges_send_or_depart hjoined _ _ fun trace =>
      charges_tell_members roomname _⟩
  | tell_room user roomname room text htype hsender hroomname hroom hmember htext =>
    exact ⟨server, hsame, charges_tell_members roomname _⟩
  | quit user roomname room htype hsender hroomname hroom hmember =>
    refine ⟨server.quit roomname user, fun fd username hold => ?_, charges_tell_members roomname _⟩
    rwa [Server.Registered, Server.users_quit]

end Charges

section Texts

variable {server : Server} {trace : List Effect} {client_fd fd : Fd} {msg_in message : Message}

/-- A reply to somebody else is a text. -/
theorem textsTo_of_reply (hserver : server.Consistent)
    (hreaction : reaction server client_fd msg_in = .reply fd message) (hother : fd ≠ client_fd) :
    TextsTo server client_fd msg_in fd := by
  have hpermitted := reaction_permitted client_fd msg_in hserver
  rw [hreaction] at hpermitted
  cases hpermitted with
  | text user user_to text htype hsender haddressee hdifferent htext =>
    refine ⟨user, user_to, text, hsender, haddressee, rfl, hdifferent, htype, ?_, htext⟩
    rw [reaction_of_sender hserver hsender (by simp [htype])] at hreaction
    simp only [registered_reaction, htype, text_reaction, htext] at hreaction
    cases husername : msg_in.username with
    | none =>
      rw [husername] at hreaction
      cases hreaction
    | some username =>
      simp only [husername] at hreaction
      cases hfound : server.users.find_by_username username with
      | none =>
        simp only [hfound, hsender.connected] at hreaction
        cases hreaction
      | some found =>
        obtain ⟨hregistered, hname⟩ := hserver.users.find_by_username_iff.mp hfound
        simp only [hfound] at hreaction
        split at hreaction
        · cases hreaction
        · have hsame := hserver.users.eq_of_socket_fd_eq hregistered haddressee (Reaction.reply.inj hreaction).1
          rw [← hname, hsame]
  | _ => exact absurd rfl hother

theorem reaction_of_textsTo (hserver : server.Consistent) (htexts : TextsTo server client_fd msg_in fd) :
    ∃ user text, server.Sender client_fd user ∧ fd ≠ client_fd ∧
      reaction server client_fd msg_in = .reply fd (text_from_notice user.username text) := by
  obtain ⟨user, user_to, text, hsender, haddressee, rfl, hdifferent, htype, husername, htext⟩ := htexts
  have hfound := hserver.users.find_by_username_iff.mpr ⟨haddressee, rfl⟩
  refine ⟨user, text, hsender, fun hsame => hdifferent ?_, ?_⟩
  · rw [hserver.users.eq_of_socket_fd_eq hsender.registered haddressee (hsender.connected.trans hsame.symm)]
  · rw [reaction_of_sender hserver hsender (by simp [htype])]
    simp only [registered_reaction, htype, text_reaction, husername, hfound, if_neg hdifferent, htext]

end Texts

section Requests

variable {server : Server} {trace : List Effect} {client_fd fd : Fd} {msg_in : Message}

/-- A request that disconnects nobody is neither refused nor a departure. -/
theorem closed_of_disconnectsNobody (hserver : server.Consistent)
    (hnobody : DisconnectsNobody reliable (.idle server trace) client_fd msg_in) :
    (reaction server client_fd msg_in).closed reliable client_fd server trace = [] := by
  obtain ⟨⟨effects, htrace, hclosed⟩, -⟩ := hnobody
  obtain ⟨others, hothertrace, hothers, -⟩ :=
    (reaction server client_fd msg_in).closes reliable client_fd server trace
  rw [run_message_handler_process reliable server trace client_fd msg_in hserver] at htrace
  obtain rfl := List.append_cancel_left (htrace.symm.trans hothertrace)
  rw [← hothers, hclosed]

/-- The sender of a text pays for its addressee. -/
theorem not_charged_of_textsTo (hserver : server.Consistent) (htexts : TextsTo server client_fd msg_in fd) :
    ¬ ChargedTo (.idle server trace) client_fd msg_in fd := by
  intro hcharged
  obtain ⟨user, text, hsender, hother, hreaction⟩ := reaction_of_textsTo hserver htexts
  have hrequest := fun net => run_message_handler_process net server trace client_fd msg_in hserver
  simp only [hreaction, Reaction.perform, send_or_depart] at hrequest
  have hunsent : failing (· == fd) trace fd (text_from_notice user.username text) = false := by simp [failing]
  have hfailing := hrequest (failing (· == fd))
  simp only [hunsent, Bool.false_eq_true, if_false] at hfailing
  have hnobody : DisconnectsNobody reliable (.idle server trace) client_fd msg_in := by
    unfold DisconnectsNobody
    rw [hrequest reliable]
    exact ⟨⟨_, rfl, rfl⟩, fun _ _ hregistered => hregistered⟩
  have hpaid := hcharged true _
    (.send fd (text_from_notice user.username text) false ::
      (departure_notices (failing (· == fd)) server (trace ++ [.send fd (text_from_notice user.username text) false])
        client_fd ++ [.close client_fd]))
    hfailing (by simp [departed]) hnobody (by simp [attempted])
  have hregistered : server.Registered client_fd user.username :=
    ⟨user, hserver.users.mem_entries.mpr hsender.registered, rfl, hsender.connected⟩
  have hstays := (hpaid.2 client_fd user.username hregistered hother.symm).1
  rw [departed, World.idle, hserver.depart_eq, hserver.registered_evict_all] at hstays
  exact hstays.2 self_mem_departing

end Requests

/-- Every failed send is charged to the descriptor that it was for, except the one
of a text, for which the sender is disconnected. -/
theorem failures_are_charged_iff {net : Net} {history : List (World × Event)} {world : World}
    (hrun : ServerRun net history world) (client_fd : Fd) (msg_in : Message) (failed_fd : Fd) :
    ChargedTo world client_fd msg_in failed_fd ↔ ¬ TextsTo world.server client_fd msg_in failed_fd := by
  obtain ⟨hidle, hserver⟩ := run_ready hrun
  constructor
  · intro hcharged htexts
    rw [hidle] at hcharged
    exact not_charged_of_textsTo hserver htexts hcharged
  · intro hother answer after effects hok htrace hnobody hattempted
    rw [hidle, run_message_handler_process _ world.server world.trace client_fd msg_in hserver] at hok
    rw [hidle] at hnobody
    have hclosed := closed_of_disconnectsNobody hserver hnobody
    obtain ⟨base, hbase, hcharges⟩ := (reaction_permitted client_fd msg_in hserver).charges hserver
      (fun message hrefuse => by simp [hrefuse, Reaction.closed] at hclosed)
      (fun hleave => by simp [hleave, Reaction.closed] at hclosed)
      (fun message hreply => by
        by_contra hdifferent
        exact hother (textsTo_of_reply hserver hreply hdifferent)) world.trace
    obtain ⟨others, hothertrace, hpays⟩ := hcharges answer after hok
    obtain rfl := List.append_cancel_left (htrace.symm.trans hothertrace)
    obtain ⟨hregistered, honly⟩ := hpays hattempted
    refine ⟨fun username hgone => ?_, fun fd username hold hdifferent => ⟨?_, fun hclose => hdifferent ?_⟩⟩
    · exact ((hregistered failed_fd username).mp hgone).2 rfl
    · exact (hregistered fd username).mpr ⟨hbase fd username hold, hdifferent⟩
    · exact honly fd (mem_closed.mpr hclose)

/-- A text for everybody of which one copy fails. -/
theorem failures_are_charged_iff_in_meeting :
    ∃ world, world.server.Registered 5 (.lit "luis") ∧
      ChargedTo world 4 { message_init with type := .PUBLIC_TEXT, text := some (.lit "hola") } 5 := by
  obtain ⟨history, world, hrun, htest⟩ := exists_run_of_serve_all reliable meeting
    (fun _ world => world.server.Registered 5 (.lit "luis")) (by decide +kernel)
  refine ⟨world, of_decide_eq_true htest, (failures_are_charged_iff hrun 4 _ 5).mpr ?_⟩
  rintro ⟨_, _, _, -, -, -, -, htype, -⟩
  cases htype

/-- A text that its addressee does not get. -/
theorem text_failure_is_charged_to_sender :
    ¬ ∀ history world, ServerRun reliable history world → ∀ client_fd msg_in failed_fd,
      ChargedTo world client_fd msg_in failed_fd := by
  intro halways
  obtain ⟨history, world, hrun, htest⟩ := exists_run_of_serve_all reliable meeting
    (fun _ world => world.server.Registered 4 (.lit "ana") && world.server.Registered 5 (.lit "luis"))
    (by decide +kernel)
  simp only [Bool.and_eq_true, decide_eq_true_eq] at htest
  obtain ⟨⟨ana, hana, hananame, hanafd⟩, luis, hluis, hluisname, hluisfd⟩ := htest
  obtain ⟨hidle, hserver⟩ := run_ready hrun
  have hcharged := halways history world hrun 4
    { message_init with type := .TEXT, username := some (.lit "luis"), text := some (.lit "hola") } 5
  rw [hidle] at hcharged
  refine not_charged_of_textsTo hserver ⟨ana, luis, .lit "hola", ⟨hserver.users.mem_entries.mp hana, hanafd⟩,
    hserver.users.mem_entries.mp hluis, hluisfd, ?_, rfl, by rw [hluisname], rfl⟩ hcharged
  rw [hananame, hluisname]
  decide

end ojalvo
