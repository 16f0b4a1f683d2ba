import OjalvoChat.Concurrency.Registration
import OjalvoChat.Concurrency.Untraced
import OjalvoChat.Protocol.Views

namespace ojalvo

/-- A message to all users but one, or to all members of a room but one. -/
inductive Addressed (server : Server) (message : Message) : List Fd → Prop where
  | everybody (client_fd : Fd) (heverybody : message.type.audience = .everybody) :
    Addressed server message (recipients server.users.entries client_fd)
  | members (client_fd : Fd) (roomname : CString) (hmembers : message.type.audience = .members) :
    Addressed server message (server.room_recipients roomname client_fd)

/-- A broadcast, with the world in which it was made. -/
structure Announcement where
  world : World
  message : Message
  audience : List Fd
  addressed : Addressed world.server message audience

def Announcement.effects (net : Net) (announcement : Announcement) : List Effect :=
  broadcast net announcement.message announcement.world.trace announcement.audience

/-- The descriptors of the sends that succeeded, in order. -/
def reached (effects : List Effect) : List Fd :=
  effects.filterMap fun effect =>
    match effect with
    | .send fd _ true => some fd
    | _ => none

/-- What a descriptor gets of an announcement. -/
def Announcement.copies (net : Net) (announcement : Announcement) (fd : Fd) : List Message :=
  ((reached (announcement.effects net)).filter fun reached => reached = fd).map fun _ => announcement.message

/-- The announcements that reach a descriptor. -/
def announced (fd : Fd) (effects : List Effect) : List Message :=
  (received fd effects).filter fun message => message.type.audience ≠ .one

/-- What an action says: nothing to more than one, or one announcement. -/
inductive Utters (net : Net) (world : World) : List Effect → List Announcement → Prop where
  | quiet (effects : List Effect)
    (hone : ∀ fd message sent, Effect.send fd message sent ∈ effects → message.type.audience = .one) :
    Utters net world effects []
  | announce (announcement : Announcement) (hworld : announcement.world = world) :
    Utters net world (announcement.effects net) [announcement]

section Utters

variable {net : Net} {world : World} {fd : Fd}

/-- Everybody whom a broadcast reaches receives its message as often as it is
reached. -/
theorem received_broadcast (message : Message) (trace : List Effect) (fds : List Fd) :
    received fd (broadcast net message trace fds) =
      ((reached (broadcast net message trace fds)).filter fun reached => reached = fd).map fun _ => message := by
  induction fds generalizing trace with
  | nil => rfl
  | cons other rest ih =>
    have hrest := ih (trace ++ [.send other message (net trace other message)])
    rw [broadcast]
    revert hrest
    cases net trace other message with
    | false => exact id
    | true =>
      intro hrest
      change received fd ([.send other message true] ++ broadcast net message _ rest) =
        ((other :: reached (broadcast net message _ rest)).filter fun reached => reached = fd).map fun _ => message
      rw [received_append, received_send, hrest]
      by_cases hsame : other = fd
      · simp [hsame]
      · simp [hsame]

/-- What is announced is not meant for one client. -/
theorem Addressed.audience {server : Server} {message : Message} {fds : List Fd}
    (haddressed : Addressed server message fds) : message.type.audience ≠ .one := by
  cases haddressed with
  | everybody client_fd heverybody => simp [heverybody]
  | members client_fd roomname hmembers => simp [hmembers]

/-- What an action says is what it announces. -/
theorem Utters.announced {effects : List Effect} {log : List Announcement} (hutters : Utters net world effects log) :
    announced fd effects = log.flatMap fun announcement => announcement.copies net fd := by
  cases hutters with
  | quiet _ hone =>
    refine List.filter_eq_nil_iff.mpr fun message hmem => ?_
    simp [hone fd message true (mem_received hmem)]
  | announce announcement hworld =>
    have hall : ∀ message ∈ announcement.copies net fd, message.type.audience ≠ .one := by
      intro message hmem
      obtain ⟨_, -, rfl⟩ := List.mem_map.mp hmem
      exact announcement.addressed.audience
    have hreceived : received fd (announcement.effects net) = announcement.copies net fd := received_broadcast _ _ _
    rw [ojalvo.announced, hreceived]
    simpa using hall

end Utters

/-- An action that says something, whether it completes or has to wait. -/
def Speaks (net : Net) {A : Type} (action : Action A) : Prop :=
  ∀ world : World, world.Proper →
    match action.run world with
    | .ok _ after => ∃ effects log, after.trace = world.trace ++ effects ∧ Utters net world effects log
    | .error (.blocked _) stopped =>
      ∃ effects log, stopped.trace = world.trace ++ effects ∧ Utters net world effects log
    | .error _ _ => True

section Speaks

variable {net : Net} {A : Type}

theorem utters_nothing {world after : World} (hsame : after.trace = world.trace) :
    ∃ effects log, after.trace = world.trace ++ effects ∧ Utters net world effects log :=
  ⟨[], [], by simp [hsame], .quiet [] (by simp)⟩

/-- What does not read the trace announces nothing. -/
theorem speaks_of_untraced {action : Action A} (huntraced : Untraced action) : Speaks net action := by
  intro world _
  split
  · rename_i hrun
    exact utters_nothing (huntraced.ok hrun)
  · rename_i hrun
    exact utters_nothing (huntraced.error hrun)
  · trivial

/-- The visitor of a broadcast sends to everybody, or it leaves the array. -/
theorem run_visit_all_sends (net : Net) (message : Message) (client_fd : Fd) (users : List User) (context : SendContext)
    (world : World) :
    (∃ value, (visit_all (send_if_is_not_self net message client_fd) users context).run world =
      .ok value { world with trace := world.trace ++ broadcast net message world.trace (recipients users client_fd) }) ∨
    ∃ stopped, (visit_all (send_if_is_not_self net message client_fd) users context).run world =
      .error .out_of_bounds stopped := by
  induction users generalizing context world with
  | nil => exact Or.inl ⟨context, by simp [visit_all, recipients, broadcast]⟩
  | cons user rest ih =>
    by_cases hself : user.socket_fd = client_fd
    · simp only [visit_all, send_if_is_not_self, if_pos hself, EStateM.run_bind, EStateM.run_pure,
        recipients_cons_self hself]
      exact ih context world
    · obtain ⟨server, held, trace, alloc⟩ := world
      simp only [visit_all, send_if_is_not_self, if_neg hself, EStateM.run_bind, run_server_send,
        recipients_cons_other hself, broadcast]
      have hrest (context : SendContext) := ih context
        ⟨server, held, trace ++ [.send user.socket_fd message (net trace user.socket_fd message)], alloc⟩
      simp only [List.append_assoc, List.singleton_append] at hrest
      revert hrest
      cases net trace user.socket_fd message with
      | true =>
        intro hrest
        simpa only [if_true, EStateM.run_pure] using hrest context
      | false =>
        intro hrest
        by_cases hfree : context.index < context.client_fds_to_disconnect.length
        · simpa only [Bool.false_eq_true, if_false, if_pos hfree, EStateM.run_pure] using hrest _
        · exact Or.inr ⟨_, by simp only [Bool.false_eq_true, if_false, if_neg hfree, run_stop]; rfl⟩

/-- A broadcast is one announcement. -/
theorem utters_broadcast (world : World) {after : World} {message : Message} {fds : List Fd}
    (haddressed : Addressed world.server message fds)
    (htrace : after.trace = world.trace ++ broadcast net message world.trace fds) :
    ∃ effects log, after.trace = world.trace ++ effects ∧ Utters net world effects log :=
  ⟨_, _, htrace, .announce ⟨world, message, fds, haddressed⟩ rfl⟩

theorem speaks_users_table_for_each (message : Message) (client_fd : Fd) (context : SendContext)
    (heverybody : message.type.audience = .everybody) :
    Speaks net (users_table_for_each .server_users (send_if_is_not_self net message client_fd) context) := by
  rintro ⟨server, held, trace, alloc⟩ ⟨rfl, hheld⟩
  simp only [users_table_for_each, EStateM.run_bind, run_g_mutex_lock, if_neg (not_mem_held hheld _),
    run_users_table_load, UsersTablePtr.read_server_users]
  rcases run_visit_all_sends net message client_fd server.users.entries context
    ⟨server, .users_table .server_users :: held, trace, allocating⟩ with ⟨value, hok⟩ | ⟨stopped, hstopped⟩
  · rw [hok]
    exact utters_broadcast ⟨server, held, trace, allocating⟩ (.everybody client_fd heverybody) rfl
  · rw [hstopped]
    trivial

theorem speaks_room_notify_members (message : Message) (client_fd : Fd) (roomname : CString)
    (hmembers : message.type.audience = .members) :
    Speaks net (room_table_with roomname (room_notify_members net message client_fd) ()) := by
  rintro ⟨server, held, trace, alloc⟩ ⟨rfl, rfl | rfl⟩
  · rw [run_room_table_with]
    cases hroom : server.rooms.lookup roomname with
    | none => exact utters_nothing rfl
    | some room =>
      have hread : (UsersTablePtr.members roomname).read server = some room.members := by simp [hroom]
      have hfds : server.room_recipients roomname client_fd = recipients room.members.entries client_fd := by
        simp [Server.room_recipients, hroom]
      have hutters (after : World)
          (htrace : after.trace = trace ++ broadcast net message trace (recipients room.members.entries client_fd)) :
          ∃ effects log, after.trace = trace ++ effects ∧ Utters net ⟨server, [], trace, allocating⟩ effects log := by
        rw [← hfds] at htrace
        exact utters_broadcast ⟨server, [], trace, allocating⟩ (.members client_fd roomname hmembers) htrace
      have hrun : (room_notify_members net message client_fd roomname ()).run ⟨server, [.rooms], trace, allocating⟩ =
        (notify_all_but_self net (.members roomname) message client_fd).run ⟨server, [.rooms], trace, allocating⟩ := rfl
      simp only [hrun, notify_all_but_self, Program.run_bind, Program.run_lift, run_users_table_size, hread,
        users_table_for_each, EStateM.run_bind, run_g_mutex_lock, List.mem_singleton, reduceCtorEq, if_false,
        run_users_table_load]
      rcases run_visit_all_sends net message client_fd room.members.entries
        ⟨List.replicate (room.members.entries.length + 1) (-1), 0⟩
        ⟨server, [.users_table (.members roomname), .rooms], trace, allocating⟩ with ⟨value, hok⟩ | ⟨stopped, hstopped⟩
      · rw [hok]
        simp only [run_g_mutex_unlock, EStateM.run_pure, List.erase_cons_head]
        -- the loop over the failed descriptors sends nothing
        rcases disconnect_failed_locked server
            (trace ++ broadcast net message trace (recipients room.members.entries client_fd)) roomname room.members
            hread value.client_fds_to_disconnect with hdone | ⟨hstuck, -⟩ | ⟨stopped, hout⟩
        · rw [hdone]
          exact hutters _ rfl
        · rw [hstuck]
          exact hutters _ rfl
        · rw [hout]
          trivial
      · rw [hstopped]
        trivial
  · rw [run_room_table_with_blocked]
    exact utters_nothing rfl

/-- Every part of a handler makes one announcement at most. -/
theorem speaks_part {given : Option CString → Prop} {said : MessageType → Prop} {action : Action A}
    (hpart : Part net given said action) : Speaks net action := by
  rcases hpart.untraced_or_socketed with huntraced | hsocketed
  · exact speaks_of_untraced huntraced
  cases hsocketed with
  | notify_members roomname message client_fd hmembers _ =>
    exact speaks_room_notify_members message client_fd roomname hmembers
  | send client_fd message hone _ =>
    rintro world _
    exact ⟨_, [], rfl, .quiet _ (by rintro fd sent result hmem; cases List.mem_singleton.mp hmem; exact hone)⟩
  | disconnect client_fd => exact fun world _ => ⟨_, [], rfl, .quiet _ (by simp)⟩

/-- Every action of a handler speaks. -/
theorem each_speaks_serve {client_fd : Fd} (line : Option Message) :
    (serve net (Event.of_line client_fd line)).Each (Speaks net) fun _ => True := by
  have hbuilt : Handler.Built net (fun _ => True) (fun _ => True) (serve net (Event.of_line client_fd line)) :=
    built_serve grants_all (fun _ _ => given_all _) fun _ _ => says_all _
  exact hbuilt.each (fun _ hpart => speaks_part hpart) (speaks_of_untraced (untraced_users_table_size _))
    (fun message client_fd context heverybody _ => speaks_users_table_for_each message client_fd context heverybody)
    (speaks_of_untraced (untraced_stop _))

end Speaks

end ojalvo
