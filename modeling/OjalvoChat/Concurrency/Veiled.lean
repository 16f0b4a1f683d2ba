import OjalvoChat.Concurrency.Order
import OjalvoChat.Library.Twins
import OjalvoChat.Protocol.Touched

namespace ojalvo

/-- Which texts may take each other's place, and who may notice. -/
structure Veil where
  alike : CString → CString → Prop
  readers : Fd → Prop

/-- Two texts that are the same, or of which one may take the place of the other. -/
inductive Exchanged (alike : CString → CString → Prop) (read : Prop) : Option CString → Option CString → Prop where
  | same (text : Option CString) : Exchanged alike read text text
  | other {text other : CString} (hread : read) (halike : alike text other) :
    Exchanged alike read (some text) (some other)

/-- Two effects that differ at most in the text of a message to those who may
notice. -/
inductive Effect.Veiled (veil : Veil) : Effect → Effect → Prop where
  | same (effect : Effect) : Veiled veil effect effect
  | send {fd : Fd} (message : Message) {text : Option CString} (sent : Bool)
    (htext : Exchanged veil.alike (veil.readers fd) message.text text) :
    Veiled veil (.send fd message sent) (.send fd { message with text } sent)

/-- Two worlds that differ at most in such texts. -/
inductive World.Veiled (veil : Veil) (world : World) : World → Prop where
  | intro {other : List Effect} (htrace : List.Forall₂ (Effect.Veiled veil) world.trace other) :
    World.Veiled veil world (world.with_trace other)

/-- The result of a send does not depend on which of the texts were sent. -/
def Net.Blind (alike : CString → CString → Prop) (net : Net) : Prop :=
  ∀ trace other fd message text, List.Forall₂ (Effect.Veiled ⟨alike, fun _ => True⟩) trace other →
    Exchanged alike True message.text text → net other fd { message with text } = net trace fd message

/-- An action that comes to the same in worlds that differ at most in such texts. -/
abbrev Mirrored {A : Type} (veil : Veil) (action : Action A) : Prop :=
  Twins Eq (World.Veiled veil) action action

section Effects

variable {veil : Veil} {trace other : List Effect}

theorem World.Veiled.refl (world : World) : world.Veiled veil world :=
  .intro (List.forall₂_same.mpr fun effect _ => .same effect)

/-- The tables of both worlds are the same. -/
theorem World.Veiled.server {world other : World} (hworld : world.Veiled veil other) :
    other.server = world.server := by
  cases hworld with
  | intro htrace => rfl

/-- The traces of both worlds differ in the exchanged texts at most. -/
theorem World.Veiled.traces {world other : World} (hworld : world.Veiled veil other) :
    List.Forall₂ (Effect.Veiled veil) world.trace other.trace := by
  cases hworld with
  | intro htrace => exact htrace

/-- More may be read. -/
theorem Exchanged.mono {alike : CString → CString → Prop} {read also : Prop} {text other : Option CString}
    (hexchanged : Exchanged alike read text other) (hread : read → also) : Exchanged alike also text other := by
  cases hexchanged with
  | same _ => exact .same _
  | other hnow halike => exact .other (hread hnow) halike

/-- A text that is not to be read is not exchanged. -/
theorem Exchanged.eq {alike : CString → CString → Prop} {read : Prop} {text other : Option CString}
    (hexchanged : Exchanged alike read text other) (hread : ¬ read) : other = text := by
  cases hexchanged with
  | same _ => rfl
  | other hnow halike => exact absurd hnow hread

/-- The same descriptors are open. -/
theorem is_open_veiled (htrace : List.Forall₂ (Effect.Veiled veil) trace other) (fd : Fd) :
    is_open other fd = is_open trace fd := by
  unfold is_open
  suffices hfold : ∀ opened : Bool, List.foldl _ opened other = List.foldl _ opened trace from hfold false
  induction htrace with
  | nil => exact fun _ => rfl
  | cons heffect _ ih =>
    intro opened
    cases heffect with
    | same _ => exact ih _
    | send message sent htext => exact ih _

/-- The effects on a descriptor that may not read the texts are the same. -/
theorem filter_veiled (htrace : List.Forall₂ (Effect.Veiled veil) trace other) {fd : Fd} (hfd : ¬ veil.readers fd) :
    (other.filter fun effect => effect.fd = fd) = trace.filter fun effect => effect.fd = fd := by
  induction htrace with
  | nil => rfl
  | cons heffect _ ih =>
    cases heffect with
    | same _ => rw [List.filter_cons, List.filter_cons, ih]
    | @send sent_fd message text sent htext =>
      by_cases hother : sent_fd = fd
      · subst hother
        rw [htext.eq hfd, List.filter_cons, List.filter_cons, ih]
      · simpa [Effect.fd, hother] using ih

theorem Net.Blind.eq {net : Net} (hblind : net.Blind veil.alike)
    (htrace : List.Forall₂ (Effect.Veiled veil) trace other)
    (fd : Fd) (message : Message) {read : Prop} {text : Option CString}
    (htext : Exchanged veil.alike read message.text text) :
    net other fd { message with text } = net trace fd message :=
  hblind trace other fd message text (htrace.imp fun _ _ hveiled => by
    cases hveiled with
    | same _ => exact .same _
    | send message sent htext => exact .send message sent (htext.mono fun _ => trivial)) (htext.mono fun _ => trivial)

end Effects

section Mirrors

variable {veil : Veil} {net : Net} {A B : Type}

/-- What does not read the trace does not notice the exchange. -/
theorem mirrored_of_untraced {action : Action A} (huntraced : Untraced action) : Mirrored veil action := by
  rintro world _ ⟨htrace⟩
  rw [huntraced]
  cases hrun : action.run world with
  | ok value after => exact .ok rfl (.intro (huntraced.ok hrun ▸ htrace))
  | error why stopped => exact .error (.intro (huntraced.error hrun ▸ htrace))

/-- Two actions that do not notice the exchange, one after the other. -/
theorem Mirrored.bind {action : Action A} {next : A → Action B} (haction : Mirrored veil action)
    (hnext : ∀ value, Mirrored veil (next value)) : Mirrored veil (action >>= next) :=
  Twins.bind haction fun value _ hvalue => hvalue ▸ hnext value

/-- Copies of two texts fail together. -/
theorem twins_strdup (text other : CString) :
    Twins (fun copied shadow => copied = none ∧ shadow = none ∨ copied = some text ∧ shadow = some other)
      (World.Veiled veil) (strdup (some text)) (strdup (some other)) := by
  refine Twins.bind (mirrored_of_untraced untraced_malloc) ?_
  rintro allocated _ rfl
  cases allocated with
  | true => exact twins_pure (Or.inr ⟨rfl, rfl⟩)
  | false => exact twins_pure (Or.inl ⟨rfl, rfl⟩)

/-- Two messages that differ in the text are sent alike. -/
theorem twins_server_send (hblind : net.Blind veil.alike) (fd : Fd) (message : Message) {text : Option CString}
    (htext : Exchanged veil.alike (veil.readers fd) message.text text) :
    Twins Eq (World.Veiled veil) (server_send net fd message) (server_send net fd { message with text }) := by
  rintro ⟨server, held, trace, alloc⟩ _ ⟨htrace⟩
  rw [World.with_trace, run_server_send, run_server_send, hblind.eq htrace fd message htext]
  exact .ok rfl (.intro (List.rel_append htrace (.cons (.send message _ htext) .nil)))

theorem mirrored_server_disconnect_client (client_fd : Fd) : Mirrored veil (server_disconnect_client client_fd) := by
  rintro world _ ⟨htrace⟩
  exact .ok rfl (.intro (List.rel_append htrace (.cons (.same _) .nil)))

/-- The visitor of a broadcast, over users who may all read the text. -/
theorem twins_visit_all (hblind : net.Blind veil.alike) (message : Message) (client_fd : Fd) {text : Option CString}
    {users : List User}
    (htext : Exchanged veil.alike (∀ user ∈ users, veil.readers user.socket_fd) message.text text)
    (context : SendContext) :
    Twins Eq (World.Veiled veil) (visit_all (send_if_is_not_self net message client_fd) users context)
      (visit_all (send_if_is_not_self net { message with text } client_fd) users context) := by
  induction users generalizing context with
  | nil => exact twins_pure rfl
  | cons user rest ih =>
    have hrest := htext.mono fun hall other hother => hall other (List.mem_cons_of_mem user hother)
    have hnow := htext.mono fun hall => hall user List.mem_cons_self
    refine Twins.bind (V := Eq) ?_ fun later _ hlater => hlater ▸ ih hrest later
    unfold send_if_is_not_self
    split
    · exact twins_pure rfl
    · refine Twins.bind (twins_server_send hblind user.socket_fd message hnow) ?_
      rintro sent _ rfl
      cases sent with
      | true => exact twins_pure rfl
      | false =>
        rw [if_neg Bool.false_ne_true]
        split
        · exact twins_pure rfl
        · exact fun _ _ hworld => .error hworld

/-- Reactions to failed sends go the same way. -/
theorem pairs_disconnect_failed {I : World → Prop} (users : UsersTablePtr) (fds : List Int) :
    Program.Pairs I (World.Veiled veil) (disconnect_failed users fds) (disconnect_failed users fds) := by
  have hremove (users : UsersTablePtr) (username : CString) : Mirrored veil (users_table_remove users username) :=
    mirrored_of_untraced (untraced_users_table_update _ _ _)
  have hremoves (user : User) : Mirrored veil (room_table_for_each (room_remove_data user)) :=
    mirrored_of_untraced (untraced_room_table_for_each fun room => (untraced_users_table_update _ _ _).bind fun _ =>
      (untraced_users_table_update _ _ _).bind fun _ => oblivious_pure ())
  induction fds with
  | nil => exact Program.pairs_action (mirrored_of_untraced (untraced_stop _)) .ret
  | cons fd rest ih =>
    unfold disconnect_failed
    split
    · exact .ret ()
    refine Program.pairs_action (mirrored_of_untraced (untraced_users_table_query _ _)) fun found => ?_
    cases found with
    | none => exact ih
    | some user =>
      exact Program.pairs_action (hremoves user) fun _ => Program.pairs_action (hremove users user.username) fun _ => ih

/-- A broadcast to the members of a room, who may all read the text. -/
theorem alike_room_notify_members (hblind : net.Blind veil.alike) (message : Message) (client_fd : Fd)
    {text : Option CString}
    (roomname : CString) {world other : World} (hproper : world.Proper)
    (htext : Exchanged veil.alike (∀ room, world.server.rooms.lookup roomname = some room →
      ∀ user ∈ room.members.entries, veil.readers user.socket_fd) message.text text)
    (hveiled : world.Veiled veil other) :
    Alike Eq (World.Veiled veil)
      ((room_table_with roomname (room_notify_members net message client_fd) ()).run world)
      ((room_table_with roomname (room_notify_members net { message with text } client_fd) ()).run other) := by
  obtain ⟨server, held, trace, alloc⟩ := world
  obtain ⟨rfl, rfl | rfl⟩ := hproper
  · obtain ⟨htrace⟩ := hveiled
    rw [World.with_trace, run_room_table_with, run_room_table_with]
    cases hroom : server.rooms.lookup roomname with
    | none => exact .ok rfl (.intro htrace)
    | some room =>
      have hread : (UsersTablePtr.members roomname).read server = some room.members := by simp [hroom]
      have hvisits := twins_visit_all hblind message client_fd (htext.mono fun hall => hall room hroom)
        ⟨List.replicate (room.members.entries.length + 1) (-1), 0⟩
        ⟨server, [.users_table (.members roomname), .rooms], trace, allocating⟩ _ (.intro htrace)
      have hrun (message : Message) (trace : List Effect) :
          (room_notify_members net message client_fd roomname ()).run ⟨server, [.rooms], trace, allocating⟩ =
            (notify_all_but_self net (.members roomname) message client_fd).run
              ⟨server, [.rooms], trace, allocating⟩ := rfl
      simp only [hrun, notify_all_but_self, Program.run_bind, Program.run_lift, run_users_table_size, hread,
        users_table_for_each, EStateM.run_bind, run_g_mutex_lock, List.mem_singleton, reduceCtorEq, if_false,
        run_users_table_load]
      rw [World.with_trace] at hvisits
      generalize EStateM.run (visit_all _ _ _) _ = outcome at hvisits ⊢
      generalize EStateM.run (visit_all _ _ _) _ = shadow at hvisits ⊢
      cases hvisits with
      | error hstopped => exact .error hstopped
      | ok hvalue hafter =>
        subst hvalue
        obtain ⟨htrace⟩ := hafter
        rename_i context after other
        obtain ⟨server, held, trace, alloc⟩ := after
        simp only [World.with_trace, run_g_mutex_unlock, EStateM.run_pure]
        let later : World := ⟨server, held.erase (.users_table (.members roomname)), trace, alloc⟩
        have hrest := (pairs_disconnect_failed (.members roomname) context.client_fds_to_disconnect).run
          later (later.with_trace other) (.intro htrace)
        change Alike Eq (World.Veiled veil) (Program.run _ later) (Program.run _ (later.with_trace other)) at hrest
        simp only [later, World.with_trace] at hrest
        generalize Program.run (disconnect_failed _ _) _ = outcome at hrest ⊢
        generalize Program.run (disconnect_failed _ _) _ = shadow at hrest ⊢
        cases hrest with
        | error hstopped => exact .error hstopped
        | ok hvalue hafter =>
          obtain ⟨htrace⟩ := hafter
          exact .ok rfl (.intro htrace)
  · obtain ⟨htrace⟩ := hveiled
    rw [World.with_trace, run_room_table_with_blocked, run_room_table_with_blocked]
    exact .error (.intro htrace)

end Mirrors

end ojalvo
