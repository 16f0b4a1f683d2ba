import OjalvoChat.Protocol.Delivery

namespace ojalvo

section Views

variable {View : Type} {apply : View → Message → View} {known middle later : View → Prop} {own_fd : Fd}
  {effects more : List Effect}

/-- A client that knew how things stood, and applies the messages that it receives
to what it knows, knows afterwards how things stand then. -/
def Informs (apply : View → Message → View) (known later : View → Prop) (own_fd : Fd) (effects : List Effect) : Prop :=
  ∀ view, known view → later ((received own_fd effects).foldl apply view)

/-- None of the messages changes what is known. -/
def Ignores (apply : View → Message → View) (effects : List Effect) : Prop :=
  ∀ fd message sent, Effect.send fd message sent ∈ effects → ∀ view, apply view message = view

theorem Informs.append (hfirst : Informs apply known middle own_fd effects)
    (hsecond : Informs apply middle later own_fd more) : Informs apply known later own_fd (effects ++ more) := by
  intro view hknown
  rw [received_append, List.foldl_append]
  exact hsecond _ (hfirst view hknown)

theorem mem_received {fd : Fd} {message : Message} (hmem : message ∈ received fd effects) :
    Effect.send fd message true ∈ effects := by
  simp only [received, List.mem_filterMap] at hmem
  obtain ⟨effect, heffect, hsome⟩ := hmem
  split at hsome
  · split at hsome
    · rename_i hfd
      cases hsome
      rwa [← hfd]
    · cases hsome
  · cases hsome

theorem Ignores.informs (hignores : Ignores apply effects) : Informs apply known known own_fd effects := by
  intro view hknown
  have hsame : ∀ messages : List Message, (∀ message ∈ messages, apply view message = view) →
      messages.foldl apply view = view := by
    intro messages hall
    induction messages with
    | nil => rfl
    | cons message rest ih =>
      rw [List.foldl_cons, hall message List.mem_cons_self]
      exact ih fun other hother => hall other (List.mem_cons_of_mem message hother)
  rw [hsame _ fun message hmem => hignores _ message _ (mem_received hmem) view]
  exact hknown

theorem ignores_send {fd : Fd} {message : Message} (hignored : ∀ view, apply view message = view) :
    Ignores apply [.send fd message true] := by
  intro other sending sent hmem
  cases List.mem_singleton.mp hmem
  exact hignored

theorem ignores_sends {fds : List Fd} {message : Message} (hignored : ∀ view, apply view message = view) :
    Ignores apply (sends message fds) := by
  intro other sending sent hmem
  obtain ⟨_, _, heq⟩ := List.mem_map.mp hmem
  cases heq
  exact hignored

/-- A message to different recipients reaches the client once or not at all. -/
theorem informs_sends {fds : List Fd} {message : Message} (hnodup : fds.Nodup)
    (hreached : own_fd ∈ fds → ∀ view, known view → later (apply view message))
    (hmissed : own_fd ∉ fds → ∀ view, known view → later view) :
    Informs apply known later own_fd (sends message fds) := by
  intro view hknown
  rw [received_sends _ _ hnodup]
  by_cases hmem : own_fd ∈ fds
  · rw [if_pos hmem]
    exact hreached hmem view hknown
  · rw [if_neg hmem]
    exact hmissed hmem view hknown

theorem ignores_close (fd : Fd) : Ignores apply [.close fd] := by
  intro other sending sent hmem
  cases List.mem_singleton.mp hmem

theorem ignores_accept (fd : Fd) : Ignores apply [.accept fd] := by
  intro other sending sent hmem
  cases List.mem_singleton.mp hmem

end Views

section Lists

variable {server : Server} {trace : List Effect} {client_fd : Fd} {msg_in : Message} {event : Event} {after : World}

/-- The lists of users that describe a server. -/
inductive Server.Lists (server : Server) : Message → Prop where
  | users : Lists server (user_list_message server.users)
  | members (roomname : CString) (room : Room) (hroom : server.rooms.lookup roomname = some room) :
    Lists server (room_user_list_message roomname room.members)

/-- A list of users is a reply. -/
theorem Permitted.list_of_sends {reaction : Reaction} {list : Message}
    (hpermitted : Permitted server client_fd msg_in reaction) (hsends : reaction.Sends server list)
    (hlist : list.type = .USER_LIST ∨ list.type = .ROOM_USER_LIST) :
    server.Lists list ∧ reaction = .reply client_fd list := by
  cases hsends with
  | verdict _ _ hverdict =>
    cases hpermitted with
    | user_list user htype hsender =>
      cases hverdict
      exact ⟨.users, rfl⟩
    | room_user_list roomname room htype hroom =>
      cases hverdict
      exact ⟨.members roomname room hroom, rfl⟩
    | answer operation result extra =>
      cases hverdict
      rcases hlist with hlist | hlist <;> cases hlist
    | refuse operation result extra =>
      cases hverdict
      rcases hlist with hlist | hlist <;> cases hlist
    | text user user_to text htype hsender haddressee hother htext =>
      cases hverdict
      rcases hlist with hlist | hlist <;> cases hlist
    | _ => cases hverdict
  | published message =>
    cases hpermitted
    rcases hlist with hlist | hlist <;> cases hlist
  | invited roomname invited_users invitation =>
    cases hpermitted
    rcases hlist with hlist | hlist <;> cases hlist
  | told roomname message =>
    cases hpermitted
    rcases hlist with hlist | hlist <;> cases hlist
  | _ => rcases hlist with hlist | hlist <;> cases hlist

/-- A list of users is sent by itself, and describes its moment. -/
theorem served_list {fd : Fd} {list : Message} {sent : Bool} {effects : List Effect} (hserver : server.Consistent)
    (hserved : Served reliable (.idle server trace) event after) (htrace : after.trace = trace ++ effects)
    (hmem : Effect.send fd list sent ∈ effects) (hlist : list.type = .USER_LIST ∨ list.type = .ROOM_USER_LIST) :
    server.Lists list ∧ effects = [.send fd list sent] ∧ after.server = server := by
  obtain ⟨emitted, hemitted, hsends⟩ := serve_sends reliable trace hserver event
  rw [hserved] at hemitted
  obtain rfl : emitted = effects := List.append_cancel_left (hemitted.symm.trans htrace)
  obtain ⟨hlists, hreply⟩ := (event.permitted hserver).list_of_sends (hsends fd list sent hmem) hlist
  rcases served_cases hserver hserved with ⟨client_fd, rfl, -⟩ | ⟨answer, hok⟩
  · cases hreply
  · rw [hreply] at hok
    cases hok
    obtain rfl : emitted = [.send event.client_fd list true] := List.append_cancel_left htrace.symm
    cases List.mem_singleton.mp hmem
    exact ⟨hlists, rfl, rfl⟩

end Lists

section Runs

variable {View : Type} {apply : View → Message → View} {knows : Server → View → Prop} {stays : Server → Prop}
  {net : Net} {own_fd : Fd} {history : List (World × Event)} {world : World}

/-- A client that has read how things stand in a message that comes alone, and that
stays since, knows after every event how things stand. -/
theorem knows_after_run {message : Message} {view : View} {earlier later : List Effect}
    (hrun : ServerRun net history world)
    (hread : ∀ {server trace event after effects}, server.Consistent → Served net (.idle server trace) event after →
      after.trace = trace ++ effects → .send own_fd message true ∈ effects →
      effects = [.send own_fd message true] ∧ knows after.server view)
    (hinforms : ∀ {server trace event after}, server.Consistent → Served net (.idle server trace) event after →
      stays server → stays after.server →
      ∃ effects, after.trace = trace ++ effects ∧ Informs apply (knows server) (knows after.server) own_fd effects)
    (htrace : world.trace = earlier ++ .send own_fd message true :: later) (hstays : stays world.server)
    (hstayed : ∀ moment ∈ history, earlier.length < moment.1.trace.length → stays moment.1.server) :
    knows world.server ((received own_fd later).foldl apply view) := by
  induction hrun generalizing later with
  | start => simp at htrace
  | step hprefix hserved ih =>
    rename_i history before after event
    obtain ⟨hidle, hserver⟩ := run_ready hprefix
    rw [hidle] at hserved
    obtain ⟨effects, heffects, -⟩ := served_emits hserver hserved
    -- The message was sent by this event, and then nothing has come since, or by an earlier one.
    have hnow : ∀ middle, effects = middle ++ .send own_fd message true :: later →
        knows after.server ((received own_fd later).foldl apply view) := by
      intro middle hin
      obtain ⟨hsingle, hknows⟩ := hread hserver hserved heffects (by simp [hin])
      have hlater : later = [] := by
        rw [hsingle] at hin
        cases middle with
        | nil => exact (List.cons.inj hin).2.symm
        | cons effect rest => simp at hin
      simpa [hlater] using hknows
    have hsplit := heffects.symm.trans htrace
    rcases List.append_eq_append_iff.mp hsplit with ⟨middle, -, hin⟩ | ⟨middle, hbefore, hin⟩
    · exact hnow middle hin
    · cases middle with
      | nil => exact hnow [] hin.symm
      | cons effect since =>
        obtain ⟨rfl, rfl⟩ := List.cons.inj hin
        have hheld : stays before.server := by
          refine hstayed (before, event) List.mem_cons_self ?_
          rw [hbefore, List.length_append, List.length_cons]
          omega
        have hknows := ih hbefore hheld fun moment hmem => hstayed moment (List.mem_cons_of_mem _ hmem)
        obtain ⟨emitted, hemitted, hinformed⟩ := hinforms hserver hserved hheld hstays
        have hsame : emitted = effects := List.append_cancel_left (hemitted.symm.trans heffects)
        subst hsame
        change knows _ ((received own_fd (since ++ emitted)).foldl apply view)
        rw [received_append, List.foldl_append]
        exact hinformed _ hknows

end Runs

end ojalvo
