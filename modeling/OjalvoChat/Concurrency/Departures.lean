import OjalvoChat.Concurrency.Facts

namespace ojalvo

section Kinds

theorem unregisters_users_table_remove (username : CString) :
    Unregisters username (users_table_remove .server_users username) := fun server trace =>
  ⟨(server.users.find_by_username username).isSome, .idle { server with users := server.users.remove username } trace,
    by simp [users_table_remove], rfl⟩

theorem drops_room_table_remove (roomname : CString) : Drops roomname (room_table_remove roomname) :=
  fun server trace =>
    ⟨(server.rooms.lookup roomname).isSome, .idle { server with rooms := server.rooms.erase roomname } trace, by simp,
      rfl⟩

end Kinds

section Departures

variable {net : Net} {client_fd : Fd} {event : Event} {facts : List Fact} {A : Type}

/-- Forgetting a user: the rooms first, then `server->users`. -/
theorem keeps_forget {user : User} {next : Bool → Handler Unit} {kept : List Fact}
    (htarget : .departing user ∈ facts ∨ .evicting user ∈ facts)
    (hsurvives : ∀ fact ∈ facts, ∀ deed, (∀ other, deed ≠ .register other) → fact.Survives deed)
    (hclear : ∀ fact ∈ facts, fact.Pledge client_fd (do
      room_table_for_each (room_remove_data user)
      let removed ← users_table_remove .server_users user.username
      next removed))
    (hremove : ∀ fact ∈ facts, fact.Pledge client_fd (do
      let removed ← users_table_remove .server_users user.username
      next removed))
    (hkept : kept ⊆ facts) (hnext : ∀ removed, Keeps net client_fd event kept (next removed)) :
    Keeps net client_fd event facts (do
      room_table_for_each (room_remove_data user)
      let removed ← users_table_remove .server_users user.username
      next removed) := by
  refine keeps_act (does_room_remove_data user) hclear ?_
  rintro server - deed rfl
  refine ⟨.cleared user.username :: facts, ⟨⟨user, htarget, rfl⟩, List.forall_mem_nil _, fun fact hmem => ?_⟩, ?_⟩
  · rcases List.mem_cons.mp hmem with rfl | hold
    · exact Or.inr rfl
    · exact Or.inl ⟨hold, hsurvives fact hold _ nofun⟩
  · refine keeps_act (does_users_table_remove user.username) ?_ ?_
    · exact List.forall_mem_cons.mpr ⟨unregisters_users_table_remove user.username, hremove⟩
    · rintro server removed deed rfl
      refine ⟨kept, ⟨⟨List.mem_cons_self, user, ?_, rfl⟩, List.forall_mem_nil _, fun fact hmem => ?_⟩, hnext removed⟩
      · exact htarget.imp (List.mem_cons_of_mem _) (List.mem_cons_of_mem _)
      · exact Or.inl ⟨List.mem_cons_of_mem _ (hkept hmem), hsurvives fact (hkept hmem) _ nofun⟩

/-- A fact that is kept through a broadcast and the eviction of those who could
not be told, before the rest of a handler. -/
def Fact.Lasts (client_fd : Fd) {A : Type} (rest : A → Handler Unit) (fact : Fact) : Prop :=
  (∀ deed, (∀ user, deed ≠ .register user) → fact.Survives deed) ∧
    ∀ program : Handler A, fact.Pledge client_fd (program >>= rest)

theorem lasts_failed {rest : A → Handler Unit} (fd : Fd) : Fact.Lasts client_fd rest (.failed fd) :=
  ⟨fun _ _ => trivial, fun _ => trivial⟩

/-- The loop over the failed descriptors: every user it evicts was found by one
of them. -/
theorem keeps_disconnect_failed {rest : Unit → Handler Unit} (cells : List Int)
    (hcells : ∀ cell ∈ cells, cell = -1 ∨ ∃ fd : Fd, cell = Int.ofNat fd ∧ .failed fd ∈ facts)
    (hlasts : ∀ fact ∈ facts, fact.Lasts client_fd rest) (hrest : Keeps net client_fd event facts (rest ())) :
    Keeps net client_fd event facts (disconnect_failed .server_users cells >>= rest) := by
  induction cells with
  | nil =>
    have hstops : Does net (stop .out_of_bounds : Action Unit) fun _ _ _ => False := fun _ _ => trivial
    refine keeps_act hstops ?_ nofun
    exact fun fact hfact => (hlasts fact hfact).2 (disconnect_failed .server_users [])
  | cons cell others ih =>
    have hothers := ih fun other hother => hcells other (List.mem_cons_of_mem cell hother)
    have hwhole := fun fact hfact => (hlasts fact hfact).2 (disconnect_failed .server_users (cell :: others))
    unfold disconnect_failed at hwhole ⊢
    split
    · exact hrest
    · rename_i hcell
      obtain ⟨fd, rfl, hfailed⟩ := (hcells cell List.mem_cons_self).resolve_left hcell
      rw [if_neg hcell] at hwhole
      rw [bind_assoc] at hwhole ⊢
      refine keeps_look (reads_users_table_query _) hwhole fun server found hfound => ?_
      cases found with
      | none => exact ⟨facts, fun _ => Or.inl, hothers⟩
      | some user =>
        refine ⟨.evicting user :: facts, fun fact hmem => ?_, ?_⟩
        · rcases List.mem_cons.mp hmem with rfl | hold
          · exact Or.inr ⟨rfl, fd, hfailed, hfound.symm⟩
          · exact Or.inl hold
        · simp only [bind_assoc]
          have hremove : ∀ fact ∈ facts, fact.Pledge client_fd (do
              let _ ← users_table_remove .server_users user.username
              disconnect_failed .server_users others >>= rest) := fun fact hfact => by
            simpa only [bind_assoc] using (hlasts fact hfact).2 (do
              let _ ← users_table_remove .server_users user.username
              disconnect_failed .server_users others)
          have hclear : ∀ fact ∈ facts, fact.Pledge client_fd (do
              room_table_for_each (room_remove_data user)
              let _ ← users_table_remove .server_users user.username
              disconnect_failed .server_users others >>= rest) := fun fact hfact => by
            simpa only [bind_assoc] using (hlasts fact hfact).2 (do
              room_table_for_each (room_remove_data user)
              let _ ← users_table_remove .server_users user.username
              disconnect_failed .server_users others)
          have hunregisters := unregisters_users_table_remove user.username
          refine keeps_forget (Or.inr List.mem_cons_self) ?_
            (List.forall_mem_cons.mpr ⟨Or.inr fun _ => Or.inl hunregisters, hclear⟩)
            (List.forall_mem_cons.mpr ⟨Or.inl hunregisters, hremove⟩) (List.subset_cons_self _ _) fun _ => hothers
          exact List.forall_mem_cons.mpr ⟨fun _ _ => trivial, fun fact hfact => (hlasts fact hfact).1⟩

/-- A broadcast over `server->users`. -/
theorem keeps_notify {rest : Unit → Handler Unit} {message : Message} (hplain : message.Plain) (fd : Fd)
    (hlasts : ∀ fact ∈ facts, fact.Lasts client_fd rest) (hrest : Keeps net client_fd event facts (rest ())) :
    Keeps net client_fd event facts (notify_all_but_self net .server_users message fd >>= rest) := by
  have hpledge : ∀ (program : Handler Unit), ∀ fact ∈ facts, fact.Pledge client_fd (program >>= rest) :=
    fun program fact hfact => (hlasts fact hfact).2 program
  have hwhole := hpledge (notify_all_but_self net .server_users message fd)
  unfold notify_all_but_self at hwhole ⊢
  simp only [bind_assoc] at hwhole ⊢
  refine keeps_skip reads_users_table_size hwhole fun server size _ => ?_
  have hvisits := hpledge (do
    let context ← users_table_for_each .server_users (send_if_is_not_self net message fd)
      { client_fds_to_disconnect := List.replicate (size + 1) (-1), index := 0 }
    disconnect_failed .server_users context.client_fds_to_disconnect)
  simp only [bind_assoc] at hvisits
  refine keeps_act (does_send_visits message fd _) hvisits ?_
  rintro server context deed ⟨effects, rfl, hall, hcells⟩
  let learnt := (failures effects).map Fact.failed
  have hlearnt : ∀ {failed : Fd}, Fact.failed failed ∈ learnt → ∃ sent, Effect.send failed sent false ∈ effects := by
    intro failed hmem
    obtain ⟨_, hfailed, heq⟩ := List.mem_map.mp hmem
    cases heq
    exact mem_failures.mp hfailed
  refine ⟨learnt ++ facts, ⟨trivial, fun effect hmem => Or.inr ?_, fun fact hmem => ?_⟩, ?_⟩
  · obtain ⟨other, sent, trace, heffect, rfl⟩ := hall effect hmem
    exact ⟨other, sent, trace, heffect, .plain other hplain⟩
  · rcases List.mem_append.mp hmem with hnew | hold
    · obtain ⟨failed, -, rfl⟩ := List.mem_map.mp hnew
      exact Or.inr (hlearnt hnew)
    · exact Or.inl ⟨hold, (hlasts fact hold).1 _ nofun⟩
  · have hmore : ∀ fact ∈ learnt ++ facts, fact.Lasts client_fd rest := by
      intro fact hmem
      rcases List.mem_append.mp hmem with hnew | hold
      · obtain ⟨failed, -, rfl⟩ := List.mem_map.mp hnew
        exact lasts_failed failed
      · exact hlasts fact hold
    refine keeps_disconnect_failed _ (fun cell hcell => ?_) hmore
      (hrest.mono (List.subset_append_right _ _) fun fact hmem => (hmore fact hmem).2 (pure ()))
    rcases hcells cell hcell with hfree | ⟨failed, rfl, hfailed⟩
    · exact Or.inl (List.eq_of_mem_replicate hfree)
    · exact Or.inr ⟨failed, rfl, List.mem_append_left _ (List.mem_map_of_mem (mem_failures.mpr ⟨_, hfailed⟩))⟩

/-- The end of a departure. -/
theorem keeps_close {rest : Handler Unit} (fd : Fd)
    (hpledge : ∀ fact ∈ facts, fact.Pledge client_fd (do
      server_disconnect_client fd
      rest))
    (hrest : Keeps net client_fd event [] rest) :
    Keeps net client_fd event facts (do
      server_disconnect_client fd
      rest) := by
  refine keeps_act (does_server_disconnect_client fd) hpledge ?_
  rintro server - deed rfl
  refine ⟨[], ⟨trivial, fun effect hmem => ?_, List.forall_mem_nil _⟩, hrest⟩
  exact Or.inl ⟨fd, List.mem_singleton.mp hmem⟩

/-- The disconnection of the own client, or of one to whom a send has failed. -/
theorem keeps_process_disconnect {fd : Fd} {rest : Bool → Handler Unit}
    (hfd : fd = client_fd ∨ .failed fd ∈ facts)
    (hfree : ∀ fact ∈ facts, ∀ program, fact.Pledge client_fd program)
    (hrest : Keeps net client_fd event [] (rest true)) :
    Keeps net client_fd event facts (process_disconnect net fd >>= rest) := by
  unfold process_disconnect
  simp only [bind_assoc]
  refine keeps_look (reads_users_table_query _) (fun fact hmem => hfree fact hmem _) fun server found hfound => ?_
  cases found with
  | none => exact ⟨[], List.forall_mem_nil _, keeps_close fd (List.forall_mem_nil _) hrest⟩
  | some user =>
    obtain ⟨target, hkind, hbrought⟩ : ∃ target : Fact,
        (target = .departing user ∧ fd = client_fd ∨ target = .evicting user) ∧
          ∀ program, target.Brought client_fd event facts program server .look := by
      rcases hfd with rfl | hfailed
      · exact ⟨.departing user, Or.inl ⟨rfl, rfl⟩, fun _ => ⟨rfl, hfound.symm⟩⟩
      · exact ⟨.evicting user, Or.inr rfl, fun _ => ⟨rfl, fd, hfailed, hfound.symm⟩⟩
    have hpledge : ∀ program : Handler Unit, program.Must (Unregisters user.username) → program.Must (Closing fd) →
        ∀ fact ∈ [target], fact.Pledge client_fd program := by
      intro program hunregisters hcloses fact hmem
      obtain rfl := List.mem_singleton.mp hmem
      rcases hkind with ⟨rfl, rfl⟩ | rfl
      · exact ⟨hunregisters, hcloses⟩
      · exact hunregisters
    have htarget : .departing user ∈ [target] ∨ .evicting user ∈ [target] := by
      rcases hkind with ⟨rfl, -⟩ | rfl
      · exact Or.inl List.mem_cons_self
      · exact Or.inr List.mem_cons_self
    have hsurvives : ∀ fact ∈ [target], ∀ deed, (∀ other, deed ≠ .register other) → fact.Survives deed := by
      intro fact hmem deed _
      obtain rfl := List.mem_singleton.mp hmem
      rcases hkind with ⟨rfl, -⟩ | rfl <;> trivial
    refine ⟨[target], fun fact hmem => ?_, ?_⟩
    · obtain rfl := List.mem_singleton.mp hmem
      exact Or.inr (hbrought _)
    · simp only [bind_assoc, pure_bind]
      let tail : Handler Unit := do
        let _ ← users_table_remove .server_users user.username
        server_disconnect_client fd
        rest true
      have hremove : tail.Must (Unregisters user.username) ∧ tail.Must (Closing fd) :=
        ⟨Or.inl (unregisters_users_table_remove user.username),
          Or.inr fun _ => Or.inl (closing_server_disconnect_client fd)⟩
      have hforget : ∀ program : Handler Unit, ∀ fact ∈ [target],
          fact.Pledge client_fd (program >>= fun _ => do
            room_table_for_each (room_remove_data user)
            tail) := fun program =>
        hpledge _ (Program.must_bind fun _ => Or.inr fun _ => hremove.1)
          (Program.must_bind fun _ => Or.inr fun _ => hremove.2)
      have hwhole := hforget (do
        let username ← strdup user.username
        notify_all_but_self net .server_users { message_init with type := .DISCONNECTED, username } fd)
      simp only [bind_assoc] at hwhole
      refine keeps_skip (reads_strdup _) hwhole fun _ username _ => ?_
      refine keeps_notify (by simp [Message.Plain, message_init]) fd
        (fun fact hmem => ⟨hsurvives fact hmem, fun program => hforget program fact hmem⟩) ?_
      refine keeps_forget htarget hsurvives (hforget (pure ())) (hpledge tail hremove.1 hremove.2) (List.nil_subset _)
        fun _ => keeps_close fd (List.forall_mem_nil _) hrest

end Departures

end ojalvo
