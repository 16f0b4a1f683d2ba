import OjalvoChat.Concurrency.Order

namespace ojalvo

section Log

variable {net : Net} {pool after : Pool} {turn : Turn}

/-- In its turn a handler makes one announcement at most. -/
theorem PoolStep.utters (hstep : PoolStep net pool turn after) (hproper : pool.world.Proper)
    (hspeaks : pool.Each (Speaks net)) :
    ∃ effects log, after.world.trace = pool.world.trace ++ effects ∧ Utters net pool.world effects log := by
  cases turn with
  | accept client_fd =>
    obtain ⟨-, rfl⟩ := hstep.accepted
    exact ⟨[.accept client_fd], [], rfl, .quiet _ (by simp)⟩
  | start index line =>
    obtain ⟨session, hsession, hidle, rfl⟩ := hstep.begun
    exact utters_nothing rfl
  | act index =>
    obtain ⟨session, job, world, changed, hsession, hjob, hsteps, rfl⟩ := hstep.job_steps
    have hprogram := hspeaks index job ((Pool.job_of_session hsession).trans hjob)
    cases hsteps with
    | finish hret => exact utters_nothing rfl
    | act hact hrun =>
      rw [hact] at hprogram
      have hutters := hprogram.1 pool.world hproper
      rwa [hrun] at hutters
    | wait hact hrun =>
      rw [hact] at hprogram
      have hutters := hprogram.1 pool.world hproper
      rwa [hrun] at hutters

theorem Addressed.nodup {server : Server} {message : Message} {fds : List Fd}
    (haddressed : Addressed server message fds) (heverybody : message.type.audience = .everybody)
    (hindexed : server.users.Indexed) : fds.Nodup := by
  cases haddressed with
  | everybody client_fd _ => exact nodup_recipients hindexed client_fd
  | members client_fd roomname hmembers =>
    rw [hmembers] at heverybody
    cases heverybody

/-- A log of the announcements of a run: they are in the order of the moments at
which they were made, every descriptor gets what it gets of them in this order, and
nobody gets an announcement to all users twice if no descriptor was used for two
connections. -/
structure Pool.Logged (net : Net) (history : List (Pool × Turn)) (pool : Pool) (log : List Announcement) : Prop where
  moments : (log.map Announcement.world).Sublist (history.reverse.map fun moment => moment.1.world)
  received : ∀ fd, announced fd pool.world.trace = log.flatMap fun announcement => announcement.copies net fd
  once : pool.client_fds.Nodup → ∀ announcement ∈ log, announcement.message.type.audience = .everybody →
    announcement.audience.Nodup

theorem logged_init : pool_init.Logged net [] [] where
  moments := List.nil_sublist _
  received _ := rfl
  once _ := List.forall_mem_nil _

theorem Pool.Logged.step {history : List (Pool × Turn)} {log : List Announcement}
    (hlogged : pool.Logged net history log)
    (hrun : PoolRun net history pool) (hstep : PoolStep net pool turn after) {effects : List Effect}
    {more : List Announcement} (htrace : after.world.trace = pool.world.trace ++ effects)
    (hutters : Utters net pool.world effects more) : after.Logged net ((pool, turn) :: history) (log ++ more) where
  moments := by
    rw [List.map_append, List.reverse_cons, List.map_append]
    refine hlogged.moments.append ?_
    cases hutters with
    | quiet _ hone => exact List.nil_sublist _
    | announce announcement hworld => simp [hworld]
  received fd := by
    rw [htrace, announced, received_append, List.filter_append, List.flatMap_append, ← hlogged.received fd,
      ← hutters.announced]
    rfl
  once hfds announcement hmem heverybody := by
    have hbefore := hstep.nodup hrun hfds
    rcases List.mem_append.mp hmem with hold | hnew
    · exact hlogged.once hbefore announcement hold heverybody
    · obtain ⟨_, _, hindexed, -⟩ := pool_informed hrun hbefore
      cases hutters with
      | quiet _ hone => cases hnew
      | announce _ hworld =>
        obtain rfl := List.mem_singleton.mp hnew
        exact announcement.addressed.nodup heverybody (hworld ▸ hindexed)

end Log

/-- With every broadcast as one step: however the handlers are interleaved and
whichever sends fail, all descriptors get the announcements to all users and to rooms
in one common order. -/
theorem announcements_are_totally_ordered {net : Net} {history : List (Pool × Turn)} {pool : Pool}
    (hrun : PoolRun net history pool) : ∃ log, pool.Logged net history log := by
  refine (hrun.history_invariant (I := fun history pool => pool.Each (Speaks net) ∧ ∃ log, pool.Logged net history log)
    ⟨each_init, [], logged_init⟩ ?_).2
  rintro history before turn after hprefix ⟨hspeaks, log, hlogged⟩ hstep
  obtain ⟨known, htracks⟩ := pool_tracks hprefix
  obtain ⟨effects, more, htrace, hutters⟩ := hstep.utters htracks.proper hspeaks
  exact ⟨hstep.each hspeaks fun _ line => each_speaks_serve line, log ++ more,
    hlogged.step hprefix hstep htrace hutters⟩

/-- Three clients identify at once, action by action in turn. -/
def introductions : List Turn :=
  [.accept 4, .accept 5, .accept 6,
    .start 0 (some { message_init with type := .IDENTIFY, username := some (.lit "ana") }),
    .start 1 (some { message_init with type := .IDENTIFY, username := some (.lit "luis") }),
    .start 2 (some { message_init with type := .IDENTIFY, username := some (.lit "eva") })] ++
  (List.replicate 12 [.act 0, .act 1, .act 2]).flatten

theorem announcements_are_totally_ordered_at_introductions :
    ∃ history pool, PoolRun connected history pool ∧ (∀ fd ∈ [4, 5, 6], (announced fd pool.world.trace).length = 2) ∧
      ∃ log, pool.Logged connected history log := by
  obtain ⟨history, pool, hrun, htest⟩ := exists_pool_run connected introductions
    (fun _ pool => [4, 5, 6].all fun fd => (announced fd pool.world.trace).length = 2) (by decide +kernel)
  refine ⟨history, pool, hrun, fun fd hfd => ?_, announcements_are_totally_ordered hrun⟩
  exact of_decide_eq_true (List.all_eq_true.mp htest fd hfd)

end ojalvo
