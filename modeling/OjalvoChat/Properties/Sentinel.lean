import Mathlib.Data.Finset.Card
import OjalvoChat.Concurrency.Broadcasting
import OjalvoChat.Protocol.Failing

namespace ojalvo

/-- The names of the users whom a message does not get to, in the order in which an
iteration over these records meets them. -/
def unreached (net : Net) (message : Message) (client_fd : Fd) (trace : List Effect)
    (entries : List (Sigma fun _ : CString => User)) : List CString :=
  match entries with
  | [] => []
  | ⟨username, user⟩ :: rest =>
    if user.socket_fd = client_fd then unreached net message client_fd trace rest
    else
      let sent := net trace user.socket_fd message
      let later := unreached net message client_fd (trace ++ [.send user.socket_fd message sent]) rest
      if sent then later else username :: later

/-- There are more users out of reach that the size did not count than users that it
counted and for whom no cell is needed: they have gone, or they are reached, or
one of them is the client itself. -/
def Overruns (net : Net) (message : Message) (client_fd : Fd) (counting iterating : World) : Prop :=
  let counted := counting.server.users.table.keys.toFinset
  let lost := (unreached net message client_fd iterating.trace iterating.server.users.table.entries).toFinset
  (counted \ lost).card < (lost \ counted).card

instance (net : Net) (message : Message) (client_fd : Fd) (counting iterating : World) :
    Decidable (Overruns net message client_fd counting iterating) :=
  inferInstanceAs (Decidable (_ < _))

/-- The iteration records no more descriptors than the size that was read, the last
cell keeps its -1, and whatever the others do no later action leaves the array. -/
def KeepsSentinel (net : Net) (message : Message) (client_fd : Fd) (mx_users : Nat) (iterating : Broadcasting) : Prop :=
  ∃ context after,
    (users_table_for_each .server_users (send_if_is_not_self net message client_fd) (empty_context mx_users)).run
      iterating.world = .ok context after ∧
    let scanning : Broadcasting := {
      world := after
      program := disconnect_failed .server_users context.client_fds_to_disconnect }
    BroadcastStep iterating .act scanning ∧ context.index ≤ mx_users ∧
      context.client_fds_to_disconnect[mx_users]? = some (-1) ∧
      ∀ history state, Run BroadcastStep scanning history state → ¬ state.OutOfBounds

section Count

variable (net : Net) (message : Message) (client_fd : Fd)

theorem unreached_sublist (trace : List Effect) (entries : List (Sigma fun _ : CString => User)) :
    (unreached net message client_fd trace entries).Sublist entries.keys := by
  induction entries generalizing trace with
  | nil => exact .slnil
  | cons entry rest ih =>
    obtain ⟨username, user⟩ := entry
    simp only [unreached, List.keys_cons]
    split
    · exact (ih trace).cons username
    · split
      · exact (ih _).cons username
      · exact (ih _).cons_cons username

/-- One send fails for each of them. -/
theorem length_unreached (trace : List Effect) (entries : List (Sigma fun _ : CString => User)) :
    (unreached net message client_fd trace entries).length =
      (failures (broadcast net message trace (recipients (entries.map Sigma.snd) client_fd))).length := by
  induction entries generalizing trace with
  | nil => rfl
  | cons entry rest ih =>
    obtain ⟨username, user⟩ := entry
    rw [unreached, List.map_cons]
    by_cases hself : user.socket_fd = client_fd
    · rw [if_pos hself, recipients_cons_self hself, ih]
    · rw [if_neg hself, recipients_cons_other hself]
      cases hsent : net trace user.socket_fd message with
      | true =>
        rw [failures_broadcast_cons_sent hsent]
        exact ih _
      | false =>
        rw [failures_broadcast_cons_failed hsent]
        exact congrArg Nat.succ (ih _)

/-- The failed sends are more than the users who were counted. -/
theorem overruns_iff (counting iterating : World) :
    Overruns net message client_fd counting iterating ↔ counting.server.users.entries.length <
      (failures (broadcast net message iterating.trace
        (recipients iterating.server.users.entries client_fd))).length := by
  have hnodup := (unreached_sublist net message client_fd iterating.trace iterating.server.users.table.entries).nodup
    iterating.server.users.table.keys_nodup
  have hcounted : counting.server.users.table.keys.length = counting.server.users.entries.length := by
    simp [AList.keys, List.keys, UsersTable.entries, HashTable.values]
  unfold Overruns
  dsimp only
  rw [Finset.card_sdiff_lt_card_sdiff_iff, List.toFinset_card_of_nodup hnodup,
    List.toFinset_card_of_nodup counting.server.users.table.keys_nodup, hcounted, length_unreached]
  rfl

end Count

section Iteration

variable {net : Net} {message : Message} {client_fd : Fd} {mx_users : Nat} {iterating : Broadcasting}

theorem run_broadcast_iteration (world : World) (hheld : .users_table .server_users ∉ world.held)
    (hcells : (failures (broadcast net message world.trace
      (recipients world.server.users.entries client_fd))).length ≤ mx_users + 1) :
    (users_table_for_each .server_users (send_if_is_not_self net message client_fd) (empty_context mx_users)).run
        world =
      let effects := broadcast net message world.trace (recipients world.server.users.entries client_fd)
      .ok
        ⟨(failures effects).map Int.ofNat ++ List.replicate (mx_users + 1 - (failures effects).length) (-1),
          (failures effects).length⟩
        { world with trace := world.trace ++ effects } := by
  obtain ⟨server, held, trace, alloc⟩ := world
  have hvisits := run_send_visits server (.users_table .server_users :: held) trace alloc net message client_fd
    server.users.entries [] (mx_users + 1) hcells
  simp only [List.map_nil, List.nil_append, List.length_nil] at hvisits
  simp only [users_table_for_each, empty_context, EStateM.run_bind, run_g_mutex_lock, hheld, if_false,
    run_users_table_load, UsersTablePtr.read_server_users, hvisits, run_g_mutex_unlock, EStateM.run_pure,
    List.erase_cons_head]

theorem broadcast_iteration_overruns (world : World) (hheld : .users_table .server_users ∉ world.held)
    (hcells : mx_users + 1 < (failures (broadcast net message world.trace
      (recipients world.server.users.entries client_fd))).length) :
    ∃ stopped, (users_table_for_each .server_users (send_if_is_not_self net message client_fd)
      (empty_context mx_users)).run world = .error .out_of_bounds stopped := by
  obtain ⟨server, held, trace, alloc⟩ := world
  obtain ⟨stopped, hvisits⟩ := run_send_visits_overrun server (.users_table .server_users :: held) trace alloc net
    message client_fd server.users.entries [] (mx_users + 1) hcells
  simp only [List.map_nil, List.nil_append, List.length_nil] at hvisits
  refine ⟨stopped, ?_⟩
  simp only [users_table_for_each, empty_context, EStateM.run_bind, run_g_mutex_lock, hheld, if_false,
    run_users_table_load, UsersTablePtr.read_server_users, hvisits]

/-- The cell after the counted ones is not written. -/
theorem guard_is_kept {failed : List Fd} (hfew : failed.length ≤ mx_users) :
    (failed.map Int.ofNat ++ List.replicate (mx_users + 1 - failed.length) (-1))[mx_users]? = some (-1) := by
  rw [List.getElem?_append_right (by simpa using hfew), List.getElem?_replicate, if_pos]
  rw [List.length_map]
  omega

/-- What counts is how many sends fail. -/
theorem keepsSentinel_iff (hprogram : iterating.program = broadcast_iteration net message client_fd mx_users)
    (hheld : .users_table .server_users ∉ iterating.world.held) :
    KeepsSentinel net message client_fd mx_users iterating ↔
      (failures (broadcast net message iterating.world.trace
        (recipients iterating.world.server.users.entries client_fd))).length ≤ mx_users := by
  obtain ⟨world, program⟩ := iterating
  obtain rfl := hprogram
  constructor
  · rintro ⟨context, after, hrun, -, hindex, -⟩
    rcases Nat.lt_or_ge (mx_users + 1) (failures (broadcast net message world.trace
      (recipients world.server.users.entries client_fd))).length with hmore | hfew
    · obtain ⟨stopped, hstops⟩ := broadcast_iteration_overruns world hheld hmore
      rw [hstops] at hrun
      cases hrun
    · rw [run_broadcast_iteration world hheld hfew] at hrun
      cases hrun
      exact hindex
  · intro hfew
    have hrun := run_broadcast_iteration world hheld (Nat.le_succ_of_le hfew)
    have hguard := guard_is_kept hfew
    exact ⟨_, _, hrun, BroadcastStep.act hrun, hfew, hguard, fun history state hlater =>
      not_out_of_bounds_of_run hlater (in_bounds_disconnect_failed _ (List.mem_of_getElem? hguard))⟩

end Iteration

/-- Other threads add and remove users between the two accesses to the table: the
array keeps its guard if and only if no more newcomers are out of reach than
counted users are not. -/
theorem sentinel_is_kept_iff {net : Net} {message : Message} {client_fd : Fd} {world : World}
    {earlier later : List (Broadcasting × BroadcastTurn)} {counting iterating : Broadcasting}
    (hheld : .users_table .server_users ∉ world.held)
    (hrun : Run BroadcastStep (.start net message client_fd world) (later ++ (counting, .act) :: earlier) iterating)
    (hothers : ∀ moment ∈ later ++ earlier, moment.2 ≠ .act) :
    KeepsSentinel net message client_fd counting.world.server.users.entries.length iterating ↔
      ¬ Overruns net message client_fd counting.world iterating.world := by
  obtain ⟨hprogram, hsame⟩ := iteration_is_next hrun hothers
  rw [keepsSentinel_iff hprogram (hsame ▸ hheld), overruns_iff, Nat.not_lt]

/-- Between the two accesses the only user goes and another one comes, who cannot be
reached. -/
theorem sentinel_is_kept_iff_of_replaced_user :
    ∃ earlier counting counted deserted iterating,
      Run BroadcastStep (.start (failing (· == 6)) message_init 4 (.idle server_init []))
        ([(deserted, .add (.lit "eva") 6), (counted, .remove (.lit "luis"))] ++ (counting, .act) :: earlier)
        iterating ∧
      KeepsSentinel (failing (· == 6)) message_init 4 1 iterating := by
  let start := Broadcasting.start (failing (· == 6)) message_init 4 (.idle server_init [])
  obtain ⟨counting, hluis, htest⟩ := (Option.any_eq_true _ _).mp (show (broadcast_step start (.add (.lit "luis") 5)).any
    (fun counting => (broadcast_step counting .act).any fun counted =>
      (broadcast_step counted (.remove (.lit "luis"))).any fun deserted =>
        (broadcast_step deserted (.add (.lit "eva") 6)).any fun iterating =>
          decide (counting.world.server.users.entries.length = 1) &&
            !decide (Overruns (failing (· == 6)) message_init 4 counting.world iterating.world)) = true by
    decide +kernel)
  obtain ⟨counted, hread, htest⟩ := (Option.any_eq_true _ _).mp htest
  obtain ⟨deserted, hgoes, htest⟩ := (Option.any_eq_true _ _).mp htest
  obtain ⟨iterating, heva, htest⟩ := (Option.any_eq_true _ _).mp htest
  simp only [Bool.and_eq_true, decide_eq_true_eq, Bool.not_eq_true', decide_eq_false_iff_not] at htest
  have hrun : Run BroadcastStep start ([(deserted, .add (.lit "eva") 6), (counted, .remove (.lit "luis"))] ++
      (counting, .act) :: [(start, .add (.lit "luis") 5)]) iterating :=
    (((Run.start.step hluis).step hread).step hgoes).step heva
  have hkept := (sentinel_is_kept_iff List.not_mem_nil hrun (by simp)).mpr htest.2
  rw [htest.1] at hkept
  exact ⟨_, counting, counted, deserted, iterating, hrun, hkept⟩

/-- Two users register after the size was read, and cannot be reached. -/
theorem newcomers_overrun_sentinel :
    ¬ ∀ (net : Net) (message : Message) (client_fd : Fd) (history : List (World × Event)) (world : World)
      (earlier later : List (Broadcasting × BroadcastTurn)) (counting iterating : Broadcasting),
      ServerRun net history world →
      Run BroadcastStep (.start net message client_fd world) (later ++ (counting, .act) :: earlier) iterating →
      (∀ moment ∈ later ++ earlier, moment.2 ≠ .act) →
      KeepsSentinel net message client_fd counting.world.server.users.entries.length iterating := by
  intro hclaim
  obtain ⟨history, world, hreached, htest⟩ := exists_run_of_serve_all (failing (4 < ·)) (meeting.take 1)
    (fun _ world => (broadcast_step (.start (failing (4 < ·)) message_init 4 world) .act).any fun counted =>
      (broadcast_step counted (.add (.lit "luis") 5)).any fun first =>
        (broadcast_step first (.add (.lit "eva") 6)).any fun iterating =>
          decide (world.server.users.entries.length < (failures (broadcast (failing (4 < ·)) message_init
            iterating.world.trace (recipients iterating.world.server.users.entries 4))).length))
    (by decide +kernel)
  obtain ⟨counted, hread, htest⟩ := (Option.any_eq_true _ _).mp htest
  obtain ⟨first, hluis, htest⟩ := (Option.any_eq_true _ _).mp htest
  obtain ⟨iterating, heva, htest⟩ := (Option.any_eq_true _ _).mp htest
  have hrun : Run BroadcastStep _ ([(first, .add (.lit "eva") 6), (counted, .add (.lit "luis") 5)] ++ [_]) iterating :=
    ((Run.start.step hread).step hluis).step heva
  have hothers : ∀ moment ∈ [(first, BroadcastTurn.add (.lit "eva") 6), (counted, .add (.lit "luis") 5)] ++ [],
      moment.2 ≠ .act := by simp
  obtain ⟨hprogram, hsame⟩ := iteration_is_next hrun hothers
  have hheld : iterating.world.held = [] := hsame.trans (congrArg World.held (run_ready hreached).1)
  have hkept := hclaim _ _ _ history world _ _ _ _ hreached hrun hothers
  rw [keepsSentinel_iff hprogram (by rw [hheld]; exact List.not_mem_nil)] at hkept
  exact absurd hkept (Nat.not_le.mpr (of_decide_eq_true htest))

end ojalvo
