import OjalvoChat.Concurrency.Rooms

namespace ojalvo

/-- Whoever gets into a room in a turn is registered at that moment, and no other
handler is about to unregister the name. -/
def CopiesCurrent (net : Net) (before : Pool) (turn : Turn) : Prop :=
  ∀ after, PoolStep net before turn after → ∀ roomname fd username,
    after.world.server.Copied roomname fd username → ¬ before.world.server.Copied roomname fd username →
    before.world.server.Registered fd username ∧
      ∀ index job, turn ≠ .act index → before.job index = some job → ¬ job.program.Next (Unregisters username)

/-- All copies in rooms are of registered users, and there is none under a name
that a handler has cleared from the rooms and is about to unregister. -/
structure Pool.Current (pool : Pool) (known : Knowledge) : Prop where
  named : pool.world.server.RoomsNamed
  registered : ∀ roomname fd username, pool.world.server.Copied roomname fd username →
    pool.world.server.Registered fd username
  cleared : ∀ index username, .cleared username ∈ known index →
    ∀ roomname fd, ¬ pool.world.server.Copied roomname fd username

section Runs

variable {net : Net} {history : List (Pool × Turn)} {before after : Pool} {turn : Turn}

theorem current_init : pool_init.Current fun _ => [] where
  named roomname room hroom := by simp [pool_init, server_init] at hroom
  registered roomname fd username hcopied := by
    rcases hcopied with hmember | hguest
    · exact absurd hmember not_seats_init
    · exact absurd hguest not_seats_init
  cleared index username hfact := by cases hfact

theorem Moves.current {known later : Knowledge} (hmoves : Moves net before known turn after later)
    (htracks : before.Tracks net known) (hindexed : before.world.server.users.Indexed)
    (hafter : after.world.server.users.Indexed) (hstep : PoolStep net before turn after)
    (hfresh : CopiesCurrent net before turn) (hcurrent : before.Current known) : after.Current later := by
  have hnew := hfresh after hstep
  rcases hmoves.deed_or_quiet with ⟨hserver, hlater⟩ |
    ⟨index, session, job, deed, facts, rfl, hsession, hjob, hworld, hown, rfl⟩
  · constructor
    · exact hserver ▸ hcurrent.named
    · exact hserver ▸ hcurrent.registered
    · exact fun index username hfact => hserver ▸ hcurrent.cleared index username (hlater index hfact)
  have hserver : after.world.server = deed.apply before.world.server := by rw [hworld]; rfl
  rw [hserver] at hnew hafter
  constructor
  · rw [hserver]
    exact hcurrent.named.apply deed
  · rw [hserver]
    intro roomname fd username hcopied
    have hbefore : before.world.server.Registered fd username := by
      by_cases hold : before.world.server.Copied roomname fd username
      · exact hcurrent.registered roomname fd username hold
      · exact (hnew roomname fd username hcopied hold).1
    by_contra hgone
    obtain rfl := hown.unregisters hindexed hafter hbefore hgone
    exact hcurrent.cleared index username hown.allowed.1 roomname fd hcopied
  · rw [hserver]
    intro other username hfact roomname fd hcopied
    by_cases hsame : other = index
    · subst hsame
      rw [Function.update_self] at hfact
      rcases hown.kept _ hfact with ⟨hold, effects, rfl⟩ | rfl
      · exact hcurrent.cleared other username hold roomname fd hcopied
      · exact hcurrent.named.not_copied_clear username hcopied
    · rw [Function.update_of_ne hsame] at hfact
      obtain ⟨found, running, hfound, hrunning, hnext⟩ := htracks.pledged hfact
      have hold := hcurrent.cleared other username hfact roomname fd
      refine (hnew roomname fd username hcopied hold).2 other running ?_ ?_ hnext
      · rintro ⟨rfl⟩
        exact hsame rfl
      · rw [Pool.job_of_session hfound, hrunning]

/-- Whoever is in a room is registered, in every state of a run. -/
theorem room_entries_are_registered {pool : Pool} (hrun : PoolRun net history pool) (hfds : pool.client_fds.Nodup)
    (hturns : ∀ moment ∈ history, CopiesCurrent net moment.1 moment.2) {roomname username : CString} {fd : Fd}
    (hcopied : pool.world.server.Copied roomname fd username) : pool.world.server.Registered fd username := by
  obtain ⟨known, -, hholds⟩ := pool_invariant (C := CopiesCurrent net)
    (I := fun _ pool known => pool.client_fds.Nodup → pool.Informed known ∧ pool.Current known) hrun hturns
    (fun _ => ⟨⟨UsersTable.indexed_init, fun index session _ fact hfact => by cases hfact⟩, current_init⟩)
    fun history before known turn after later htracks _ hbefore hfresh hstep hmoves hnodup => by
      obtain ⟨hinformed, hcurrent⟩ := hbefore (hnodup.sublist hmoves.client_fds.sublist)
      have hlater := hmoves.informed htracks hnodup hinformed
      exact ⟨hlater, hmoves.current htracks hinformed.1 hlater.1 hstep hfresh hcurrent⟩
  exact (hholds hfds).2.registered roomname fd username hcopied

end Runs

section Examples

/-- A client registers, opens a room and begins to invite another client, up to the
point where it has found its record. -/
def invitation : List Turn :=
  let identify (username : CString) : Message := { message_init with type := .IDENTIFY, username := some username }
  let new_room : Message := { message_init with type := .NEW_ROOM, roomname := some (.lit "sala") }
  let invite : Message :=
    { message_init with type := .INVITE, roomname := some (.lit "sala"), usernames := some [.lit "luis"] }
  [.accept 4, .accept 5, .start 0 (some (identify (.lit "ana")))] ++ List.replicate 12 (.act 0) ++
    .start 1 (some (identify (.lit "luis"))) :: List.replicate 12 (.act 1) ++
    .start 0 (some new_room) :: List.replicate 11 (.act 0) ++
    .start 0 (some invite) :: List.replicate 6 (.act 0)

/-- A test: after the next action of a handler a name is there. -/
def leaves_name (username : CString) (world : World) (program : Handler Unit) : Bool :=
  program.leads_to (fun after => (after.server.users.find_by_username username).isSome)
    (.idle world.server world.trace)

theorem not_unregisters_of_leaves_name {username : CString} {world : World} {program : Handler Unit}
    (htest : leaves_name username world program = true) : ¬ program.Next (Unregisters username) := by
  refine Program.not_next_of_leads_to htest fun action hremoves => ?_
  obtain ⟨value, after, hrun, husers⟩ := hremoves world.server world.trace
  exact ⟨value, after, hrun, by simp [husers]⟩

/-- A test for `CopiesCurrent`: all who are in rooms after the turn were registered
before it, and no handler is about to unregister them. -/
def copies_current (net : Net) (before : Pool) (turn : Turn) : Bool :=
  (pool_step net before turn).all fun after =>
    (HashTable.values after.world.server.rooms).all fun room =>
      (room.members.entries ++ room.guests.entries).all fun user =>
        decide (before.world.server.Registered user.socket_fd user.username) &&
          before.sessions.all fun session => session.job.all fun job =>
            leaves_name user.username before.world job.program

theorem copiesCurrent_of_copies_current {net : Net} {before : Pool} {turn : Turn}
    (htest : copies_current net before turn = true) : CopiesCurrent net before turn := by
  intro after hstep roomname fd username hcopied _
  rw [copies_current, show pool_step net before turn = some after from hstep] at htest
  obtain ⟨room, hroom, user, huser, rfl, rfl⟩ : ∃ room, after.world.server.rooms.lookup roomname = some room ∧
      ∃ user ∈ room.members.entries ++ room.guests.entries, user.username = username ∧ user.socket_fd = fd := by
    rcases hcopied with ⟨room, hroom, user, huser, hsame⟩ | ⟨room, hroom, user, huser, hsame⟩
    · exact ⟨room, hroom, user, List.mem_append_left _ huser, hsame⟩
    · exact ⟨room, hroom, user, List.mem_append_right _ huser, hsame⟩
  have hroom := List.all_eq_true.mp htest room (HashTable.mem_values_iff.mpr ⟨roomname, hroom⟩)
  have huser := List.all_eq_true.mp hroom user huser
  rw [Bool.and_eq_true, decide_eq_true_eq] at huser
  exact ⟨huser.1, fun index job _ hjob => not_unregisters_of_leaves_name (Pool.job_tested huser.2 hjob)⟩

/-- While ana invites luis, eva registers and disconnects, and luis changes his status. -/
def crowded_invitation : List Turn :=
  invitation ++ .accept 6 :: .start 2 (some { message_init with type := .IDENTIFY, username := some (.lit "eva") }) ::
    List.replicate 12 (.act 2) ++
    .start 1 (some { message_init with type := .STATUS, status := some (.lit "BUSY") }) ::
      .start 2 (some { message_init with type := .DISCONNECT }) ::
      (List.replicate 7 [.act 2, .act 1, .act 0]).flatten ++ .act 2 :: List.replicate 3 (.act 1)

/-- The condition holds in a run in which a client is invited while others are at
work. -/
theorem room_entries_are_registered_in_invitation :
    ∃ history pool, PoolRun connected history pool ∧
      pool.world.server.Copied (.lit "sala") 5 (.lit "luis") ∧ pool.world.server.Registered 5 (.lit "luis") := by
  obtain ⟨history, pool, hrun, htest⟩ := exists_pool_run connected crowded_invitation
    (fun history (pool : Pool) => decide (pool.client_fds = [4, 5, 6]) &&
      (history.all fun moment : Pool × Turn => copies_current connected moment.1 moment.2) &&
      (pool.world.server.rooms.lookup (.lit "sala")).any fun room : Room =>
        decide (room.guests.Lists 5 (.lit "luis")))
    (by decide +kernel)
  simp only [Bool.and_eq_true, decide_eq_true_eq] at htest
  obtain ⟨⟨hfds, hcurrent⟩, hguest⟩ := htest
  obtain ⟨room, hroom, hlists⟩ := (Option.any_eq_true _ _).mp hguest
  have hcopied : pool.world.server.Copied (.lit "sala") 5 (.lit "luis") :=
    Or.inr ⟨room, hroom, of_decide_eq_true hlists⟩
  refine ⟨history, pool, hrun, hcopied, room_entries_are_registered hrun ?_ (fun moment hmem => ?_) hcopied⟩
  · rw [hfds]
    decide
  · exact copiesCurrent_of_copies_current (List.all_eq_true.mp hcurrent moment hmem)

/-- The invited client disconnects before it is added to the guests. -/
theorem invitation_outlives_guest :
    ¬ ∀ (net : Net) (history : List (Pool × Turn)) (pool : Pool), PoolRun net history pool → pool.client_fds.Nodup →
      pool.Quiescent → ∀ (roomname : CString) (fd : Fd) (username : CString),
        pool.world.server.Copied roomname fd username → pool.world.server.Registered fd username := by
  intro hclaim
  obtain ⟨history, pool, hrun, htest⟩ := exists_pool_run connected
    (invitation ++ .start 1 (some { message_init with type := .DISCONNECT }) :: List.replicate 8 (.act 1) ++
      List.replicate 9 (.act 0))
    (fun _ (pool : Pool) => decide (pool.client_fds = [4, 5]) &&
      (pool.sessions.all fun session : Session => session.job.isNone) &&
      !decide (pool.world.server.Registered 5 (.lit "luis")) &&
      (pool.world.server.rooms.lookup (.lit "sala")).any fun room : Room =>
        decide (room.guests.Lists 5 (.lit "luis")))
    (by decide +kernel)
  simp only [Bool.and_eq_true, decide_eq_true_eq, Bool.not_eq_true', decide_eq_false_iff_not] at htest
  obtain ⟨⟨⟨hfds, hquiet⟩, hgone⟩, hguest⟩ := htest
  obtain ⟨room, hroom, hlists⟩ := (Option.any_eq_true _ _).mp hguest
  refine hgone (hclaim connected history pool hrun (by rw [hfds]; decide) (fun session hmem => ?_) (.lit "sala") 5
    (.lit "luis") (Or.inr ⟨room, hroom, of_decide_eq_true hlists⟩))
  exact Option.isNone_iff_eq_none.mp (List.all_eq_true.mp hquiet session hmem)

end Examples

end ojalvo
