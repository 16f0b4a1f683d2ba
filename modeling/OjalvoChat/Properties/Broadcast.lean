import OjalvoChat.Protocol.Failing

namespace ojalvo

/-- A table after some of its users are gone: neither index finds them, and the
others are as they were, in the same order. -/
structure UsersTable.Purged (before : UsersTable) (gone : Fd → Bool) (after : UsersTable) : Prop where
  entries : after.entries = before.entries.filter fun user => !gone user.socket_fd
  by_username : ∀ username, after.find_by_username username =
    (before.find_by_username username).filter fun user => !gone user.socket_fd
  by_client_fd : ∀ fd, after.find_by_client_fd fd =
    (before.find_by_client_fd fd).filter fun user => !gone user.socket_fd

/-- The same for all the tables of a server, which keeps its rooms. -/
structure Server.Purged (before : Server) (gone : Fd → Bool) (after : Server) : Prop where
  users : before.users.Purged gone after.users
  roomnames : after.rooms.keys = before.rooms.keys
  rooms : ∀ roomname room, before.rooms.lookup roomname = some room →
    ∃ left, after.rooms.lookup roomname = some left ∧ left.roomname = room.roomname ∧
      room.members.Purged gone left.members ∧ room.guests.Purged gone left.guests

section Purge

/-- With both indices in agreement the records decide what the indices find. -/
theorem UsersTable.purged_of_entries {before after : UsersTable} {gone : Fd → Bool} (hbefore : before.Indexed)
    (hafter : after.Indexed) (hentries : after.entries = before.entries.filter fun user => !gone user.socket_fd) :
    before.Purged gone after := by
  have hmem : ∀ user, user ∈ after ↔ user ∈ before ∧ gone user.socket_fd = false := by
    intro user
    rw [← hafter.mem_entries, hentries, List.mem_filter, hbefore.mem_entries, Bool.not_eq_true']
  refine ⟨hentries, fun username => Option.ext fun user => ?_, fun fd => Option.ext fun user => ?_⟩
  · rw [hafter.find_by_username_iff, hmem, Option.filter_eq_some_iff, hbefore.find_by_username_iff,
      Bool.not_eq_true']
    exact and_right_comm
  · rw [hafter.find_by_client_fd_iff, hmem, Option.filter_eq_some_iff, hbefore.find_by_client_fd_iff,
      Bool.not_eq_true']
    exact and_right_comm

/-- What one eviction leaves of the records of a table that copies users. -/
theorem UsersTable.entries_remove_of_copies {users contents : UsersTable} (husers : users.Indexed)
    (hcontents : contents.Indexed) (hcopies : ∀ user ∈ contents, user ∈ users) {user : User} (huser : user ∈ users) :
    (contents.remove user.username).entries =
      contents.entries.filter fun other => other.socket_fd ≠ user.socket_fd := by
  rw [hcontents.entries_remove]
  refine List.filter_congr fun other hother => ?_
  have hlisted := hcopies other (hcontents.mem_entries.mp hother)
  rw [decide_eq_decide]
  refine not_congr ⟨fun hname => ?_, fun hfd => ?_⟩
  · rw [UsersTable.eq_of_username_eq hlisted huser hname]
  · rw [husers.eq_of_socket_fd_eq hlisted huser hfd]

variable {server : Server}

theorem Server.keys_evict (server : Server) (fd : Fd) : (server.evict fd).rooms.keys = server.rooms.keys := by
  unfold Server.evict
  cases server.users.find_by_client_fd fd with
  | none => rfl
  | some user => exact HashTable.keys_mapEntries _ server.rooms

/-- One step of the loop over the failed descriptors. -/
theorem Server.Consistent.purged_evict (hserver : server.Consistent) (fd : Fd) :
    server.Purged (· == fd) (server.evict fd) := by
  have hkeys := server.keys_evict fd
  cases hfound : server.users.find_by_client_fd fd with
  | none =>
    have hfree := hserver.users.find_by_client_fd_eq_none_iff.mp hfound
    have hsame : server.evict fd = server := by simp [Server.evict, hfound]
    have hkept : ∀ contents : UsersTable, contents.Indexed → (∀ user ∈ contents, user ∈ server.users) →
        contents.Purged (· == fd) contents := by
      intro contents hcontents hcopies
      refine UsersTable.purged_of_entries hcontents hcontents (List.filter_eq_self.mpr fun user huser => ?_).symm
      simpa using hfree user (hcopies user (hcontents.mem_entries.mp huser))
    rw [hsame] at hkeys ⊢
    refine ⟨hkept _ hserver.users fun _ hmem => hmem, hkeys, fun roomname room hroom => ?_⟩
    have hcopies := hserver.rooms roomname room hroom
    exact ⟨room, hroom, rfl, hkept _ hcopies.members hcopies.members_users,
      hkept _ hcopies.guests hcopies.guests_users⟩
  | some user =>
    obtain ⟨huser, rfl⟩ := hserver.users.find_by_client_fd_iff.mp hfound
    have hforget : server.evict user.socket_fd = server.forget user.username := by simp [Server.evict, hfound]
    have hpurged : ∀ contents : UsersTable, contents.Indexed → (∀ other ∈ contents, other ∈ server.users) →
        contents.Purged (· == user.socket_fd) (contents.remove user.username) := by
      intro contents hcontents hcopies
      refine UsersTable.purged_of_entries hcontents hcontents.remove ?_
      rw [UsersTable.entries_remove_of_copies hserver.users hcontents hcopies huser]
      refine List.filter_congr fun other _ => ?_
      rw [Bool.eq_iff_iff]
      simp
    rw [hforget] at hkeys ⊢
    refine ⟨hpurged _ hserver.users fun _ hmem => hmem, hkeys, fun roomname room hroom => ?_⟩
    have hcopies := hserver.rooms roomname room hroom
    exact ⟨room.forget user.username, by rw [Server.lookup_forget, hroom]; rfl, rfl,
      hpurged _ hcopies.members hcopies.members_users, hpurged _ hcopies.guests hcopies.guests_users⟩

theorem UsersTable.Purged.trans {before middle after : UsersTable} {first second : Fd → Bool}
    (hfirst : before.Purged first middle) (hsecond : middle.Purged second after) :
    before.Purged (fun fd => first fd || second fd) after where
  entries := by
    rw [hsecond.entries, hfirst.entries, List.filter_filter]
    exact List.filter_congr fun user _ => by rw [Bool.not_or, Bool.and_comm]
  by_username username := by
    rw [hsecond.by_username, hfirst.by_username, Option.filter_filter]
    simp only [Bool.not_or]
  by_client_fd fd := by
    rw [hsecond.by_client_fd, hfirst.by_client_fd, Option.filter_filter]
    simp only [Bool.not_or]

theorem Server.Purged.trans {before middle after : Server} {first second : Fd → Bool}
    (hfirst : before.Purged first middle) (hsecond : middle.Purged second after) :
    before.Purged (fun fd => first fd || second fd) after where
  users := hfirst.users.trans hsecond.users
  roomnames := hsecond.roomnames.trans hfirst.roomnames
  rooms roomname room hroom := by
    obtain ⟨between, hbetween, hname, hmembers, hguests⟩ := hfirst.rooms roomname room hroom
    obtain ⟨left, hleft, hsame, hfewer, hfewerguests⟩ := hsecond.rooms roomname between hbetween
    exact ⟨left, hleft, hsame.trans hname, hmembers.trans hfewer, hguests.trans hfewerguests⟩

/-- The whole loop over the failed descriptors. -/
theorem Server.Consistent.purged_evict_all (hserver : server.Consistent) (fds : List Fd) :
    server.Purged (fun fd => fds.contains fd) (server.evict_all fds) := by
  induction fds generalizing server with
  | nil =>
    have hkept : ∀ contents : UsersTable, contents.Purged (fun fd => [].contains fd) contents := by
      refine fun contents => ⟨by simp, fun username => ?_, fun fd => ?_⟩
      · cases contents.find_by_username username with
        | none => rfl
        | some user => rfl
      · cases contents.find_by_client_fd fd with
        | none => rfl
        | some user => rfl
    exact ⟨hkept _, rfl, fun _ room hroom => ⟨room, hroom, rfl, hkept _, hkept _⟩⟩
  | cons fd rest ih =>
    have hpurged := (hserver.purged_evict fd).trans (ih (hserver.evict fd))
    simp only [List.contains_cons]
    exact hpurged

/-- Only the descriptors of users matter. -/
theorem Server.Consistent.purged_congr (hserver : server.Consistent) {after : Server} {first second : Fd → Bool}
    (hpurged : server.Purged first after)
    (hagree : ∀ user ∈ server.users, first user.socket_fd = second user.socket_fd) : server.Purged second after := by
  have hsame : ∀ contents later : UsersTable, contents.Indexed → (∀ user ∈ contents, user ∈ server.users) →
      contents.Purged first later → contents.Purged second later := by
    intro contents later hcontents hcopies hlater
    have hkeep : ∀ user ∈ contents, (!first user.socket_fd) = !second user.socket_fd := fun user huser => by
      rw [hagree user (hcopies user huser)]
    refine ⟨?_, fun username => ?_, fun fd => ?_⟩
    · rw [hlater.entries]
      exact List.filter_congr fun user huser => hkeep user (hcontents.mem_entries.mp huser)
    · rw [hlater.by_username]
      cases hfound : contents.find_by_username username with
      | none => rfl
      | some user => simp [Option.filter, hkeep user (hcontents.find_by_username_iff.mp hfound).1]
    · rw [hlater.by_client_fd]
      cases hfound : contents.find_by_client_fd fd with
      | none => rfl
      | some user => simp [Option.filter, hkeep user (hcontents.find_by_client_fd_iff.mp hfound).1]
  refine ⟨hsame _ _ hserver.users (fun _ hmem => hmem) hpurged.users, hpurged.roomnames, fun roomname room hroom => ?_⟩
  obtain ⟨left, hleft, hname, hmembers, hguests⟩ := hpurged.rooms roomname room hroom
  have hcopies := hserver.rooms roomname room hroom
  exact ⟨left, hleft, hname, hsame _ _ hcopies.members hcopies.members_users hmembers,
    hsame _ _ hcopies.guests hcopies.guests_users hguests⟩

end Purge

section Array

variable {net : Net} {message : Message} {client_fd : Fd}

/-- Whatever part of a table has been visited, a free cell is left for each record
to come, and the last cell still holds the mark that ends the loop. -/
theorem run_send_visits_in_bounds (world : World) (visited rest : List User) :
    ∃ context sends,
      (visit_all (send_if_is_not_self net message client_fd) visited
          ⟨List.replicate ((visited ++ rest).length + 1) (-1), 0⟩).run world =
        .ok context { world with trace := world.trace ++ sends } ∧
      context.index ≤ visited.length ∧ context.client_fds_to_disconnect.length = (visited ++ rest).length + 1 ∧
      ∀ cell, context.index ≤ cell → cell ≤ (visited ++ rest).length →
        context.client_fds_to_disconnect[cell]? = some (-1) := by
  obtain ⟨server, held, trace, alloc⟩ := world
  have hfew := length_failures_le net message client_fd trace visited
  have hrun := run_send_visits server held trace alloc net message client_fd visited [] ((visited ++ rest).length + 1)
    (by simp only [List.length_append]; omega)
  simp only [List.map_nil, List.nil_append, List.length_nil] at hrun
  refine ⟨_, _, hrun, ?_, ?_, fun cell hfree hcell => ?_⟩
  · exact hfew
  · simp only [List.length_append, List.length_map, List.length_replicate]
    omega
  · simp only at hfree hcell ⊢
    rw [List.getElem?_append_right (by simpa using hfree), List.getElem?_replicate, if_pos]
    rw [List.length_map]
    omega

end Array

/-- A broadcast tries every recipient once, and those that cannot be reached are
gone from every table afterwards, whoever they are. -/
theorem broadcast_with_failing_recipients {net : Net} {history : List (World × Event)} {world : World}
    (hrun : ServerRun net history world) (message : Message) (client_fd : Fd) (failed : Fd → Bool) :
    (∃ sends later,
      (notify_all_but_self (failing failed) .server_users message client_fd).run world =
        .ok () { world with server := later, trace := world.trace ++ sends } ∧
      (∀ effect ∈ sends, ∃ fd, effect = .send fd message (!failed fd)) ∧
      (∀ fd, attempted fd sends =
        if fd ≠ client_fd ∧ (world.server.users.find_by_client_fd fd).isSome then [message] else []) ∧
      world.server.Purged (fun fd => failed fd && fd != client_fd) later) ∧
    ∀ visited rest, world.server.users.entries = visited ++ rest →
      ∃ context sends,
        (visit_all (send_if_is_not_self (failing failed) message client_fd) visited
            ⟨List.replicate (world.server.users.entries.length + 1) (-1), 0⟩).run
            { world with held := [.users_table .server_users] } =
          .ok context { world with held := [.users_table .server_users], trace := world.trace ++ sends } ∧
        context.index ≤ visited.length ∧
        context.client_fds_to_disconnect.length = world.server.users.entries.length + 1 ∧
        ∀ cell, context.index ≤ cell → cell ≤ world.server.users.entries.length →
          context.client_fds_to_disconnect[cell]? = some (-1) := by
  obtain ⟨hidle, hserver⟩ := run_ready hrun
  constructor
  · have hnotify := run_notify_users world.server world.trace world.alloc (failing failed) message client_fd
    have hpurged := hserver.purged_evict_all
      (failures (broadcast (failing failed) message world.trace (recipients world.server.users.entries client_fd)))
    have hheld : world.held = [] := congrArg World.held hidle
    have hmem : ∀ fd, fd ∈ recipients world.server.users.entries client_fd ↔
        fd ≠ client_fd ∧ (world.server.users.find_by_client_fd fd).isSome := by
      intro fd
      rw [mem_recipients, Option.isSome_iff_exists]
      simp only [hserver.users.mem_entries, hserver.users.find_by_client_fd_iff]
    refine ⟨broadcast (failing failed) message world.trace (recipients world.server.users.entries client_fd), _, ?_,
      fun effect heffect => ?_, fun fd => ?_, hserver.purged_congr hpurged fun user huser => ?_⟩
    · rw [hheld]
      rw [hidle] at hnotify ⊢
      exact hnotify
    · rw [broadcast_failing] at heffect
      obtain ⟨fd, -, rfl⟩ := List.mem_map.mp heffect
      exact ⟨fd, rfl⟩
    · rw [attempted_broadcast _ _ (nodup_recipients hserver.users client_fd), if_congr (hmem fd) rfl rfl]
    · have hfound := hserver.users.find_by_client_fd_iff.mpr ⟨huser, rfl⟩
      rw [failures_broadcast_failing, Bool.eq_iff_iff]
      simp [hmem, hfound, and_comm]
  · intro visited rest hentries
    rw [hentries]
    exact run_send_visits_in_bounds _ visited rest

/-- One of two members of a room is out of reach. -/
theorem broadcast_with_failing_recipients_in_meeting :
    ∃ world sends later, (world.server.users.find_by_client_fd 5).isSome ∧
      (notify_all_but_self (failing (· == 5)) .server_users message_init 4).run world =
        .ok () { world with server := later, trace := world.trace ++ sends } ∧
      attempted 5 sends = [message_init] ∧ attempted 4 sends = [] ∧ later.users.find_by_client_fd 5 = none := by
  obtain ⟨history, world, hrun, htest⟩ := exists_run_of_serve_all reliable meeting
    (fun _ world => (world.server.users.find_by_client_fd 5).any fun user => user.socket_fd = 5) (by decide +kernel)
  obtain ⟨user, hfound, hfd⟩ := (Option.any_eq_true _ _).mp htest
  obtain ⟨⟨sends, later, hnotify, -, hattempted, hpurged⟩, -⟩ :=
    broadcast_with_failing_recipients hrun message_init 4 (· == 5)
  have hregistered : (world.server.users.find_by_client_fd 5).isSome := Option.isSome_of_mem hfound
  refine ⟨world, sends, later, hregistered, hnotify, ?_, ?_, ?_⟩
  · rw [hattempted, if_pos ⟨by decide, hregistered⟩]
  · rw [hattempted, if_neg (by simp)]
  · rw [hpurged.users.by_client_fd, hfound]
    simp [Option.filter, of_decide_eq_true hfd]

end ojalvo
