import OjalvoChat.UsersTable.Memory

namespace ojalvo

/-- No user in the table has the descriptor of the user that a call adds. -/
def UsersTableCall.HasFreshFd (call : UsersTableCall) (memory : UsersTableMemory) : Prop :=
  ∀ socket_fd, call.added_fd = some socket_fd → ∀ username user,
    memory.find_by_username username = some (some user) → user.socket_fd ≠ socket_fd

namespace UsersTableMemory

/-- Every entry of the descriptor index points to a record in use that the name
table has, with the descriptor of the entry. -/
def NoDangling (memory : UsersTableMemory) : Prop :=
  ∀ client_fd user, memory.table_by_fd.lookup client_fd = some user → ∃ username stored,
    memory.table.lookup username = some user ∧ memory.heap.lookup user = some stored ∧
      stored.username = username ∧ stored.socket_fd = client_fd

/-- Both searches find the same users, each under its name and its descriptor, and
so do the tests and the iteration. -/
structure Agrees (memory : UsersTableMemory) : Prop where
  by_username : ∀ username user, memory.find_by_username username = some (some user) →
    user.username = username ∧ memory.find_by_client_fd user.socket_fd = some (some user)
  by_client_fd : ∀ client_fd user, memory.find_by_client_fd client_fd = some (some user) →
    user.socket_fd = client_fd ∧ memory.find_by_username user.username = some (some user)
  contains_by_username : ∀ username, (memory.find_by_username username).map Option.isSome =
    some (memory.contains_by_username username)
  contains_by_client_fd : ∀ client_fd, (memory.find_by_client_fd client_fd).map Option.isSome =
    some (memory.contains_by_client_fd client_fd)
  iterated : ∃ users, memory.iterate = some users ∧ users.Nodup ∧
    ∀ user, user ∈ users ↔ memory.find_by_username user.username = some (some user)

section Calls

variable {memory after : UsersTableMemory} {contents : UsersTable} {call : UsersTableCall}

theorem add_user_refused {allocated : Option UserPtr} {username : CString} {socket_fd : Fd} {prepare : User → User}
    (hrefused : memory.add_user allocated username socket_fd prepare = (false, after)) : after = memory := by
  unfold add_user at hrefused
  split at hrefused
  · exact (Prod.mk.inj hrefused).2.symm
  · split at hrefused
    · exact (Prod.mk.inj hrefused).2.symm
    · split at hrefused
      · exact (Prod.mk.inj hrefused).2.symm
      · cases hrefused

theorem change_status_refused {found : Option UserPtr} {status : UserStatus}
    (hrefused : memory.change_status found status = some (false, after)) : after = memory := by
  unfold change_status at hrefused
  split at hrefused
  · cases hrefused
    rfl
  · split at hrefused <;> cases hrefused

/-- A call that answers false has done nothing. -/
theorem call_refused (hrefused : memory.call call = some (false, after)) : after = memory := by
  cases call with
  | add allocated username socket_fd => exact add_user_refused (Option.some.inj hrefused)
  | add_with_status allocated username socket_fd status => exact add_user_refused (Option.some.inj hrefused)
  | change_status_by_username username status => exact change_status_refused hrefused
  | change_status_by_client_fd client_fd status => exact change_status_refused hrefused
  | remove username =>
    simp only [UsersTableMemory.call, remove] at hrefused
    split at hrefused
    · cases hrefused
      rfl
    · split at hrefused <;> cases hrefused

theorem indexed_call_add (hindexed : contents.Indexed) {allocated : Option UserPtr} {username : CString}
    {socket_fd : Fd} {prepare : User → User}
    (hprepare : ∀ user, (prepare user).username = user.username ∧ (prepare user).socket_fd = user.socket_fd)
    (hfree : ∀ user ∈ contents, user.socket_fd ≠ socket_fd) :
    (contents.call_add allocated username socket_fd prepare).2.Indexed := by
  unfold UsersTable.call_add
  split
  · rename_i _ user hinit
    obtain ⟨rfl, rfl, -⟩ := user_init_eq_some_iff.mp hinit
    obtain ⟨hname, hfd⟩ := hprepare user
    cases hlookup : contents.find_by_username (prepare user).username with
    | none =>
      exact hindexed.add (hindexed.find_by_username_eq_none_iff.mp hlookup) fun other hother => hfd ▸ hfree other hother
    | some found => exact (UsersTable.add_of_taken hlookup).symm ▸ hindexed
  · exact hindexed

/-- Only an added user can bring the indices out of agreement. -/
theorem indexed_call (hindexed : contents.Indexed)
    (hfree : ∀ socket_fd, call.added_fd = some socket_fd → ∀ user ∈ contents, user.socket_fd ≠ socket_fd) :
    (contents.call call).2.Indexed := by
  cases call with
  | add allocated username socket_fd => exact indexed_call_add hindexed (fun _ => ⟨rfl, rfl⟩) (hfree socket_fd rfl)
  | add_with_status allocated username socket_fd status =>
    exact indexed_call_add hindexed (fun _ => ⟨rfl, rfl⟩) (hfree socket_fd rfl)
  | change_status_by_username username status => exact hindexed.change_status_by_username username
  | change_status_by_client_fd client_fd status => exact hindexed.change_status_by_client_fd
  | remove username => exact hindexed.remove

theorem Sound.noDangling (hsound : memory.Sound) : memory.NoDangling := by
  intro client_fd user hlookup
  obtain ⟨stored, hstored, hfd, howned⟩ := hsound.pointed client_fd user hlookup
  exact ⟨stored.username, stored, howned, hstored, rfl, hfd⟩

theorem Represents.agrees (hsame : memory.Represents contents) (hsound : memory.Sound) (hindexed : contents.Indexed) :
    memory.Agrees where
  by_username username user hfound := by
    rw [hsame.find_by_username_eq hsound] at hfound
    obtain ⟨hmem, hname⟩ := hindexed.find_by_username_iff.mp (Option.some.inj hfound)
    rw [hsame.find_by_client_fd_eq hsound]
    exact ⟨hname, congrArg some (hindexed.find_by_client_fd_iff.mpr ⟨hmem, rfl⟩)⟩
  by_client_fd client_fd user hfound := by
    rw [hsame.find_by_client_fd_eq hsound] at hfound
    obtain ⟨hmem, hfd⟩ := hindexed.find_by_client_fd_iff.mp (Option.some.inj hfound)
    rw [hsame.find_by_username_eq hsound]
    exact ⟨hfd, congrArg some (hindexed.find_by_username_iff.mpr ⟨hmem, rfl⟩)⟩
  contains_by_username username := by
    unfold find_by_username contains_by_username copy
    cases hlookup : memory.table.lookup username with
    | none => rfl
    | some user =>
      obtain ⟨stored, hstored, -⟩ := hsound.owned username user hlookup
      simp [hstored]
  contains_by_client_fd client_fd := by
    unfold find_by_client_fd contains_by_client_fd copy
    cases hlookup : memory.table_by_fd.lookup client_fd with
    | none => rfl
    | some user =>
      obtain ⟨stored, hstored, -⟩ := hsound.pointed client_fd user hlookup
      simp [hstored]
  iterated := by
    refine ⟨contents.entries, hsame.iterate_eq, hindexed.nodup_usernames.of_map, fun user => ?_⟩
    rw [hindexed.mem_entries, hsame.find_by_username_eq hsound, Option.some.injEq, hindexed.find_by_username_iff]
    exact (and_iff_left rfl).symm

/-- As long as no user is added under the descriptor of another one, the indices
agree. -/
theorem Calls.indexed {history : List (UsersTableMemory × UsersTableCall)} (hcalls : Calls history memory)
    (hfresh : ∀ moment ∈ history, moment.2.HasFreshFd moment.1) : (called history).Indexed := by
  induction hcalls with
  | start => exact UsersTable.indexed_init
  | @step history before after call hprefix hstep ih =>
    obtain ⟨hnow, hearlier⟩ := List.forall_mem_cons.mp hfresh
    have hindexed := ih hearlier
    obtain ⟨hsound, hsame⟩ := Calls.represents hprefix
    refine indexed_call hindexed fun socket_fd hadded user huser => ?_
    refine hnow socket_fd hadded user.username user ?_
    rw [hsame.find_by_username_eq hsound, hindexed.find_by_username_iff.mpr ⟨huser, rfl⟩]

end Calls

end UsersTableMemory

/-- After any calls the descriptor index points to users in the table only, and the
next call uses no record that has been freed and, when it is refused, changes
nothing. Both indices agree if no user was added under the descriptor of
another one. -/
theorem lookups_agree {history : List (UsersTableMemory × UsersTableCall)} {memory : UsersTableMemory}
    (hcalls : UsersTableMemory.Calls history memory) :
    memory.NoDangling ∧
      (∀ call : UsersTableCall, (∀ user, call.allocated = some user → user ∉ memory.heap) →
        ∃ answer after, memory.call call = some (answer, after) ∧ (answer = false → after = memory)) ∧
      ((∀ moment ∈ history, moment.2.HasFreshFd moment.1) → memory.Agrees) := by
  obtain ⟨hsound, hsame⟩ := hcalls.represents
  refine ⟨hsound.noDangling, fun call hfresh => ?_, fun hfresh => hsame.agrees hsound (hcalls.indexed hfresh)⟩
  obtain ⟨after, hresult, -, -⟩ := UsersTableMemory.call_follows hsame hsound call hfresh
  refine ⟨_, after, hresult, fun hrefused => ?_⟩
  rw [hrefused] at hresult
  exact UsersTableMemory.call_refused hresult

/-- A user is added and becomes busy. -/
theorem lookups_agree_after_two_calls :
    ∃ history memory, UsersTableMemory.Calls history memory ∧ history.length = 2 ∧
      memory.contains_by_client_fd 4 = true ∧ memory.NoDangling ∧ memory.Agrees := by
  obtain ⟨added, hadded, hchanged⟩ : ∃ added, UsersTableMemory.Step .init (.add (some 7) (.of_bytes [97]) 4) added ∧
      ∃ changed, UsersTableMemory.Step added (.change_status_by_client_fd 4 .BUSY) changed ∧
        changed.contains_by_client_fd 4 = true :=
    ⟨_, ⟨nofun, true, rfl⟩, _, ⟨nofun, true, rfl⟩, rfl⟩
  obtain ⟨changed, hchanged, hcontains⟩ := hchanged
  have hcalls : UsersTableMemory.Calls _ changed := (Run.start.step hadded).step hchanged
  obtain ⟨hpoints, -, hagrees⟩ := lookups_agree hcalls
  refine ⟨_, changed, hcalls, rfl, hcontains, hpoints, hagrees fun moment hmem => ?_⟩
  rcases List.mem_cons.mp hmem with rfl | hfirst
  · exact nofun
  · obtain rfl := List.mem_singleton.mp hfirst
    exact fun _ _ _ _ => nofun

end ojalvo
