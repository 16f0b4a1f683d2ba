import OjalvoChat.UsersTable.Indexed

namespace ojalvo

/-- A connection is listed under a name. -/
def UsersTable.Lists (contents : UsersTable) (fd : Fd) (username : CString) : Prop :=
  ∃ user ∈ contents.entries, user.username = username ∧ user.socket_fd = fd

instance (contents : UsersTable) (fd : Fd) (username : CString) : Decidable (contents.Lists fd username) :=
  inferInstanceAs (Decidable (∃ user ∈ contents.entries, _))

namespace UsersTable

/-- Every record is owned under its own name, whatever the descriptor index says. -/
def Named (contents : UsersTable) : Prop :=
  ∀ username user, contents.table.lookup username = some user → user.username = username

/-- An indexed table is stored by names. -/
theorem Indexed.toNamed {contents : UsersTable} (hindexed : contents.Indexed) : contents.Named := hindexed.named

theorem named_init : users_table_init.Named := indexed_init.toNamed

/-- The empty table lists nobody. -/
theorem not_lists_init {fd : Fd} {username : CString} : ¬ users_table_init.Lists fd username := by
  rintro ⟨user, hmem, -⟩
  cases hmem

namespace Named

variable {contents : UsersTable} {fd : Fd} {username : CString} (hnamed : contents.Named)
include hnamed

theorem lists_iff : contents.Lists fd username ↔ ∃ user ∈ contents, user.username = username ∧ user.socket_fd = fd := by
  refine exists_congr fun user => and_congr_left fun _ => ?_
  rw [entries, HashTable.mem_values_iff]
  constructor
  · rintro ⟨owner, hlookup⟩
    obtain rfl := hnamed owner user hlookup
    exact hlookup
  · intro hmem
    exact ⟨user.username, hmem⟩

/-- What is listed under a name is what the name finds. -/
theorem lists_iff_lookup :
    contents.Lists fd username ↔ ∃ user, contents.table.lookup username = some user ∧ user.socket_fd = fd := by
  rw [hnamed.lists_iff]
  constructor
  · rintro ⟨user, hmem, rfl, hfd⟩
    exact ⟨user, hmem, hfd⟩
  · rintro ⟨user, hlookup, hfd⟩
    obtain rfl := hnamed username user hlookup
    exact ⟨user, hlookup, rfl, hfd⟩

/-- Who is added is stored under its name. -/
theorem add (user : User) : (contents.add user).Named := by
  intro owner stored hlookup
  unfold UsersTable.add at hlookup
  split at hlookup
  · exact hnamed owner stored hlookup
  · rw [HashTable.lookup_insert_eq] at hlookup
    split at hlookup
    · rename_i heq
      cases hlookup
      exact heq.symm
    · exact hnamed owner stored hlookup

/-- A removal leaves the others where they are. -/
theorem remove (removed : CString) : (contents.remove removed).Named := by
  intro owner stored hlookup
  rw [lookup_remove] at hlookup
  split at hlookup
  · cases hlookup
  · exact hnamed owner stored hlookup

omit hnamed in
/-- A change of status touches no name and no descriptor. -/
theorem lookup_change_status (contents : UsersTable) (client_fd : Fd) (status : UserStatus) (owner : CString) :
    ∃ change : User → User,
      (∀ user, (change user).username = user.username ∧ (change user).socket_fd = user.socket_fd) ∧
      (contents.change_status_by_client_fd client_fd status).table.lookup owner =
        (contents.table.lookup owner).map change := by
  unfold UsersTable.change_status_by_client_fd
  split
  · exact ⟨id, fun _ => ⟨rfl, rfl⟩, Option.map_id.symm ▸ rfl⟩
  · refine ⟨_, fun user => ?_, lookup_change_status_by_username _ owner⟩
    split <;> exact ⟨rfl, rfl⟩

theorem change_status (client_fd : Fd) (status : UserStatus) :
    (contents.change_status_by_client_fd client_fd status).Named := by
  intro owner stored hlookup
  obtain ⟨change, hsame, hchanged⟩ := lookup_change_status contents client_fd status owner
  rw [hchanged] at hlookup
  obtain ⟨old, hold, rfl⟩ := Option.map_eq_some_iff.mp hlookup
  rw [(hsame old).1]
  exact hnamed owner old hold

/-- A status does not change who is listed. -/
theorem lists_change_status (client_fd : Fd) (status : UserStatus) :
    (contents.change_status_by_client_fd client_fd status).Lists fd username ↔ contents.Lists fd username := by
  rw [(hnamed.change_status client_fd status).lists_iff_lookup, hnamed.lists_iff_lookup]
  obtain ⟨change, hsame, hchanged⟩ := lookup_change_status contents client_fd status username
  rw [hchanged]
  constructor
  · rintro ⟨user, hlookup, rfl⟩
    obtain ⟨old, hold, rfl⟩ := Option.map_eq_some_iff.mp hlookup
    exact ⟨old, hold, (hsame old).2.symm⟩
  · rintro ⟨old, hold, rfl⟩
    exact ⟨change old, by rw [hold]; rfl, (hsame old).2⟩

/-- Only the name that is removed is not listed any more. -/
theorem lists_remove (removed : CString) :
    (contents.remove removed).Lists fd username ↔ contents.Lists fd username ∧ username ≠ removed := by
  rw [(hnamed.remove removed).lists_iff_lookup, hnamed.lists_iff_lookup, lookup_remove]
  by_cases hsame : username = removed
  · simp [hsame]
  · simp [hsame]

/-- A name that is taken is refused. -/
theorem lists_add (user : User) :
    (contents.add user).Lists fd username ↔ contents.Lists fd username ∨
      (contents.find_by_username user.username = none ∧ user.username = username ∧ user.socket_fd = fd) := by
  rw [(hnamed.add user).lists_iff_lookup, hnamed.lists_iff_lookup]
  unfold UsersTable.add find_by_username
  cases hlookup : contents.table.lookup user.username with
  | some found => simp
  | none =>
    simp only [HashTable.lookup_insert_eq, true_and]
    by_cases hsame : username = user.username
    · subst hsame
      simp [hlookup]
    · simp [hsame, Ne.symm hsame]

end Named

namespace Indexed

variable {contents later : UsersTable} {fd : Fd} {username : CString} (hindexed : contents.Indexed)
include hindexed

theorem lists_iff : contents.Lists fd username ↔ ∃ user ∈ contents, user.username = username ∧ user.socket_fd = fd :=
  hindexed.toNamed.lists_iff

/-- A name is listed if the search finds it. -/
theorem exists_lists_iff :
    (∃ fd, contents.Lists fd username) ↔ ∃ user, contents.find_by_username username = some user := by
  simp only [hindexed.lists_iff, hindexed.find_by_username_iff]
  constructor
  · rintro ⟨fd, user, hmem, hname, -⟩
    exact ⟨user, hmem, hname⟩
  · rintro ⟨user, hmem, hname⟩
    exact ⟨user.socket_fd, user, hmem, hname, rfl⟩

theorem lists_change_status (client_fd : Fd) (status : UserStatus) :
    (contents.change_status_by_client_fd client_fd status).Lists fd username ↔ contents.Lists fd username :=
  hindexed.toNamed.lists_change_status client_fd status

/-- Who is added under a new name is listed, besides the others. -/
theorem lists_add {user : User} (hname : ∀ other ∈ contents, other.username ≠ user.username) :
    (contents.add user).Lists fd username ↔
      contents.Lists fd username ∨ (user.username = username ∧ user.socket_fd = fd) := by
  rw [hindexed.toNamed.lists_add, and_iff_right (hindexed.find_by_username_eq_none_iff.mpr hname)]

theorem lists_remove (removed : CString) :
    (contents.remove removed).Lists fd username ↔ contents.Lists fd username ∧ username ≠ removed :=
  hindexed.toNamed.lists_remove removed

end Indexed

/-- A table that only loses users lists no new connection. -/
theorem Lists.of_subset {contents later : UsersTable} {fd : Fd} {username : CString} (hlists : later.Lists fd username)
    (hlater : later.Indexed) (hindexed : contents.Indexed) (hsubset : ∀ user ∈ later, user ∈ contents) :
    contents.Lists fd username := by
  obtain ⟨user, hmem, hsame⟩ := hlater.lists_iff.mp hlists
  exact hindexed.lists_iff.mpr ⟨user, hsubset user hmem, hsame⟩

end UsersTable

end ojalvo
