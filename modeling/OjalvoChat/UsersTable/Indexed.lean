import OjalvoChat.UsersTable

namespace ojalvo

instance : Membership User UsersTable where
  mem contents user := contents.table.lookup user.username = some user

instance (user : User) (contents : UsersTable) : Decidable (user ∈ contents) :=
  inferInstanceAs (Decidable (contents.table.lookup user.username = some user))

namespace UsersTable

theorem mem_iff_lookup {contents : UsersTable} {user : User} :
    user ∈ contents ↔ contents.table.lookup user.username = some user := Iff.rfl

/-- The two indices of a table describe one set of users: every record is owned
under its own name, and the descriptor index points to exactly the owned
records. -/
structure Indexed (contents : UsersTable) : Prop where
  named : ∀ username user, contents.table.lookup username = some user → user.username = username
  pointed : ∀ fd username, contents.table_by_fd.lookup fd = some username ↔
    ∃ user, contents.table.lookup username = some user ∧ user.socket_fd = fd

variable {contents : UsersTable}

/-- A name determines its user. -/
theorem eq_of_username_eq {first second : User} (hfirst : first ∈ contents) (hsecond : second ∈ contents)
    (heq : first.username = second.username) : first = second := by
  rw [mem_iff_lookup, heq] at hfirst
  exact Option.some.inj (hfirst.symm.trans hsecond)

namespace Indexed

variable (hindexed : contents.Indexed)
include hindexed

/-- The user who is found by a name. -/
theorem find_by_username_iff {username : CString} {user : User} :
    contents.find_by_username username = some user ↔ user ∈ contents ∧ user.username = username := by
  constructor
  · intro hfind
    have hname := hindexed.named username user hfind
    subst hname
    exact ⟨hfind, rfl⟩
  · rintro ⟨hmem, rfl⟩
    exact hmem

/-- The user who is found by a descriptor, if every descriptor is indexed. -/
theorem find_by_client_fd_iff {fd : Fd} {user : User} :
    contents.find_by_client_fd fd = some user ↔ user ∈ contents ∧ user.socket_fd = fd := by
  constructor
  · intro hfind
    obtain ⟨owner, howner, hlookup⟩ := Option.bind_eq_some_iff.mp hfind
    obtain ⟨owned, howned, hfd⟩ := (hindexed.pointed fd owner).mp howner
    have heq : owned = user := Option.some.inj (howned.symm.trans hlookup)
    subst heq
    exact ⟨(hindexed.find_by_username_iff.mp hlookup).1, hfd⟩
  · rintro ⟨hmem, rfl⟩
    exact Option.bind_eq_some_iff.mpr
      ⟨user.username, (hindexed.pointed user.socket_fd user.username).mpr ⟨user, hmem, rfl⟩, hmem⟩

/-- Nobody is found if nobody has the descriptor. -/
theorem find_by_client_fd_eq_none_iff {fd : Fd} :
    contents.find_by_client_fd fd = none ↔ ∀ user ∈ contents, user.socket_fd ≠ fd := by
  constructor
  · intro hnone user hmem hfd
    rw [hindexed.find_by_client_fd_iff.mpr ⟨hmem, hfd⟩] at hnone
    cases hnone
  · intro hfree
    cases hfind : contents.find_by_client_fd fd with
    | none => rfl
    | some user =>
      obtain ⟨hmem, hfd⟩ := hindexed.find_by_client_fd_iff.mp hfind
      exact absurd hfd (hfree user hmem)

/-- Nobody is found if nobody has the name. -/
theorem find_by_username_eq_none_iff {username : CString} :
    contents.find_by_username username = none ↔ ∀ user ∈ contents, user.username ≠ username := by
  constructor
  · intro hnone user hmem hname
    rw [hindexed.find_by_username_iff.mpr ⟨hmem, hname⟩] at hnone
    cases hnone
  · intro hfree
    cases hfind : contents.find_by_username username with
    | none => rfl
    | some user =>
      obtain ⟨hmem, hname⟩ := hindexed.find_by_username_iff.mp hfind
      exact absurd hname (hfree user hmem)

/-- A descriptor determines its user. -/
theorem eq_of_socket_fd_eq {first second : User} (hfirst : first ∈ contents) (hsecond : second ∈ contents)
    (heq : first.socket_fd = second.socket_fd) : first = second := by
  have hfind := hindexed.find_by_client_fd_iff.mpr ⟨hfirst, heq⟩
  exact Option.some.inj (hfind.symm.trans (hindexed.find_by_client_fd_iff.mpr ⟨hsecond, rfl⟩))

/-- The unchecked pointer test agrees with the search. -/
theorem contains_by_client_fd_eq (fd : Fd) :
    contents.contains_by_client_fd fd = (contents.find_by_client_fd fd).isSome := by
  unfold contains_by_client_fd find_by_client_fd
  cases hpointer : contents.table_by_fd.lookup fd with
  | none => rfl
  | some owner =>
    obtain ⟨user, hlookup, _⟩ := (hindexed.pointed fd owner).mp hpointer
    simp [hlookup]

/-- A table contains the descriptors of its users. -/
theorem contains_by_client_fd_iff {fd : Fd} :
    contents.contains_by_client_fd fd = true ↔ ∃ user ∈ contents, user.socket_fd = fd := by
  rw [hindexed.contains_by_client_fd_eq, Option.isSome_iff_exists]
  simp only [hindexed.find_by_client_fd_iff]

theorem mem_entries {user : User} : user ∈ contents.entries ↔ user ∈ contents := by
  rw [entries, HashTable.mem_values_iff]
  constructor
  · rintro ⟨username, hlookup⟩
    exact (hindexed.find_by_username_iff.mp hlookup).1
  · intro hmem
    exact ⟨user.username, hmem⟩

/-- An iteration meets every name once. -/
theorem nodup_usernames : (contents.entries.map User.username).Nodup := by
  have hkeys : contents.entries.map User.username = contents.table.keys := by
    simp only [entries, HashTable.values, AList.keys, List.keys, List.map_map]
    refine List.map_congr_left fun entry hentry => ?_
    exact hindexed.named entry.1 entry.2 (AList.mem_lookup_iff.mpr hentry)
  rw [hkeys]
  exact contents.table.keys_nodup

/-- Every record has its own descriptor, so a table is a list of distinct
connections. -/
theorem nodup_socket_fds : (contents.entries.map User.socket_fd).Nodup := by
  refine List.Nodup.map_on (fun first hfirst second hsecond hsame => ?_) hindexed.nodup_usernames.of_map
  exact hindexed.eq_of_socket_fd_eq (hindexed.mem_entries.mp hfirst) (hindexed.mem_entries.mp hsecond) hsame

end Indexed

theorem indexed_init : users_table_init.Indexed where
  named username user hlookup := by simp [users_table_init] at hlookup
  pointed fd username := by simp [users_table_init]

theorem not_mem_init (user : User) : user ∉ users_table_init := by
  simp [mem_iff_lookup, users_table_init]

section Add

variable {user : User} (hindexed : contents.Indexed)
  (hname : ∀ other ∈ contents, other.username ≠ user.username)
include hindexed hname

private theorem lookup_fresh : contents.table.lookup user.username = none :=
  hindexed.find_by_username_eq_none_iff.mpr hname

/-- Who is added is there, besides the others. -/
theorem mem_add {other : User} : other ∈ contents.add user ↔ other = user ∨ other ∈ contents := by
  have hfresh := lookup_fresh hindexed hname
  simp only [mem_iff_lookup, add, hfresh, HashTable.lookup_insert_eq]
  by_cases heq : other.username = user.username
  · rw [if_pos heq, heq, hfresh]
    simp only [Option.some.injEq, reduceCtorEq, or_false]
    exact eq_comm
  · rw [if_neg heq]
    constructor
    · exact Or.inr
    · rintro (rfl | hmem)
      · exact absurd rfl heq
      · exact hmem

/-- A name and a descriptor that nobody has keep the indices in agreement. -/
theorem Indexed.add (hfd : ∀ other ∈ contents, other.socket_fd ≠ user.socket_fd) :
    (contents.add user).Indexed := by
  have hfresh := lookup_fresh hindexed hname
  constructor
  · intro username stored hlookup
    simp only [UsersTable.add, hfresh, HashTable.lookup_insert_eq] at hlookup
    split at hlookup
    · rename_i heq
      cases hlookup
      exact heq.symm
    · exact hindexed.named username stored hlookup
  · intro fd username
    simp only [UsersTable.add, hfresh, HashTable.lookup_insert_eq]
    by_cases hsame : fd = user.socket_fd
    · subst hsame
      rw [if_pos rfl]
      constructor
      · intro heq
        cases heq
        exact ⟨user, if_pos rfl, rfl⟩
      · rintro ⟨stored, hlookup, hstored⟩
        split at hlookup
        · rename_i heq
          rw [heq]
        · have hmem := (hindexed.find_by_username_iff.mp hlookup).1
          exact absurd hstored (hfd stored hmem)
    · rw [if_neg hsame, hindexed.pointed]
      constructor
      · rintro ⟨stored, hlookup, hstored⟩
        have hne : username ≠ user.username := by
          rintro rfl
          rw [hfresh] at hlookup
          cases hlookup
        exact ⟨stored, by rwa [if_neg hne], hstored⟩
      · rintro ⟨stored, hlookup, hstored⟩
        split at hlookup
        · cases hlookup
          exact absurd hstored.symm hsame
        · exact ⟨stored, hlookup, hstored⟩

end Add

section Remove

variable {username : CString}

theorem lookup_remove (other : CString) :
    (contents.remove username).table.lookup other = if other = username then none else contents.table.lookup other := by
  unfold UsersTable.remove
  cases hlookup : contents.table.lookup username with
  | none =>
    by_cases heq : other = username
    · rw [if_pos heq, heq]
      exact hlookup
    · rw [if_neg heq]
  | some found => exact HashTable.lookup_erase_eq username other contents.table

/-- A name that is removed is not found. -/
@[simp] theorem find_by_username_remove : (contents.remove username).find_by_username username = none := by
  rw [UsersTable.find_by_username, lookup_remove, if_pos rfl]

/-- Only the user with the name is removed. -/
theorem mem_remove {user : User} : user ∈ contents.remove username ↔ user ∈ contents ∧ user.username ≠ username := by
  rw [mem_iff_lookup, lookup_remove]
  by_cases heq : user.username = username
  · simp [heq]
  · simp [heq, mem_iff_lookup]

/-- The index of descriptors follows a removal. -/
theorem Indexed.remove (hindexed : contents.Indexed) : (contents.remove username).Indexed := by
  constructor
  · intro other user hlookup
    rw [lookup_remove] at hlookup
    split at hlookup
    · cases hlookup
    · exact hindexed.named other user hlookup
  · intro fd other
    simp only [lookup_remove]
    unfold UsersTable.remove
    cases hlookup : contents.table.lookup username with
    | none =>
      rw [hindexed.pointed]
      by_cases heq : other = username
      · subst heq
        simp [hlookup]
      · simp [heq]
    | some found =>
      have hfound := hindexed.find_by_username_iff.mp hlookup
      simp only [HashTable.lookup_erase_eq]
      by_cases hfd : fd = found.socket_fd
      · rw [if_pos hfd]
        constructor
        · intro hnone
          cases hnone
        · rintro ⟨user, huser, hsame⟩
          split at huser
          · cases huser
          · have hmem := hindexed.find_by_username_iff.mp huser
            have heq := hindexed.eq_of_socket_fd_eq hmem.1 hfound.1 (hsame.trans hfd)
            subst heq
            exact absurd (hmem.2.symm.trans hfound.2) ‹_›
      · rw [if_neg hfd, hindexed.pointed]
        constructor
        · rintro ⟨user, huser, hsame⟩
          have hne : other ≠ username := by
            rintro rfl
            rw [hlookup] at huser
            cases huser
            exact hfd hsame.symm
          exact ⟨user, by rwa [if_neg hne], hsame⟩
        · rintro ⟨user, huser, hsame⟩
          split at huser
          · cases huser
          · exact ⟨user, huser, hsame⟩

/-- Removing a record leaves the others in their order. -/
theorem Indexed.entries_remove (hindexed : contents.Indexed) :
    (contents.remove username).entries = contents.entries.filter fun user => user.username ≠ username := by
  have hleft : ∀ user ∈ (contents.remove username).entries, user.username ≠ username := by
    intro user huser
    exact (mem_remove.mp (hindexed.remove.mem_entries.mp huser)).2
  rw [← List.filter_eq_self.mpr fun user huser => decide_eq_true (hleft user huser)]
  unfold UsersTable.remove
  cases hlookup : contents.table.lookup username with
  | none => rfl
  | some found =>
    refine HashTable.filter_values_erase contents.table fun user huser => ?_
    have hname := hindexed.named username user huser
    simp [hname]

end Remove

section ChangeStatus

variable {fd : Fd} {status : UserStatus}

theorem lookup_change_status_by_username (username other : CString) :
    (contents.change_status_by_username username status).table.lookup other =
      (contents.table.lookup other).map fun found =>
        if other = username then { found with status := status } else found :=
  HashTable.lookup_adjust username other _ contents.table

variable (hindexed : contents.Indexed)
include hindexed

theorem Indexed.change_status_by_username (username : CString) :
    (contents.change_status_by_username username status).Indexed := by
  constructor
  · intro other user hlookup
    rw [lookup_change_status_by_username] at hlookup
    obtain ⟨found, hfound, rfl⟩ := Option.map_eq_some_iff.mp hlookup
    have hname := hindexed.named other found hfound
    split <;> exact hname
  · intro query other
    change contents.table_by_fd.lookup query = some other ↔ _
    rw [hindexed.pointed]
    simp only [lookup_change_status_by_username, Option.map_eq_some_iff]
    constructor
    · rintro ⟨found, hfound, hfd⟩
      refine ⟨_, ⟨found, hfound, rfl⟩, ?_⟩
      split <;> exact hfd
    · rintro ⟨_, ⟨found, hfound, rfl⟩, hfd⟩
      refine ⟨found, hfound, ?_⟩
      split at hfd <;> exact hfd

theorem Indexed.change_status_by_client_fd : (contents.change_status_by_client_fd fd status).Indexed := by
  unfold UsersTable.change_status_by_client_fd
  cases contents.table_by_fd.lookup fd with
  | none => exact hindexed
  | some owner => exact hindexed.change_status_by_username owner

/-- Only the record with the descriptor changes, and only its status. -/
theorem mem_change_status_by_client_fd {user : User} :
    user ∈ contents.change_status_by_client_fd fd status ↔
      ∃ old ∈ contents, user = if old.socket_fd = fd then { old with status := status } else old := by
  unfold change_status_by_client_fd
  cases hpointer : contents.table_by_fd.lookup fd with
  | none =>
    have hfree : ∀ old ∈ contents, old.socket_fd ≠ fd := by
      intro old hmem hfd
      have hpointed := (hindexed.pointed fd old.username).mpr ⟨old, hmem, hfd⟩
      rw [hpointer] at hpointed
      cases hpointed
    constructor
    · intro hmem
      exact ⟨user, hmem, by rw [if_neg (hfree user hmem)]⟩
    · rintro ⟨old, hmem, rfl⟩
      rwa [if_neg (hfree old hmem)]
  | some owner =>
    obtain ⟨owned, howned, hownedfd⟩ := (hindexed.pointed fd owner).mp hpointer
    obtain ⟨hownedmem, hownedname⟩ := hindexed.find_by_username_iff.mp howned
    have howner : ∀ old ∈ contents, (old.username = owner ↔ old.socket_fd = fd) := by
      intro old hmem
      constructor
      · intro hname
        rw [eq_of_username_eq hmem hownedmem (hname.trans hownedname.symm)]
        exact hownedfd
      · intro hfd
        rw [hindexed.eq_of_socket_fd_eq hmem hownedmem (hfd.trans hownedfd.symm)]
        exact hownedname
    change (contents.change_status_by_username owner status).table.lookup user.username = some user ↔ _
    rw [lookup_change_status_by_username, Option.map_eq_some_iff]
    constructor
    · rintro ⟨old, hlookup, heq⟩
      obtain ⟨hmem, hname⟩ := hindexed.find_by_username_iff.mp hlookup
      refine ⟨old, hmem, ?_⟩
      rw [← heq, ← hname]
      simp only [howner old hmem]
    · rintro ⟨old, hmem, rfl⟩
      have hname : (if old.socket_fd = fd then { old with status := status } else old).username = old.username := by
        split <;> rfl
      rw [hname]
      refine ⟨old, hmem, ?_⟩
      simp only [howner old hmem]

end ChangeStatus

end UsersTable

end ojalvo
