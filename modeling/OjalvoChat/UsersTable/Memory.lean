import OjalvoChat.Library.Run
import OjalvoChat.UsersTable.Lists

namespace ojalvo

/-- The address of a record. -/
abbrev UserPtr := Nat

/-- A user table with the memory behind it: both indices hold addresses, and `heap`
has the records that `malloc` has handed out and `free` has not taken back. -/
structure UsersTableMemory where
  table : HashTable CString UserPtr
  table_by_fd : HashTable Fd UserPtr
  heap : HashTable UserPtr User

namespace UsersTableMemory

def init : UsersTableMemory where
  table := ∅
  table_by_fd := ∅
  heap := ∅

section Operations

variable (memory : UsersTableMemory)

/-- The common body of both ways to add a user. The record that `malloc` has
returned is freed again unless both indices get its address. -/
def add_user (allocated : Option UserPtr) (username : CString) (socket_fd : Fd) (prepare : User → User) :
    Bool × UsersTableMemory :=
  match allocated with
  | none => (false, memory)
  | some user =>
    match user_init username socket_fd with
    | none => (false, memory)
    | some initialised =>
      match memory.table.lookup username with
      | some _ => (false, memory)
      | none => (true, {
          table := memory.table.insert username user
          table_by_fd := memory.table_by_fd.insert socket_fd user
          heap := memory.heap.insert user (prepare initialised) })

def add (allocated : Option UserPtr) (username : CString) (socket_fd : Fd) : Bool × UsersTableMemory :=
  memory.add_user allocated username socket_fd id

def add_with_status (allocated : Option UserPtr) (username : CString) (socket_fd : Fd) (status : UserStatus) :
    Bool × UsersTableMemory :=
  memory.add_user allocated username socket_fd fun user => { user with status := status }

/-- Copies the record behind a pointer. There is no result when the record has
been freed. -/
def copy (found : Option UserPtr) : Option (Option User) :=
  match found with
  | none => some none
  | some found => (memory.heap.lookup found).map some

def find_by_username (username : CString) : Option (Option User) := memory.copy (memory.table.lookup username)

def find_by_client_fd (client_fd : Fd) : Option (Option User) := memory.copy (memory.table_by_fd.lookup client_fd)

def contains_by_username (username : CString) : Bool := (memory.table.lookup username).isSome

def contains_by_client_fd (client_fd : Fd) : Bool := (memory.table_by_fd.lookup client_fd).isSome

/-- Writes a status through a pointer. -/
def change_status (found : Option UserPtr) (status : UserStatus) : Option (Bool × UsersTableMemory) :=
  match found with
  | none => some (false, memory)
  | some found =>
    match memory.heap.lookup found with
    | none => none
    | some _ => some (true, { memory with
        heap := HashTable.adjust found (fun user => { user with status := status }) memory.heap })

def change_status_by_username (username : CString) (status : UserStatus) : Option (Bool × UsersTableMemory) :=
  memory.change_status (memory.table.lookup username) status

def change_status_by_client_fd (client_fd : Fd) (status : UserStatus) : Option (Bool × UsersTableMemory) :=
  memory.change_status (memory.table_by_fd.lookup client_fd) status

/-- The record leaves the descriptor index first, as its descriptor is read from
it; the name table frees it. -/
def remove (username : CString) : Option (Bool × UsersTableMemory) :=
  match memory.table.lookup username with
  | none => some (false, memory)
  | some found =>
    match memory.heap.lookup found with
    | none => none
    | some user => some (true, {
        table := memory.table.erase username
        table_by_fd := memory.table_by_fd.erase user.socket_fd
        heap := memory.heap.erase found })

/-- The records that an iteration copies, one by one. -/
def iterate : Option (List User) := memory.table.values.mapM memory.heap.lookup

end Operations

/-- Every address in an index is that of a record in use: under its own name in the
name table, and under its own descriptor in the other index, which points to no
record that the name table does not have. -/
structure Sound (memory : UsersTableMemory) : Prop where
  owned : ∀ username user, memory.table.lookup username = some user →
    ∃ stored, memory.heap.lookup user = some stored ∧ stored.username = username
  pointed : ∀ client_fd user, memory.table_by_fd.lookup client_fd = some user →
    ∃ stored, memory.heap.lookup user = some stored ∧ stored.socket_fd = client_fd ∧
      memory.table.lookup stored.username = some user

theorem sound_init : init.Sound where
  owned username user hlookup := by simp [init] at hlookup
  pointed client_fd user hlookup := by simp [init] at hlookup

section Sound

variable {memory : UsersTableMemory} {username : CString} {user : UserPtr} {stored : User}

/-- A record at a fresh address, under a name that is free. -/
theorem Sound.insert (hsound : memory.Sound) (hfresh : user ∉ memory.heap)
    (hname : memory.table.lookup stored.username = none) :
    Sound {
      table := memory.table.insert stored.username user
      table_by_fd := memory.table_by_fd.insert stored.socket_fd user
      heap := memory.heap.insert user stored } := by
  have hkept : ∀ other found, memory.heap.lookup other = some found →
      (memory.heap.insert user stored).lookup other = some found := by
    intro other found hfound
    have hne : other ≠ user := fun heq => hfresh (heq ▸ HashTable.mem_of_lookup hfound)
    rw [HashTable.lookup_insert_eq, if_neg hne, hfound]
  have hself : (memory.heap.insert user stored).lookup user = some stored := AList.lookup_insert memory.heap
  constructor
  · intro username other hlookup
    simp only [HashTable.lookup_insert_eq] at hlookup
    split at hlookup
    · rename_i heq
      cases hlookup
      exact ⟨stored, hself, heq.symm⟩
    · obtain ⟨found, hfound, hnamed⟩ := hsound.owned username other hlookup
      exact ⟨found, hkept other found hfound, hnamed⟩
  · intro client_fd other hlookup
    simp only [HashTable.lookup_insert_eq] at hlookup
    split at hlookup
    · rename_i heq
      cases hlookup
      exact ⟨stored, hself, heq.symm, AList.lookup_insert memory.table⟩
    · obtain ⟨found, hfound, hfd, howned⟩ := hsound.pointed client_fd other hlookup
      refine ⟨found, hkept other found hfound, hfd, ?_⟩
      have hne : found.username ≠ stored.username := by
        intro heq
        rw [heq, hname] at howned
        cases howned
      change (memory.table.insert stored.username user).lookup found.username = some other
      rw [HashTable.lookup_insert_eq, if_neg hne, howned]

/-- A record changes its status. -/
theorem Sound.adjust (hsound : memory.Sound) (status : UserStatus) :
    Sound { memory with heap := HashTable.adjust user (fun found => { found with status := status }) memory.heap } := by
  have hkept : ∀ other found, memory.heap.lookup other = some found → ∃ changed,
      (HashTable.adjust user (fun found => { found with status := status }) memory.heap).lookup other = some changed ∧
        changed.username = found.username ∧ changed.socket_fd = found.socket_fd := by
    intro other found hfound
    refine ⟨if other = user then { found with status := status } else found, ?_, ?_, ?_⟩
    · rw [HashTable.lookup_adjust, hfound, Option.map_some]
    · split <;> rfl
    · split <;> rfl
  constructor
  · intro username other hlookup
    obtain ⟨found, hfound, hnamed⟩ := hsound.owned username other hlookup
    obtain ⟨changed, hchanged, hname, -⟩ := hkept other found hfound
    exact ⟨changed, hchanged, hname.trans hnamed⟩
  · intro client_fd other hlookup
    obtain ⟨found, hfound, hfd, howned⟩ := hsound.pointed client_fd other hlookup
    obtain ⟨changed, hchanged, hname, hsame⟩ := hkept other found hfound
    exact ⟨changed, hchanged, hsame.trans hfd, hname ▸ howned⟩

/-- A record is freed, and both indices forget its address. -/
theorem Sound.erase (hsound : memory.Sound) (hlookup : memory.table.lookup username = some user)
    (hstored : memory.heap.lookup user = some stored) :
    Sound {
      table := memory.table.erase username
      table_by_fd := memory.table_by_fd.erase stored.socket_fd
      heap := memory.heap.erase user } := by
  have hnamed : stored.username = username := by
    obtain ⟨found, hfound, hname⟩ := hsound.owned username user hlookup
    rw [hstored] at hfound
    cases hfound
    exact hname
  constructor
  · intro other found howned
    simp only [HashTable.lookup_erase_eq] at howned
    split at howned
    · cases howned
    · rename_i hother
      obtain ⟨kept, hkept, hname⟩ := hsound.owned other found howned
      have hne : found ≠ user := by
        rintro rfl
        rw [hstored] at hkept
        cases hkept
        exact hother (hname.symm.trans hnamed)
      exact ⟨kept, by rw [HashTable.lookup_erase_eq, if_neg hne, hkept], hname⟩
  · intro client_fd found hpointed
    simp only [HashTable.lookup_erase_eq] at hpointed
    split at hpointed
    · cases hpointed
    · rename_i hother
      obtain ⟨kept, hkept, hfd, howned⟩ := hsound.pointed client_fd found hpointed
      have hne : found ≠ user := by
        rintro rfl
        rw [hstored] at hkept
        cases hkept
        exact hother hfd.symm
      refine ⟨kept, by rw [HashTable.lookup_erase_eq, if_neg hne, hkept], hfd, ?_⟩
      have hleft : kept.username ≠ username := by
        intro heq
        rw [heq, hlookup] at howned
        cases howned
        exact hne rfl
      change (memory.table.erase username).lookup kept.username = some found
      rw [HashTable.lookup_erase_eq, if_neg hleft, howned]

end Sound

end UsersTableMemory

/-- An operation that can change a table. Those that add a user come with what
`malloc` returns to them. -/
inductive UsersTableCall where
  | add (allocated : Option UserPtr) (username : CString) (socket_fd : Fd)
  | add_with_status (allocated : Option UserPtr) (username : CString) (socket_fd : Fd) (status : UserStatus)
  | change_status_by_username (username : CString) (status : UserStatus)
  | change_status_by_client_fd (client_fd : Fd) (status : UserStatus)
  | remove (username : CString)

namespace UsersTableCall

def allocated (call : UsersTableCall) : Option UserPtr :=
  match call with
  | .add allocated _ _ => allocated
  | .add_with_status allocated _ _ _ => allocated
  | _ => none

/-- The descriptor of a user to be added. -/
def added_fd (call : UsersTableCall) : Option Fd :=
  match call with
  | .add _ _ socket_fd => some socket_fd
  | .add_with_status _ _ socket_fd _ => some socket_fd
  | _ => none

end UsersTableCall

/-- What a call answers, and the memory after it. There is no result when it uses a
record that has been freed. -/
def UsersTableMemory.call (memory : UsersTableMemory) (call : UsersTableCall) : Option (Bool × UsersTableMemory) :=
  match call with
  | .add allocated username socket_fd => some (memory.add allocated username socket_fd)
  | .add_with_status allocated username socket_fd status =>
    some (memory.add_with_status allocated username socket_fd status)
  | .change_status_by_username username status => memory.change_status_by_username username status
  | .change_status_by_client_fd client_fd status => memory.change_status_by_client_fd client_fd status
  | .remove username => memory.remove username

namespace UsersTable

variable (contents : UsersTable)

def call_add (allocated : Option UserPtr) (username : CString) (socket_fd : Fd) (prepare : User → User) :
    Bool × UsersTable :=
  match allocated, user_init username socket_fd with
  | some _, some user => ((contents.find_by_username username).isNone, contents.add (prepare user))
  | _, _ => (false, contents)

/-- The same call on the table without its memory. -/
def call (call : UsersTableCall) : Bool × UsersTable :=
  match call with
  | .add allocated username socket_fd => contents.call_add allocated username socket_fd id
  | .add_with_status allocated username socket_fd status =>
    contents.call_add allocated username socket_fd fun user => { user with status := status }
  | .change_status_by_username username status =>
    ((contents.find_by_username username).isSome, contents.change_status_by_username username status)
  | .change_status_by_client_fd client_fd status =>
    (contents.contains_by_client_fd client_fd, contents.change_status_by_client_fd client_fd status)
  | .remove username => ((contents.find_by_username username).isSome, contents.remove username)

end UsersTable

namespace UsersTableMemory

/-- The table of records that the memory holds. -/
structure Represents (memory : UsersTableMemory) (contents : UsersTable) : Prop where
  table : ∀ username, contents.table.lookup username = (memory.table.lookup username).bind memory.heap.lookup
  table_by_fd : ∀ client_fd, contents.table_by_fd.lookup client_fd =
    ((memory.table_by_fd.lookup client_fd).bind memory.heap.lookup).map User.username
  keys : contents.table.keys = memory.table.keys

theorem represents_init : init.Represents users_table_init where
  table username := by simp [init, users_table_init]
  table_by_fd client_fd := by simp [init, users_table_init]
  keys := rfl

section Represents

variable {memory : UsersTableMemory} {contents : UsersTable} {username : CString} {user : UserPtr} {stored : User}
  {status : UserStatus}

theorem Represents.insert (hsame : memory.Represents contents) (hsound : memory.Sound) (hfresh : user ∉ memory.heap)
    (hname : memory.table.lookup stored.username = none) :
    Represents {
      table := memory.table.insert stored.username user
      table_by_fd := memory.table_by_fd.insert stored.socket_fd user
      heap := memory.heap.insert user stored } (contents.add stored) := by
  have hfree : contents.find_by_username stored.username = none := by
    rw [UsersTable.find_by_username, hsame.table, hname]
    rfl
  have hself : (memory.heap.insert user stored).lookup user = some stored := AList.lookup_insert memory.heap
  have hkept : ∀ other, other ∈ memory.heap → (memory.heap.insert user stored).lookup other =
      memory.heap.lookup other := by
    intro other hother
    rw [HashTable.lookup_insert_eq, if_neg (ne_of_mem_of_not_mem hother hfresh)]
  rw [UsersTable.add_of_free hfree]
  constructor
  · intro username
    simp only [HashTable.lookup_insert_eq stored.username username]
    by_cases heq : username = stored.username
    · rw [if_pos heq, if_pos heq, Option.bind_some, hself]
    · rw [if_neg heq, if_neg heq, hsame.table]
      cases hlookup : memory.table.lookup username with
      | none => rfl
      | some other =>
        obtain ⟨found, hfound, -⟩ := hsound.owned username other hlookup
        exact (hkept other (HashTable.mem_of_lookup hfound)).symm
  · intro client_fd
    simp only [HashTable.lookup_insert_eq stored.socket_fd client_fd]
    by_cases heq : client_fd = stored.socket_fd
    · rw [if_pos heq, if_pos heq, Option.bind_some, hself, Option.map_some]
    · rw [if_neg heq, if_neg heq, hsame.table_by_fd]
      cases hlookup : memory.table_by_fd.lookup client_fd with
      | none => rfl
      | some other =>
        obtain ⟨found, hfound, -⟩ := hsound.pointed client_fd other hlookup
        rw [Option.bind_some, Option.bind_some, hkept other (HashTable.mem_of_lookup hfound)]
  · simp only [AList.keys_insert, hsame.keys]

theorem Represents.adjust (hsame : memory.Represents contents) (hsound : memory.Sound)
    (howned : memory.table.lookup username = some user) :
    Represents { memory with heap := HashTable.adjust user (fun found => { found with status := status }) memory.heap }
      (contents.change_status_by_username username status) := by
  obtain ⟨stored, hstored, hnamed⟩ := hsound.owned username user howned
  constructor
  · intro other
    change (HashTable.adjust username _ contents.table).lookup other = (memory.table.lookup other).bind
      (HashTable.adjust user _ memory.heap).lookup
    rw [HashTable.lookup_adjust, hsame.table]
    cases hlookup : memory.table.lookup other with
    | none => rfl
    | some found =>
      obtain ⟨record, hrecord, hname⟩ := hsound.owned other found hlookup
      have hboth : other = username ↔ found = user := by
        constructor
        · rintro rfl
          exact Option.some.inj (hlookup.symm.trans howned)
        · rintro rfl
          rw [hstored] at hrecord
          cases hrecord
          exact hname.symm.trans hnamed
      simp only [Option.bind_some, HashTable.lookup_adjust, hboth]
  · intro client_fd
    change contents.table_by_fd.lookup client_fd = ((memory.table_by_fd.lookup client_fd).bind
      (HashTable.adjust user _ memory.heap).lookup).map User.username
    rw [hsame.table_by_fd]
    cases hlookup : memory.table_by_fd.lookup client_fd with
    | none => rfl
    | some found =>
      rw [Option.bind_some, Option.bind_some, HashTable.lookup_adjust, Option.map_map]
      refine Option.map_congr fun record _ => ?_
      simp only [Function.comp_apply]
      split <;> rfl
  · exact (HashTable.keys_mapEntries _ contents.table).trans hsame.keys

theorem Represents.erase (hsame : memory.Represents contents) (hsound : memory.Sound)
    (howned : memory.table.lookup username = some user) (hstored : memory.heap.lookup user = some stored) :
    Represents {
      table := memory.table.erase username
      table_by_fd := memory.table_by_fd.erase stored.socket_fd
      heap := memory.heap.erase user } (contents.remove username) := by
  have hsearched : contents.table.lookup username = some stored := by
    rw [hsame.table, howned, Option.bind_some, hstored]
  have herased := hsound.erase howned hstored
  have hkept : ∀ other found, (memory.heap.erase user).lookup other = some found →
      memory.heap.lookup other = some found := by
    intro other found hfound
    rw [HashTable.lookup_erase_eq] at hfound
    split at hfound
    · cases hfound
    · exact hfound
  unfold UsersTable.remove
  rw [hsearched]
  constructor
  · intro other
    have hleft := herased.owned other
    simp only [HashTable.lookup_erase_eq username other] at hleft ⊢
    by_cases heq : other = username
    · rw [if_pos heq, if_pos heq]
      rfl
    · rw [if_neg heq] at hleft ⊢
      rw [if_neg heq, hsame.table]
      cases hlookup : memory.table.lookup other with
      | none => rfl
      | some found =>
        obtain ⟨record, hrecord, -⟩ := hleft found hlookup
        exact (hkept found record hrecord).trans hrecord.symm
  · intro client_fd
    have hleft := herased.pointed client_fd
    simp only [HashTable.lookup_erase_eq stored.socket_fd client_fd] at hleft ⊢
    by_cases heq : client_fd = stored.socket_fd
    · rw [if_pos heq, if_pos heq]
      rfl
    · rw [if_neg heq] at hleft ⊢
      rw [if_neg heq, hsame.table_by_fd]
      cases hlookup : memory.table_by_fd.lookup client_fd with
      | none => rfl
      | some found =>
        obtain ⟨record, hrecord, -⟩ := hleft found hlookup
        rw [Option.bind_some, Option.bind_some, hrecord, hkept found record hrecord]
  · simp only [AList.keys_erase, hsame.keys]

/-- The answer of a search, and that it follows no pointer to a freed record. -/
theorem Represents.find_by_username_eq (hsame : memory.Represents contents) (hsound : memory.Sound)
    (username : CString) : memory.find_by_username username = some (contents.find_by_username username) := by
  unfold find_by_username UsersTable.find_by_username copy
  rw [hsame.table]
  cases hlookup : memory.table.lookup username with
  | none => rfl
  | some user =>
    obtain ⟨stored, hstored, -⟩ := hsound.owned username user hlookup
    simp [hstored]

theorem Represents.find_by_client_fd_eq (hsame : memory.Represents contents) (hsound : memory.Sound)
    (client_fd : Fd) : memory.find_by_client_fd client_fd = some (contents.find_by_client_fd client_fd) := by
  unfold find_by_client_fd UsersTable.find_by_client_fd copy
  rw [hsame.table_by_fd]
  cases hlookup : memory.table_by_fd.lookup client_fd with
  | none => rfl
  | some user =>
    obtain ⟨stored, hstored, -, howned⟩ := hsound.pointed client_fd user hlookup
    simp [hsame.table, hstored, howned]

theorem Represents.iterate_eq (hsame : memory.Represents contents) : memory.iterate = some contents.entries := by
  calc memory.iterate
    _ = memory.table.keys.mapM fun username => (memory.table.lookup username).bind memory.heap.lookup :=
      HashTable.mapM_values memory.heap.lookup memory.table
    _ = contents.table.keys.mapM fun username => (contents.table.lookup username).bind some := by
      simp only [hsame.keys, hsame.table, Option.bind_fun_some]
    _ = some contents.entries := by
      rw [← HashTable.mapM_values]
      exact List.mapM_pure.trans (congrArg some (List.map_id _))

end Represents

section Calls

variable {memory : UsersTableMemory} {contents : UsersTable}

/-- A call finds the records it uses, and does with them what it does with the
table that they make up. -/
structure Follows (memory : UsersTableMemory) (contents : UsersTable) (result : Option (Bool × UsersTableMemory))
    (called : Bool × UsersTable) (after : UsersTableMemory) : Prop where
  result : result = some (called.1, after)
  sound : after.Sound
  represents : after.Represents called.2

theorem add_user_follows (hsame : memory.Represents contents) (hsound : memory.Sound) (allocated : Option UserPtr)
    (hfresh : ∀ user, allocated = some user → user ∉ memory.heap) (username : CString) (socket_fd : Fd)
    (prepare : User → User)
    (hprepare : ∀ user, (prepare user).username = user.username ∧ (prepare user).socket_fd = user.socket_fd) :
    ∃ after, Follows memory contents (some (memory.add_user allocated username socket_fd prepare))
      (contents.call_add allocated username socket_fd prepare) after := by
  unfold add_user UsersTable.call_add
  cases allocated with
  | none => exact ⟨memory, rfl, hsound, hsame⟩
  | some user =>
    cases hinit : user_init username socket_fd with
    | none => exact ⟨memory, rfl, hsound, hsame⟩
    | some initialised =>
      obtain ⟨rfl, rfl, -⟩ := user_init_eq_some_iff.mp hinit
      obtain ⟨hname, hfd⟩ := hprepare initialised
      have hsearch : contents.find_by_username initialised.username = _ := hsame.table initialised.username
      cases hlookup : memory.table.lookup initialised.username with
      | some other =>
        obtain ⟨stored, hstored, -⟩ := hsound.owned _ other hlookup
        rw [hlookup, Option.bind_some, hstored] at hsearch
        have hkeeps : contents.add (prepare initialised) = contents :=
          UsersTable.add_of_taken (hname.symm ▸ hsearch)
        refine ⟨memory, ?_, hsound, ?_⟩
        · simp [hsearch]
        · simpa [hkeeps] using hsame
      | none =>
        rw [hlookup] at hsearch
        rw [← hname] at hlookup
        refine ⟨_, ?_, hsound.insert (hfresh user rfl) hlookup, hsame.insert hsound (hfresh user rfl) hlookup⟩
        simp [hsearch, hname, hfd]

/-- A status that is written through the pointer to an owned record. -/
theorem change_status_follows (hsame : memory.Represents contents) (hsound : memory.Sound) {username : CString}
    {user : UserPtr} (howned : memory.table.lookup username = some user) (status : UserStatus) :
    ∃ after, Follows memory contents (memory.change_status (some user) status)
      (true, contents.change_status_by_username username status) after := by
  obtain ⟨stored, hstored, -⟩ := hsound.owned username user howned
  refine ⟨_, ?_, hsound.adjust status, hsame.adjust hsound howned⟩
  simp [change_status, hstored]

/-- Every call finds the records it uses and does what it does to the table that
they make up. -/
theorem call_follows (hsame : memory.Represents contents) (hsound : memory.Sound) (call : UsersTableCall)
    (hfresh : ∀ user, call.allocated = some user → user ∉ memory.heap) :
    ∃ after, Follows memory contents (memory.call call) (contents.call call) after := by
  cases call with
  | add allocated username socket_fd =>
    exact add_user_follows hsame hsound allocated hfresh username socket_fd id fun _ => ⟨rfl, rfl⟩
  | add_with_status allocated username socket_fd status =>
    exact add_user_follows hsame hsound allocated hfresh username socket_fd _ fun _ => ⟨rfl, rfl⟩
  | change_status_by_username username status =>
    have hsearch : contents.find_by_username username = _ := hsame.table username
    simp only [UsersTableMemory.call, UsersTable.call, change_status_by_username]
    cases hlookup : memory.table.lookup username with
    | none =>
      rw [hlookup, Option.bind_none] at hsearch
      have hkeeps : contents.change_status_by_username username status = contents := by
        unfold UsersTable.change_status_by_username
        rw [HashTable.adjust_of_notMem _ (AList.lookup_eq_none.mp hsearch)]
      rw [hsearch, hkeeps]
      exact ⟨memory, rfl, hsound, hsame⟩
    | some user =>
      obtain ⟨stored, hstored, -⟩ := hsound.owned username user hlookup
      rw [hsearch, hlookup, Option.bind_some, hstored]
      exact change_status_follows hsame hsound hlookup status
  | change_status_by_client_fd client_fd status =>
    have hindex := hsame.table_by_fd client_fd
    simp only [UsersTableMemory.call, UsersTable.call, change_status_by_client_fd, UsersTable.contains_by_client_fd,
      UsersTable.change_status_by_client_fd]
    cases hlookup : memory.table_by_fd.lookup client_fd with
    | none =>
      rw [hlookup, Option.bind_none, Option.map_none] at hindex
      rw [hindex]
      exact ⟨memory, rfl, hsound, hsame⟩
    | some user =>
      obtain ⟨stored, hstored, -, howned⟩ := hsound.pointed client_fd user hlookup
      rw [hlookup, Option.bind_some, hstored, Option.map_some] at hindex
      rw [hindex]
      exact change_status_follows hsame hsound howned status
  | remove username =>
    have hsearch : contents.find_by_username username = _ := hsame.table username
    simp only [UsersTableMemory.call, UsersTable.call, remove]
    cases hlookup : memory.table.lookup username with
    | none =>
      rw [hlookup, Option.bind_none] at hsearch
      have hkeeps : contents.remove username = contents := by
        unfold UsersTable.remove
        rw [show contents.table.lookup username = none from hsearch]
      rw [hsearch, hkeeps]
      exact ⟨memory, rfl, hsound, hsame⟩
    | some user =>
      obtain ⟨stored, hstored, -⟩ := hsound.owned username user hlookup
      rw [hsearch, hlookup, Option.bind_some, hstored]
      exact ⟨_, by simp [hstored], hsound.erase hlookup hstored, hsame.erase hsound hlookup hstored⟩

end Calls

/-- One call, with an address from `malloc` that no record in use has. -/
def Step (before : UsersTableMemory) (call : UsersTableCall) (after : UsersTableMemory) : Prop :=
  (∀ user, call.allocated = some user → user ∉ before.heap) ∧ ∃ answer, before.call call = some (answer, after)

/-- Calls one after the other, on a table that was empty. -/
abbrev Calls (history : List (UsersTableMemory × UsersTableCall)) (memory : UsersTableMemory) : Prop :=
  Run Step init history memory

/-- The table that some calls leave, without regard to memory. -/
def called (history : List (UsersTableMemory × UsersTableCall)) : UsersTable :=
  history.foldr (fun moment contents => (contents.call moment.2).2) users_table_init

/-- The memory stays sound, and the calls do to the table what they do without
regard to memory. -/
theorem Calls.represents {history : List (UsersTableMemory × UsersTableCall)} {memory : UsersTableMemory}
    (hcalls : Calls history memory) : memory.Sound ∧ memory.Represents (called history) := by
  induction hcalls with
  | start => exact ⟨sound_init, represents_init⟩
  | @step history before after call hprefix hstep ih =>
    obtain ⟨hsound, hsame⟩ := ih
    obtain ⟨hfresh, answer, hcall⟩ := hstep
    obtain ⟨found, hresult, hafter, hrepresents⟩ := call_follows hsame hsound call hfresh
    cases hcall.symm.trans hresult
    exact ⟨hafter, hrepresents⟩

end UsersTableMemory

end ojalvo
