import OjalvoChat.CString

namespace ojalvo

/-- A client's file descriptor. `accept` returns no negative one. -/
abbrev Fd := Nat

inductive UserStatus where
  | ACTIVE
  | AWAY
  | BUSY
  deriving DecidableEq, Repr

def USER_USERNAME_MAX_LENGTH : Nat := 8

/-- The name fits the fixed array of the record and is not empty: only
`user_init` builds records and it refuses every other name. -/
@[ext] structure User where
  username : CString
  socket_fd : Fd
  status : UserStatus
  named : 0 < strlen username ∧ strlen username ≤ USER_USERNAME_MAX_LENGTH
  deriving DecidableEq

def user_init (username : CString) (socket_fd : Fd) : Option User :=
  if h : 0 < strlen username ∧ strlen username ≤ USER_USERNAME_MAX_LENGTH then
    some { username, socket_fd, status := .ACTIVE, named := h }
  else none

def user_status_to_string (status : UserStatus) : CString :=
  match status with
  | .ACTIVE => .lit "ACTIVE"
  | .AWAY => .lit "AWAY"
  | .BUSY => .lit "BUSY"

def user_status_from_string (text : Option CString) : Option UserStatus :=
  match text with
  | none => none
  | some text =>
    if text = .lit "ACTIVE" then some .ACTIVE
    else if text = .lit "AWAY" then some .AWAY
    else if text = .lit "BUSY" then some .BUSY
    else none

theorem user_init_eq_some_iff {username : CString} {socket_fd : Fd} {user : User} :
    user_init username socket_fd = some user ↔
      user.username = username ∧ user.socket_fd = socket_fd ∧ user.status = .ACTIVE := by
  unfold user_init
  constructor
  · intro hinit
    split at hinit
    · cases hinit
      exact ⟨rfl, rfl, rfl⟩
    · cases hinit
  · rintro ⟨rfl, rfl, hstatus⟩
    rw [dif_pos user.named]
    cases user
    simp_all

theorem user_init_eq_none_iff {username : CString} {socket_fd : Fd} :
    user_init username socket_fd = none ↔
      strlen username = 0 ∨ USER_USERNAME_MAX_LENGTH < strlen username := by
  unfold user_init
  split <;> simp <;> omega

/-- Reading a status and printing it returns the text that was read. -/
theorem user_status_to_string_of_from_string {text : CString} {status : UserStatus}
    (hread : user_status_from_string (some text) = some status) : user_status_to_string status = text := by
  simp only [user_status_from_string] at hread
  split at hread
  · cases hread
    exact Eq.symm ‹text = _›
  · split at hread
    · cases hread
      exact Eq.symm ‹text = _›
    · split at hread
      · cases hread
        exact Eq.symm ‹text = _›
      · cases hread

theorem user_status_from_string_to_string (status : UserStatus) :
    user_status_from_string (some (user_status_to_string status)) = some status := by
  cases status <;> decide

end ojalvo
