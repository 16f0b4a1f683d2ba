import OjalvoChat.Protocol.Delivery

namespace ojalvo

/-- The network on which exactly the sends to some descriptors fail. -/
def failing (failed : Fd → Bool) : Net := fun _ fd _ => !failed fd

/-- The messages that the server tries to send to a descriptor, in order. -/
def attempted (fd : Fd) (effects : List Effect) : List Message :=
  effects.filterMap fun effect =>
    match effect with
    | .send other message _ => if other = fd then some message else none
    | _ => none

section Attempted

variable (fd : Fd) (message : Message)

@[simp] theorem attempted_nil : attempted fd [] = [] := rfl

/-- What was tried first and what was tried then. -/
theorem attempted_append (first second : List Effect) :
    attempted fd (first ++ second) = attempted fd first ++ attempted fd second := List.filterMap_append ..

@[simp] theorem attempted_close (other : Fd) : attempted fd [.close other] = [] := rfl

@[simp] theorem attempted_send (other : Fd) (sent : Bool) :
    attempted fd [.send other message sent] = if other = fd then [message] else [] := by
  by_cases hsame : other = fd
  · simp [attempted, hsame]
  · simp [attempted, hsame]

/-- A message was tried if a send of it is among the effects, whatever became of it.
-/
theorem mem_attempted {fd : Fd} {message : Message} {effects : List Effect} :
    message ∈ attempted fd effects ↔ ∃ sent, Effect.send fd message sent ∈ effects := by
  simp only [attempted, List.mem_filterMap]
  constructor
  · rintro ⟨effect, hmem, heq⟩
    split at heq
    · rename_i other text sent
      split at heq
      · rename_i hsame
        cases heq
        exact ⟨sent, hsame ▸ hmem⟩
      · cases heq
    · cases heq
  · rintro ⟨sent, hmem⟩
    exact ⟨_, hmem, by simp⟩

end Attempted

section Failing

variable (failed : Fd → Bool) (message : Message) (trace : List Effect)

/-- Where it is fixed who can be reached, a broadcast does not depend on the trace.
-/
theorem broadcast_failing (fds : List Fd) :
    broadcast (failing failed) message trace fds = fds.map fun fd => .send fd message (!failed fd) := by
  induction fds generalizing trace with
  | nil => rfl
  | cons fd rest ih =>
    rw [broadcast, ih]
    rfl

/-- A broadcast fails on exactly those who cannot be reached. -/
theorem failures_broadcast_failing (fds : List Fd) :
    failures (broadcast (failing failed) message trace fds) = fds.filter failed := by
  rw [broadcast_failing]
  induction fds with
  | nil => rfl
  | cons fd rest ih =>
    cases hfailed : failed fd with
    | true => simpa [failures, hfailed] using ih
    | false => simpa [failures, hfailed] using ih

/-- Whether or not they fail, different recipients get one attempt each. -/
theorem attempted_broadcast {net : Net} {fds : List Fd} (hnodup : fds.Nodup) (fd : Fd) :
    attempted fd (broadcast net message trace fds) = if fd ∈ fds then [message] else [] := by
  induction fds generalizing trace with
  | nil => rfl
  | cons other rest ih =>
    obtain ⟨hfresh, hrest⟩ := List.nodup_cons.mp hnodup
    change attempted fd ([.send other message _] ++ broadcast net message _ rest) = _
    rw [attempted_append, attempted_send, ih _ hrest]
    by_cases hsame : other = fd
    · subst hsame
      simp [hfresh]
    · simp [hsame, Ne.symm hsame]

end Failing

end ojalvo
