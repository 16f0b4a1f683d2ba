import OjalvoChat.Server

namespace ojalvo

/-- The descriptors that are closed, in order. -/
def closed (effects : List Effect) : List Fd :=
  effects.filterMap fun effect =>
    match effect with
    | .close fd => some fd
    | _ => none

@[simp] theorem closed_nil : closed [] = [] := rfl

@[simp] theorem closed_send (fd : Fd) (message : Message) (sent : Bool) : closed [.send fd message sent] = [] := rfl

@[simp] theorem closed_close (fd : Fd) : closed [.close fd] = [fd] := rfl

@[simp] theorem closed_accept (fd : Fd) : closed [.accept fd] = [] := rfl

@[simp] theorem closed_append (first second : List Effect) : closed (first ++ second) = closed first ++ closed second :=
  List.filterMap_append ..

theorem mem_closed {effects : List Effect} {fd : Fd} : fd ∈ closed effects ↔ Effect.close fd ∈ effects := by
  simp only [closed, List.mem_filterMap]
  constructor
  · rintro ⟨effect, hmem, heq⟩
    split at heq
    · cases heq
      exact hmem
    · cases heq
  · exact fun hmem => ⟨_, hmem, rfl⟩

/-- Whether a descriptor is open after some effects. -/
def is_open (trace : List Effect) (fd : Fd) : Bool :=
  trace.foldl (fun opened effect =>
    match effect with
    | .accept other => if other = fd then true else opened
    | .close other => if other = fd then false else opened
    | .send .. => opened) false

section Open

variable {trace effects : List Effect} {fd : Fd}

@[simp] theorem is_open_append_send (other : Fd) (message : Message) (sent : Bool) :
    is_open (trace ++ [.send other message sent]) fd = is_open trace fd := by
  simp [is_open]

theorem is_open_accept (opened : Fd) : is_open (trace ++ [.accept opened]) fd = (opened = fd || is_open trace fd) := by
  by_cases hsame : opened = fd <;> simp [is_open, hsame]

/-- A descriptor stays open until it is closed. -/
theorem is_open_append (hopen : is_open trace fd = true) (hkept : Effect.close fd ∉ effects) :
    is_open (trace ++ effects) fd = true := by
  induction effects generalizing trace with
  | nil => simpa using hopen
  | cons effect rest ih =>
    have hrest : Effect.close fd ∉ rest := fun hmem => hkept (List.mem_cons_of_mem effect hmem)
    have hnow : is_open (trace ++ [effect]) fd = true := by
      cases effect with
      | accept other => simp [is_open_accept, hopen]
      | send other message sent => simpa using hopen
      | close other =>
        have hother : other ≠ fd := by
          rintro rfl
          exact hkept List.mem_cons_self
        simpa [is_open, hother] using hopen
    rw [List.append_cons]
    exact ih hnow hrest

/-- A descriptor that is closed stays so until it is handed out again. -/
theorem is_open_append_of_closed (hclosed : is_open trace fd = false) (hnew : Effect.accept fd ∉ effects) :
    is_open (trace ++ effects) fd = false := by
  induction effects generalizing trace with
  | nil => simpa using hclosed
  | cons effect rest ih =>
    have hrest : Effect.accept fd ∉ rest := fun hmem => hnew (List.mem_cons_of_mem effect hmem)
    have hnow : is_open (trace ++ [effect]) fd = false := by
      cases effect with
      | accept other =>
        have hother : other ≠ fd := by
          rintro rfl
          exact hnew List.mem_cons_self
        simp [is_open_accept, hclosed, hother]
      | send other message sent => simpa using hclosed
      | close other =>
        simp only [is_open, List.foldl_append, List.foldl_cons, List.foldl_nil] at hclosed ⊢
        split
        · rfl
        · exact hclosed
    rw [List.append_cons]
    exact ih hnow hrest

/-- Closing a descriptor leaves it closed. -/
theorem is_open_append_of_close (hclose : Effect.close fd ∈ effects) (hnew : Effect.accept fd ∉ effects) :
    is_open (trace ++ effects) fd = false := by
  obtain ⟨earlier, later, rfl⟩ := List.append_of_mem hclose
  have hlater : Effect.accept fd ∉ later := fun hmem => hnew (by simp [hmem])
  rw [List.append_cons, ← List.append_assoc]
  exact is_open_append_of_closed (by simp [is_open]) hlater

end Open

end ojalvo
