import Mathlib.Init

section Oblivious

variable {E S T A B : Type} {put : T → S → S}

/-- An outcome, with its state changed. -/
def onState (change : S → S) (outcome : EStateM.Result E S A) : EStateM.Result E S A :=
  match outcome with
  | .ok value state => .ok value (change state)
  | .error error state => .error error (change state)

/-- A computation that neither reads nor changes a part of the state: with another
part put there it does the same, and leaves that part in its place. -/
def Oblivious (put : T → S → S) (body : EStateM E S A) : Prop :=
  ∀ part state, body.run (put part state) = onState (put part) (body.run state)

theorem oblivious_pure (value : A) : Oblivious put (pure value : EStateM E S A) := fun _ _ => rfl

theorem Oblivious.bind {body : EStateM E S A} {next : A → EStateM E S B} (hbody : Oblivious put body)
    (hnext : ∀ value, Oblivious put (next value)) : Oblivious put (body >>= next) := by
  intro part state
  rw [EStateM.run_bind, EStateM.run_bind, hbody part state]
  cases body.run state with
  | ok value after => exact hnext value part after
  | error error after => rfl

/-- What follows a look at the state may only depend on the rest of it. -/
theorem oblivious_get_bind {next : S → EStateM E S A} (hsame : ∀ part state, next (put part state) = next state)
    (hnext : ∀ state, Oblivious put (next state)) : Oblivious put (get >>= next) := by
  intro part state
  rw [EStateM.run_bind, EStateM.run_bind]
  change (next (put part state)).run (put part state) = _
  rw [hsame]
  exact hnext state part state

end Oblivious
