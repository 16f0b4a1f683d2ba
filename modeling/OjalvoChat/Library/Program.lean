import Mathlib.Logic.Relation

/-- Sequential code over a shared state, cut into actions that no other thread
interrupts. An action is a stateful computation that may stop the thread. -/
inductive Program (E S A : Type) : Type 1 where
  | ret (value : A) : Program E S A
  | act {B : Type} (body : EStateM E S B) (next : B → Program E S A) : Program E S A

namespace Program

variable {E S A B : Type}

@[simp] theorem run_map_action (f : A → B) (body : EStateM E S A) (state : S) :
    (f <$> body).run state =
      match body.run state with
      | .ok value state => .ok (f value) state
      | .error error state => .error error state := rfl

def bind (program : Program E S A) (next : A → Program E S B) : Program E S B :=
  match program with
  | .ret value => next value
  | .act body rest => .act body fun value => (rest value).bind next

instance : Monad (Program E S) where
  pure := .ret
  bind := bind

instance : MonadLift (EStateM E S) (Program E S) where
  monadLift body := .act body .ret

/-- All actions in a row, without another thread in between. -/
def run (program : Program E S A) (state : S) : EStateM.Result E S A :=
  match program with
  | .ret value => .ok value state
  | .act body next =>
    match body.run state with
    | .ok value state => (next value).run state
    | .error error state => .error error state

@[simp] theorem run_pure (value : A) (state : S) : (pure value : Program E S A).run state = .ok value state := rfl

@[simp] theorem run_lift (body : EStateM E S A) (state : S) :
    (liftM body : Program E S A).run state = body.run state := by
  change (act body ret).run state = _
  rw [run]
  cases body.run state <;> rfl

/-- Running a sequence is running its parts in sequence; an action that stops
the first part stops the whole. -/
@[simp] theorem run_bind (program : Program E S A) (next : A → Program E S B) (state : S) :
    (program >>= next).run state =
      match program.run state with
      | .ok value state => (next value).run state
      | .error error state => .error error state := by
  change (program.bind next).run state = _
  induction program generalizing state with
  | ret value => rfl
  | act body rest ih =>
    rw [bind, run, run]
    cases body.run state with
    | ok value current => exact ih value current
    | error error current => rfl

theorem bind_bind {C : Type} (program : Program E S A) (first : A → Program E S B) (second : B → Program E S C) :
    (program.bind first).bind second = program.bind fun value => (first value).bind second := by
  induction program with
  | ret value => rfl
  | act body next ih =>
    rw [bind, bind, bind]
    exact congrArg _ (funext ih)

theorem bind_ret (program : Program E S A) : program.bind .ret = program := by
  induction program with
  | ret value => rfl
  | act body next ih =>
    rw [bind]
    exact congrArg _ (funext ih)

instance : LawfulMonad (Program E S) := LawfulMonad.mk' (Program E S)
  (fun program => bind_ret program) (fun _ _ => rfl) bind_bind

@[simp] theorem run_map (f : A → B) (program : Program E S A) (state : S) :
    (f <$> program).run state =
      match program.run state with
      | .ok value state => .ok (f value) state
      | .error error state => .error error state := by
  rw [← bind_pure_comp, run_bind]
  rfl

/-- Every action of a program satisfies one condition and every result another. -/
def Each (P : ∀ {B : Type}, EStateM E S B → Prop) (Q : A → Prop) (program : Program E S A) : Prop :=
  match program with
  | .ret value => Q value
  | .act body next => P body ∧ ∀ value, (next value).Each P Q

/-- As `Each`, but one action of another kind may occur. -/
def Once (P C : ∀ {B : Type}, EStateM E S B → Prop) (Q : A → Prop) (program : Program E S A) : Prop :=
  match program with
  | .ret value => Q value
  | .act body next => (P body ∧ ∀ value, (next value).Once P C Q) ∨ (C body ∧ ∀ value, (next value).Each P Q)

section Conditions

variable {P C : ∀ {B : Type}, EStateM E S B → Prop} {Q : A → Prop} {R : B → Prop}

theorem each_pure {value : A} (hvalue : Q value) : (pure value : Program E S A).Each P Q := hvalue

/-- A program of one action. -/
theorem each_lift {body : EStateM E S A} (hbody : P body) (hvalues : ∀ value, Q value) :
    (liftM body : Program E S A).Each P Q := ⟨hbody, hvalues⟩

/-- The results of the first program may be used for the second. -/
theorem each_bind {program : Program E S A} {next : A → Program E S B} (hprogram : program.Each P Q)
    (hnext : ∀ value, Q value → (next value).Each P R) : (program >>= next).Each P R := by
  change (program.bind next).Each P R
  induction program with
  | ret value => exact hnext value hprogram
  | act body rest ih => exact ⟨hprogram.1, fun value => ih value (hprogram.2 value)⟩

/-- Results satisfy their condition. -/
theorem Each.result {program : Program E S A} (hprogram : program.Each P Q) {state after : S} {value : A}
    (hrun : program.run state = .ok value after) : Q value := by
  induction program generalizing state with
  | ret result =>
    cases hrun
    exact hprogram
  | act body next ih =>
    rw [run] at hrun
    cases hbody : body.run state with
    | error error stopped =>
      rw [hbody] at hrun
      cases hrun
    | ok middle between =>
      rw [hbody] at hrun
      exact ih middle (hprogram.2 middle) hrun

/-- What relates the states around every action relates those around the program. -/
theorem Each.related {R : S → S → Prop} (hrefl : ∀ state, R state state)
    (htrans : ∀ first second third, R first second → R second third → R first third)
    {program : Program E S A}
    (hprogram : program.Each (fun body => ∀ state value after, body.run state = .ok value after → R state after) Q)
    {state after : S} {value : A} (hrun : program.run state = .ok value after) : R state after := by
  induction program generalizing state with
  | ret result =>
    cases hrun
    exact hrefl _
  | act body next ih =>
    rw [run] at hrun
    cases hbody : body.run state with
    | error error stopped =>
      rw [hbody] at hrun
      cases hrun
    | ok middle between =>
      rw [hbody] at hrun
      exact htrans _ _ _ (hprogram.1 state middle between hbody) (ih middle (hprogram.2 middle) hrun)

theorem Each.once {program : Program E S A} (hprogram : program.Each P Q) : program.Once P C Q := by
  induction program with
  | ret value => exact hprogram
  | act body rest ih => exact Or.inl ⟨hprogram.1, fun value => ih value (hprogram.2 value)⟩

/-- A program of one action of the other kind. -/
theorem once_lift {body : EStateM E S A} (hbody : C body) (hvalues : ∀ value, Q value) :
    (liftM body : Program E S A).Once P C Q := Or.inr ⟨hbody, hvalues⟩

/-- The action of the other kind comes in the second part of a sequence. -/
theorem Each.once_bind {program : Program E S A} {next : A → Program E S B} (hprogram : program.Each P Q)
    (hnext : ∀ value, Q value → (next value).Once P C R) : (program >>= next).Once P C R := by
  change (program.bind next).Once P C R
  induction program with
  | ret value => exact hnext value hprogram
  | act body rest ih => exact Or.inl ⟨hprogram.1, fun value => ih value (hprogram.2 value)⟩

/-- The action of the other kind comes in the first part of a sequence. -/
theorem Once.bind {program : Program E S A} {next : A → Program E S B} (hprogram : program.Once P C Q)
    (hnext : ∀ value, Q value → (next value).Each P R) : (program >>= next).Once P C R := by
  change (program.bind next).Once P C R
  induction program with
  | ret value => exact (hnext value hprogram).once
  | act body rest ih =>
    rcases hprogram with ⟨hbody, hrest⟩ | ⟨hbody, hrest⟩
    · exact Or.inl ⟨hbody, fun value => ih value (hrest value)⟩
    · exact Or.inr ⟨hbody, fun value => each_bind (hrest value) hnext⟩

end Conditions

end Program
