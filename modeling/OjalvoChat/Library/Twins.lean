import OjalvoChat.Library.Program

section Twins

variable {E S A B C D : Type} {V : A → B → Prop} {W : C → D → Prop} {R : S → S → Prop}

/-- Two computations come to the same: both answer, or both stop for one reason. -/
inductive Alike (V : A → B → Prop) (R : S → S → Prop) : EStateM.Result E S A → EStateM.Result E S B → Prop where
  | ok {value : A} {other : B} {state twin : S} (hvalue : V value other) (hstate : R state twin) :
    Alike V R (.ok value state) (.ok other twin)
  | error {error : E} {state twin : S} (hstate : R state twin) : Alike V R (.error error state) (.error error twin)

/-- From related states two computations come to the same. -/
def Twins (V : A → B → Prop) (R : S → S → Prop) (body : EStateM E S A) (other : EStateM E S B) : Prop :=
  ∀ state twin, R state twin → Alike V R (body.run state) (other.run twin)

theorem twins_pure {value : A} {other : B} (hvalue : V value other) :
    Twins V R (pure value : EStateM E S A) (pure other) := fun _ _ hstate => .ok hvalue hstate

theorem Twins.bind {body : EStateM E S A} {other : EStateM E S B} {next : A → EStateM E S C} {then' : B → EStateM E S D}
    (hbody : Twins V R body other) (hnext : ∀ value twin, V value twin → Twins W R (next value) (then' twin)) :
    Twins W R (body >>= next) (other >>= then') := by
  intro state twin hstate
  have hfirst := hbody state twin hstate
  rw [EStateM.run_bind, EStateM.run_bind]
  generalize body.run state = outcome at hfirst
  generalize other.run twin = shadow at hfirst
  cases hfirst with
  | ok hvalue hafter => exact hnext _ _ hvalue _ _ hafter
  | error hafter => exact .error hafter

end Twins

namespace Program

variable {E S A B C : Type} {I : S → Prop} {R : S → S → Prop}

/-- Two programs that go the same way, action by action, from related states of
which the first is of a kind. -/
inductive Pairs (I : S → Prop) (R : S → S → Prop) : Program E S A → Program E S A → Prop where
  | ret (value : A) : Pairs I R (.ret value) (.ret value)
  | act {B C : Type} {body : EStateM E S B} {other : EStateM E S C} {next : B → Program E S A}
    {then' : C → Program E S A} (V : B → C → Prop)
    (hbody : ∀ state twin, I state → R state twin → Alike V R (body.run state) (other.run twin))
    (hnext : ∀ value twin, V value twin → Pairs I R (next value) (then' twin)) :
    Pairs I R (.act body next) (.act other then')

theorem Pairs.bind {program other : Program E S A} {next then' : A → Program E S B} (hpairs : Pairs I R program other)
    (hnext : ∀ value, Pairs I R (next value) (then' value)) : Pairs I R (program >>= next) (other >>= then') := by
  induction hpairs with
  | ret value => exact hnext value
  | act V hbody _ ih => exact .act V hbody ih

/-- An action that two programs share. -/
theorem pairs_action {body : EStateM E S B} {next then' : B → Program E S A} (hbody : Twins Eq R body body)
    (hnext : ∀ value, Pairs I R (next value) (then' value)) :
    Pairs I R (liftM body >>= next : Program E S A) (liftM body >>= then') := by
  refine .act Eq (fun state twin _ => hbody state twin) ?_
  rintro value _ rfl
  exact hnext value

/-- Two actions that give related answers. -/
theorem pairs_actions {V : B → C → Prop} {body : EStateM E S B} {other : EStateM E S C} {next : B → Program E S A}
    {then' : C → Program E S A} (hbody : Twins V R body other)
    (hnext : ∀ value twin, V value twin → Pairs I R (next value) (then' twin)) :
    Pairs I R (liftM body >>= next : Program E S A) (liftM other >>= then') :=
  .act V (fun state twin _ => hbody state twin) hnext

/-- A program whose every action comes to the same pairs with itself. -/
theorem Each.pairs {Q : A → Prop} {program : Program E S A}
    (heach : program.Each
      (fun body => ∀ state twin, I state → R state twin → Alike Eq R (body.run state) (body.run twin)) Q) :
    Pairs I R program program := by
  induction program with
  | ret value => exact .ret value
  | act body next ih =>
    refine .act Eq heach.1 ?_
    rintro value _ rfl
    exact ih value (heach.2 value)

/-- Without an interruption the two come to the same. -/
theorem Pairs.run {program other : Program E S A} (hpairs : Pairs (fun _ => True) R program other) :
    Twins Eq R program.run other.run := by
  induction hpairs with
  | ret value => exact fun _ _ hstate => .ok rfl hstate
  | @act B C body other next then' V hbody _ ih =>
    intro state twin hstate
    have hfirst := hbody state twin trivial hstate
    change Alike Eq R ((Program.act body next).run state) ((Program.act other then').run twin)
    rw [Program.run, Program.run]
    generalize body.run state = outcome at hfirst
    generalize other.run twin = shadow at hfirst
    cases hfirst with
    | ok hvalue hafter => exact ih _ _ hvalue _ _ hafter
    | error hafter => exact .error hafter

end Program
