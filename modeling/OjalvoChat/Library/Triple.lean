import OjalvoChat.Library.Program

namespace Program

variable {E S A B : Type}

/-- From a state that meets the first condition the program comes, if it comes to
its end, to a value and a state that meet the second. -/
def Ensures (before : S → Prop) (program : Program E S A) (afterwards : A → S → Prop) : Prop :=
  ∀ state value after, before state → program.run state = .ok value after → afterwards value after

section Rules

variable {before weaker : S → Prop} {middle : A → S → Prop} {afterwards : B → S → Prop}

/-- A result that is given at once has to meet the postcondition in every state of
the precondition. -/
theorem ensures_pure {value : B} (hvalue : ∀ state, before state → afterwards value state) :
    (pure value : Program E S B).Ensures before afterwards := by
  rintro state _ _ hbefore ⟨⟩
  exact hvalue state hbefore

theorem ensures_lift {body : EStateM E S A}
    (hbody : ∀ state value after, before state → body.run state = .ok value after → middle value after) :
    (liftM body : Program E S A).Ensures before middle := by
  intro state value after hbefore hrun
  rw [run_lift] at hrun
  exact hbody state value after hbefore hrun

/-- The rule for two programs in a row: the postcondition of the first is the
precondition of the second. -/
theorem Ensures.bind {program : Program E S A} {next : A → Program E S B} (hprogram : program.Ensures before middle)
    (hnext : ∀ value, (next value).Ensures (middle value) afterwards) :
    (program >>= next).Ensures before afterwards := by
  intro state value after hbefore hrun
  rw [run_bind] at hrun
  cases hfirst : program.run state with
  | error error stopped =>
    rw [hfirst] at hrun
    cases hrun
  | ok between current =>
    rw [hfirst] at hrun
    exact hnext between current value after (hprogram state between current hbefore hfirst) hrun

/-- In each branch the outcome of the test may be used. -/
theorem ensures_ite {test : Prop} [Decidable test] {first second : Program E S B}
    (hfirst : test → first.Ensures before afterwards) (hsecond : ¬ test → second.Ensures before afterwards) :
    (if test then first else second).Ensures before afterwards := by
  split
  · rename_i htest
    exact hfirst htest
  · rename_i htest
    exact hsecond htest

/-- A stronger precondition does as well. -/
theorem Ensures.weaken {program : Program E S B} (hprogram : program.Ensures weaker afterwards)
    (hweaker : ∀ state, before state → weaker state) : program.Ensures before afterwards :=
  fun state value after hbefore hrun => hprogram state value after (hweaker state hbefore) hrun

end Rules

end Program
