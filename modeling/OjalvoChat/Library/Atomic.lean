import OjalvoChat.Library.Program

namespace Program

variable {E S A B : Type} {I : S → Prop}

/-- From all states of a kind the program takes the same course, and only reads. -/
def Settles (I : S → Prop) (program : Program E S A) : Prop :=
  match program with
  | .ret _ => True
  | .act body next => ∃ value, (∀ state, I state → body.run state = .ok value state) ∧ (next value).Settles I

/-- As `Settles`, but one action may change the state, to another of the kind. -/
def Commits (I : S → Prop) (program : Program E S A) : Prop :=
  match program with
  | .ret _ => True
  | .act body next =>
    (∃ value, (∀ state, I state → body.run state = .ok value state) ∧ (next value).Commits I) ∨
      ∀ state, I state → ∃ value after, body.run state = .ok value after ∧ I after ∧ (next value).Settles I

theorem Settles.run {program : Program E S A} (hsettles : program.Settles I) {state : S} (hstate : I state) :
    ∃ value, program.run state = .ok value state := by
  induction program with
  | ret value => exact ⟨value, rfl⟩
  | act body next ih =>
    obtain ⟨value, hbody, hnext⟩ := hsettles
    rw [Program.run, hbody state hstate]
    exact ih value hnext

theorem Settles.commits {program : Program E S A} (hsettles : program.Settles I) : program.Commits I := by
  induction program with
  | ret value => trivial
  | act body next ih =>
    obtain ⟨value, hbody, hnext⟩ := hsettles
    exact Or.inl ⟨value, hbody, ih value hnext⟩

theorem Settles.bind {program : Program E S A} {next : A → Program E S B} (hsettles : program.Settles I)
    (hnext : ∀ value, (next value).Settles I) : (program >>= next).Settles I := by
  change (program.bind next).Settles I
  induction program with
  | ret value => exact hnext value
  | act body rest ih =>
    obtain ⟨value, hbody, hrest⟩ := hsettles
    exact ⟨value, hbody, ih value hrest⟩

theorem Commits.bind {program : Program E S A} {next : A → Program E S B} (hcommits : program.Commits I)
    (hnext : ∀ value, (next value).Settles I) : (program >>= next).Commits I := by
  change (program.bind next).Commits I
  induction program with
  | ret value => exact (hnext value).commits
  | act body rest ih =>
    rcases hcommits with ⟨value, hbody, hrest⟩ | hvisible
    · exact Or.inl ⟨value, hbody, ih value hrest⟩
    · refine Or.inr fun state hstate => ?_
      obtain ⟨value, after, hbody, hafter, hrest⟩ := hvisible state hstate
      exact ⟨value, after, hbody, hafter, hrest.bind hnext⟩

/-- The rule for an action that only reads. -/
theorem commits_read {body : EStateM E S B} {next : B → Program E S A} (value : B)
    (hbody : ∀ state, I state → body.run state = .ok value state) (hnext : (next value).Commits I) :
    (liftM body >>= next : Program E S A).Commits I := Or.inl ⟨value, hbody, hnext⟩

/-- The rule for the action that counts. -/
theorem commits_visible {body : EStateM E S B} {next : B → Program E S A}
    (hbody : ∀ state, I state → ∃ value after, body.run state = .ok value after ∧ I after ∧ (next value).Settles I) :
    (liftM body >>= next : Program E S A).Commits I := Or.inr hbody

/-- Where a program that commits stands after one action: before the action that
counts it comes to the same as before, and after it nothing more changes. -/
theorem Commits.act {body : EStateM E S B} {next : B → Program E S A} (hcommits : (act body next).Commits I)
    {state after : S} (hstate : I state) {value : B} (hrun : body.run state = .ok value after) :
    (after = state ∧ (next value).Commits I ∧ ∀ other, I other → (next value).run other = (act body next).run other) ∨
      (I after ∧ (next value).Settles I ∧ ∃ result, (act body next).run state = .ok result after) := by
  rcases hcommits with ⟨answer, hbody, hnext⟩ | hvisible
  · have hread := hbody state hstate
    rw [hrun] at hread
    cases hread
    refine Or.inl ⟨rfl, hnext, fun other hother => ?_⟩
    rw [Program.run, hbody other hother]
  · obtain ⟨answer, later, hbody, hlater, hnext⟩ := hvisible state hstate
    rw [hrun] at hbody
    cases hbody
    obtain ⟨result, hrest⟩ := hnext.run hlater
    exact Or.inr ⟨hlater, hnext, result, by rw [Program.run, hrun]; exact hrest⟩

end Program
