import OjalvoChat.Library.Program

namespace Program

variable {E S A B : Type}

/-- Whatever its actions answer, the program performs an action of some kind. -/
def Must (P : ∀ {B : Type}, EStateM E S B → Prop) (program : Program E S A) : Prop :=
  match program with
  | .ret _ => False
  | .act body next => P body ∨ ∀ value, (next value).Must P

/-- Some answers lead the program to an action of some kind. -/
def May (P : ∀ {B : Type}, EStateM E S B → Prop) (program : Program E S A) : Prop :=
  match program with
  | .ret _ => False
  | .act body next => P body ∨ ∃ value, (next value).May P

/-- The next action is of some kind. -/
def Next (P : ∀ {B : Type}, EStateM E S B → Prop) (program : Program E S A) : Prop :=
  match program with
  | .ret _ => False
  | .act body _ => P body

/-- A test: the next action leads to a state of some kind, if it does not fail. -/
def leads_to (test : S → Bool) (state : S) (program : Program E S A) : Bool :=
  match program with
  | .ret _ => true
  | .act body _ =>
    match body.run state with
    | .ok _ after => test after
    | .error _ _ => true

/-- Only actions of one kind come before an action of another kind, if any comes. -/
def Until (P C : ∀ {B : Type}, EStateM E S B → Prop) (program : Program E S A) : Prop :=
  match program with
  | .ret _ => True
  | .act body next => C body ∨ (P body ∧ ∀ value, (next value).Until P C)

section Prospects

variable {P : ∀ {B : Type}, EStateM E S B → Prop}

/-- What the second part of a sequence must do in any case, the whole must do. -/
theorem must_bind {program : Program E S B} {next : B → Program E S A} (hnext : ∀ value, (next value).Must P) :
    (program >>= next).Must P := by
  change (program.bind next).Must P
  induction program with
  | ret value => exact hnext value
  | act body rest ih => exact Or.inr ih

/-- The next action is not of a kind that leads elsewhere. -/
theorem not_next_of_leads_to {program : Program E S A} {test : S → Bool} {state : S}
    (htest : program.leads_to test state = true)
    (hfails : ∀ {B : Type} (body : EStateM E S B), P body →
      ∃ value after, body.run state = .ok value after ∧ test after = false) :
    ¬ program.Next P := by
  cases program with
  | ret value => exact id
  | act body next =>
    intro hnext
    obtain ⟨value, after, hrun, hfailed⟩ := hfails body hnext
    rw [leads_to, hrun] at htest
    exact Bool.false_ne_true (hfailed.symm.trans htest)

end Prospects

/-- What a thread, at a point of its code that a ghost value describes, may rely on
about the shared state, what it may do to it, how it may get stuck, and what its
remaining program has to satisfy. -/
structure Plan (E S A G : Type) where
  proper : G → S → Prop
  pledge : G → Program E S A → Prop
  takes : G → Program E S A → S → S → G → Prop
  jams : E → S → S → Prop

/-- A program that keeps to a plan, whatever other threads do to the shared state
between its actions, as long as they leave it what it relies on. -/
def Follows {G : Type} (plan : Plan E S A G) (ghost : G) (program : Program E S A) : Prop :=
  match program with
  | .ret value => plan.pledge ghost (.ret value)
  | .act body next =>
    plan.pledge ghost (.act body next) ∧ ∀ state, plan.proper ghost state →
      match body.run state with
      | .ok value after =>
        ∃ later, plan.takes ghost (.act body next) state after later ∧ (next value).Follows plan later
      | .error error after => plan.jams error state after

section Follows

variable {G : Type} {plan : Plan E S A G} {ghost : G}

theorem Follows.pledged {program : Program E S A} (hfollows : program.Follows plan ghost) :
    plan.pledge ghost program := by
  cases program with
  | ret value => exact hfollows
  | act body next => exact hfollows.1

/-- The rule for one action. -/
theorem follows_lift_bind {body : EStateM E S B} {next : B → Program E S A}
    (hpledge : plan.pledge ghost (liftM body >>= next))
    (hbody : ∀ state, plan.proper ghost state →
      match body.run state with
      | .ok value after =>
        ∃ later, plan.takes ghost (liftM body >>= next) state after later ∧ (next value).Follows plan later
      | .error error after => plan.jams error state after) :
    (liftM body >>= next : Program E S A).Follows plan ghost := ⟨hpledge, hbody⟩

end Follows

end Program
