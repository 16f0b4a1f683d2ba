import OjalvoChat.Library.Run

/-- Something has begun in a run and has held ever since, through steps that keep
it. How it began may depend on the history before that step. -/
inductive Since {S : Type*} {L : Type*} (begins : List (S × L) → S → L → Prop) (keeps : S → L → Prop)
    (holds : S → Prop) :
    List (S × L) → S → Prop where
  | begin {history : List (S × L)} {before after : S} {label : L} :
    begins history before label → holds after → Since begins keeps holds ((before, label) :: history) after
  | last {history : List (S × L)} {before after : S} {label : L} :
    Since begins keeps holds history before → keeps before label → holds after →
    Since begins keeps holds ((before, label) :: history) after

namespace Since

variable {S : Type*} {L : Type*} {begins : List (S × L) → S → L → Prop} {keeps : S → L → Prop} {holds : S → Prop}
  {history : List (S × L)} {state : S}

theorem now (hsince : Since begins keeps holds history state) : holds state := by
  cases hsince with
  | begin hbegins hholds => exact hholds
  | last hbefore hkeeps hholds => exact hholds

/-- After a moment at which it did not hold, it has begun anew. -/
theorem begins_after {newer older : List (S × L)} {broken : S} {label : L}
    (hsince : Since begins keeps holds (newer ++ (broken, label) :: older) state) (hbroken : ¬ holds broken) :
    ∃ moment ∈ newer ++ [(broken, label)], ∃ earlier, begins earlier moment.1 moment.2 := by
  induction newer generalizing state with
  | nil =>
    cases hsince with
    | begin hbegins hholds => exact ⟨(broken, label), List.mem_cons_self, older, hbegins⟩
    | last hbefore hkeeps hholds => exact absurd hbefore.now hbroken
  | cons moment rest ih =>
    obtain ⟨before, step⟩ := moment
    cases hsince with
    | begin hbegins hholds => exact ⟨(before, step), List.mem_cons_self, _, hbegins⟩
    | last hbefore hkeeps hholds =>
      obtain ⟨start, hmem, hbegins⟩ := ih hbefore
      exact ⟨start, List.mem_cons_of_mem _ hmem, hbegins⟩

/-- A test on a history: something has begun and every step after it has kept it. -/
def test (begins keeps : S → L → Bool) (history : List (S × L)) : Bool :=
  match history with
  | [] => false
  | (before, label) :: older => begins before label || (keeps before label && test begins keeps older)

theorem of_test {starts goes : S → L → Bool} (hstarts : ∀ history before label, starts before label = true →
      begins history before label)
    (hgoes : ∀ before label, goes before label = true → keeps before label) (hholds : ∀ state, holds state)
    (htest : test starts goes history = true) : Since begins keeps holds history state := by
  induction history generalizing state with
  | nil => cases htest
  | cons moment older ih =>
    obtain ⟨before, label⟩ := moment
    rcases Bool.or_eq_true _ _ ▸ htest with hbegun | hkept
    · exact .begin (hstarts older before label hbegun) (hholds state)
    · obtain ⟨hgoing, holder⟩ := Bool.and_eq_true _ _ ▸ hkept
      exact .last (ih holder) (hgoes before label hgoing) (hholds state)

/-- As `test`, with a test of the states that follow each step. -/
def check (begins keeps : S → L → Bool) (holds : S → Bool) (history : List (S × L)) (state : S) : Bool :=
  match history with
  | [] => false
  | (before, label) :: older =>
    holds state && (begins before label || (keeps before label && check begins keeps holds older before))

end Since

section Runs

variable {S : Type*} {L : Type*} {step : S → L → S → Prop} {start state : S} {history : List (S × L)}
  {begins : List (S × L) → S → L → Prop} {keeps : S → L → Prop} {holds : S → Prop}

/-- What holds after a run, but not at its start, and after a step only if it
held before or began in that step, has held since it began. Only steps that meet a
condition need to be considered. -/
theorem Run.since_under {C : S → L → Prop} (hrun : Run step start history state)
    (hsteps : ∀ before label, (before, label) ∈ history → C before label) (hstart : ¬ holds start)
    (hstep : ∀ history before label after, Run step start history before → C before label → step before label after →
      holds after → (holds before ∧ keeps before label) ∨ begins history before label)
    (hholds : holds state) : Since begins keeps holds history state := by
  induction hrun with
  | start => exact absurd hholds hstart
  | step hprefix htaken ih =>
    rcases hstep _ _ _ _ hprefix (hsteps _ _ List.mem_cons_self) htaken hholds with ⟨hbefore, hkeeps⟩ | hbegins
    · have hearlier := fun before label hmem => hsteps before label (List.mem_cons_of_mem _ hmem)
      exact .last (ih hearlier hbefore) hkeeps hholds
    · exact .begin hbegins hholds

theorem Run.since (hrun : Run step start history state) (hstart : ¬ holds start)
    (hstep : ∀ history before label after, Run step start history before → step before label after → holds after →
      (holds before ∧ keeps before label) ∨ begins history before label)
    (hholds : holds state) : Since begins keeps holds history state :=
  hrun.since_under (C := fun _ _ => True) (fun _ _ _ => trivial) hstart
    (fun history before label after hprefix _ => hstep history before label after hprefix) hholds

/-- The test of the states finds what has held since it began in a run. -/
theorem Run.since_of_check {starts goes : S → L → Bool} {stays : S → Bool} (hrun : Run step start history state)
    (hstarts : ∀ history before label, Run step start history before → starts before label = true →
      begins history before label)
    (hgoes : ∀ before label, goes before label = true → keeps before label)
    (hstays : ∀ state, stays state = true → holds state) (hcheck : Since.check starts goes stays history state = true) :
    Since begins keeps holds history state := by
  induction hrun with
  | start => cases hcheck
  | step hprefix htaken ih =>
    obtain ⟨hstate, hpast⟩ := Bool.and_eq_true _ _ ▸ hcheck
    cases Bool.or_eq_true _ _ ▸ hpast with
    | inl hbegun => exact .begin (hstarts _ _ _ hprefix hbegun) (hstays _ hstate)
    | inr hkept =>
      obtain ⟨hgoing, hearlier⟩ := Bool.and_eq_true _ _ ▸ hkept
      exact .last (ih hearlier) (hgoes _ _ hgoing) (hstays _ hstate)

end Runs
