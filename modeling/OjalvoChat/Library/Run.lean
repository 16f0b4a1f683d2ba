import Mathlib.Data.List.Basic

/-- A finite run of a labelled transition relation. The history holds its steps,
newest first, each with the state in which it began. -/
inductive Run {S : Type*} {L : Type*} (step : S → L → S → Prop) (start : S) : List (S × L) → S → Prop where
  | start : Run step start [] start
  | step {history : List (S × L)} {before after : S} {label : L} :
    Run step start history before → step before label after → Run step start ((before, label) :: history) after

namespace Run

variable {S : Type*} {L : Type*} {step : S → L → S → Prop} {start state : S} {history : List (S × L)}

/-- What holds at the start and is kept by every step holds after every run. -/
theorem invariant {I : S → Prop} (hrun : Run step start history state) (hstart : I start)
    (hstep : ∀ before label after, I before → step before label after → I after) : I state := by
  induction hrun with
  | start => exact hstart
  | step _ htaken ih => exact hstep _ _ _ ih htaken

/-- As `invariant`, for a property of the state and of how it was reached. -/
theorem history_invariant {I : List (S × L) → S → Prop} (hrun : Run step start history state) (hstart : I [] start)
    (hstep : ∀ history before label after, Run step start history before → I history before →
      step before label after → I ((before, label) :: history) after) : I history state := by
  induction hrun with
  | start => exact hstart
  | step hprefix htaken ih => exact hstep _ _ _ _ hprefix ih htaken

/-- As `history_invariant`, when only steps that meet a condition keep the property. -/
theorem history_invariant_under {I : List (S × L) → S → Prop} {C : S → L → Prop} (hrun : Run step start history state)
    (hsteps : ∀ moment ∈ history, C moment.1 moment.2) (hstart : I [] start)
    (hstep : ∀ history before label after, I history before → C before label → step before label after →
      I ((before, label) :: history) after) : I history state := by
  induction hrun with
  | start => exact hstart
  | step _ htaken ih =>
    obtain ⟨hnow, hearlier⟩ := List.forall_mem_cons.mp hsteps
    exact hstep _ _ _ _ (ih hearlier) hnow htaken

/-- A run goes on with another run from where it has come to. -/
theorem trans {middle : S} {later : List (S × L)} (hfirst : Run step start history middle)
    (hsecond : Run step middle later state) : Run step start (later ++ history) state := by
  induction hsecond with
  | start => exact hfirst
  | step _ htaken ih => exact ih.step htaken

/-- A run has come through each of the steps in its history. -/
theorem split {middle : S} {label : L} {later earlier : List (S × L)}
    (hrun : Run step start (later ++ (middle, label) :: earlier) state) :
    ∃ after, Run step start earlier middle ∧ step middle label after ∧ Run step after later state := by
  induction later generalizing state with
  | nil =>
    cases hrun with
    | step hprefix htaken => exact ⟨state, hprefix, htaken, .start⟩
  | cons moment rest ih =>
    cases hrun with
    | step hprefix htaken =>
      obtain ⟨after, hearlier, hmiddle, hlater⟩ := ih hprefix
      exact ⟨after, hearlier, hmiddle, hlater.step htaken⟩

/-- As `invariant`, when only steps that meet a condition keep the property: it
holds wherever a step of the run began. -/
theorem invariant_under {I : S → Prop} {C : S → L → Prop} (hrun : Run step start history state)
    (hsteps : ∀ before label, (before, label) ∈ history → C before label) (hstart : I start)
    (hstep : ∀ before label after, I before → C before label → step before label after → I after) :
    I state ∧ ∀ before label, (before, label) ∈ history → I before ∧ ∃ after, step before label after := by
  induction hrun with
  | start => exact ⟨hstart, fun _ _ hmem => absurd hmem List.not_mem_nil⟩
  | step hprefix htaken ih =>
    obtain ⟨hbefore, hearlier⟩ := ih fun before label hmem => hsteps before label (List.mem_cons_of_mem _ hmem)
    refine ⟨hstep _ _ _ hbefore (hsteps _ _ List.mem_cons_self) htaken, fun before label hmem => ?_⟩
    rcases List.mem_cons.mp hmem with heq | hold
    · cases heq
      exact ⟨hbefore, _, htaken⟩
    · exact hearlier before label hold

/-- Steps taken in a row by a function, as far as they go, after an earlier part
of a run. -/
def follow (advance : S → L → Option S) (labels : List L) (history : List (S × L)) (state : S) :
    Option (List (S × L) × S) :=
  match labels with
  | [] => some (history, state)
  | label :: rest =>
    match advance state label with
    | some after => follow advance rest ((state, label) :: history) after
    | none => none

/-- Runs can be computed: a test of what some labels lead to finds a run. -/
theorem exists_of_follow {advance : S → L → Option S}
    (hadvance : ∀ before label after, advance before label = some after → step before label after)
    (labels : List L) (test : List (S × L) → S → Bool)
    (htest : (follow advance labels [] start).any (fun run => test run.1 run.2) = true) :
    ∃ history state, Run step start history state ∧ test history state = true := by
  suffices hgeneral : ∀ history state, Run step start history state →
      (follow advance labels history state).any (fun run => test run.1 run.2) = true →
      ∃ history state, Run step start history state ∧ test history state = true from
    hgeneral [] _ .start htest
  clear htest
  intro history state hrun htest
  induction labels generalizing history state with
  | nil => exact ⟨history, state, hrun, htest⟩
  | cons label rest ih =>
    unfold follow at htest
    cases hstep : advance state label with
    | none =>
      rw [hstep] at htest
      cases htest
    | some after =>
      rw [hstep] at htest
      exact ih _ after (hrun.step (hadvance state label after hstep)) htest

/-- What was computed from some labels is a run with these labels. -/
theorem run_of_follow {advance : S → L → Option S}
    (hadvance : ∀ before label after, advance before label = some after → step before label after) {labels : List L}
    (hrun : Run step start history state) {final : S} {later : List (S × L)}
    (hfollow : follow advance labels history state = some (later, final)) :
    Run step start later final ∧ later.map Prod.snd = labels.reverse ++ history.map Prod.snd := by
  induction labels generalizing history state with
  | nil =>
    cases hfollow
    exact ⟨hrun, rfl⟩
  | cons label rest ih =>
    unfold follow at hfollow
    cases hstep : advance state label with
    | none =>
      rw [hstep] at hfollow
      cases hfollow
    | some after =>
      rw [hstep] at hfollow
      obtain ⟨hlater, hlabels⟩ := ih (hrun.step (hadvance state label after hstep)) hfollow
      exact ⟨hlater, by rw [hlabels]; simp⟩

end Run
