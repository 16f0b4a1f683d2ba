import Mathlib.Data.List.Basic
import Mathlib.Order.WellFounded
import OjalvoChat.Library.Program

section Processes

variable {P : Type*} {smaller : P → P → Prop}

/-- One of several processes takes a step, to a smaller state. -/
inductive Advances (smaller : P → P → Prop) : List P → List P → Prop where
  | here {before after : P} {others : List P} (hsmaller : smaller after before) :
    Advances smaller (after :: others) (before :: others)
  | later {first : P} {before after : List P} (hadvances : Advances smaller after before) :
    Advances smaller (first :: after) (first :: before)

theorem advances_of_set {processes : List P} {index : Nat} {before after : P}
    (hbefore : processes[index]? = some before) (hsmaller : smaller after before) :
    Advances smaller (processes.set index after) processes := by
  induction processes generalizing index with
  | nil => cases hbefore
  | cons first others ih =>
    cases index with
    | zero =>
      cases hbefore
      exact .here hsmaller
    | succ index => exact .later (ih hbefore)

/-- Several processes of which each comes to an end come to an end together,
whatever their order. -/
theorem acc_advances {processes : List P} (hprocesses : ∀ process ∈ processes, Acc smaller process) :
    Acc (Advances smaller) processes := by
  induction processes with
  | nil => exact .intro [] (by rintro after ⟨⟩)
  | cons first others ih =>
    obtain ⟨hfirst, hothers⟩ := List.forall_mem_cons.mp hprocesses
    have hrest := ih hothers
    clear hprocesses hothers ih
    -- either the first process moves on, or one of the others does
    induction hfirst generalizing others with
    | intro first _ ihfirst =>
      induction hrest with
      | intro others hothers ihrest =>
        refine .intro _ fun after hafter => ?_
        cases hafter with
        | here hsmaller => exact ihfirst _ hsmaller _ (.intro others hothers)
        | later hadvances => exact ihrest _ hadvances

/-- A state from which every way comes to an end begins no infinite schedule. -/
theorem not_exists_schedule {start : P} (hacc : Acc smaller start) :
    ¬ ∃ schedule : Nat → P, schedule 0 = start ∧ ∀ moment, smaller (schedule (moment + 1)) (schedule moment) :=
  fun hschedule => not_acc_iff_exists_descending_chain.mpr hschedule hacc

end Processes

namespace Program

variable {E S A : Type}

/-- What remains of a program after its next action, or nothing once it has
returned. -/
inductive Remains : Option (Program E S A) → Option (Program E S A) → Prop where
  | finish (value : A) : Remains none (some (.ret value))
  | act {B : Type} (body : EStateM E S B) (next : B → Program E S A) (value : B) :
    Remains (some (next value)) (some (.act body next))

theorem acc_remains (left : Option (Program E S A)) : Acc Remains left := by
  have hnone : Acc Remains (none : Option (Program E S A)) := .intro none (by rintro after ⟨⟩)
  cases left with
  | none => exact hnone
  | some program =>
    induction program with
    | ret value =>
      refine .intro _ fun after hafter => ?_
      cases hafter
      exact hnone
    | act body next ih =>
      refine .intro _ fun after hafter => ?_
      cases hafter with
      | act _ _ value => exact ih value

end Program
