import Mathlib.Logic.Function.Basic

/-- The progress of a thread that looks whether something is free, and that takes
it in a later step if it was. It misses it if somebody has taken it in between. -/
inductive Stage where
  | checking
  | adding
  | winning
  | won
  | losing
  | lost
  | missed
deriving DecidableEq

namespace Stage

/-- The thread has taken the thing. -/
def Holds (stage : Stage) : Prop := stage = .winning ∨ stage = .won

/-- The thread has nothing left to do. -/
def Final (stage : Stage) : Prop := stage = .won ∨ stage = .lost ∨ stage = .missed

/-- One step of a thread, and whether the thing is taken before it and after it. -/
inductive Step : Bool → Stage → Stage → Bool → Prop where
  | stay (taken : Bool) (stage : Stage) : Step taken stage stage taken
  | find_free : Step false .checking .adding false
  | find_taken : Step true .checking .losing true
  | take : Step false .adding .winning true
  | miss : Step true .adding .missed true
  | confirm (taken : Bool) : Step taken .winning .won taken
  | refuse (taken : Bool) : Step taken .losing .lost taken

/-- Who has taken the thing keeps it. -/
theorem Step.holds {taken after : Bool} {stage later : Stage} (hstep : Step taken stage later after)
    (hholds : stage.Holds) : later.Holds := by
  rcases hholds with rfl | rfl
  · cases hstep with
    | stay => exact Or.inl rfl
    | confirm => exact Or.inr rfl
  · cases hstep with
    | stay => exact Or.inr rfl

theorem Step.takes {stage later : Stage} (hstep : Step false stage later true) : stage = .adding := by
  cases hstep with
  | take => rfl

end Stage

/-- Threads that compete for one thing: it is taken if and only if one of them
holds it, and whoever is past adding knows that it is. -/
structure Contest {I : Type*} (taken : Bool) (stage : I → Stage) : Prop where
  held : taken = true → ∃ i, (stage i).Holds
  known : ∀ i, stage i = .checking ∨ stage i = .adding ∨ taken = true
  sole : ∀ i j, (stage i).Holds → (stage j).Holds → i = j

namespace Contest

variable {I : Type*} {taken after : Bool} {stage : I → Stage}

theorem start (hstart : ∀ i, stage i = .checking) : Contest false stage where
  held htaken := by cases htaken
  known i := Or.inl (hstart i)
  sole i _ hholds _ := by
    rw [hstart i] at hholds
    rcases hholds with heq | heq <;> cases heq

/-- Whoever takes the thing is the first to hold it. -/
theorem not_holds_of_free (hcontest : Contest false stage) (i : I) : ¬ (stage i).Holds := by
  rcases hcontest.known i with heq | heq | heq
  · rw [heq]
    rintro (h | h) <;> cases h
  · rw [heq]
    rintro (h | h) <;> cases h
  · cases heq

theorem step [DecidableEq I] (hcontest : Contest taken stage) {i : I} {later : Stage}
    (hstep : Stage.Step taken (stage i) later after) : Contest after (Function.update stage i later) := by
  have hother : ∀ {j : I}, j ≠ i → Function.update stage i later j = stage j :=
    fun hne => Function.update_of_ne hne _ _
  -- A step without a change of hands.
  have hkept : after = taken → (later.Holds ↔ (stage i).Holds) →
      (later = .checking ∨ later = .adding ∨ taken = true) → Contest after (Function.update stage i later) := by
    rintro rfl hsame hknown
    have hholds : ∀ j, (Function.update stage i later j).Holds ↔ (stage j).Holds := by
      intro j
      by_cases hj : j = i
      · rw [hj, Function.update_self, hsame]
      · rw [hother hj]
    constructor
    · intro htaken
      obtain ⟨j, hj⟩ := hcontest.held htaken
      exact ⟨j, (hholds j).mpr hj⟩
    · intro j
      by_cases hj : j = i
      · rwa [hj, Function.update_self]
      · rw [hother hj]
        exact hcontest.known j
    · exact fun j k hj hk => hcontest.sole j k ((hholds j).mp hj) ((hholds k).mp hk)
  generalize hbefore : stage i = before at hstep hkept
  cases hstep with
  | stay => exact hkept rfl Iff.rfl (hbefore ▸ hcontest.known i)
  | find_free => exact hkept rfl (by simp [Stage.Holds]) (Or.inr (Or.inl rfl))
  | find_taken => exact hkept rfl (by simp [Stage.Holds]) (Or.inr (Or.inr rfl))
  | miss => exact hkept rfl (by simp [Stage.Holds]) (Or.inr (Or.inr rfl))
  | confirm =>
    refine hkept rfl (by simp [Stage.Holds]) (Or.inr (Or.inr ?_))
    simpa [hbefore] using hcontest.known i
  | refuse =>
    refine hkept rfl (by simp [Stage.Holds]) (Or.inr (Or.inr ?_))
    simpa [hbefore] using hcontest.known i
  | take =>
    have hsole : ∀ j, (Function.update stage i .winning j).Holds → j = i := by
      intro j hj
      by_contra hne
      rw [hother hne] at hj
      exact hcontest.not_holds_of_free j hj
    refine ⟨fun _ => ⟨i, ?_⟩, fun _ => Or.inr (Or.inr rfl), fun j k hj hk => (hsole j hj).trans (hsole k hk).symm⟩
    rw [Function.update_self]
    exact Or.inl rfl

/-- When all have finished, one of them has won and all others have lost, unless
somebody has missed. -/
theorem decided_iff (hcontest : Contest taken stage) {contenders : List I} (hsome : contenders ≠ [])
    (houtside : ∀ i, i ∉ contenders → stage i = .checking) (hfinal : ∀ i ∈ contenders, (stage i).Final) :
    (∃ winner ∈ contenders, stage winner = .won ∧ ∀ other ∈ contenders, other ≠ winner → stage other = .lost) ↔
      ∀ i ∈ contenders, stage i ≠ .missed := by
  constructor
  · rintro ⟨winner, -, hwon, hothers⟩ i hmem hmissed
    by_cases hwinner : i = winner
    · rw [hwinner, hwon] at hmissed
      cases hmissed
    · rw [hothers i hmem hwinner] at hmissed
      cases hmissed
  · intro hnone
    have htaken : taken = true := by
      obtain ⟨i, hi⟩ := List.exists_mem_of_ne_nil contenders hsome
      rcases hcontest.known i with heq | heq | heq
      · rcases hfinal i hi with h | h | h <;> rw [h] at heq <;> cases heq
      · rcases hfinal i hi with h | h | h <;> rw [h] at heq <;> cases heq
      · exact heq
    obtain ⟨winner, hholds⟩ := hcontest.held htaken
    have hmem : winner ∈ contenders := by
      by_contra hout
      rw [houtside winner hout] at hholds
      rcases hholds with h | h <;> cases h
    have hwon : stage winner = .won := by
      rcases hfinal winner hmem with h | h | h
      · exact h
      · rw [h] at hholds
        rcases hholds with h | h <;> cases h
      · exact absurd h (hnone winner hmem)
    refine ⟨winner, hmem, hwon, fun other hother hne => ?_⟩
    rcases hfinal other hother with h | h | h
    · exact absurd (hcontest.sole other winner (Or.inr h) hholds) hne
    · exact h
    · exact absurd h (hnone other hother)

end Contest
