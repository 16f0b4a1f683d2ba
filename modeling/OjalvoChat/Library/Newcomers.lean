import Mathlib.Data.Set.Insert

/-! Reading a list up to the first element that is known already, from the start
or from earlier in the list. -/

variable {A : Type*}

open Classical in
/-- The elements that are read. -/
noncomputable def newcomers (known : Set A) (elements : List A) : List A :=
  match elements with
  | [] => []
  | element :: rest => if element ∈ known then [] else element :: newcomers (insert element known) rest

/-- In the list nobody new comes after somebody known. -/
def NewcomersFirst (known : Set A) (elements : List A) : Prop :=
  ∀ before element after, elements = before ++ element :: after → element ∈ known ∨ element ∈ before →
    ∀ other ∈ after, other ∈ known ∨ other ∈ before

section Newcomers

variable {known : Set A} {element : A} {rest elements : List A}

@[simp] theorem newcomers_nil : newcomers known [] = [] := rfl

@[simp] theorem newcomers_cons_of_mem (hknown : element ∈ known) : newcomers known (element :: rest) = [] := by
  rw [newcomers, if_pos hknown]

@[simp] theorem newcomers_cons_of_notMem (hnew : element ∉ known) :
    newcomers known (element :: rest) = element :: newcomers (insert element known) rest := by
  rw [newcomers, if_neg hnew]

/-- Newcomers are in the list. -/
theorem mem_of_mem_newcomers {other : A} (hmem : other ∈ newcomers known elements) : other ∈ elements := by
  induction elements generalizing known with
  | nil => exact hmem
  | cons element rest ih =>
    by_cases hknown : element ∈ known
    · rw [newcomers_cons_of_mem hknown] at hmem
      cases hmem
    · rw [newcomers_cons_of_notMem hknown] at hmem
      rcases List.mem_cons.mp hmem with rfl | hlater
      · exact List.mem_cons_self
      · exact List.mem_cons_of_mem element (ih hlater)

/-- Newcomers are not known before. -/
theorem notMem_of_mem_newcomers {other : A} (hmem : other ∈ newcomers known elements) : other ∉ known := by
  induction elements generalizing known with
  | nil => cases hmem
  | cons element rest ih =>
    by_cases hknown : element ∈ known
    · rw [newcomers_cons_of_mem hknown] at hmem
      cases hmem
    · rw [newcomers_cons_of_notMem hknown] at hmem
      rcases List.mem_cons.mp hmem with rfl | hlater
      · exact hknown
      · exact fun hother => ih hlater (Set.mem_insert_of_mem element hother)

/-- After somebody known nobody new may come. -/
theorem newcomersFirst_cons_of_mem (hknown : element ∈ known) :
    NewcomersFirst known (element :: rest) ↔ ∀ other ∈ rest, other ∈ known := by
  constructor
  · intro hfirst other hother
    simpa using hfirst [] element rest rfl (Or.inl hknown) other hother
  · intro hall before element after heq _ other hother
    left
    cases before with
    | nil =>
      cases heq
      exact hall other hother
    | cons first before =>
      obtain ⟨-, rfl⟩ := List.cons.inj heq
      exact hall other (by simp [hother])

/-- After a newcomer the newcomer is known. -/
theorem newcomersFirst_cons_of_notMem (hnew : element ∉ known) :
    NewcomersFirst known (element :: rest) ↔ NewcomersFirst (insert element known) rest := by
  have hmove : ∀ (other : A) before, other ∈ known ∨ other ∈ element :: before ↔
      other ∈ insert element known ∨ other ∈ before := by
    intro other before
    rw [List.mem_cons, Set.mem_insert_iff, or_left_comm, or_assoc]
  constructor
  · intro hfirst before found after heq hfound other hother
    rw [← hmove]
    exact hfirst (element :: before) found after (by rw [heq]; rfl) ((hmove found before).mpr hfound) other hother
  · intro hfirst before found after heq hfound other hother
    cases before with
    | nil =>
      obtain ⟨rfl, -⟩ := List.cons.inj heq
      exact absurd (hfound.resolve_right List.not_mem_nil) hnew
    | cons first before =>
      obtain ⟨rfl, hrest⟩ := List.cons.inj heq
      rw [hmove] at hfound ⊢
      exact hfirst before found after hrest hfound other hother

/-- Everybody is known in the end just when the newcomers come first. -/
theorem newcomersFirst_iff :
    NewcomersFirst known elements ↔ ∀ element ∈ elements, element ∈ known ∨ element ∈ newcomers known elements := by
  induction elements generalizing known with
  | nil =>
    refine iff_of_true (fun before element after heq => ?_) (List.forall_mem_nil _)
    exact absurd heq.symm (by simp)
  | cons element rest ih =>
    by_cases hknown : element ∈ known
    · simp [newcomersFirst_cons_of_mem hknown, newcomers_cons_of_mem hknown, hknown]
    · rw [newcomersFirst_cons_of_notMem hknown, newcomers_cons_of_notMem hknown, ih, List.forall_mem_cons]
      simp only [Set.mem_insert_iff, List.mem_cons, true_or, or_true, true_and]
      exact forall₂_congr fun other _ => by rw [or_left_comm, or_assoc]

end Newcomers
