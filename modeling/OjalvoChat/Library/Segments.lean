import Mathlib.Data.List.Basic

/-- The segments of a stream that a separator ends, in order and without it, and
the unfinished rest. -/
def segments {A : Type*} [DecidableEq A] (separator : A) (stream : List A) : List (List A) × List A :=
  match stream with
  | [] => ([], [])
  | first :: rest =>
    let later := segments separator rest
    if first = separator then ([] :: later.1, later.2)
    else
      match later.1 with
      | [] => ([], first :: later.2)
      | segment :: others => ((first :: segment) :: others, later.2)

namespace Segments

variable {A : Type*} [DecidableEq A] (separator : A) {segment tail rest : List A}

variable {separator} in
theorem segments_of_free (hfree : separator ∉ tail) : segments separator tail = ([], tail) := by
  induction tail with
  | nil => rfl
  | cons first rest ih =>
    obtain ⟨hne, hrest⟩ := not_or.mp (List.mem_cons.not.mp hfree)
    rw [segments, ih hrest]
    exact if_neg (Ne.symm hne)

variable {separator} in
/-- One segment with its separator, and whatever follows. -/
theorem segments_cons (hfree : separator ∉ segment) :
    segments separator (segment ++ separator :: rest) =
      (segment :: (segments separator rest).1, (segments separator rest).2) := by
  induction segment with
  | nil => simp [segments]
  | cons first others ih =>
    obtain ⟨hne, hothers⟩ := not_or.mp (List.mem_cons.not.mp hfree)
    rw [List.cons_append, segments, ih hothers]
    exact if_neg (Ne.symm hne)

variable {separator} in
/-- A stream has one first segment. -/
theorem append_cons_inj {other later : List A} (hfree : separator ∉ segment) (hother : separator ∉ other)
    (hsame : segment ++ separator :: rest = other ++ separator :: later) : segment = other ∧ rest = later := by
  have hsegments := congrArg (fun stream => (segments separator stream).1) hsame
  simp only [segments_cons hfree, segments_cons hother] at hsegments
  obtain rfl := (List.cons.inj hsegments).1
  exact ⟨rfl, (List.cons.inj (List.append_cancel_left hsame)).2⟩

/-- Segments and rest give the stream back. -/
theorem flatMap_segments (stream : List A) :
    ((segments separator stream).1.flatMap fun segment => segment ++ [separator]) ++ (segments separator stream).2 =
      stream := by
  induction stream with
  | nil => rfl
  | cons first rest ih =>
    rw [segments]
    split
    · rename_i hsame
      simpa [hsame] using ih
    · cases hcomplete : (segments separator rest).1 with
      | nil => simpa [hcomplete] using ih
      | cons segment others => simpa [hcomplete] using ih

/-- No segment holds the separator, nor does the rest. -/
theorem free_of_segments (stream : List A) :
    (∀ segment ∈ (segments separator stream).1, separator ∉ segment) ∧ separator ∉ (segments separator stream).2 := by
  induction stream with
  | nil => simp [segments]
  | cons first rest ih =>
    obtain ⟨hcomplete, htail⟩ := ih
    rw [segments]
    split
    · exact ⟨by simpa using hcomplete, htail⟩
    · rename_i hne
      cases hsplit : (segments separator rest).1 with
      | nil => simp [htail, Ne.symm hne]
      | cons segment others =>
        rw [hsplit] at hcomplete
        simpa [hsplit, htail, Ne.symm hne] using hcomplete

/-- What a stream leaves unfinished is continued by what follows it. -/
theorem segments_append (stream later : List A) :
    segments separator (stream ++ later) =
      ((segments separator stream).1 ++ (segments separator ((segments separator stream).2 ++ later)).1,
        (segments separator ((segments separator stream).2 ++ later)).2) := by
  induction stream with
  | nil => rfl
  | cons first rest ih =>
    rw [List.cons_append, segments, ih, segments]
    by_cases hsame : first = separator
    · simp [hsame]
    · cases hcomplete : (segments separator rest).1 with
      | nil => simp [hsame, segments]
      | cons segment others => simp [hsame]

variable {separator} in
/-- Complete segments and nothing after them. -/
theorem segments_flatMap {pieces : List (List A)} (hfree : ∀ piece ∈ pieces, separator ∉ piece) :
    segments separator (pieces.flatMap fun piece => piece ++ [separator]) = (pieces, []) := by
  induction pieces with
  | nil => rfl
  | cons piece rest ih =>
    obtain ⟨hpiece, hrest⟩ := List.forall_mem_cons.mp hfree
    rw [List.flatMap_cons, List.append_assoc, List.singleton_append, segments_cons hpiece, ih hrest]

omit [DecidableEq A] in
variable {separator} in
/-- What has no separator lies on one side of each separator. -/
theorem infix_append_cons {front : List A} (hfree : separator ∉ segment)
    (hwithin : segment <:+: front ++ separator :: rest) : segment <:+: front ∨ segment <:+: rest := by
  obtain ⟨before, after, hwhole⟩ := hwithin
  rw [List.append_assoc, List.append_eq_append_iff] at hwhole
  obtain ⟨first, hfront, hlater⟩ | ⟨skipped, hbefore, hlater⟩ := hwhole
  · rw [List.append_eq_append_iff] at hlater
    obtain ⟨second, hfirst, -⟩ | ⟨beyond, hsegment, hbeyond⟩ := hlater
    · exact Or.inl ⟨before, second, by rw [hfront, hfirst, List.append_assoc]⟩
    · cases beyond with
      | nil =>
        rw [List.append_nil] at hsegment
        exact Or.inl ⟨before, [], by rw [hfront, hsegment, List.append_nil]⟩
      | cons next others =>
        obtain rfl := (List.cons.inj hbeyond).1
        exact absurd (hsegment ▸ List.mem_append_right _ List.mem_cons_self) hfree
  · cases skipped with
    | nil =>
      cases segment with
      | nil => exact Or.inr (List.nil_infix)
      | cons next others =>
        obtain rfl := (List.cons.inj hlater).1
        exact absurd List.mem_cons_self hfree
    | cons next others =>
      refine Or.inr ⟨others, after, ?_⟩
      rw [(List.cons.inj hlater).2, List.append_assoc]
      rfl

omit [DecidableEq A] in
variable {separator} in
/-- What has no separator lies within one segment. -/
theorem length_le_of_infix_flatMap {pieces : List (List A)} {bound : Nat}
    (hbound : ∀ piece ∈ pieces, piece.length ≤ bound) (hfree : separator ∉ segment)
    (hwithin : segment <:+: pieces.flatMap fun piece => piece ++ [separator]) : segment.length ≤ bound := by
  induction pieces with
  | nil =>
    rw [List.flatMap_nil, List.infix_nil] at hwithin
    simp [hwithin]
  | cons piece rest ih =>
    obtain ⟨hpiece, hrest⟩ := List.forall_mem_cons.mp hbound
    rw [List.flatMap_cons, List.append_assoc, List.singleton_append] at hwithin
    rcases infix_append_cons hfree hwithin with hfirst | hlater
    · exact Nat.le_trans hfirst.length_le hpiece
    · exact ih hrest hlater

end Segments
