import OjalvoChat.CString

namespace ojalvo

def isspace (c : UInt8) : Bool := c = 32 ∨ 9 ≤ c.toNat ∧ c.toNat ≤ 13

def isdigit (c : UInt8) : Bool := 48 ≤ c.toNat ∧ c.toNat ≤ 57

def LONG_MIN : Int := -0x8000000000000000

def LONG_MAX : Int := 0x7fffffffffffffff

/-- The number that decimal digits write. -/
def decimal (digits : List UInt8) : Nat := digits.foldl (fun value digit => 10 * value + (digit.toNat - 48)) 0

/-- Whether a number begins with a minus sign, and what follows its sign. -/
def read_sign (number : List UInt8) : Bool × List UInt8 :=
  match number with
  | [] => (false, [])
  | first :: rest => if first = 45 then (true, rest) else if first = 43 then (false, rest) else (false, number)

/-- What `strtol` returns, how far it has read, and whether it has set `errno`. -/
structure LongNumber where
  value : Int
  endptr : Nat
  errno : Bool

/-- `strtol(text, &endptr, 10)`. -/
def strtol (text : CString) : LongNumber :=
  let number := read_sign (text.bytes.dropWhile isspace)
  let digits := number.2.takeWhile isdigit
  let endptr := text.bytes.length - (number.2.dropWhile isdigit).length
  let value : Int := if number.1 then -decimal digits else decimal digits
  -- without digits there is no number, not even its sign
  if digits = [] then { value := 0, endptr := 0, errno := false }
  else if value < LONG_MIN then { value := LONG_MIN, endptr, errno := true }
  else if LONG_MAX < value then { value := LONG_MAX, endptr, errno := true }
  else { value, endptr, errno := false }

/-- A text begins with a number: blanks, perhaps a plus sign, and all of the digits
that follow each other. The rest is junk. -/
def CString.Spells (text : CString) (number : Nat) (junk : List UInt8) : Prop :=
  ∃ blanks sign digits, text.bytes = blanks ++ (sign ++ (digits ++ junk)) ∧ (∀ c ∈ blanks, isspace c = true) ∧
    (sign = [] ∨ sign = [43]) ∧ digits ≠ [] ∧ (∀ c ∈ digits, isdigit c = true) ∧
    (∀ c ∈ junk.head?, isdigit c = false) ∧ decimal digits = number

section Strtol

variable {text : CString} {number : Nat} {junk : List UInt8} {c : UInt8}

theorem not_isspace_of_isdigit (hdigit : isdigit c = true) : isspace c = false := by
  simp only [isdigit, isspace, decide_eq_true_eq, decide_eq_false_iff_not] at hdigit ⊢
  rintro (rfl | hspace)
  · exact absurd hdigit (by decide)
  · omega

theorem read_sign_of_isdigit (hdigit : isdigit c = true) (rest : List UInt8) :
    read_sign (c :: rest) = (false, c :: rest) := by
  have hminus : c ≠ 45 := by
    rintro rfl
    exact absurd hdigit (by decide)
  have hplus : c ≠ 43 := by
    rintro rfl
    exact absurd hdigit (by decide)
  rw [read_sign, if_neg hminus, if_neg hplus]

/-- What follows the sign of a number that is not negative. -/
theorem read_sign_positive {rest unsigned : List UInt8} (hsign : read_sign rest = (false, unsigned)) :
    ∃ sign, rest = sign ++ unsigned ∧ (sign = [] ∨ sign = [43]) := by
  unfold read_sign at hsign
  split at hsign
  · cases hsign
    exact ⟨[], rfl, Or.inl rfl⟩
  · split at hsign
    · cases hsign
    · split at hsign
      · rename_i hplus
        cases hsign
        exact ⟨[43], by rw [hplus]; rfl, Or.inr rfl⟩
      · cases hsign
        exact ⟨[], rfl, Or.inl rfl⟩

/-- A number that is spelled is read. -/
theorem strtol_of_spells (hspells : text.Spells number junk) (hlong : (number : Int) ≤ LONG_MAX) :
    (strtol text).value = number ∧ (strtol text).endptr ≠ 0 ∧ text.bytes.drop (strtol text).endptr = junk ∧
      (strtol text).errno = false := by
  obtain ⟨blanks, sign, digits, hbytes, hblanks, hsign, hsome, hdigits, hjunk, rfl⟩ := hspells
  obtain ⟨first, rest, rfl⟩ := List.exists_cons_of_ne_nil hsome
  have hfirst := hdigits first List.mem_cons_self
  have hstop : junk.takeWhile isdigit = [] ∧ junk.dropWhile isdigit = junk := by
    cases junk with
    | nil => exact ⟨rfl, rfl⟩
    | cons next later =>
      have hnext : isdigit next = false := hjunk next rfl
      exact ⟨List.takeWhile_cons_of_neg (by simp [hnext]), List.dropWhile_cons_of_neg (by simp [hnext])⟩
  have hread : read_sign (text.bytes.dropWhile isspace) = (false, first :: rest ++ junk) := by
    rw [hbytes, List.dropWhile_append_of_pos hblanks]
    rcases hsign with rfl | rfl
    · rw [List.nil_append, List.cons_append, List.dropWhile_cons_of_neg (by simp [not_isspace_of_isdigit hfirst])]
      exact read_sign_of_isdigit hfirst _
    · rfl
  have htake : (first :: rest ++ junk).takeWhile isdigit = first :: rest := by
    rw [List.takeWhile_append_of_pos hdigits, hstop.1, List.append_nil]
  have hdrop : (first :: rest ++ junk).dropWhile isdigit = junk := by
    rw [List.dropWhile_append_of_pos hdigits, hstop.2]
  have hnonnegative : ¬ ((decimal (first :: rest) : Int) < LONG_MIN) := by
    unfold LONG_MIN
    omega
  have hmost : ¬ (LONG_MAX < (decimal (first :: rest) : Int)) := by omega
  have hread_some : text.bytes.length - junk.length ≠ 0 := by
    rw [hbytes]
    simp only [List.length_append, List.length_cons]
    omega
  have hsuffix : junk <:+ text.bytes := ⟨blanks ++ (sign ++ first :: rest), by simp [hbytes]⟩
  have hrest := (List.suffix_iff_eq_drop.mp hsuffix).symm
  simp only [strtol, hread, htake, hdrop, Bool.false_eq_true, if_false, hsome, hnonnegative, hmost]
  exact ⟨trivial, hread_some, hrest, trivial⟩

/-- What is read as a positive number is spelled. -/
theorem spells_of_strtol (hendptr : (strtol text).endptr ≠ 0) (herrno : (strtol text).errno = false)
    (hpositive : 1 ≤ (strtol text).value) :
    text.Spells (strtol text).value.toNat (text.bytes.drop (strtol text).endptr) := by
  cases hread : read_sign (text.bytes.dropWhile isspace) with
  | mk negative unsigned =>
    simp only [strtol, hread] at hendptr herrno hpositive ⊢
    by_cases hsome : unsigned.takeWhile isdigit = []
    · rw [if_pos hsome] at hendptr
      exact absurd rfl hendptr
    rw [if_neg hsome] at herrno hpositive ⊢
    cases negative with
    | true =>
      simp only [if_true] at herrno hpositive
      have hmax : ¬ (LONG_MAX < -(decimal (unsigned.takeWhile isdigit) : Int)) := by
        unfold LONG_MAX
        omega
      by_cases hmin : -(decimal (unsigned.takeWhile isdigit) : Int) < LONG_MIN
      · rw [if_pos hmin] at herrno
        cases herrno
      · rw [if_neg hmin, if_neg hmax] at hpositive
        dsimp only at hpositive
        omega
    | false =>
      simp only [Bool.false_eq_true, if_false] at herrno hpositive ⊢
      have hmin : ¬ ((decimal (unsigned.takeWhile isdigit) : Int) < LONG_MIN) := by
        unfold LONG_MIN
        omega
      rw [if_neg hmin] at herrno hpositive ⊢
      have hmax : ¬ (LONG_MAX < (decimal (unsigned.takeWhile isdigit) : Int)) := by
        intro hmore
        rw [if_pos hmore] at herrno
        cases herrno
      rw [if_neg hmax]
      obtain ⟨sign, hrest, hsign⟩ := read_sign_positive hread
      have hbytes : text.bytes = text.bytes.takeWhile isspace ++
          (sign ++ (unsigned.takeWhile isdigit ++ unsigned.dropWhile isdigit)) := by
        rw [List.takeWhile_append_dropWhile, ← hrest, List.takeWhile_append_dropWhile]
      have hsuffix : unsigned.dropWhile isdigit <:+ text.bytes :=
        ⟨text.bytes.takeWhile isspace ++ (sign ++ unsigned.takeWhile isdigit), by
          rw [List.append_assoc, List.append_assoc, ← hbytes]⟩
      have hjunk := (List.suffix_iff_eq_drop.mp hsuffix).symm
      refine ⟨text.bytes.takeWhile isspace, sign, unsigned.takeWhile isdigit, hjunk.symm ▸ hbytes,
        fun c hmem => List.mem_takeWhile_imp hmem, hsign, hsome, fun c hmem => List.mem_takeWhile_imp hmem,
        fun c hmem => ?_, rfl⟩
      have hstop := List.head?_dropWhile_not isdigit unsigned
      rw [hjunk] at hmem
      rw [Option.mem_def.mp hmem] at hstop
      simpa using hstop

end Strtol

end ojalvo
