import OjalvoChat.Library.Segments

namespace ojalvo

def SERVER_BUFFER_SIZE : Nat := 1024 * 1024

/-- The first `length` bytes of the array, which hold what has been received and
not been consumed. -/
structure MessageBuffer where
  data : List UInt8
  fits : data.length ≤ SERVER_BUFFER_SIZE

def message_buffer_init : MessageBuffer where
  data := []
  fits := Nat.zero_le _

def message_buffer_append (buffer : MessageBuffer) (chunk : List UInt8) : Option MessageBuffer :=
  if h : buffer.data.length + chunk.length > SERVER_BUFFER_SIZE then none
  else some { data := buffer.data ++ chunk, fits := by rw [List.length_append]; omega }

/-- The position of a byte. -/
def memchr (data : List UInt8) (byte : UInt8) : Option Nat := data.findIdx? (· = byte)

/-- The bytes copied, the length that is reported for them, and what stays in the
buffer. -/
def message_buffer_extract (buffer : MessageBuffer) (out_capacity : Nat) : Option (List UInt8 × Nat × MessageBuffer) :=
  if out_capacity = 0 then none
  else
    match memchr buffer.data 10 with
    | none => none
    | some raw_length =>
      let copy_length := if raw_length < out_capacity - 1 then raw_length else out_capacity - 1
      let consumed := raw_length + 1
      some (buffer.data.take copy_length, raw_length,
        { data := buffer.data.drop consumed
          fits := by
            have hfits := buffer.fits
            rw [List.length_drop]
            omega })

/-- Drops the bytes that no message may hold. -/
def message_buffer_sanitize (text : List UInt8) (length : Nat) : List UInt8 :=
  (text.take length).filter fun byte => ¬ (byte = 0 ∨ byte = 9 ∨ byte = 13 ∨ byte = 10 ∨ byte = 8)

section Extract

variable {buffer rest : MessageBuffer} {message : List UInt8} {message_length : Nat}

/-- The buffer of the caller holds the longest line, so a line is extracted whole
together with its newline. -/
theorem message_buffer_extract_eq_some
    (hextract : message_buffer_extract buffer SERVER_BUFFER_SIZE = some (message, message_length, rest)) :
    buffer.data = message ++ 10 :: rest.data ∧ message_length = message.length ∧ 10 ∉ message := by
  unfold message_buffer_extract at hextract
  rw [if_neg (by decide)] at hextract
  cases hnewline : memchr buffer.data 10 with
  | none =>
    rw [hnewline] at hextract
    cases hextract
  | some raw_length =>
    rw [hnewline] at hextract
    obtain ⟨hinside, hbyte, hbefore⟩ := List.findIdx?_eq_some_iff_getElem.mp hnewline
    have hfits := buffer.fits
    have hcopied : (if raw_length < SERVER_BUFFER_SIZE - 1 then raw_length else SERVER_BUFFER_SIZE - 1) =
        raw_length := by
      split <;> omega
    simp only [hcopied, Option.some.injEq, Prod.mk.injEq] at hextract
    obtain ⟨rfl, rfl, rfl⟩ := hextract
    have hten : buffer.data[raw_length] = 10 := of_decide_eq_true hbyte
    refine ⟨?_, by rw [List.length_take]; omega, fun hmem => ?_⟩
    · rw [← hten, List.getElem_cons_drop, List.take_append_drop]
    · obtain ⟨position, hposition, heq⟩ := List.mem_take_iff_getElem.mp hmem
      have hearlier : position < raw_length := by omega
      exact hbefore position hearlier (decide_eq_true heq)

/-- No line longer than the buffer is ever extracted. -/
theorem length_lt_of_extract
    (hextract : message_buffer_extract buffer SERVER_BUFFER_SIZE = some (message, message_length, rest)) :
    message_length ≤ SERVER_BUFFER_SIZE - 1 ∧ rest.data.length < buffer.data.length := by
  obtain ⟨hdata, rfl, -⟩ := message_buffer_extract_eq_some hextract
  have hfits := buffer.fits
  rw [hdata, List.length_append, List.length_cons] at hfits ⊢
  omega

/-- Extraction fails only when no newline is left. -/
theorem message_buffer_extract_eq_none_iff :
    message_buffer_extract buffer SERVER_BUFFER_SIZE = none ↔ 10 ∉ buffer.data := by
  unfold message_buffer_extract
  rw [if_neg (by decide)]
  constructor
  · intro hnone hmem
    obtain ⟨position, hposition⟩ : ∃ position, memchr buffer.data 10 = some position := by
      rw [← Option.isSome_iff_exists, memchr, List.findIdx?_isSome, List.any_eq_true]
      exact ⟨10, hmem, rfl⟩
    rw [hposition] at hnone
    cases hnone
  · intro hfree
    have hnone : memchr buffer.data 10 = none := by
      rw [memchr, List.findIdx?_eq_none_iff]
      rintro byte hmem
      simp only [decide_eq_false_iff_not]
      rintro rfl
      exact hfree hmem
    rw [hnone]

/-- The line that a newline ends is extracted. -/
theorem message_buffer_extract_of_line {raw later : List UInt8} (hdata : buffer.data = raw ++ 10 :: later)
    (hfree : 10 ∉ raw) :
    ∃ rest, message_buffer_extract buffer SERVER_BUFFER_SIZE = some (raw, raw.length, rest) ∧ rest.data = later := by
  cases hextract : message_buffer_extract buffer SERVER_BUFFER_SIZE with
  | none =>
    have hnone := message_buffer_extract_eq_none_iff.mp hextract
    rw [hdata] at hnone
    exact absurd List.mem_append_cons_self hnone
  | some extracted =>
    obtain ⟨message, message_length, rest⟩ := extracted
    obtain ⟨hsplit, rfl, hother⟩ := message_buffer_extract_eq_some hextract
    obtain ⟨rfl, hrest⟩ := Segments.append_cons_inj hother hfree (hsplit.symm.trans hdata)
    exact ⟨rest, rfl, hrest⟩

end Extract

section Sanitize

variable {text : List UInt8}

theorem nul_not_mem_sanitize (length : Nat) : 0 ∉ message_buffer_sanitize text length := by
  simp [message_buffer_sanitize]

/-- A line without forbidden bytes is kept whole. -/
theorem message_buffer_sanitize_of_clean
    (hclean : ∀ byte ∈ text, ¬ (byte = 0 ∨ byte = 9 ∨ byte = 13 ∨ byte = 10 ∨ byte = 8)) :
    message_buffer_sanitize text text.length = text := by
  rw [message_buffer_sanitize, List.take_length]
  exact List.filter_eq_self.mpr fun byte hmem => decide_eq_true (hclean byte hmem)

end Sanitize

end ojalvo
