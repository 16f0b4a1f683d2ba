import OjalvoChat.MessageBuffer.Block

namespace ojalvo

/-- What the parser is given for a line: the block that `handle_client` has it
extracted to and sanitized in. -/
structure Cleans (raw : List UInt8) (extracted text : Block) (message_length : Nat) : Prop where
  /-- The bytes that a message may hold, in order. -/
  kept : text.take message_length = raw.filter fun byte => byte ∉ ([0, 9, 13, 10, 8] : List UInt8)
  terminated : text.load message_length = .ok 0
  length : strlen (.of_bytes text) = message_length
  valid : message_is_valid text message_length = .ok true
  unchanged : text.take message_length = raw ↔ message_is_valid extracted raw.length = .ok true
  untouched : message_is_valid extracted raw.length = .ok true → text = extracted

section Cleans

variable {raw rest stale : List UInt8}

theorem message_is_valid_iff : message_is_valid (raw ++ rest) raw.length = .ok true ↔
    message_buffer_sanitize raw raw.length = raw := by
  rw [message_is_valid_eq, message_buffer_sanitize_eq_filter, Except.ok.injEq, List.all_eq_true,
    List.filter_eq_self]

/-- The text ends at its first NUL. -/
theorem strlen_of_bytes_sanitize :
    strlen (.of_bytes (message_buffer_sanitize raw raw.length ++ 0 :: rest)) =
      (message_buffer_sanitize raw raw.length).length := by
  rw [CString.of_bytes_append_nul, strlen, CString.of_bytes_of_nul_free (nul_not_mem_sanitize raw.length)]

theorem cleans_sanitized
    (hlength : stale.length + (message_buffer_sanitize raw raw.length).length = raw.length) :
    Cleans raw (raw ++ 0 :: rest) (message_buffer_sanitize raw raw.length ++ 0 :: (stale ++ 0 :: rest).tail)
      (message_buffer_sanitize raw raw.length).length where
  kept := by
    rw [List.take_left]
    simp [message_buffer_sanitize]
  terminated := Block.load_append_cons _ _ 0
  length := strlen_of_bytes_sanitize
  valid := by
    rw [message_is_valid_eq, message_buffer_sanitize_eq_filter, Except.ok.injEq, List.all_eq_true]
    exact fun byte hmem => (List.mem_filter.mp hmem).2
  unchanged := by rw [List.take_left, message_is_valid_iff]
  untouched hvalid := by
    rw [message_is_valid_iff] at hvalid
    rw [hvalid] at hlength ⊢
    obtain rfl : stale = [] := List.eq_nil_of_length_eq_zero (by omega)
    rfl

end Cleans

/-- Whatever line is in the buffer, the parser is given its allowed bytes, and
extraction and sanitizing stay inside the block. -/
theorem parser_is_given_clean_text (buffer : MessageBuffer) (out : Block) (hout : out.length = SERVER_BUFFER_SIZE)
    {raw later : List UInt8} (hdata : buffer.data = raw ++ 10 :: later) (hfree : 10 ∉ raw) :
    ∃ extracted rest text message_length,
      message_buffer_extract_to buffer out SERVER_BUFFER_SIZE = .ok (some (extracted, raw.length, rest)) ∧
      message_buffer_sanitize_at extracted raw.length = .ok (text, message_length) ∧
      Cleans raw extracted text message_length := by
  obtain ⟨rest, hextract, -⟩ := message_buffer_extract_to_eq hout hdata hfree
  obtain ⟨stale, hlength, hsanitize⟩ := message_buffer_sanitize_at_eq raw (0 :: out.drop (raw.length + 1)) nofun
  exact ⟨_, rest, _, _, hextract, hsanitize, cleans_sanitized hlength⟩

/-- A line with a tab in it. -/
theorem parser_is_given_clean_text_of_tab :
    ∃ extracted rest text message_length,
      message_buffer_extract_to ⟨[104, 9, 105, 10], by decide⟩ (List.replicate SERVER_BUFFER_SIZE 0)
        SERVER_BUFFER_SIZE = .ok (some (extracted, 3, rest)) ∧
      message_buffer_sanitize_at extracted 3 = .ok (text, message_length) ∧
      Cleans [104, 9, 105] extracted text message_length := by
  have hdata : ([104, 9, 105, 10] : List UInt8) = [104, 9, 105] ++ 10 :: [] := rfl
  have hfree : (10 : UInt8) ∉ ([104, 9, 105] : List UInt8) := by decide
  exact parser_is_given_clean_text _ _ List.length_replicate hdata hfree

end ojalvo
