import OjalvoChat.Library.JsonUnique
import OjalvoChat.MessageBuffer.Block
import OjalvoChat.MessageJson

namespace ojalvo

/-- What the parser returns for a JSON text depends on the value of the text only. -/
def ReadsValues (cJSON_Parse : CString → Option CJson) : Prop :=
  ∃ represent : JsonValue → Option CJson,
    ∀ (text : CString) (value : JsonValue), JsonText.Document text.bytes value → cJSON_Parse text = represent value

section Texts

variable {line : List UInt8} {value : JsonValue}

/-- Only control characters are dropped. -/
theorem stripped_eq_false {byte : UInt8} (hprintable : 0x20 ≤ byte) : (!stripped byte) = true := by
  simp only [stripped, Bool.not_eq_true', decide_eq_false_iff_not]
  rintro (rfl | rfl | rfl | rfl | rfl) <;> exact absurd hprintable (by decide)

theorem document_sanitize (hline : JsonText.Document line value) :
    JsonText.Document (message_buffer_sanitize line line.length) value := by
  rw [message_buffer_sanitize_eq_filter]
  exact hline.filter fun _ hprintable => stripped_eq_false hprintable

/-- A JSON text is a C string. -/
theorem ReadsValues.parse_eq {cJSON_Parse : CString → Option CJson} {represent : JsonValue → Option CJson}
    (hreads : ∀ (text : CString) (value : JsonValue), JsonText.Document text.bytes value →
      cJSON_Parse text = represent value) (hline : JsonText.Document line value) :
    cJSON_Parse (.of_bytes line) = represent value :=
  hreads (.of_bytes line) value (by rwa [CString.of_bytes_of_nul_free hline.nul_free])

end Texts

/-- Sanitizing a line that is a JSON text leaves a JSON text of the same value and of
no other, and the same request for every parser that reads values. -/
theorem sanitizing_keeps_value {line : List UInt8} {value : JsonValue} (hline : JsonText.Document line value)
    (rest : List UInt8) :
    ∃ text message_length,
      message_buffer_sanitize_at (line ++ 0 :: rest) line.length = .ok (text, message_length) ∧
      (∀ other, JsonText.Document (text.take message_length) other ↔ other = value) ∧
      ∀ cJSON_Parse, ReadsValues cJSON_Parse →
        message_from_json cJSON_Parse (.of_bytes text) =
          message_from_json cJSON_Parse (.of_bytes (line ++ 0 :: rest)) := by
  obtain ⟨stale, -, hsanitize⟩ := message_buffer_sanitize_at_eq line (0 :: rest) nofun
  have hdocument := document_sanitize hline
  refine ⟨_, _, hsanitize, fun other => ?_, ?_⟩
  · rw [List.take_left]
    exact ⟨fun hother => hother.unique hdocument, fun hsame => hsame ▸ hdocument⟩
  · rintro cJSON_Parse ⟨represent, hreads⟩
    have hparse : cJSON_Parse (.of_bytes (message_buffer_sanitize line line.length)) = cJSON_Parse (.of_bytes line) :=
      (ReadsValues.parse_eq hreads hdocument).trans (ReadsValues.parse_eq hreads hline).symm
    rw [CString.of_bytes_append_nul, CString.of_bytes_append_nul, message_from_json, hparse]
    rfl

section Examples

/-- Characters that stand for themselves. -/
def plain (byte : UInt8) : Bool := 0x20 ≤ byte && byte < 0x7F && byte ≠ 0x22 && byte ≠ 0x5C

theorem chars_of_plain {text : List UInt8} (hplain : text.all plain = true) :
    JsonText.Chars text (text.map fun byte => UInt16.ofNat byte.toNat) := by
  induction text with
  | nil => exact .nil
  | cons byte rest ih =>
    rw [List.all_cons, Bool.and_eq_true] at hplain
    obtain ⟨hbyte, hrest⟩ := hplain
    have hall : ∀ code < 256, plain (UInt8.ofNat code) = true →
        (0x20 ≤ (Char.ofNat code).toNat ∧ (Char.ofNat code).toNat ≠ 0x22 ∧ (Char.ofNat code).toNat ≠ 0x5C) ∧
        String.utf8EncodeChar (Char.ofNat code) = [UInt8.ofNat code] ∧
        utf16 (Char.ofNat code) = [UInt16.ofNat code] := by decide +kernel
    obtain ⟨hcode, hencode, hunit⟩ := hall byte.toNat byte.toNat_lt (by rwa [UInt8.ofNat_toNat])
    have hchar : JsonText.Chars (String.utf8EncodeChar (Char.ofNat byte.toNat) ++ rest) _ :=
      .unescaped hcode (ih hrest)
    rwa [hencode, hunit, UInt8.ofNat_toNat] at hchar

/-- A request with white space in it. -/
def spaced_request : List UInt8 :=
  [0x7B] ++ (0x22 :: [0x74, 0x79, 0x70, 0x65] ++ [0x22] ++ [0x3A, 0x09] ++
    (0x22 :: [0x55, 0x53, 0x45, 0x52, 0x53] ++ [0x22])) ++ [0x7D, 0x0D]

def spaced_value : JsonValue := .object [([0x74, 0x79, 0x70, 0x65], .string [0x55, 0x53, 0x45, 0x52, 0x53])]

theorem document_spaced_request : JsonText.Document spaced_request spaced_value := by
  have hmark : ∀ mark : UInt8, JsonText.Structural mark [mark] := fun mark => ⟨[], [], nofun, nofun, rfl⟩
  have hcolon : JsonText.Structural 0x3A [0x3A, 0x09] := ⟨[], [0x09], nofun, by decide, rfl⟩
  have hend : JsonText.Structural 0x7D [0x7D, 0x0D] := ⟨[], [0x0D], nofun, by decide, rfl⟩
  have htype : JsonText.Chars [0x74, 0x79, 0x70, 0x65] _ := chars_of_plain rfl
  have husers : JsonText.Chars [0x55, 0x53, 0x45, 0x52, 0x53] _ := chars_of_plain rfl
  have hvalue := JsonText.Value.object (hmark 0x7B) (.last (.mk (.mk htype) hcolon (.string (.mk husers)))) hend
  have hdocument : JsonText.Document ([] ++ spaced_request ++ []) spaced_value := .mk nofun hvalue nofun
  rwa [List.append_nil] at hdocument

def spaced_fields : CJson := .object [(.lit "type", .string (.lit "USERS"))]

/-- A parser for this request, in whatever spelling. -/
theorem exists_parser_of_spaced_request :
    ∃ cJSON_Parse, ReadsValues cJSON_Parse ∧ cJSON_Parse (.of_bytes spaced_request) = some spaced_fields := by
  classical
  refine ⟨fun text => if JsonText.Document text.bytes spaced_value then some spaced_fields else none,
    ⟨fun value => if value = spaced_value then some spaced_fields else none, fun text value hdocument => ?_⟩, ?_⟩
  · refine if_congr ⟨fun hspaced => hdocument.unique hspaced, ?_⟩ rfl rfl
    rintro rfl
    exact hdocument
  · refine if_pos ?_
    rw [CString.of_bytes_of_nul_free document_spaced_request.nul_free]
    exact document_spaced_request

/-- A request for the users, with its white space and without. -/
theorem sanitizing_keeps_value_of_spaced_request :
    ∃ text message_length cJSON_Parse,
      message_buffer_sanitize_at (spaced_request ++ [0]) spaced_request.length = .ok (text, message_length) ∧
      (∀ other, JsonText.Document (text.take message_length) other ↔ other = spaced_value) ∧
      (message_from_json cJSON_Parse (.of_bytes text)).map Message.type = some .USERS := by
  obtain ⟨text, message_length, hsanitize, hvalue, hmessage⟩ := sanitizing_keeps_value document_spaced_request []
  obtain ⟨cJSON_Parse, hreads, hparse⟩ := exists_parser_of_spaced_request
  refine ⟨text, message_length, cJSON_Parse, hsanitize, hvalue, ?_⟩
  rw [hmessage cJSON_Parse hreads, CString.of_bytes_append_nul, message_from_json, hparse]
  decide +kernel

end Examples

end ojalvo
