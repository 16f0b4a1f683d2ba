import OjalvoChat.Library.Segments
import OjalvoChat.Properties.Codec
import OjalvoChat.ServerSend

namespace ojalvo

/-- A receiver that splits its input at newlines and decodes each line: the
results, and the bytes after the last newline. -/
def decode_lines (cJSON_Parse : CString → Option CJson) (input : List UInt8) : List (Option Message) × List UInt8 :=
  ((segments 10 input).1.map fun line => message_from_json cJSON_Parse (.of_bytes line), (segments 10 input).2)

/-- The newline is appended, and replaces nothing, unless the text fills the
buffer. -/
theorem response_line_eq_iff {response : List UInt8} (hfits : response.length < SERVER_BUFFER_SIZE) :
    response_line response = response ++ [10] ↔ response.length + 1 < SERVER_BUFFER_SIZE := by
  unfold response_line
  constructor
  · intro hsame
    by_contra hfull
    rw [if_neg hfull] at hsame
    have hlength := congrArg List.length hsame
    simp only [List.length_append, List.length_take, List.length_singleton] at hlength
    have hsize : 2 ≤ SERVER_BUFFER_SIZE := by decide
    omega
  · intro hroom
    exact if_pos hroom

/-- The bytes on the wire are the encoding and a newline, from which a receiver
recovers the message, except for an encoding of the greatest accepted length and
for an empty list of names. -/
theorem wire_framing_iff (cJSON_Parse : CString → Option CJson) (msg : Message) (response : List UInt8)
    (hencode : message_to_json msg SERVER_BUFFER_SIZE = some response)
    (hparse : cJSON_Parse (.of_bytes (cJSON_PrintUnformatted (message_object msg))) = some (message_object msg)) :
    (response_line response = response ++ [10] ↔ response.length + 1 < SERVER_BUFFER_SIZE) ∧
      (response_line response = response ++ [10] ∧
          decode_lines cJSON_Parse (response_line response) = ([some msg], []) ↔
        response.length + 1 < SERVER_BUFFER_SIZE ∧ msg.usernames ≠ some []) := by
  obtain ⟨hprinted, hfits⟩ := message_to_json_eq_some_iff.mp hencode
  have hwire := response_line_eq_iff hfits
  refine ⟨hwire, ?_⟩
  rw [hwire]
  refine and_congr_right fun hroom => ?_
  have hfree : 10 ∉ response := hprinted ▸ newline_not_mem_print (message_object msg)
  have hdecode := (codec_round_trip_iff cJSON_Parse msg SERVER_BUFFER_SIZE response hencode hparse).1
  rw [hwire.mpr hroom, decode_lines, Segments.segments_cons hfree]
  simpa [segments] using hdecode

/-- A private text of one letter, repeated. -/
def long_text_from (length : Nat) : Message :=
  { message_init with type := .TEXT_FROM, username := some (.lit "ana"), text := some (long_text length) }

theorem length_print_long_text_from (length : Nat) :
    (cJSON_PrintUnformatted (message_object (long_text_from length))).length = length + 47 := by
  have hfields : message_object (long_text_from length) = string_object
      [(.lit "type", .lit "TEXT_FROM"), (.lit "username", .lit "ana"), (.lit "text", long_text length)] := rfl
  have htype : escaped_length (.lit "type") = 4 := by decide +kernel
  have htext_from : escaped_length (.lit "TEXT_FROM") = 9 := by decide +kernel
  have husername : escaped_length (.lit "username") = 8 := by decide +kernel
  have hana : escaped_length (.lit "ana") = 3 := by decide +kernel
  have htext : escaped_length (.lit "text") = 4 := by decide +kernel
  rw [hfields, length_print_string_object]
  simp only [List.map_cons, List.map_nil, List.sum_cons, List.sum_nil, escaped_length_long_text, htype, htext_from,
    husername, hana, htext]
  omega

/-- An encoding of the greatest accepted length loses its last byte. -/
theorem full_response_is_cut :
    ∃ msg response, message_to_json msg SERVER_BUFFER_SIZE = some response ∧
      response_line response ≠ response ++ [10] := by
  have hlength := length_print_long_text_from (SERVER_BUFFER_SIZE - 48)
  have hsize : 48 ≤ SERVER_BUFFER_SIZE := by decide
  refine ⟨long_text_from (SERVER_BUFFER_SIZE - 48), _, message_to_json_eq_some_iff.mpr ⟨rfl, by omega⟩, ?_⟩
  rw [Ne, response_line_eq_iff (by omega)]
  omega

theorem wire_framing_iff_for_invite :
    ∃ (cJSON_Parse : CString → Option CJson) (response : List UInt8),
      message_to_json invite_message SERVER_BUFFER_SIZE = some response ∧
      decode_lines cJSON_Parse (response_line response) = ([some invite_message], []) :=
  ⟨fun raw => parse_known [message_object invite_message] raw.bytes, _, rfl,
    ((wire_framing_iff (fun raw => parse_known [message_object invite_message] raw.bytes) invite_message
      (cJSON_PrintUnformatted (message_object invite_message)) rfl rfl).2.mpr (by decide +kernel)).2⟩

end ojalvo
