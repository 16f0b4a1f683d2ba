import Mathlib.Algebra.Order.Ring.Nat
import OjalvoChat.Descriptors
import OjalvoChat.MessageBuffer
import OjalvoChat.MessageJson

namespace ojalvo

/-- The bytes that `server_send` hands to `send`: the text and a newline, which
replaces the last byte of a text that fills the buffer. -/
def response_line (response : List UInt8) : List UInt8 :=
  if response.length + 1 < SERVER_BUFFER_SIZE then response ++ [10]
  else response.take (SERVER_BUFFER_SIZE - 2) ++ [10]

/-- `send` when the sockets take everything: it fails only on a descriptor that
is not open. -/
def send (trace : List Effect) (client_fd : Fd) (_response : List UInt8) : Bool := is_open trace client_fd

/-- The results of `server_send` over such sockets. -/
def sockets : Net := fun trace client_fd message =>
  match message_to_json message SERVER_BUFFER_SIZE with
  | none => false
  | some response => send trace client_fd (response_line response)

section Sockets

variable {trace : List Effect} {fd : Fd}

/-- A message that fits the buffer gets through to every open descriptor. -/
theorem sockets_of_fits {message : Message} (hfits : (message_to_json message SERVER_BUFFER_SIZE).isSome) :
    sockets trace fd message = is_open trace fd := by
  unfold sockets
  cases hprinted : message_to_json message SERVER_BUFFER_SIZE with
  | none => simp [hprinted] at hfits
  | some response => rfl

/-- What was sent was sent on an open descriptor. -/
theorem is_open_of_sockets {message : Message} (hsent : sockets trace fd message = true) : is_open trace fd = true := by
  unfold sockets at hsent
  split at hsent
  · cases hsent
  · exact hsent

end Sockets

section Sizes

/-- The bytes that a string takes between its quotes. -/
def escaped_length (text : CString) : Nat := (text.bytes.flatMap cJSON_escape).length

/-- A byte is escaped with six characters at most, as in \u001f. -/
theorem length_cJSON_escape_le (byte : UInt8) : (cJSON_escape byte).length ≤ 6 := by
  unfold cJSON_escape
  dsimp only
  split_ifs <;> simp

/-- A text grows sixfold at most. -/
theorem escaped_length_le (text : CString) : escaped_length text ≤ 6 * strlen text := by
  unfold escaped_length strlen
  induction text.bytes with
  | nil => simp
  | cons byte rest ih =>
    have hbyte := length_cJSON_escape_le byte
    simp only [List.flatMap_cons, List.length_append, List.length_cons]
    omega

/-- A text of one letter, repeated. -/
def long_text (length : Nat) : CString where
  bytes := List.replicate length 97
  nul_free hmem := absurd (List.eq_of_mem_replicate hmem) (by decide)

theorem strlen_long_text (length : Nat) : strlen (long_text length) = length := List.length_replicate

/-- Letters are not escaped. -/
theorem escaped_length_long_text (length : Nat) : escaped_length (long_text length) = length := by
  change ((List.replicate length 97).flatMap cJSON_escape).length = length
  induction length with
  | zero => rfl
  | succ length ih =>
    rw [List.replicate_succ, List.flatMap_cons, List.length_append, ih]
    exact Nat.add_comm 1 length

/-- A string has two quotes. -/
theorem length_print_string (text : CString) : (print_string text).length = escaped_length text + 2 := by
  simp [print_string, escaped_length]

/-- An object whose fields are strings. -/
def string_object (fields : List (CString × CString)) : CJson :=
  .object (fields.map fun field => (field.1, .string field.2))

theorem length_print_string_fields (first : CString × CString) (rest : List (CString × CString)) :
    (print_fields ((first :: rest).map fun field => (field.1, .string field.2))).length + 1 =
      ((first :: rest).map fun field => escaped_length field.1 + escaped_length field.2 + 6).sum := by
  induction rest generalizing first with
  | nil =>
    simp only [List.map_cons, List.map_nil, print_fields, cJSON_PrintUnformatted, List.length_append, List.length_cons,
      length_print_string, List.sum_cons, List.sum_nil]
    omega
  | cons second rest ih =>
    have hrest := ih second
    simp only [List.map_cons, print_fields, cJSON_PrintUnformatted, List.length_append, List.length_cons,
      length_print_string, List.sum_cons] at hrest ⊢
    omega

/-- The size of the printed text, over all fields. -/
theorem length_print_string_object (first : CString × CString) (rest : List (CString × CString)) :
    (cJSON_PrintUnformatted (string_object (first :: rest))).length =
      ((first :: rest).map fun field => escaped_length field.1 + escaped_length field.2 + 6).sum + 1 := by
  rw [← length_print_string_fields]
  simp [string_object, cJSON_PrintUnformatted]

/-- A message is encoded if its text and a NUL fit the buffer. -/
theorem message_to_json_isSome_iff {message : Message} {size : Nat} :
    (message_to_json message size).isSome = true ↔
      (cJSON_PrintUnformatted (message_object message)).length < size := by
  unfold message_to_json
  dsimp only
  split
  · simp only [Option.isSome_none, Bool.false_eq_true, false_iff]
    omega
  · simp only [Option.isSome_some, true_iff]
    omega

end Sizes

end ojalvo
