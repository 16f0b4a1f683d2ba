import OjalvoChat.MessageBuffer
import OjalvoChat.MessageJson.Fields

namespace ojalvo

/-- The text has a list of user names that is not empty but holds no string. -/
def HollowUsernames (cJSON_Parse : CString → Option CJson) (json_raw : CString) : Prop :=
  ∃ json items, cJSON_Parse json_raw = some json ∧
    cJSON_GetObjectItemCaseSensitive (cJSON_DetachItemFromObject json (.lit "users")).2 (.lit "usernames") =
      some (.array items) ∧
    items ≠ [] ∧ ∀ item ∈ items, ∀ text, item ≠ .string text

section RoundTrip

variable {cJSON_Parse : CString → Option CJson} {json_raw : CString} {msg : Message}

theorem Message.decoded_eq_iff : msg.decoded = msg ↔ msg.usernames ≠ some [] := by
  have hfields : msg.decoded = msg ↔ (msg.usernames.filter fun usernames => ! usernames.isEmpty) = msg.usernames := by
    rw [Message.ext_iff]
    simp [Message.decoded]
  rw [hfields]
  rcases msg.usernames with - | - | ⟨first, rest⟩ <;> simp [Option.filter]

theorem get_usernames_eq_some_nil_iff (item : Option CJson) :
    get_usernames item = some [] ↔
      ∃ items, item = some (.array items) ∧ items ≠ [] ∧ ∀ item ∈ items, ∀ text, item ≠ .string text := by
  unfold get_usernames
  split
  · rename_i first rest
    rw [Option.some.injEq, List.filterMap_eq_nil_iff]
    constructor
    · intro hnone
      refine ⟨first :: rest, rfl, List.cons_ne_nil first rest, ?_⟩
      rintro item hmem text rfl
      exact absurd (hnone _ hmem) nofun
    · rintro ⟨items, heq, -, hhollow⟩ item hmem
      cases heq
      split
      · exact absurd rfl (hhollow _ hmem _)
      · rfl
  · rename_i hother
    constructor
    · exact nofun
    · rintro ⟨items, rfl, hne, -⟩
      obtain ⟨first, rest, rfl⟩ := List.exists_cons_of_ne_nil hne
      exact absurd rfl (hother first rest)

/-- An accepted text has an empty list of names only when its own list is hollow. -/
theorem usernames_eq_some_nil_iff (haccepted : message_from_json cJSON_Parse json_raw = some msg) :
    msg.usernames = some [] ↔ HollowUsernames cJSON_Parse json_raw := by
  unfold message_from_json at haccepted
  cases hjson : cJSON_Parse json_raw with
  | none =>
    rw [hjson] at haccepted
    cases haccepted
  | some json =>
    rw [hjson] at haccepted
    split at haccepted
    · rename_i fields heq
      cases heq
      dsimp only at haccepted
      split at haccepted
      · cases haccepted
      · cases haccepted
        dsimp only
        rw [get_usernames_eq_some_nil_iff, HollowUsernames]
        simp [hjson]
    · cases haccepted

end RoundTrip

/-- Decoding undoes encoding, up to an empty list of names, which only a hollow
list in a decoded text leads to. -/
theorem codec_round_trip_iff (cJSON_Parse : CString → Option CJson) (msg : Message) (out_json_size : Nat)
    (out_json : List UInt8) (hencode : message_to_json msg out_json_size = some out_json)
    (hparse : cJSON_Parse (.of_bytes (cJSON_PrintUnformatted (message_object msg))) = some (message_object msg)) :
    (message_from_json cJSON_Parse (.of_bytes out_json) = some msg ↔ msg.usernames ≠ some []) ∧
      ∀ json_raw, message_from_json cJSON_Parse json_raw = some msg →
        (message_from_json cJSON_Parse (.of_bytes out_json) = some msg ↔ ¬ HollowUsernames cJSON_Parse json_raw) := by
  have hdecode : message_from_json cJSON_Parse (.of_bytes out_json) = some msg ↔ msg.usernames ≠ some [] := by
    obtain ⟨rfl, -⟩ := message_to_json_eq_some_iff.mp hencode
    rw [message_from_json_message_object hparse, Option.some.injEq, Message.decoded_eq_iff]
  refine ⟨hdecode, fun json_raw haccepted => ?_⟩
  rw [hdecode, ← usernames_eq_some_nil_iff haccepted]

/-- A request whose list of names holds a number only. -/
def hollow_invite : CJson := .object [
  (.lit "type", .string (.lit "INVITE")),
  (.lit "roomname", .string (.lit "Sala 1")),
  (.lit "usernames", .array [.number ⟨.lit "1", by decide⟩])]

def hollow_invite_message : Message :=
  { message_init with type := .INVITE, roomname := some (.lit "Sala 1"), usernames := some [] }

/-- The request is accepted with an empty list of names, is encoded without it,
and comes back without any list. -/
theorem hollow_usernames_do_not_come_back :
    ∃ (cJSON_Parse : CString → Option CJson) (json_raw : CString) (msg : Message) (out_json : List UInt8),
      message_from_json cJSON_Parse json_raw = some msg ∧
      message_to_json msg SERVER_BUFFER_SIZE = some out_json ∧
      cJSON_Parse (.of_bytes (cJSON_PrintUnformatted (message_object msg))) = some (message_object msg) ∧
      message_from_json cJSON_Parse (.of_bytes out_json) ≠ some msg := by
  let known := [hollow_invite, message_object hollow_invite_message]
  let raw := CString.of_bytes (cJSON_PrintUnformatted hollow_invite)
  refine ⟨fun raw => parse_known known raw.bytes, raw, hollow_invite_message,
    cJSON_PrintUnformatted (message_object hollow_invite_message), rfl, rfl, rfl, ?_⟩
  intro hsame
  have hnames := congrArg (fun decoded => decoded.map Message.usernames) hsame
  revert hnames
  decide

def invite_message : Message :=
  { message_init with type := .INVITE, roomname := some (.lit "Sala 1"), usernames := some [.lit "luis"] }

theorem codec_round_trip_iff_for_invite :
    ∃ (cJSON_Parse : CString → Option CJson) (out_json : List UInt8),
      message_to_json invite_message SERVER_BUFFER_SIZE = some out_json ∧
      message_from_json cJSON_Parse (.of_bytes out_json) = some invite_message :=
  ⟨fun raw => parse_known [message_object invite_message] raw.bytes, _, rfl,
    (codec_round_trip_iff (fun raw => parse_known [message_object invite_message] raw.bytes) invite_message
      SERVER_BUFFER_SIZE (cJSON_PrintUnformatted (message_object invite_message)) rfl rfl).1.mpr (by decide)⟩

end ojalvo
