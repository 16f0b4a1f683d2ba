import Mathlib.Data.List.Nodup
import OjalvoChat.MessageJson

namespace ojalvo

/-- An object with one field for each name that has a value. -/
def object_of (fields : List (CString × Option CJson)) : CJson :=
  .object (fields.filterMap fun field => field.2.map fun value => (field.1, value))

section Objects

variable {fields first last : List (CString × Option CJson)} {name : CString} {value : Option CJson}

theorem fields_object_of_append :
    (object_of (first ++ last)).fields = (object_of first).fields ++ (object_of last).fields :=
  List.filterMap_append

theorem exists_of_mem_fields_object_of {field : CString × CJson} (hmem : field ∈ (object_of fields).fields) :
    (field.1, some field.2) ∈ fields := by
  obtain ⟨⟨other, stored⟩, hfield, hkept⟩ := List.mem_filterMap.mp hmem
  obtain ⟨_, rfl, rfl⟩ := Option.map_eq_some_iff.mp hkept
  exact hfield

theorem object_of_append_none : object_of (fields ++ [(name, none)]) = object_of fields := by
  simp [object_of]

theorem object_of_append_none_append :
    object_of (fields ++ [(name, none)] ++ last) = object_of (fields ++ last) := by
  simp [object_of]

theorem cJSON_AddItemToObject_object_of (item : CJson) :
    cJSON_AddItemToObject (object_of fields) name item = object_of (fields ++ [(name, some item)]) := by
  simp [cJSON_AddItemToObject, object_of]

theorem add_string_field_object_of (field : Option CString) :
    add_string_field (object_of fields) name field = object_of (fields ++ [(name, field.map .string)]) := by
  cases field with
  | none => exact object_of_append_none.symm
  | some text => exact cJSON_AddItemToObject_object_of (.string text)

/-- Where names do not repeat, a field is found under its name. -/
theorem cJSON_GetObjectItemCaseSensitive_object_of (hmem : (name, value) ∈ fields)
    (hnodup : (fields.map Prod.fst).Nodup) :
    cJSON_GetObjectItemCaseSensitive (object_of fields) name = value := by
  unfold cJSON_GetObjectItemCaseSensitive
  cases hfind : (object_of fields).fields.find? fun field => field.1 = name with
  | none =>
    cases value with
    | none => rfl
    | some value =>
      have hfield : (name, value) ∈ (object_of fields).fields :=
        List.mem_filterMap.mpr ⟨(name, some value), hmem, rfl⟩
      have hother := List.find?_eq_none.mp hfind (name, value) hfield
      simp at hother
  | some field =>
    have hfield := exists_of_mem_fields_object_of (List.mem_of_find?_eq_some hfind)
    have hname : field.1 = name := by simpa using List.find?_some hfind
    have hsame := List.inj_on_of_nodup_map hnodup hfield hmem hname
    exact congrArg Prod.snd hsame

theorem get_string_field_object_of {field : Option CString} (hmem : (name, field.map .string) ∈ fields)
    (hnodup : (fields.map Prod.fst).Nodup) : get_string_field (object_of fields) name = field := by
  rw [get_string_field, cJSON_GetObjectItemCaseSensitive_object_of hmem hnodup]
  cases field <;> rfl

/-- A field whose name no other field has in any spelling is taken out, and the
others stay. -/
theorem cJSON_DetachItemFromObject_object_of
    (hothers : ∀ field ∈ first ++ last, field.1.bytes.map tolower ≠ name.bytes.map tolower) :
    cJSON_DetachItemFromObject (object_of (first ++ (name, value) :: last)) name =
      (value, object_of (first ++ last)) := by
  have hfree : ∀ fields : List (CString × Option CJson), fields ⊆ first ++ last →
      ∀ field ∈ (object_of fields).fields, ¬ field.1.bytes.map tolower = name.bytes.map tolower := by
    intro fields hsubset field hmem
    exact hothers _ (hsubset (exists_of_mem_fields_object_of hmem))
  have hfirst := hfree first (List.subset_append_left _ _)
  have hlast := hfree last (List.subset_append_right _ _)
  have hobject : object_of (first ++ (name, value) :: last) = .object ((object_of first).fields ++
      ((object_of [(name, value)]).fields ++ (object_of last).fields)) := by
    rw [← fields_object_of_append, ← fields_object_of_append]
    rfl
  rw [hobject]
  have hrest : CJson.object ((object_of first).fields ++ (object_of last).fields) = object_of (first ++ last) := by
    rw [← fields_object_of_append]
    rfl
  rw [← hrest]
  simp only [cJSON_DetachItemFromObject]
  cases value with
  | none =>
    have hnone : (object_of [(name, none)]).fields = [] := rfl
    have hall : ∀ field ∈ (object_of first).fields ++ (object_of last).fields,
        ¬ decide (field.1.bytes.map tolower = name.bytes.map tolower) = true := by
      simpa [or_imp, forall_and] using ⟨fun key stored => hfirst (key, stored), fun key stored => hlast (key, stored)⟩
    rw [hnone, List.nil_append, List.find?_eq_none.mpr hall, List.eraseP_of_forall_not hall]
    rfl
  | some value =>
    have hsome : (object_of [(name, some value)]).fields = [(name, value)] := rfl
    rw [hsome, List.find?_append, List.find?_eq_none.mpr (by simpa using hfirst),
      List.eraseP_append_right _ (by simpa using hfirst)]
    simp

/-- Taking out a field leaves those under other names in place. -/
theorem cJSON_GetObjectItemCaseSensitive_detach (object : CJson) {name detached : CString}
    (hother : name.bytes.map tolower ≠ detached.bytes.map tolower) :
    cJSON_GetObjectItemCaseSensitive (cJSON_DetachItemFromObject object detached).2 name =
      cJSON_GetObjectItemCaseSensitive object name := by
  cases object with
  | object fields =>
    unfold cJSON_GetObjectItemCaseSensitive cJSON_DetachItemFromObject
    refine congrArg (Option.map Prod.snd) ?_
    dsimp only [CJson.fields]
    induction fields with
    | nil => rfl
    | cons field rest ih =>
      by_cases hname : field.1 = name
      · simp [hname, hother]
      · by_cases hmatches : field.1.bytes.map tolower = detached.bytes.map tolower
        · simp [hmatches, hname]
        · simp [hmatches, hname, ih]
  | _ => rfl

end Objects

section Messages

/-- The fields of an encoded message, those that are absent included. -/
def message_fields (msg : Message) : List (CString × Option CJson) := [
  (.lit "type", some (.string (message_type_to_string msg.type))),
  (.lit "username", msg.username.map .string),
  (.lit "operation", msg.operation.map .string),
  (.lit "result", msg.result.map .string),
  (.lit "extra", msg.extra.map .string),
  (.lit "status", msg.status.map .string),
  (.lit "text", msg.text.map .string),
  (.lit "roomname", msg.roomname.map .string)]

/-- The list of names as it is encoded: an empty one is left out. -/
def usernames_item (usernames : Option (List CString)) : Option CJson :=
  match usernames with
  | some (first :: rest) => some (.array ((first :: rest).map .string))
  | _ => none

theorem message_object_eq (msg : Message) :
    message_object msg =
      object_of (message_fields msg ++
        (.lit "users", msg.users) :: [(.lit "usernames", usernames_item msg.usernames)]) := by
  have htype : cJSON_AddStringToObject cJSON_CreateObject (.lit "type") (message_type_to_string msg.type) =
      object_of [(.lit "type", some (.string (message_type_to_string msg.type)))] := rfl
  have husers : object_of (message_fields msg ++ (.lit "users", msg.users) ::
      [(.lit "usernames", usernames_item msg.usernames)]) =
      object_of (message_fields msg ++ [(.lit "users", msg.users)] ++
        [(.lit "usernames", usernames_item msg.usernames)]) := by
    rw [List.append_assoc]
    rfl
  have hstrings : object_of ([(CString.lit "type", some (CJson.string (message_type_to_string msg.type)))] ++
      [(CString.lit "username", msg.username.map CJson.string)] ++
      [(CString.lit "operation", msg.operation.map CJson.string)] ++
      [(CString.lit "result", msg.result.map CJson.string)] ++ [(CString.lit "extra", msg.extra.map CJson.string)] ++
      [(CString.lit "status", msg.status.map CJson.string)] ++ [(CString.lit "text", msg.text.map CJson.string)] ++
      [(CString.lit "roomname", msg.roomname.map CJson.string)]) = object_of (message_fields msg) := by
    simp only [message_fields, List.cons_append, List.nil_append]
  rw [husers]
  unfold message_object
  simp only [htype, add_string_field_object_of, hstrings]
  cases msg.users with
  | none =>
    dsimp only
    rcases msg.usernames with - | - | ⟨first, rest⟩
    · simp only [usernames_item, object_of_append_none]
    · simp only [usernames_item, object_of_append_none]
    · simp only [usernames_item, object_of_append_none_append, cJSON_AddItemToObject_object_of]
  | some users =>
    simp only [cJSON_AddItemToObject_object_of]
    rcases msg.usernames with - | - | ⟨first, rest⟩
    · simp only [usernames_item, object_of_append_none]
    · simp only [usernames_item, object_of_append_none]
    · simp only [usernames_item]

/-- What decoding makes of an encoded message: an empty list of names is lost. -/
def Message.decoded (msg : Message) : Message :=
  { msg with usernames := msg.usernames.filter fun usernames => ! usernames.isEmpty }

theorem get_usernames_usernames_item (usernames : Option (List CString)) :
    get_usernames (usernames_item usernames) = usernames.filter fun usernames => ! usernames.isEmpty := by
  rcases usernames with - | - | ⟨first, rest⟩
  · rfl
  · rfl
  · simp [usernames_item, get_usernames, List.filterMap_map, Option.filter]

/-- Decoding the object of a message. -/
theorem message_from_json_message_object {cJSON_Parse : CString → Option CJson} {json_raw : CString} {msg : Message}
    (hparse : cJSON_Parse json_raw = some (message_object msg)) :
    message_from_json cJSON_Parse json_raw = some msg.decoded := by
  let last : List (CString × Option CJson) := [(.lit "usernames", usernames_item msg.usernames)]
  let fields := message_fields msg ++ (.lit "users", msg.users) :: last
  have hobject : message_object msg = object_of fields := message_object_eq msg
  have hnodup : (fields.map Prod.fst).Nodup := by
    have hnames : fields.map Prod.fst = [.lit "type", .lit "username", .lit "operation", .lit "result", .lit "extra",
      .lit "status", .lit "text", .lit "roomname", .lit "users", .lit "usernames"] := rfl
    rw [hnames]
    decide
  have hrest : (message_fields msg ++ last).Sublist fields := (List.sublist_cons_self _ last).append_left _
  have hnames : get_usernames (cJSON_GetObjectItemCaseSensitive (object_of (message_fields msg ++ last))
      (.lit "usernames")) = msg.usernames.filter fun usernames => ! usernames.isEmpty := by
    rw [cJSON_GetObjectItemCaseSensitive_object_of (List.mem_append_right _ List.mem_cons_self)
      (hnodup.sublist (hrest.map _))]
    exact get_usernames_usernames_item msg.usernames
  have hdetach : cJSON_DetachItemFromObject (object_of fields) (.lit "users") =
      (msg.users, object_of (message_fields msg ++ last)) := by
    apply cJSON_DetachItemFromObject_object_of
    simp only [message_fields, last, List.cons_append, List.nil_append, List.forall_mem_cons]
    decide
  have htype : cJSON_GetObjectItemCaseSensitive (object_of fields) (.lit "type") =
      some (.string (message_type_to_string msg.type)) :=
    cJSON_GetObjectItemCaseSensitive_object_of List.mem_cons_self hnodup
  have hstring : ∀ name field, (name, Option.map CJson.string field) ∈ message_fields msg →
      get_string_field (object_of fields) name = field :=
    fun _ _ hmem => get_string_field_object_of (List.mem_append_left _ hmem) hnodup
  have hunfold : message_from_json cJSON_Parse json_raw = some {
      type := parse_message_type (message_type_to_string msg.type)
      username := get_string_field (object_of fields) (.lit "username")
      operation := get_string_field (object_of fields) (.lit "operation")
      result := get_string_field (object_of fields) (.lit "result")
      extra := get_string_field (object_of fields) (.lit "extra")
      status := get_string_field (object_of fields) (.lit "status")
      users := msg.users
      text := get_string_field (object_of fields) (.lit "text")
      roomname := get_string_field (object_of fields) (.lit "roomname")
      usernames := msg.usernames.filter fun usernames => ! usernames.isEmpty } := by
    rw [← hnames]
    unfold message_from_json
    rw [hparse, hobject]
    unfold object_of at htype hdetach ⊢
    simp only [htype, hdetach]
  rw [hunfold, parse_message_type_to_string, hstring _ msg.username (by simp [message_fields]),
    hstring _ msg.operation (by simp [message_fields]), hstring _ msg.result (by simp [message_fields]),
    hstring _ msg.extra (by simp [message_fields]), hstring _ msg.status (by simp [message_fields]),
    hstring _ msg.text (by simp [message_fields]), hstring _ msg.roomname (by simp [message_fields])]
  rfl

end Messages

section Decoding

variable {cJSON_Parse : CString → Option CJson} {raw : CString} {json : CJson} {msg : Message}

/-- The fields that the handlers read come from the object. -/
theorem fields_of_message_from_json (hparse : cJSON_Parse raw = some json)
    (haccepted : message_from_json cJSON_Parse raw = some msg) :
    (∃ type_item, cJSON_GetObjectItemCaseSensitive json (.lit "type") = some type_item) ∧
      msg.type = (match get_string_field json (.lit "type") with
        | some name => parse_message_type name
        | none => .UNKNOWN) ∧
      msg.username = get_string_field json (.lit "username") ∧ msg.status = get_string_field json (.lit "status") ∧
      msg.text = get_string_field json (.lit "text") ∧ msg.roomname = get_string_field json (.lit "roomname") ∧
      msg.usernames = get_usernames (cJSON_GetObjectItemCaseSensitive json (.lit "usernames")) := by
  unfold message_from_json at haccepted
  rw [hparse] at haccepted
  split at haccepted
  · rename_i fields hjson
    cases hjson
    dsimp only at haccepted
    cases htype : cJSON_GetObjectItemCaseSensitive (.object fields) (.lit "type") with
    | none =>
      rw [htype] at haccepted
      cases haccepted
    | some type_item =>
      rw [htype] at haccepted
      cases haccepted
      refine ⟨⟨type_item, rfl⟩, ?_, rfl, rfl, rfl, rfl, ?_⟩
      · simp only [get_string_field, htype]
        cases type_item <;> rfl
      · exact congrArg get_usernames (cJSON_GetObjectItemCaseSensitive_detach _ (by decide +kernel))
  · cases haccepted

/-- Decoding an object whose names do not repeat. -/
theorem decoded_object_of (names : List CString) {fields : List (CString × Option CJson)} {type : MessageType}
    (hparse : cJSON_Parse raw = some (object_of fields)) (hnames : fields.map Prod.fst = names) (hnodup : names.Nodup)
    (htype : (.lit "type", some (.string (message_type_to_string type))) ∈ fields) :
    ∃ msg, message_from_json cJSON_Parse raw = some msg ∧ msg.type = type ∧
      (∀ text, (.lit "username", some (.string text)) ∈ fields → msg.username = some text) ∧
      (∀ text, (.lit "status", some (.string text)) ∈ fields → msg.status = some text) ∧
      (∀ text, (.lit "text", some (.string text)) ∈ fields → msg.text = some text) ∧
      (∀ text, (.lit "roomname", some (.string text)) ∈ fields → msg.roomname = some text) ∧
      ∀ items, (.lit "usernames", some (.array items)) ∈ fields →
        msg.usernames = get_usernames (some (.array items)) := by
  subst hnames
  have hitem := cJSON_GetObjectItemCaseSensitive_object_of htype hnodup
  obtain ⟨msg, haccepted⟩ : ∃ msg, message_from_json cJSON_Parse raw = some msg := by
    unfold object_of at hparse hitem
    simp [message_from_json, hparse, hitem]
  obtain ⟨-, hread, husername, hstatus, htext, hroomname, husernames⟩ := fields_of_message_from_json hparse haccepted
  have hstring : ∀ name text, (name, some (.string text)) ∈ fields →
      get_string_field (object_of fields) name = some text := fun name text hmem => by
    rw [get_string_field, cJSON_GetObjectItemCaseSensitive_object_of hmem hnodup]
  refine ⟨msg, haccepted, ?_, fun text hmem => husername.trans (hstring _ text hmem),
    fun text hmem => hstatus.trans (hstring _ text hmem), fun text hmem => htext.trans (hstring _ text hmem),
    fun text hmem => hroomname.trans (hstring _ text hmem), fun items hmem => ?_⟩
  · rw [hread, hstring _ _ htype]
    exact parse_message_type_to_string type
  · rw [husernames, cJSON_GetObjectItemCaseSensitive_object_of hmem hnodup]

end Decoding

end ojalvo
