import OjalvoChat.CString

namespace ojalvo

/-- The text that cJSON prints for a number. What is not finite prints as
`null`. -/
structure NumberText where
  text : CString
  printed : text = .lit "null" ∨ text.bytes ⊆ (CString.lit "+-.0123456789e").bytes

/-- A cJSON value. Object fields keep their order and their repetitions; a
number is kept as the text that cJSON prints for it. -/
inductive CJson where
  | null
  | bool (value : Bool)
  | number (printed : NumberText)
  | string (valuestring : CString)
  | array (items : List CJson)
  | object (fields : List (CString × CJson))

def cJSON_CreateObject : CJson := .object []

/-- The fields of an object. Other values have none. -/
def CJson.fields (value : CJson) : List (CString × CJson) :=
  match value with
  | .object fields => fields
  | _ => []

def cJSON_AddItemToObject (object : CJson) (name : CString) (item : CJson) : CJson :=
  match object with
  | .object fields => .object (fields ++ [(name, item)])
  | other => other

def cJSON_AddStringToObject (object : CJson) (name text : CString) : CJson :=
  cJSON_AddItemToObject object name (.string text)

/-- The first field with exactly this name. -/
def cJSON_GetObjectItemCaseSensitive (object : CJson) (name : CString) : Option CJson :=
  (object.fields.find? fun field => field.1 = name).map Prod.snd

def tolower (byte : UInt8) : UInt8 := if 65 ≤ byte ∧ byte ≤ 90 then byte + 32 else byte

/-- Takes out the first field with this name in upper or lower case. -/
def cJSON_DetachItemFromObject (object : CJson) (name : CString) : Option CJson × CJson :=
  let matching := fun field : CString × CJson => field.1.bytes.map tolower = name.bytes.map tolower
  match object with
  | .object fields => ((fields.find? fun field => matching field).map Prod.snd,
      .object (fields.eraseP fun field => matching field))
  | other => (none, other)

/-- One byte of a printed string. -/
def cJSON_escape (byte : UInt8) : List UInt8 :=
  let hex := fun digit : UInt8 => if digit < 10 then 48 + digit else 87 + digit
  if byte = 34 ∨ byte = 92 then [92, byte]
  else if byte = 8 then [92, 98]
  else if byte = 12 then [92, 102]
  else if byte = 10 then [92, 110]
  else if byte = 13 then [92, 114]
  else if byte = 9 then [92, 116]
  else if byte < 32 then [92, 117, 48, 48, hex (byte / 16), hex (byte % 16)]
  else [byte]

def print_string (text : CString) : List UInt8 := 34 :: text.bytes.flatMap cJSON_escape ++ [34]

mutual

/-- The text of a value, without white space. -/
def cJSON_PrintUnformatted (value : CJson) : List UInt8 :=
  match value with
  | .null => (CString.lit "null").bytes
  | .bool true => (CString.lit "true").bytes
  | .bool false => (CString.lit "false").bytes
  | .number printed => printed.text.bytes
  | .string valuestring => print_string valuestring
  | .array items => 91 :: print_items items ++ [93]
  | .object fields => 123 :: print_fields fields ++ [125]

def print_items (items : List CJson) : List UInt8 :=
  match items with
  | [] => []
  | [item] => cJSON_PrintUnformatted item
  | item :: other :: rest => cJSON_PrintUnformatted item ++ 44 :: print_items (other :: rest)

def print_fields (fields : List (CString × CJson)) : List UInt8 :=
  match fields with
  | [] => []
  | [(name, value)] => print_string name ++ 58 :: cJSON_PrintUnformatted value
  | (name, value) :: other :: rest =>
    print_string name ++ 58 :: cJSON_PrintUnformatted value ++ 44 :: print_fields (other :: rest)

end

section Printable

theorem printable_cJSON_escape (byte : UInt8) : ∀ printed ∈ cJSON_escape byte, 32 ≤ printed := by
  have hall : ∀ code < 256, ∀ printed ∈ cJSON_escape (UInt8.ofNat code), 32 ≤ printed := by decide +kernel
  have hbyte := hall byte.toNat byte.toNat_lt
  rwa [UInt8.ofNat_toNat] at hbyte

theorem printable_print_string (text : CString) : ∀ printed ∈ print_string text, 32 ≤ printed := by
  simp only [print_string, List.forall_mem_append, List.forall_mem_cons]
  refine ⟨⟨by decide, fun printed hmem => ?_⟩, by decide, List.forall_mem_nil _⟩
  obtain ⟨byte, -, hprinted⟩ := List.mem_flatMap.mp hmem
  exact printable_cJSON_escape byte printed hprinted

theorem NumberText.printable (number : NumberText) : ∀ printed ∈ number.text.bytes, 32 ≤ printed := by
  intro printed hmem
  rcases number.printed with hnull | hsubset
  · rw [hnull] at hmem
    revert printed
    decide +kernel
  · have hall : ∀ byte ∈ (CString.lit "+-.0123456789e").bytes, 32 ≤ byte := by decide +kernel
    exact hall printed (hsubset hmem)

mutual

/-- No control byte is printed, so neither NUL nor newline. -/
theorem printable_cJSON_PrintUnformatted (value : CJson) : ∀ printed ∈ cJSON_PrintUnformatted value, 32 ≤ printed := by
  cases value with
  | null => decide +kernel
  | bool value => cases value <;> decide +kernel
  | number number => exact number.printable
  | string valuestring => exact printable_print_string valuestring
  | array items =>
    have hitems := printable_print_items items
    simp only [cJSON_PrintUnformatted, List.forall_mem_append, List.forall_mem_cons]
    exact ⟨⟨by decide, hitems⟩, by decide, List.forall_mem_nil _⟩
  | object fields =>
    have hfields := printable_print_fields fields
    simp only [cJSON_PrintUnformatted, List.forall_mem_append, List.forall_mem_cons]
    exact ⟨⟨by decide, hfields⟩, by decide, List.forall_mem_nil _⟩

theorem printable_print_items (items : List CJson) : ∀ printed ∈ print_items items, 32 ≤ printed := by
  match items with
  | [] => exact List.forall_mem_nil _
  | [item] => exact printable_cJSON_PrintUnformatted item
  | item :: other :: rest =>
    simp only [print_items, List.forall_mem_append, List.forall_mem_cons]
    exact ⟨printable_cJSON_PrintUnformatted item, by decide, printable_print_items (other :: rest)⟩

theorem printable_print_fields (fields : List (CString × CJson)) : ∀ printed ∈ print_fields fields, 32 ≤ printed := by
  match fields with
  | [] => exact List.forall_mem_nil _
  | [(name, value)] =>
    simp only [print_fields, List.forall_mem_append, List.forall_mem_cons]
    exact ⟨printable_print_string name, by decide, printable_cJSON_PrintUnformatted value⟩
  | (name, value) :: other :: rest =>
    simp only [print_fields, List.forall_mem_append, List.forall_mem_cons]
    exact ⟨⟨printable_print_string name, by decide, printable_cJSON_PrintUnformatted value⟩, by decide,
      printable_print_fields (other :: rest)⟩

end

theorem newline_not_mem_print (value : CJson) : 10 ∉ cJSON_PrintUnformatted value := fun hmem =>
  absurd (printable_cJSON_PrintUnformatted value 10 hmem) (by decide)

/-- The printed text is a C string as it stands. -/
theorem nul_not_mem_print (value : CJson) : 0 ∉ cJSON_PrintUnformatted value := fun hmem =>
  absurd (printable_cJSON_PrintUnformatted value 0 hmem) (by decide)

end Printable

/-- A parser that reads back the texts of some values. -/
def parse_known (values : List CJson) : List UInt8 → Option CJson := fun raw =>
  values.find? fun value => cJSON_PrintUnformatted value = raw

end ojalvo
