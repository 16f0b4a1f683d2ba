import Mathlib.Data.List.Forall2
import OjalvoChat.CJson
import OjalvoChat.Library.Utf16
import OjalvoChat.Library.Utf8

namespace ojalvo

/-- A string of a JSON document, as UTF-16 code units. An escape can leave a surrogate
without its partner. -/
abbrev JsonString := List UInt16

instance : Coe String JsonString := ⟨utf16_units⟩

/-- A JSON value of the client. -/
inductive JsonElement where
  | null
  | bool (value : Bool)
  | number (raw : String)
  | string (value : JsonString)
  | array (items : List JsonElement)
  | object (properties : List (JsonString × JsonElement))

/-- What is thrown when a value is of another kind, and when a string without a text
is read. -/
structure InvalidOperationException where

abbrev Throws := Except InvalidOperationException

/-- The string as a text. -/
def JsonString.GetText (string : JsonString) : Throws String :=
  match utf16_text string with
  | some text => .ok text
  | none => .error {}

/-- Looks for a property. Whether a key is unescaped before it is compared with the
name is up to the library, and a surrogate without its partner is only noticed then. -/
def find_property (unescapes : JsonString → String → Bool) (name : String)
    (properties : List (JsonString × JsonElement)) : Throws (Option JsonElement) :=
  match properties with
  | [] => return none
  | (key, value) :: rest =>
    if key = utf16_units name then return some value
    else if utf16_text key = none ∧ unescapes key name then .error {}
    else find_property unescapes name rest

/-- The last property with this name: the search begins at the end. -/
def JsonElement.TryGetProperty (unescapes : JsonString → String → Bool) (element : JsonElement) (name : String) :
    Throws (Option JsonElement) :=
  match element with
  | .object properties => find_property unescapes name properties.reverse
  | _ => .error {}

def JsonElement.GetString (element : JsonElement) : Throws (Option String) :=
  match element with
  | .string value => do return some (← value.GetText)
  | .null => .ok none
  | _ => .error {}

def JsonElement.EnumerateObject (element : JsonElement) : Throws (List (JsonString × JsonElement)) :=
  match element with
  | .object properties => .ok properties
  | _ => .error {}

/-- The value of the last property with this name. -/
def property (properties : List (JsonString × JsonElement)) (name : String) : Option JsonElement :=
  (properties.reverse.find? fun property => property.1 = utf16_units name).map Prod.snd

/-- The characters that a C string encodes, if it encodes any. -/
def CString.unicode (text : CString) : Option String := String.fromUTF8? text.bytes.toByteArray

/-- The code units of these characters. -/
def CString.utf16 (text : CString) : Option JsonString := text.unicode.map utf16_units

mutual

/-- The value that the client has where the server has this one. There is none if a
string is not valid UTF-8. -/
def CJson.document (value : CJson) : Option JsonElement :=
  match value with
  | .null => some .null
  | .bool value => some (.bool value)
  | .number printed => if printed.text = .lit "null" then some .null else printed.text.unicode.map .number
  | .string valuestring => valuestring.utf16.map .string
  | .array items => (item_documents items).map .array
  | .object fields => (field_documents fields).map .object

def item_documents (items : List CJson) : Option (List JsonElement) :=
  match items with
  | [] => some []
  | item :: rest =>
    match item.document, item_documents rest with
    | some first, some others => some (first :: others)
    | _, _ => none

def field_documents (fields : List (CString × CJson)) : Option (List (JsonString × JsonElement)) :=
  match fields with
  | [] => some []
  | (name, value) :: rest =>
    match name.utf16, value.document, field_documents rest with
    | some name, some first, some others => some ((name, first) :: others)
    | _, _, _ => none

end

section Unicode

variable {text : CString} {string : String}

theorem CString.unicode_eq_some_iff : text.unicode = some string ↔ string.toUTF8.data.toList = text.bytes :=
  fromUTF8_eq_some_iff

theorem CString.exists_unicode (hvalid : Utf8 text.bytes) : ∃ string, text.unicode = some string :=
  ⟨_, dif_pos hvalid⟩

/-- Different strings encode different characters. -/
theorem CString.unicode_inj {other : CString} (hfirst : text.unicode = some string)
    (hsecond : other.unicode = some string) : text = other := by
  rw [unicode_eq_some_iff] at hfirst hsecond
  obtain ⟨bytes, hfree⟩ := text
  obtain ⟨others, hotherfree⟩ := other
  obtain rfl : bytes = others := hfirst.symm.trans hsecond
  rfl

theorem CString.unicode_lit (hfree : 0 ∉ string.toUTF8.data.toList) : (CString.lit string).unicode = some string :=
  unicode_eq_some_iff.mpr (of_bytes_of_nul_free hfree).symm

theorem CString.utf16_eq_some_iff {units : JsonString} :
    text.utf16 = some units ↔ ∃ string, text.unicode = some string ∧ utf16_units string = units :=
  Option.map_eq_some_iff

/-- The code units of a text are those of its characters. -/
theorem CString.utf16_eq_units_iff : text.utf16 = some (utf16_units string) ↔ text.unicode = some string := by
  simp [utf16_eq_some_iff]

end Unicode

section Documents

variable {fields : List (CString × CJson)}

/-- The properties of an object, one for each field. -/
theorem field_documents_eq_some_iff {properties : List (JsonString × JsonElement)} :
    field_documents fields = some properties ↔
      List.Forall₂ (fun field property => field.1.utf16 = some property.1 ∧ field.2.document = some property.2)
        fields properties := by
  induction fields generalizing properties with
  | nil =>
    rw [List.forall₂_nil_left_iff]
    exact ⟨fun hsome => (Option.some.inj hsome).symm, fun hnil => hnil ▸ rfl⟩
  | cons field rest ih =>
    obtain ⟨name, value⟩ := field
    rw [List.forall₂_cons_left_iff, field_documents]
    constructor
    · intro hsome
      split at hsome
      · rename_i key first others hkey hfirst hothers
        cases hsome
        exact ⟨(key, first), others, ⟨hkey, hfirst⟩, ih.mp hothers, rfl⟩
      · cases hsome
    · rintro ⟨⟨key, first⟩, others, ⟨hkey, hfirst⟩, hothers, rfl⟩
      rw [hkey, hfirst, ih.mpr hothers]

theorem item_documents_eq_some_iff {items : List CJson} {elements : List JsonElement} :
    item_documents items = some elements ↔
      List.Forall₂ (fun item element => item.document = some element) items elements := by
  induction items generalizing elements with
  | nil =>
    rw [List.forall₂_nil_left_iff]
    exact ⟨fun hsome => (Option.some.inj hsome).symm, fun hnil => hnil ▸ rfl⟩
  | cons item rest ih =>
    rw [List.forall₂_cons_left_iff, item_documents]
    constructor
    · intro hsome
      split at hsome
      · rename_i first others hfirst hothers
        cases hsome
        exact ⟨first, others, hfirst, ih.mp hothers, rfl⟩
      · cases hsome
    · rintro ⟨first, others, hfirst, hothers, rfl⟩
      rw [hfirst, ih.mpr hothers]

theorem document_number {printed : NumberText} {element : JsonElement}
    (hdocument : (CJson.number printed).document = some element) : element = .null ∨ ∃ raw, element = .number raw := by
  rw [CJson.document] at hdocument
  split at hdocument
  · exact Or.inl (Option.some.inj hdocument).symm
  · obtain ⟨raw, -, hraw⟩ := Option.map_eq_some_iff.mp hdocument
    exact Or.inr ⟨raw, hraw.symm⟩

theorem document_eq_string_iff {value : CJson} {string : String} :
    value.document = some (.string string) ↔ ∃ text, value = .string text ∧ text.unicode = some string := by
  constructor
  · intro hdocument
    cases value with
    | string text =>
      obtain ⟨units, hunits, hsame⟩ := Option.map_eq_some_iff.mp hdocument
      cases hsame
      exact ⟨text, rfl, CString.utf16_eq_units_iff.mp hunits⟩
    | number printed =>
      obtain hnull | ⟨raw, hraw⟩ := document_number hdocument
      · cases hnull
      · cases hraw
    | null => cases hdocument
    | bool value => cases hdocument
    | array items => simp [CJson.document] at hdocument
    | object fields => simp [CJson.document] at hdocument
  · rintro ⟨text, rfl, hunicode⟩
    rw [CJson.document, CString.utf16_eq_units_iff.mpr hunicode, Option.map_some]

theorem document_eq_array_iff {value : CJson} {elements : List JsonElement} :
    value.document = some (.array elements) ↔ ∃ items, value = .array items ∧ item_documents items = some elements := by
  constructor
  · intro hdocument
    cases value with
    | array items =>
      obtain ⟨others, hitems, hsame⟩ := Option.map_eq_some_iff.mp hdocument
      cases hsame
      exact ⟨items, rfl, hitems⟩
    | number printed =>
      obtain hnull | ⟨raw, hraw⟩ := document_number hdocument
      · cases hnull
      · cases hraw
    | null => cases hdocument
    | bool value => cases hdocument
    | string text => simp [CJson.document] at hdocument
    | object fields => simp [CJson.document] at hdocument
  · rintro ⟨items, rfl, hitems⟩
    rw [CJson.document, hitems, Option.map_some]

theorem document_eq_object_iff {value : CJson} {properties : List (JsonString × JsonElement)} :
    value.document = some (.object properties) ↔
      ∃ fields, value = .object fields ∧ field_documents fields = some properties := by
  constructor
  · intro hdocument
    cases value with
    | object fields =>
      obtain ⟨others, hfields, hsame⟩ := Option.map_eq_some_iff.mp hdocument
      cases hsame
      exact ⟨fields, rfl, hfields⟩
    | number printed =>
      obtain hnull | ⟨raw, hraw⟩ := document_number hdocument
      · cases hnull
      · cases hraw
    | null => cases hdocument
    | bool value => cases hdocument
    | string text => simp [CJson.document] at hdocument
    | array items => simp [CJson.document] at hdocument
  · rintro ⟨fields, rfl, hfields⟩
    rw [CJson.document, hfields, Option.map_some]

end Documents

end ojalvo
