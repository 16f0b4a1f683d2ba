import Mathlib.Data.List.Forall2
import OjalvoChat.Client.Json

namespace ojalvo

/-- `StreamWriter.WriteLineAsync`, one line after another, with "\n" as the end of a line. -/
def WriteLines (lines : List String) : List UInt8 := lines.flatMap fun line => line.toUTF8.data.toList ++ [10]

/-- The lines that `StreamReader.ReadLineAsync` returns one after another. A line ends at "\n", at
"\r" or at "\r\n": after a "\r" the next "\n" ends nothing. -/
def ReadLines (returned : Bool) (input : List Char) : List (List Char) :=
  match input with
  | [] => []
  | first :: rest =>
    if first = '\n' then if returned then ReadLines false rest else [] :: ReadLines false rest
    else if first = '\r' then [] :: ReadLines true rest
    else
      match ReadLines false rest with
      | [] => [[first]]
      | line :: later => (first :: line) :: later

/-- The lines of some bytes, if these are valid UTF-8. -/
def read_lines (bytes : List UInt8) : Option (List String) :=
  (String.fromUTF8? bytes.toByteArray).map fun text => (ReadLines false text.toList).map String.ofList

section Lines

variable {line : List Char}

/-- One line without control characters, and whatever follows. -/
theorem ReadLines_cons (hreturn : '\r' ∉ line) (hnewline : '\n' ∉ line) (rest : List Char) :
    ReadLines false (line ++ '\n' :: rest) = line :: ReadLines false rest := by
  induction line with
  | nil => simp [ReadLines]
  | cons first others ih =>
    obtain ⟨hfirst, hothers⟩ := not_or.mp (List.mem_cons.not.mp hreturn)
    obtain ⟨hended, hlater⟩ := not_or.mp (List.mem_cons.not.mp hnewline)
    rw [List.cons_append, ReadLines, if_neg (Ne.symm hended), if_neg (Ne.symm hfirst), ih hothers hlater]

theorem toUTF8_eq_flatMap (text : String) : text.toUTF8.data.toList = text.toList.flatMap String.utf8EncodeChar := by
  rw [← toUTF8_ofList, String.ofList_toList]

/-- A text without control bytes has no control characters. -/
theorem not_mem_of_printable {text : String} (hprintable : ∀ byte ∈ text.toUTF8.data.toList, 32 ≤ byte)
    {character : Char} (hcontrol : character.toNat < 32) : character ∉ text.toList := by
  intro hmem
  rcases ascii_or_not character with ⟨-, hencode⟩ | ⟨hother, -⟩
  · have hbyte : UInt8.ofNat character.toNat ∈ text.toUTF8.data.toList := by
      rw [toUTF8_eq_flatMap, List.mem_flatMap]
      exact ⟨character, hmem, hencode ▸ List.mem_singleton_self _⟩
    have hprinted := UInt8.le_iff_toNat_le.mp (hprintable _ hbyte)
    rw [UInt8.toNat_ofNat', Nat.mod_eq_of_lt (by omega)] at hprinted
    exact absurd hcontrol (Nat.not_lt.mpr hprinted)
  · omega

/-- A reader gets the lines that were written. -/
theorem read_lines_write_lines (lines : List String)
    (hprintable : ∀ line ∈ lines, ∀ byte ∈ line.toUTF8.data.toList, 32 ≤ byte) :
    read_lines (WriteLines lines) = some lines := by
  have hinput : String.fromUTF8? (WriteLines lines).toByteArray =
      some (.ofList (lines.flatMap fun line => line.toList ++ ['\n'])) := by
    rw [fromUTF8_eq_some_iff, toUTF8_ofList, List.flatMap_assoc]
    refine List.flatMap_congr fun line _ => ?_
    rw [List.flatMap_append, ← toUTF8_eq_flatMap]
    rfl
  have hlines : ReadLines false (lines.flatMap fun line => line.toList ++ ['\n']) = lines.map String.toList := by
    clear hinput
    induction lines with
    | nil => rfl
    | cons line rest ih =>
      obtain ⟨hline, hrest⟩ := List.forall_mem_cons.mp hprintable
      rw [List.flatMap_cons, List.append_assoc, List.singleton_append,
        ReadLines_cons (not_mem_of_printable hline (by decide)) (not_mem_of_printable hline (by decide)), ih hrest,
        List.map_cons]
  rw [read_lines, hinput, Option.map_some, String.toList_ofList, hlines, List.map_map]
  simp [Function.comp_def]

end Lines

section Printed

theorem utf8_flatMap_escape {bytes : List UInt8} (hvalid : Utf8 bytes) : Utf8 (bytes.flatMap cJSON_escape) := by
  obtain ⟨characters, rfl⟩ := utf8_iff_exists_characters.mp hvalid
  clear hvalid
  induction characters with
  | nil => exact utf8_nil
  | cons character rest ih =>
    rw [List.flatMap_cons, List.flatMap_append]
    refine Utf8.append ?_ ih
    rcases ascii_or_not character with ⟨hascii, hencode⟩ | ⟨-, hother⟩
    · have hall : ∀ code < 128, ∀ printed ∈ cJSON_escape (UInt8.ofNat code), printed < 128 := by decide +kernel
      rw [hencode, List.flatMap_singleton]
      exact utf8_of_ascii (hall character.toNat hascii)
    · have hsame : (String.utf8EncodeChar character).flatMap cJSON_escape = String.utf8EncodeChar character := by
        have hall : ∀ code < 256, 128 ≤ code → cJSON_escape (UInt8.ofNat code) = [UInt8.ofNat code] := by
          decide +kernel
        rw [List.flatMap_congr fun byte hbyte => ?_, List.flatMap_pure_eq_map, List.map_id']
        have hescape := hall byte.toNat byte.toNat_lt (UInt8.le_iff_toNat_le.mp (hother byte hbyte))
        rwa [UInt8.ofNat_toNat] at hescape
      rw [hsame]
      exact utf8_iff_exists_characters.mpr ⟨[character], by simp⟩

theorem utf8_mark (mark : UInt8) (hascii : mark < 128) : Utf8 [mark] :=
  utf8_of_ascii (List.forall_mem_singleton.mpr hascii)

theorem utf8_print_string {text : CString} (hvalid : Utf8 text.bytes) : Utf8 (print_string text) :=
  ((utf8_mark 34 (by decide)).append (utf8_flatMap_escape hvalid)).append (utf8_mark _ (by decide))

theorem CString.utf8_of_unicode {text : CString} {string : String} (hunicode : text.unicode = some string) :
    Utf8 text.bytes := by
  rw [← unicode_eq_some_iff.mp hunicode]
  exact utf8_toUTF8 string

theorem CString.utf8_of_utf16 {text : CString} {units : JsonString} (hunits : text.utf16 = some units) :
    Utf8 text.bytes := by
  obtain ⟨string, hunicode, -⟩ := utf16_eq_some_iff.mp hunits
  exact utf8_of_unicode hunicode

mutual

/-- The text of a value that the client can have is valid UTF-8. -/
theorem utf8_print {value : CJson} {element : JsonElement} (hdocument : value.document = some element) :
    Utf8 (cJSON_PrintUnformatted value) := by
  cases value with
  | null => decide +kernel
  | bool value => cases value <;> decide +kernel
  | number printed =>
    rw [CJson.document] at hdocument
    split at hdocument
    · rename_i hnull
      rw [cJSON_PrintUnformatted, hnull]
      decide +kernel
    · obtain ⟨string, hunicode, -⟩ := Option.map_eq_some_iff.mp hdocument
      exact CString.utf8_of_unicode hunicode
  | string valuestring =>
    obtain ⟨units, hunits, -⟩ := Option.map_eq_some_iff.mp hdocument
    exact utf8_print_string (CString.utf8_of_utf16 hunits)
  | array items =>
    rw [CJson.document] at hdocument
    obtain ⟨elements, hitems, -⟩ := Option.map_eq_some_iff.mp hdocument
    exact ((utf8_mark 91 (by decide)).append (utf8_print_items hitems)).append
      (utf8_mark _ (by decide))
  | object fields =>
    rw [CJson.document] at hdocument
    obtain ⟨properties, hfields, -⟩ := Option.map_eq_some_iff.mp hdocument
    exact ((utf8_mark 123 (by decide)).append (utf8_print_fields hfields)).append
      (utf8_mark _ (by decide))

theorem utf8_print_items {items : List CJson} {elements : List JsonElement}
    (hdocuments : item_documents items = some elements) : Utf8 (print_items items) := by
  match items with
  | [] => exact utf8_nil
  | [item] =>
    obtain ⟨first, others, hfirst, -⟩ := List.forall₂_cons_left_iff.mp (item_documents_eq_some_iff.mp hdocuments)
    exact utf8_print hfirst
  | item :: other :: rest =>
    obtain ⟨first, others, hfirst, hothers, -⟩ :=
      List.forall₂_cons_left_iff.mp (item_documents_eq_some_iff.mp hdocuments)
    exact (utf8_print hfirst).append ((utf8_mark 44 (by decide)).append
      (utf8_print_items (item_documents_eq_some_iff.mpr hothers)))

theorem utf8_print_fields {fields : List (CString × CJson)} {properties : List (JsonString × JsonElement)}
    (hdocuments : field_documents fields = some properties) : Utf8 (print_fields fields) := by
  match fields with
  | [] => exact utf8_nil
  | [(name, value)] =>
    obtain ⟨first, others, ⟨hname, hfirst⟩, -⟩ :=
      List.forall₂_cons_left_iff.mp (field_documents_eq_some_iff.mp hdocuments)
    exact (utf8_print_string (CString.utf8_of_utf16 hname)).append
      ((utf8_mark 58 (by decide)).append (utf8_print hfirst))
  | (name, value) :: other :: rest =>
    obtain ⟨first, others, ⟨hname, hfirst⟩, hothers, -⟩ :=
      List.forall₂_cons_left_iff.mp (field_documents_eq_some_iff.mp hdocuments)
    exact ((utf8_print_string (CString.utf8_of_utf16 hname)).append
      ((utf8_mark 58 (by decide)).append (utf8_print hfirst))).append
      ((utf8_mark 44 (by decide)).append
        (utf8_print_fields (field_documents_eq_some_iff.mpr hothers)))

end

end Printed

end ojalvo
