import Mathlib.Data.List.Basic

/-- The encoding of some characters. -/
def Utf8 (bytes : List UInt8) : Prop := bytes.toByteArray.IsValidUTF8

instance (bytes : List UInt8) : Decidable (Utf8 bytes) :=
  inferInstanceAs (Decidable bytes.toByteArray.IsValidUTF8)

/-- If a list is cut here, what is cut off begins with the first byte of a
character. -/
def CutsBetween (bytes : List UInt8) (limit : Nat) : Prop := ∀ byte ∈ bytes[limit]?, byte.IsUTF8FirstByte

instance (bytes : List UInt8) (limit : Nat) : Decidable (CutsBetween bytes limit) :=
  inferInstanceAs (Decidable (∀ byte ∈ bytes[limit]?, byte.IsUTF8FirstByte))

theorem toByteArray_toUTF8 (text : String) : text.toUTF8.data.toList.toByteArray = text.toUTF8 := by
  ext1
  rw [List.data_toByteArray]

theorem utf8_toUTF8 (text : String) : Utf8 text.toUTF8.data.toList := by
  rw [Utf8, toByteArray_toUTF8]
  exact text.isValidUTF8

/-- A prefix of an encoding is one exactly when it ends between two characters. -/
theorem Utf8.take_iff {bytes : List UInt8} (hvalid : Utf8 bytes) (limit : Nat) :
    Utf8 (bytes.take limit) ↔ CutsBetween bytes limit := by
  rcases Nat.lt_or_ge limit bytes.length with hinside | hpast
  · -- As a position of the decoded text, the cut is valid for both reasons.
    generalize htext : String.ofByteArray bytes.toByteArray hvalid = text
    have hbytes : text.toByteArray = bytes.toByteArray := htext ▸ rfl
    have hprefix : text.toByteArray.extract 0 limit = (bytes.take limit).toByteArray := by
      ext1
      simp [hbytes, ByteArray.data_extract]
    have hend : (⟨limit⟩ : String.Pos.Raw) < text.rawEndPos := by
      simpa [String.Pos.Raw.lt_iff, ← String.size_toByteArray, hbytes] using hinside
    have hbyte : text.getUTF8Byte ⟨limit⟩ hend = bytes[limit] := by
      simp [String.getUTF8Byte, hbytes, List.getElem_toByteArray]
    have hposition : (⟨limit⟩ : String.Pos.Raw).IsValid text ↔ Utf8 (bytes.take limit) := by
      rw [String.Pos.Raw.isValid_iff_isValidUTF8_extract_zero, hprefix]
      exact and_iff_right (Nat.le_of_lt hend)
    rw [← hposition, String.Pos.Raw.isValid_iff_isUTF8FirstByte, CutsBetween, List.getElem?_eq_getElem hinside]
    constructor
    · rintro (hlast | ⟨_, hfirst⟩) byte hsome
      · exact absurd (hlast ▸ hend) (Nat.lt_irrefl _)
      · cases hsome
        rwa [hbyte] at hfirst
    · intro hfirst
      exact Or.inr ⟨hend, hbyte ▸ hfirst _ rfl⟩
  · have hwhole : bytes[limit]? = none := List.getElem?_eq_none hpast
    rw [List.take_of_length_le hpast, CutsBetween, hwhole]
    exact iff_of_true hvalid nofun

/-- What precedes the first NUL of an encoding is one. -/
theorem Utf8.takeWhile_ne_zero {bytes : List UInt8} (hvalid : Utf8 bytes) : Utf8 (bytes.takeWhile (· ≠ 0)) := by
  generalize hfront : bytes.takeWhile (· ≠ 0) = front
  obtain ⟨back, hbytes⟩ : front <+: bytes := hfront ▸ List.takeWhile_prefix _
  have hback : bytes.dropWhile (· ≠ 0) = back := by
    have hwhole := List.takeWhile_append_dropWhile (p := (· ≠ 0)) (l := bytes)
    rw [hfront, ← hbytes] at hwhole
    rw [← List.append_cancel_left hwhole, hbytes]
  have htake : bytes.take front.length = front := by rw [← hbytes, List.take_left]
  rw [← htake, hvalid.take_iff]
  intro byte hbyte
  have hnext : back.head? = some byte := by
    rwa [← hbytes, List.getElem?_append_right (Nat.le_refl _), Nat.sub_self, ← List.head?_eq_getElem?] at hbyte
  have hnul := List.head?_dropWhile_not (· ≠ 0) bytes
  rw [hback, hnext] at hnul
  have hzero : byte = 0 := by simpa using hnul
  rw [hzero]
  decide

/-- Decoding and encoding are inverse to each other. -/
theorem fromUTF8_eq_some_iff {bytes : List UInt8} {text : String} :
    String.fromUTF8? bytes.toByteArray = some text ↔ text.toUTF8.data.toList = bytes := by
  unfold String.fromUTF8?
  constructor
  · intro hdecoded
    split at hdecoded
    · cases hdecoded
      exact List.toList_data_toByteArray
    · cases hdecoded
  · rintro rfl
    have hvalid : text.toUTF8.data.toList.toByteArray.IsValidUTF8 := utf8_toUTF8 text
    rw [dif_pos hvalid, Option.some.injEq, ← String.toByteArray_inj]
    exact toByteArray_toUTF8 text

theorem toUTF8_inj {first second : String} (hsame : first.toUTF8.data.toList = second.toUTF8.data.toList) :
    first = second := by
  have hfirst := fromUTF8_eq_some_iff.mpr hsame
  rw [fromUTF8_eq_some_iff.mpr rfl] at hfirst
  exact (Option.some.inj hfirst).symm

section Characters

theorem toUTF8_ofList (characters : List Char) :
    (String.ofList characters).toUTF8.data.toList = characters.flatMap String.utf8EncodeChar := by
  change (String.ofList characters).toByteArray.data.toList = _
  rw [String.toByteArray_ofList, List.utf8Encode, List.toList_data_toByteArray]

theorem utf8_iff_exists_characters {bytes : List UInt8} :
    Utf8 bytes ↔ ∃ characters : List Char, bytes = characters.flatMap String.utf8EncodeChar := by
  constructor
  · rintro ⟨characters, hbytes⟩
    refine ⟨characters, ?_⟩
    rw [← List.toList_data_toByteArray (l := bytes), hbytes, List.utf8Encode, List.toList_data_toByteArray]
  · rintro ⟨characters, rfl⟩
    exact ⟨characters, rfl⟩

theorem Utf8.append {first second : List UInt8} (hfirst : Utf8 first) (hsecond : Utf8 second) :
    Utf8 (first ++ second) := by
  obtain ⟨characters, rfl⟩ := utf8_iff_exists_characters.mp hfirst
  obtain ⟨others, rfl⟩ := utf8_iff_exists_characters.mp hsecond
  exact utf8_iff_exists_characters.mpr ⟨characters ++ others, (List.flatMap_append ..).symm⟩

theorem utf8_nil : Utf8 [] := utf8_iff_exists_characters.mpr ⟨[], rfl⟩

/-- The bytes of ASCII stand for themselves. -/
theorem utf8_of_ascii {bytes : List UInt8} (hascii : ∀ byte ∈ bytes, byte < 128) : Utf8 bytes := by
  induction bytes with
  | nil => exact utf8_nil
  | cons byte rest ih =>
    obtain ⟨hbyte, hrest⟩ := List.forall_mem_cons.mp hascii
    have hall : ∀ code < 128, Utf8 [UInt8.ofNat code] := by decide +kernel
    have hfirst := hall byte.toNat (UInt8.lt_iff_toNat_lt.mp hbyte)
    rw [UInt8.ofNat_toNat] at hfirst
    exact hfirst.append (ih hrest)

/-- A character of ASCII is one byte, and no byte of any other character is of ASCII. -/
theorem ascii_or_not (character : Char) :
    (character.toNat < 128 ∧ String.utf8EncodeChar character = [UInt8.ofNat character.toNat]) ∨
      (128 ≤ character.toNat ∧ ∀ byte ∈ String.utf8EncodeChar character, 128 ≤ byte) := by
  have hbyte {code : Nat} (hcode : 128 ≤ code % 256) : 128 ≤ UInt8.ofNat code := by
    rw [UInt8.le_iff_toNat_le, UInt8.toNat_ofNat']
    exact hcode
  have hvalue : character.toNat = character.val.toNat := rfl
  fun_cases String.utf8EncodeChar character with
  | case1 v hsingle => exact Or.inl ⟨Nat.lt_succ_of_le hsingle, rfl⟩
  | case2 v =>
    simp only [List.forall_mem_cons, List.not_mem_nil, false_implies, implies_true, and_true]
    exact Or.inr ⟨by omega, hbyte (by omega), hbyte (by omega)⟩
  | case3 v =>
    simp only [List.forall_mem_cons, List.not_mem_nil, false_implies, implies_true, and_true]
    exact Or.inr ⟨by omega, hbyte (by omega), hbyte (by omega), hbyte (by omega)⟩
  | case4 v =>
    simp only [List.forall_mem_cons, List.not_mem_nil, false_implies, implies_true, and_true]
    exact Or.inr ⟨by omega, hbyte (by omega), hbyte (by omega), hbyte (by omega), hbyte (by omega)⟩

end Characters
