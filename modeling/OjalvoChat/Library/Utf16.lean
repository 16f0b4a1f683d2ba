import Mathlib.Data.List.Basic

/-- The code units of a character. -/
def utf16 (c : Char) : List UInt16 :=
  if c.toNat < 0x10000 then [UInt16.ofNat c.toNat]
  else [UInt16.ofNat (0xD800 + (c.toNat - 0x10000) / 0x400), UInt16.ofNat (0xDC00 + (c.toNat - 0x10000) % 0x400)]

def HighSurrogate (unit : UInt16) : Prop := 0xD800 ≤ unit.toNat ∧ unit.toNat < 0xDC00

def LowSurrogate (unit : UInt16) : Prop := 0xDC00 ≤ unit.toNat ∧ unit.toNat < 0xE000

instance (unit : UInt16) : Decidable (HighSurrogate unit) :=
  inferInstanceAs (Decidable (0xD800 ≤ unit.toNat ∧ unit.toNat < 0xDC00))

instance (unit : UInt16) : Decidable (LowSurrogate unit) :=
  inferInstanceAs (Decidable (0xDC00 ≤ unit.toNat ∧ unit.toNat < 0xE000))

/-- The characters of some code units, unless a surrogate has no partner. -/
def utf16_characters (units : List UInt16) : Option (List Char) :=
  match units with
  | [] => some []
  | unit :: rest =>
    if HighSurrogate unit then
      match rest with
      | [] => none
      | low :: rest =>
        if LowSurrogate low then
          let c := Char.ofNat (0x10000 + (unit.toNat - 0xD800) * 0x400 + (low.toNat - 0xDC00))
          (utf16_characters rest).map (c :: ·)
        else none
    else if LowSurrogate unit then none
    else (utf16_characters rest).map (Char.ofNat unit.toNat :: ·)

/-- The code units of a text. -/
def utf16_units (text : String) : List UInt16 := text.toList.flatMap utf16

/-- The text of some code units, unless a surrogate has no partner. -/
def utf16_text (units : List UInt16) : Option String := (utf16_characters units).map String.ofList

/-- No character is a surrogate. -/
theorem toNat_not_surrogate (c : Char) : c.toNat < 0xD800 ∨ 0xE000 ≤ c.toNat ∧ c.toNat < 0x110000 := by
  rcases c.valid with hlow | ⟨hhigh, hmost⟩
  · exact Or.inl hlow
  · exact Or.inr ⟨hhigh, hmost⟩

/-- A character of one code unit is read. -/
theorem utf16_characters_short {c : Char} (hshort : c.toNat < 0x10000) (rest : List UInt16) :
    utf16_characters (utf16 c ++ rest) = (utf16_characters rest).map (c :: ·) := by
  have hscalar := toNat_not_surrogate c
  have hunit : (UInt16.ofNat c.toNat).toNat = c.toNat := by
    rw [UInt16.toNat_ofNat', Nat.mod_eq_of_lt hshort]
  have hhigh : ¬ HighSurrogate (UInt16.ofNat c.toNat) := by
    rw [HighSurrogate, hunit]
    omega
  have hlow : ¬ LowSurrogate (UInt16.ofNat c.toNat) := by
    rw [LowSurrogate, hunit]
    omega
  rw [utf16, if_pos hshort, List.singleton_append, utf16_characters.eq_def]
  dsimp only
  rw [if_neg hhigh, if_neg hlow, hunit, Char.ofNat_toNat]

/-- A character of two code units is read. -/
theorem utf16_characters_long {c : Char} (hlong : ¬ c.toNat < 0x10000) (rest : List UInt16) :
    utf16_characters (utf16 c ++ rest) = (utf16_characters rest).map (c :: ·) := by
  have hscalar := toNat_not_surrogate c
  have hfirst : (UInt16.ofNat (0xD800 + (c.toNat - 0x10000) / 0x400)).toNat =
      0xD800 + (c.toNat - 0x10000) / 0x400 := by
    rw [UInt16.toNat_ofNat', Nat.mod_eq_of_lt (by omega)]
  have hsecond : (UInt16.ofNat (0xDC00 + (c.toNat - 0x10000) % 0x400)).toNat =
      0xDC00 + (c.toNat - 0x10000) % 0x400 := by
    rw [UInt16.toNat_ofNat', Nat.mod_eq_of_lt (by omega)]
  have hhigh : HighSurrogate (UInt16.ofNat (0xD800 + (c.toNat - 0x10000) / 0x400)) := by
    rw [HighSurrogate, hfirst]
    omega
  have hlow : LowSurrogate (UInt16.ofNat (0xDC00 + (c.toNat - 0x10000) % 0x400)) := by
    rw [LowSurrogate, hsecond]
    omega
  have hvalue : 0x10000 + (0xD800 + (c.toNat - 0x10000) / 0x400 - 0xD800) * 0x400 +
      (0xDC00 + (c.toNat - 0x10000) % 0x400 - 0xDC00) = c.toNat := by omega
  rw [utf16, if_neg hlong, List.cons_append, List.singleton_append, utf16_characters]
  rw [if_pos hhigh]
  dsimp only
  rw [if_pos hlow, hfirst, hsecond, hvalue, Char.ofNat_toNat]

theorem utf16_characters_append (c : Char) (rest : List UInt16) :
    utf16_characters (utf16 c ++ rest) = (utf16_characters rest).map (c :: ·) := by
  by_cases hshort : c.toNat < 0x10000
  · exact utf16_characters_short hshort rest
  · exact utf16_characters_long hshort rest

theorem utf16_characters_flatMap (text : List Char) : utf16_characters (text.flatMap utf16) = some text := by
  induction text with
  | nil => rfl
  | cons c rest ih => rw [List.flatMap_cons, utf16_characters_append, ih, Option.map_some]

/-- The code units of a text have that text. -/
@[simp] theorem utf16_text_units (text : String) : utf16_text (utf16_units text) = some text := by
  rw [utf16_text, utf16_units, utf16_characters_flatMap, Option.map_some, String.ofList_toList]

@[simp] theorem utf16_units_inj {first second : String} : utf16_units first = utf16_units second ↔ first = second := by
  refine ⟨fun hsame => ?_, fun hsame => hsame ▸ rfl⟩
  have htexts := congrArg utf16_text hsame
  rwa [utf16_text_units, utf16_text_units, Option.some.injEq] at htexts
