import Mathlib.Data.List.Nodup
import OjalvoChat.Library.JsonText

/-! A text has one value only: two readings of it that go on differently would have
to differ in the byte with which they go on. -/

namespace JsonText

section Spans

variable {p : UInt8 → Bool} {first second x y : List UInt8}

/-- Two runs of bytes of one kind in front of others are the same. -/
theorem eq_of_append_eq (hfirst : ∀ byte ∈ first, p byte = true) (hsecond : ∀ byte ∈ second, p byte = true)
    (hx : ∀ byte ∈ x.head?, p byte = false) (hy : ∀ byte ∈ y.head?, p byte = false)
    (hsame : first ++ x = second ++ y) : first = second ∧ x = y := by
  have htake : ∀ {text rest : List UInt8}, (∀ byte ∈ text, p byte = true) → (∀ byte ∈ rest.head?, p byte = false) →
      (text ++ rest).takeWhile p = text := by
    intro text rest htext hrest
    rw [List.takeWhile_append_of_pos htext]
    cases rest with
    | nil => simp
    | cons byte rest => simp [hrest byte rfl]
  have heq : first = second := by rw [← htake hfirst hx, hsame, htake hsecond hy]
  subst heq
  exact ⟨rfl, List.append_cancel_left hsame⟩

end Spans

section Numbers

def decimal (byte : UInt8) : Bool := 0x30 ≤ byte && byte ≤ 0x39

theorem Digits.all_decimal {text : List UInt8} (hdigits : Digits text) : ∀ byte ∈ text, decimal byte = true := by
  intro byte hmem
  simpa [decimal] using hdigits.2 byte hmem

theorem Exponent.head {text : List UInt8} {value : ℤ} (hexponent : Exponent text value) :
    ∀ byte ∈ text.head?, byte = 0x65 ∨ byte = 0x45 := by
  cases hexponent with
  | none => exact nofun
  | unsigned he hdigits => exact fun byte hmem => Option.some.inj hmem ▸ he
  | plus he hdigits => exact fun byte hmem => Option.some.inj hmem ▸ he
  | minus he hdigits => exact fun byte hmem => Option.some.inj hmem ▸ he

theorem Exponent.not_decimal {text : List UInt8} {value : ℤ} (hexponent : Exponent text value) :
    ∀ byte ∈ text.head?, decimal byte = false := by
  intro byte hmem
  rcases hexponent.head byte hmem with rfl | rfl <;> rfl

theorem Digits.not_signed {digits : List UInt8} {sign : UInt8} (hsign : decimal sign = false) :
    ¬ Digits (sign :: digits) := by
  intro hdigits
  have hdecimal := hdigits.all_decimal sign List.mem_cons_self
  rw [hsign] at hdecimal
  cases hdecimal

/-- An exponent is read in one way. -/
theorem Exponent.unique {first second : List UInt8} {value other : ℤ} (hfirst : Exponent first value)
    (hsecond : Exponent second other) (hsame : first = second) : value = other := by
  cases hfirst with
  | none =>
    cases hsecond with
    | none => rfl
    | _ => cases hsame
  | unsigned he hdigits =>
    cases hsecond with
    | none => cases hsame
    | unsigned he' hdigits' =>
      cases hsame
      rfl
    | plus he' hdigits' =>
      cases hsame
      exact (Digits.not_signed rfl hdigits).elim
    | minus he' hdigits' =>
      cases hsame
      exact (Digits.not_signed rfl hdigits).elim
  | plus he hdigits =>
    cases hsecond with
    | none => cases hsame
    | unsigned he' hdigits' =>
      cases hsame
      exact (Digits.not_signed rfl hdigits').elim
    | plus he' hdigits' =>
      cases hsame
      rfl
    | minus he' hdigits' => cases hsame
  | minus he hdigits =>
    cases hsecond with
    | none => cases hsame
    | unsigned he' hdigits' =>
      cases hsame
      exact (Digits.not_signed rfl hdigits').elim
    | plus he' hdigits' => cases hsame
    | minus he' hdigits' =>
      cases hsame
      rfl

/-- What comes after `int`. -/
theorem Fraction.not_decimal {frac exp : List UInt8} {value : ℚ} {exponent : ℤ} (hfraction : Fraction frac value)
    (hexponent : Exponent exp exponent) : ∀ byte ∈ (frac ++ exp).head?, decimal byte = false := by
  cases hfraction with
  | none => exact hexponent.not_decimal
  | some hdigits =>
    rintro byte ⟨⟩
    rfl

/-- A fraction ends where the exponent begins. -/
theorem Fraction.unique {first second x y : List UInt8} {value other : ℚ} {m n : ℤ} (hfirst : Fraction first value)
    (hsecond : Fraction second other) (hx : Exponent x m) (hy : Exponent y n) (hsame : first ++ x = second ++ y) :
    value = other ∧ x = y := by
  have hpoint : ∀ {rest exp : List UInt8} {power : ℤ}, Exponent exp power → exp ≠ 0x2E :: rest := by
    rintro rest exp power hexponent rfl
    rcases hexponent.head 0x2E rfl with heq | heq <;> cases heq
  cases hfirst with
  | none =>
    cases hsecond with
    | none => exact ⟨rfl, hsame⟩
    | some hdigits => exact (hpoint hx hsame).elim
  | some hdigits =>
    cases hsecond with
    | none => exact (hpoint hy hsame.symm).elim
    | some hothers =>
      obtain ⟨rfl, hrest⟩ := eq_of_append_eq hdigits.all_decimal hothers.all_decimal hx.not_decimal hy.not_decimal
        (List.cons.inj hsame).2
      exact ⟨rfl, hrest⟩

/-- A number without a sign is read in one way. -/
theorem Unsigned.unique {first second : List UInt8} {value other : ℚ} (hfirst : Unsigned first value)
    (hsecond : Unsigned second other) (hsame : first = second) : value = other := by
  obtain ⟨hwhole, hfraction, hexponent⟩ := hfirst
  obtain ⟨hwhole', hfraction', hexponent'⟩ := hsecond
  rw [List.append_assoc, List.append_assoc] at hsame
  obtain ⟨rfl, hrest⟩ := eq_of_append_eq hwhole.1.all_decimal hwhole'.1.all_decimal (hfraction.not_decimal hexponent)
    (hfraction'.not_decimal hexponent') hsame
  obtain ⟨rfl, hexp⟩ := hfraction.unique hfraction' hexponent hexponent' hrest
  rw [hexponent.unique hexponent' hexp]

theorem Unsigned.head {text : List UInt8} {value : ℚ} (hunsigned : Unsigned text value) :
    ∃ byte rest, text = byte :: rest ∧ decimal byte = true := by
  obtain ⟨hwhole, hfraction, hexponent⟩ := hunsigned
  obtain ⟨byte, rest, rfl⟩ := List.exists_cons_of_ne_nil hwhole.1.1
  exact ⟨byte, _, rfl, hwhole.1.all_decimal byte List.mem_cons_self⟩

/-- A number is read in one way. -/
theorem Number.unique {text : List UInt8} {value other : ℚ} (hfirst : Number text value)
    (hsecond : Number text other) : value = other := by
  have hsign : ∀ {rest : List UInt8} {value : ℚ}, ¬ Unsigned (0x2D :: rest) value := by
    intro rest value hunsigned
    obtain ⟨byte, tail, heq, hdecimal⟩ := hunsigned.head
    cases heq
    cases hdecimal
  cases hfirst with
  | positive hunsigned =>
    cases hsecond with
    | positive hother => exact hunsigned.unique hother rfl
    | negative hother => exact (hsign hunsigned).elim
  | negative hunsigned =>
    cases hsecond with
    | positive hother => exact (hsign hother).elim
    | negative hother => rw [hunsigned.unique hother rfl]

end Numbers

section Strings

/-- No encoding of a character is the beginning of another one. -/
theorem utf8EncodeChar_append_inj {c d : Char} {x y : List UInt8}
    (hsame : String.utf8EncodeChar c ++ x = String.utf8EncodeChar d ++ y) : c = d ∧ x = y := by
  have hdecode : ∀ (c : Char) (x : List UInt8),
      ByteArray.utf8DecodeChar? (String.utf8EncodeChar c ++ x).toByteArray 0 = some c := by
    intro c x
    rw [List.toByteArray_append]
    exact ByteArray.utf8DecodeChar?_utf8EncodeChar_append
  have hchar := hdecode c x
  rw [hsame, hdecode d y] at hchar
  obtain rfl := Option.some.inj hchar
  exact ⟨rfl, List.append_cancel_left hsame⟩

/-- No encoding begins with a byte that is another character. -/
theorem utf8EncodeChar_append_ne_cons {c d : Char} {byte : UInt8} {rest x : List UInt8}
    (hbyte : String.utf8EncodeChar d = [byte]) (hne : c.toNat ≠ d.toNat) :
    String.utf8EncodeChar c ++ rest ≠ byte :: x := by
  intro hsame
  have hchar : String.utf8EncodeChar c ++ rest = String.utf8EncodeChar d ++ x := by
    rw [hsame, hbyte, List.singleton_append]
  exact hne (congrArg Char.toNat (utf8EncodeChar_append_inj hchar).1)

/-- A character that needs no escape is neither a quotation mark nor a backslash. -/
theorem unescaped_ne {c : Char} {rest x : List UInt8} (hc : 0x20 ≤ c.toNat ∧ c.toNat ≠ 0x22 ∧ c.toNat ≠ 0x5C) :
    String.utf8EncodeChar c ++ rest ≠ 0x22 :: x ∧ String.utf8EncodeChar c ++ rest ≠ 0x5C :: x :=
  ⟨utf8EncodeChar_append_ne_cons (d := Char.ofNat 0x22) rfl hc.2.1,
    utf8EncodeChar_append_ne_cons (d := Char.ofNat 0x5C) rfl hc.2.2⟩

theorem HexDigit.unique {byte : UInt8} {value other : ℕ} (hfirst : HexDigit byte value)
    (hsecond : HexDigit byte other) : value = other := by
  cases hfirst <;> cases hsecond <;> simp only [UInt8.le_iff_toNat_le, UInt8.reduceToNat] at * <;> omega

/-- An escape stands for one character. -/
theorem escapes_unique {byte : UInt8} {unit other : UInt16} (hfirst : (byte, unit) ∈ escapes)
    (hsecond : (byte, other) ∈ escapes) : unit = other := by
  have hletters : (escapes.map Prod.fst).Nodup := by decide
  exact (Prod.mk.inj (List.inj_on_of_nodup_map hletters hfirst hsecond rfl)).2

theorem not_mem_escapes {unit : UInt16} : (0x75, unit) ∉ escapes := by
  have hletters : 0x75 ∉ escapes.map Prod.fst := by decide
  exact fun hmem => hletters (List.mem_map_of_mem hmem)

/-- The characters of a string end at the first quotation mark that is no part of
an escape. -/
theorem Chars.unique {first second x y : List UInt8} {units others : List UInt16} (hfirst : Chars first units)
    (hsecond : Chars second others) (hsame : first ++ 0x22 :: x = second ++ 0x22 :: y) : units = others ∧ x = y := by
  induction hfirst generalizing second others with
  | nil =>
    cases hsecond with
    | nil => exact ⟨rfl, (List.cons.inj hsame).2⟩
    | unescaped hc hrest =>
      rw [List.append_assoc] at hsame
      exact ((unescaped_ne hc).1 hsame.symm).elim
    | escape hescape hrest => cases hsame
    | hex hfirst hsecond hthird hfourth hrest => cases hsame
  | unescaped hc hrest ih =>
    rw [List.append_assoc] at hsame
    cases hsecond with
    | nil => exact ((unescaped_ne hc).1 hsame).elim
    | unescaped hc' hrest' =>
      rw [List.append_assoc] at hsame
      obtain ⟨rfl, hlater⟩ := utf8EncodeChar_append_inj hsame
      obtain ⟨rfl, heq⟩ := ih hrest' hlater
      exact ⟨rfl, heq⟩
    | escape hescape' hrest' => exact ((unescaped_ne hc).2 hsame).elim
    | hex hfirst' hsecond' hthird' hfourth' hrest' => exact ((unescaped_ne hc).2 hsame).elim
  | escape hescape hrest ih =>
    cases hsecond with
    | nil => cases hsame
    | unescaped hc' hrest' =>
      rw [List.append_assoc] at hsame
      exact ((unescaped_ne hc').2 hsame.symm).elim
    | escape hescape' hrest' =>
      obtain ⟨rfl, hlater⟩ := List.cons.inj (List.cons.inj hsame).2
      obtain ⟨rfl, heq⟩ := ih hrest' hlater
      exact ⟨by rw [escapes_unique hescape hescape'], heq⟩
    | hex hfirst' hsecond' hthird' hfourth' hrest' =>
      obtain ⟨rfl, -⟩ := List.cons.inj (List.cons.inj hsame).2
      exact (not_mem_escapes hescape).elim
  | hex hfirst hsecond hthird hfourth hrest ih =>
    cases hsecond with
    | nil => cases hsame
    | unescaped hc' hrest' =>
      rw [List.append_assoc] at hsame
      exact ((unescaped_ne hc').2 hsame.symm).elim
    | escape hescape' hrest' =>
      obtain ⟨rfl, -⟩ := List.cons.inj (List.cons.inj hsame).2
      exact (not_mem_escapes hescape').elim
    | hex hfirst' hsecond' hthird' hfourth' hrest' =>
      simp only [List.cons_append, List.cons.injEq, true_and] at hsame
      obtain ⟨rfl, rfl, rfl, rfl, hlater⟩ := hsame
      obtain ⟨rfl, heq⟩ := ih hrest' hlater
      rw [hfirst.unique hfirst', hsecond.unique hsecond', hthird.unique hthird', hfourth.unique hfourth']
      exact ⟨rfl, heq⟩

/-- A string ends at its first quote that is not escaped, and is read in one way. -/
theorem StringText.unique {first second x y : List UInt8} {units others : List UInt16} (hfirst : StringText first units)
    (hsecond : StringText second others) (hsame : first ++ x = second ++ y) : units = others ∧ x = y := by
  obtain ⟨hchars⟩ := hfirst
  obtain ⟨hothers⟩ := hsecond
  simp only [List.cons_append, List.append_assoc, List.cons.injEq, true_and, List.nil_append] at hsame
  exact hchars.unique hothers hsame

end Strings

section Spaces

def blank (byte : UInt8) : Bool := byte ∈ ([0x20, 0x09, 0x0A, 0x0D] : List UInt8)

/-- The text after the white space at its beginning. -/
def skip (text : List UInt8) : List UInt8 := text.dropWhile blank

/-- Blanks in front do not matter. -/
theorem skip_blank_append {before : List UInt8} (hblank : Blank before) (rest : List UInt8) :
    skip (before ++ rest) = skip rest :=
  List.dropWhile_append_of_pos fun byte hmem => decide_eq_true (hblank byte hmem)

theorem skip_blank {text : List UInt8} (hblank : Blank text) : skip text = [] := by
  have hskip := skip_blank_append hblank []
  rwa [List.append_nil] at hskip

theorem skip_cons {byte : UInt8} {rest : List UInt8} (hbyte : blank byte = false) :
    skip (byte :: rest) = byte :: rest := by
  simp [skip, hbyte]

variable {mark : UInt8} {first second x y : List UInt8}

/-- The same token is passed in both readings. -/
theorem skip_cancel {byte : UInt8} {rest : List UInt8} (hbyte : blank byte = false)
    (hsame : skip (byte :: rest ++ x) = skip (byte :: rest ++ y)) : skip x = skip y := by
  rw [List.cons_append, List.cons_append, skip_cons hbyte, skip_cons hbyte] at hsame
  exact congrArg skip (List.append_cancel_left (List.cons.inj hsame).2)

/-- Behind the blanks of a mark comes the mark. -/
theorem Structural.exists_skip (hfirst : Structural mark first) (hmark : blank mark = false) (x : List UInt8) :
    ∃ rest, skip (first ++ x) = mark :: rest ∧ skip rest = skip x := by
  obtain ⟨before, after, hbefore, hafter, rfl⟩ := hfirst
  refine ⟨after ++ x, ?_, skip_blank_append hafter x⟩
  rw [List.append_assoc, skip_blank_append hbefore, List.cons_append, skip_cons hmark]

/-- So is the same structural character. -/
theorem Structural.cancel (hfirst : Structural mark first) (hsecond : Structural mark second)
    (hmark : blank mark = false) (hsame : skip (first ++ x) = skip (second ++ y)) : skip x = skip y := by
  obtain ⟨rest, hhead, hrest⟩ := hfirst.exists_skip hmark x
  obtain ⟨others, hother, hothers⟩ := hsecond.exists_skip hmark y
  rw [hhead, hother] at hsame
  obtain rfl := (List.cons.inj hsame).2
  exact hrest.symm.trans hothers

end Spaces

section Kinds

/-- What a first byte tells of a value. No value begins with other bytes. -/
inductive Kind where
  | null
  | bool (value : Bool)
  | number
  | string
  | array
  | object
  | other
deriving DecidableEq

def kind_of (byte : UInt8) : Kind :=
  if byte = 0x6E then .null
  else if byte = 0x66 then .bool false
  else if byte = 0x74 then .bool true
  else if byte = 0x22 then .string
  else if byte = 0x5B then .array
  else if byte = 0x7B then .object
  else if byte = 0x2D || decimal byte then .number
  else .other

def kind (value : JsonValue) : Kind :=
  match value with
  | .null => .null
  | .bool value => .bool value
  | .number _ => .number
  | .string _ => .string
  | .array _ => .array
  | .object _ => .object

/-- A text begins with this byte, after white space. -/
def Begins (byte : UInt8) (text : List UInt8) : Prop := ∃ rest, skip text = byte :: rest

/-- A text begins with one byte. -/
theorem Begins.eq {first second : UInt8} {text : List UInt8} (hfirst : Begins first text)
    (hsecond : Begins second text) : first = second := by
  obtain ⟨rest, hrest⟩ := hfirst
  obtain ⟨others, hothers⟩ := hsecond
  rw [hrest] at hothers
  exact (List.cons.inj hothers).1

theorem Begins.congr {byte : UInt8} {text other : List UInt8} (hbegins : Begins byte text)
    (hsame : skip text = skip other) : Begins byte other := by
  obtain ⟨rest, hrest⟩ := hbegins
  exact ⟨rest, hsame ▸ hrest⟩

theorem Structural.begins {mark : UInt8} {text : List UInt8} (hstructural : Structural mark text)
    (hmark : blank mark = false) (x : List UInt8) : Begins mark (text ++ x) := by
  obtain ⟨rest, hrest, -⟩ := hstructural.exists_skip hmark x
  exact ⟨rest, hrest⟩

theorem Number.exists_cons {text : List UInt8} {value : ℚ} (hnumber : Number text value) :
    ∃ byte rest, text = byte :: rest ∧ blank byte = false ∧ kind_of byte = .number := by
  have hdecimal : ∀ {byte : UInt8}, decimal byte = true → blank byte = false ∧ kind_of byte = .number := by
    intro byte
    have hall : ∀ code < 256, decimal (UInt8.ofNat code) = true →
        blank (UInt8.ofNat code) = false ∧ kind_of (UInt8.ofNat code) = .number := by decide +kernel
    have hbyte := hall byte.toNat byte.toNat_lt
    rwa [UInt8.ofNat_toNat] at hbyte
  cases hnumber with
  | positive hunsigned =>
    obtain ⟨byte, rest, htext, hbyte⟩ := hunsigned.head
    exact ⟨byte, rest, htext, hdecimal hbyte⟩
  | negative hunsigned => exact ⟨_, _, rfl, rfl, rfl⟩

/-- The first byte of a value tells its kind. -/
theorem Value.begins {text : List UInt8} {value : JsonValue} (hvalue : Value text value) (x : List UInt8) :
    ∃ byte, Begins byte (text ++ x) ∧ kind_of byte = kind value := by
  cases hvalue with
  | null => exact ⟨0x6E, ⟨_, skip_cons rfl⟩, rfl⟩
  | false => exact ⟨0x66, ⟨_, skip_cons rfl⟩, rfl⟩
  | true => exact ⟨0x74, ⟨_, skip_cons rfl⟩, rfl⟩
  | number hnumber =>
    obtain ⟨byte, rest, rfl, hblank, hkind⟩ := hnumber.exists_cons
    exact ⟨byte, ⟨_, skip_cons hblank⟩, hkind⟩
  | string hstring =>
    obtain ⟨hchars⟩ := hstring
    exact ⟨0x22, ⟨_, skip_cons rfl⟩, rfl⟩
  | empty_array hbegin hend => exact ⟨0x5B, by rw [List.append_assoc]; exact hbegin.begins rfl _, rfl⟩
  | array hbegin hitems hend =>
    exact ⟨0x5B, by rw [List.append_assoc, List.append_assoc]; exact hbegin.begins rfl _, rfl⟩
  | empty_object hbegin hend => exact ⟨0x7B, by rw [List.append_assoc]; exact hbegin.begins rfl _, rfl⟩
  | object hbegin hmembers hend =>
    exact ⟨0x7B, by rw [List.append_assoc, List.append_assoc]; exact hbegin.begins rfl _, rfl⟩

/-- Two values of one text are of one kind. -/
theorem Value.same_kind {first second x y : List UInt8} {value other : JsonValue} (hfirst : Value first value)
    (hsecond : Value second other) (hsame : skip (first ++ x) = skip (second ++ y)) : kind value = kind other := by
  obtain ⟨byte, hbegins, hkind⟩ := hfirst.begins x
  obtain ⟨other, hother, hkind'⟩ := hsecond.begins y
  rw [← hkind, ← hkind', (hbegins.congr hsame).eq hother]

end Kinds

section Readings

/-- What may come after a value: a separator, the end of an array or an object, or
the end of the text. -/
def Follows (rest : List UInt8) : Prop := ∀ byte, Begins byte rest → byte = 0x2C ∨ byte = 0x5D ∨ byte = 0x7D

theorem follows_of_begins {byte : UInt8} {rest : List UInt8} (hbegins : Begins byte rest)
    (hbyte : byte = 0x2C ∨ byte = 0x5D ∨ byte = 0x7D) : Follows rest :=
  fun _ hother => hbegins.eq hother ▸ hbyte

/-- What follows a value does not continue a number. -/
theorem Follows.not_numeric {rest : List UInt8} (hfollows : Follows rest) :
    ∀ byte ∈ rest.head?, numeric byte = false := by
  cases rest with
  | nil => exact nofun
  | cons byte rest =>
    rintro _ ⟨⟩
    cases hblank : blank byte with
    | true =>
      have hspace : ([0x20, 0x09, 0x0A, 0x0D] : List UInt8).all (fun byte => !numeric byte) = true := rfl
      have hnumeric := List.all_eq_true.mp hspace byte (of_decide_eq_true hblank)
      rwa [Bool.not_eq_true'] at hnumeric
    | false => rcases hfollows byte ⟨rest, skip_cons hblank⟩ with rfl | rfl | rfl <;> rfl

/-- Numbers are read as far as their bytes go. -/
theorem Number.unique_append {first second x y : List UInt8} {value other : ℚ} (hfirst : Number first value)
    (hsecond : Number second other) (hsame : skip (first ++ x) = skip (second ++ y)) (hx : Follows x) (hy : Follows y) :
    value = other ∧ skip x = skip y := by
  have hkept : ∀ {text : List UInt8} {value : ℚ} (x : List UInt8), Number text value →
      skip (text ++ x) = text ++ x := by
    intro text value x hnumber
    obtain ⟨byte, rest, rfl, hblank, -⟩ := hnumber.exists_cons
    exact skip_cons hblank
  rw [hkept x hfirst, hkept y hsecond] at hsame
  obtain ⟨rfl, rfl⟩ := eq_of_append_eq (List.all_eq_true.mp hfirst.all_numeric)
    (List.all_eq_true.mp hsecond.all_numeric) hx.not_numeric hy.not_numeric hsame
  exact ⟨hfirst.unique hsecond, rfl⟩

theorem StringText.unique_skip {first second x y : List UInt8} {units others : List UInt16}
    (hfirst : StringText first units) (hsecond : StringText second others)
    (hsame : skip (first ++ x) = skip (second ++ y)) : units = others ∧ x = y := by
  have hkept : ∀ {text : List UInt8} {units : List UInt16} (x : List UInt8), StringText text units →
      skip (text ++ x) = text ++ x := by
    rintro text units x ⟨hchars⟩
    exact skip_cons rfl
  rw [hkept x hfirst, hkept y hsecond] at hsame
  exact hfirst.unique hsecond hsame

theorem kind_ne_other (value : JsonValue) : kind value ≠ .other := by
  cases value <;> exact nofun

theorem Value.not_begins {text : List UInt8} {value : JsonValue} {mark : UInt8} (hvalue : Value text value)
    (hmark : kind_of mark = .other) (x : List UInt8) : ¬ Begins mark (text ++ x) := by
  intro hbegins
  obtain ⟨byte, hbyte, hkind⟩ := hvalue.begins x
  rw [hbyte.eq hbegins, hmark] at hkind
  exact kind_ne_other value hkind.symm

theorem Items.not_begins {text : List UInt8} {items : List JsonValue} (hitems : Items text items) (x : List UInt8) :
    ¬ Begins 0x5D (text ++ x) := by
  cases hitems with
  | last hvalue => exact hvalue.not_begins rfl x
  | more hvalue hseparator hrest =>
    rw [List.append_assoc, List.append_assoc]
    exact hvalue.not_begins rfl _

theorem Member.begins {text : List UInt8} {member : List UInt16 × JsonValue} (hmember : Member text member)
    (x : List UInt8) : Begins 0x22 (text ++ x) := by
  obtain ⟨⟨hchars⟩, hseparator, hvalue⟩ := hmember
  exact ⟨_, skip_cons rfl⟩

theorem Members.begins {text : List UInt8} {members : List (List UInt16 × JsonValue)} (hmembers : Members text members)
    (x : List UInt8) : Begins 0x22 (text ++ x) := by
  cases hmembers with
  | last hmember => exact hmember.begins x
  | more hmember hseparator hrest =>
    rw [List.append_assoc, List.append_assoc]
    exact hmember.begins _

theorem Begins.elim {first second : UInt8} {text : List UInt8} {P : Prop} (hfirst : Begins first text)
    (hsecond : Begins second text) (hne : first ≠ second) : P := (hne (hfirst.eq hsecond)).elim

mutual

/-- Two readings of a value give the same value, and go on at the same place. -/
theorem Value.unique {first second x y : List UInt8} {value other : JsonValue} (hfirst : Value first value)
    (hsecond : Value second other) (hsame : skip (first ++ x) = skip (second ++ y)) (hx : Follows x) (hy : Follows y) :
    value = other ∧ skip x = skip y := by
  have hkind := hfirst.same_kind hsecond hsame
  cases hfirst with
  | null =>
    cases hsecond with
    | null => exact ⟨rfl, skip_cancel rfl hsame⟩
    | _ => cases hkind
  | false =>
    cases hsecond with
    | false => exact ⟨rfl, skip_cancel rfl hsame⟩
    | _ => cases hkind
  | true =>
    cases hsecond with
    | true => exact ⟨rfl, skip_cancel rfl hsame⟩
    | _ => cases hkind
  | number hnumber =>
    cases hsecond with
    | number hother =>
      obtain ⟨rfl, hrest⟩ := hnumber.unique_append hother hsame hx hy
      exact ⟨rfl, hrest⟩
    | _ => cases hkind
  | string hstring =>
    cases hsecond with
    | string hother =>
      obtain ⟨rfl, hrest⟩ := hstring.unique_skip hother hsame
      exact ⟨rfl, congrArg skip hrest⟩
    | _ => cases hkind
  | empty_array hbegin hend =>
    cases hsecond with
    | empty_array hbegin' hend' =>
      rw [List.append_assoc, List.append_assoc] at hsame
      exact ⟨rfl, hend.cancel hend' rfl (hbegin.cancel hbegin' rfl hsame)⟩
    | array hbegin' hitems' hend' =>
      rw [List.append_assoc, List.append_assoc, List.append_assoc] at hsame
      exact (hitems'.not_begins _ ((hend.begins rfl x).congr (hbegin.cancel hbegin' rfl hsame))).elim
    | _ => cases hkind
  | array hbegin hitems hend =>
    cases hsecond with
    | empty_array hbegin' hend' =>
      rw [List.append_assoc, List.append_assoc, List.append_assoc] at hsame
      exact (hitems.not_begins _ ((hend'.begins rfl y).congr (hbegin.cancel hbegin' rfl hsame).symm)).elim
    | array hbegin' hitems' hend' =>
      rw [List.append_assoc, List.append_assoc, List.append_assoc, List.append_assoc] at hsame
      obtain ⟨rfl, hrest⟩ := hitems.unique hitems' (hbegin.cancel hbegin' rfl hsame) (hend.begins rfl x)
        (hend'.begins rfl y)
      exact ⟨rfl, hend.cancel hend' rfl hrest⟩
    | _ => cases hkind
  | empty_object hbegin hend =>
    cases hsecond with
    | empty_object hbegin' hend' =>
      rw [List.append_assoc, List.append_assoc] at hsame
      exact ⟨rfl, hend.cancel hend' rfl (hbegin.cancel hbegin' rfl hsame)⟩
    | object hbegin' hmembers' hend' =>
      rw [List.append_assoc, List.append_assoc, List.append_assoc] at hsame
      have hafter := hbegin.cancel hbegin' rfl hsame
      exact ((hend.begins rfl x).congr hafter).elim (hmembers'.begins _) (by decide)
    | _ => cases hkind
  | object hbegin hmembers hend =>
    cases hsecond with
    | empty_object hbegin' hend' =>
      rw [List.append_assoc, List.append_assoc, List.append_assoc] at hsame
      have hafter := hbegin.cancel hbegin' rfl hsame
      exact ((hend'.begins rfl y).congr hafter.symm).elim (hmembers.begins _) (by decide)
    | object hbegin' hmembers' hend' =>
      rw [List.append_assoc, List.append_assoc, List.append_assoc, List.append_assoc] at hsame
      obtain ⟨rfl, hrest⟩ := hmembers.unique hmembers' (hbegin.cancel hbegin' rfl hsame) (hend.begins rfl x)
        (hend'.begins rfl y)
      exact ⟨rfl, hend.cancel hend' rfl hrest⟩
    | _ => cases hkind
termination_by sizeOf value
decreasing_by
  all_goals subst_vars
  all_goals simp only [JsonValue.array.sizeOf_spec, JsonValue.object.sizeOf_spec]
  all_goals omega

/-- The items of an array are read in one way. -/
theorem Items.unique {first second x y : List UInt8} {items others : List JsonValue} (hfirst : Items first items)
    (hsecond : Items second others) (hsame : skip (first ++ x) = skip (second ++ y)) (hx : Begins 0x5D x)
    (hy : Begins 0x5D y) : items = others ∧ skip x = skip y := by
  have hends : ∀ {rest : List UInt8}, Begins 0x5D rest → Follows rest :=
    fun hrest => follows_of_begins hrest (Or.inr (Or.inl rfl))
  cases hfirst with
  | last hvalue =>
    cases hsecond with
    | last hother =>
      obtain ⟨rfl, hrest⟩ := hvalue.unique hother hsame (hends hx) (hends hy)
      exact ⟨rfl, hrest⟩
    | more hother hseparator hothers =>
      rw [List.append_assoc, List.append_assoc] at hsame
      have hcomma := hseparator.begins rfl
      obtain ⟨-, hrest⟩ := hvalue.unique hother hsame (hends hx) (follows_of_begins (hcomma _) (Or.inl rfl))
      exact (hx.congr hrest).elim (hcomma _) (by decide)
  | more hvalue hseparator hitems =>
    rw [List.append_assoc, List.append_assoc] at hsame
    have hcomma := hseparator.begins rfl
    cases hsecond with
    | last hother =>
      obtain ⟨-, hrest⟩ := hvalue.unique hother hsame (follows_of_begins (hcomma _) (Or.inl rfl)) (hends hy)
      exact (hy.congr hrest.symm).elim (hcomma _) (by decide)
    | more hother hseparator' hothers =>
      rw [List.append_assoc, List.append_assoc] at hsame
      obtain ⟨rfl, hrest⟩ := hvalue.unique hother hsame (follows_of_begins (hcomma _) (Or.inl rfl))
        (follows_of_begins (hseparator'.begins rfl _) (Or.inl rfl))
      obtain ⟨rfl, hlast⟩ := hitems.unique hothers (hseparator.cancel hseparator' rfl hrest) hx hy
      exact ⟨rfl, hlast⟩
termination_by sizeOf items
decreasing_by
  all_goals subst_vars
  all_goals simp only [List.cons.sizeOf_spec]
  all_goals omega

/-- The members of an object are read in one way. -/
theorem Members.unique {first second x y : List UInt8} {members others : List (List UInt16 × JsonValue)}
    (hfirst : Members first members) (hsecond : Members second others)
    (hsame : skip (first ++ x) = skip (second ++ y)) (hx : Begins 0x7D x) (hy : Begins 0x7D y) :
    members = others ∧ skip x = skip y := by
  have hends : ∀ {rest : List UInt8}, Begins 0x7D rest → Follows rest :=
    fun hrest => follows_of_begins hrest (Or.inr (Or.inr rfl))
  cases hfirst with
  | last hmember =>
    cases hsecond with
    | last hother =>
      obtain ⟨rfl, hrest⟩ := hmember.unique hother hsame (hends hx) (hends hy)
      exact ⟨rfl, hrest⟩
    | more hother hseparator hothers =>
      rw [List.append_assoc, List.append_assoc] at hsame
      have hcomma := hseparator.begins rfl
      obtain ⟨-, hrest⟩ := hmember.unique hother hsame (hends hx) (follows_of_begins (hcomma _) (Or.inl rfl))
      exact (hx.congr hrest).elim (hcomma _) (by decide)
  | more hmember hseparator hmembers =>
    rw [List.append_assoc, List.append_assoc] at hsame
    have hcomma := hseparator.begins rfl
    cases hsecond with
    | last hother =>
      obtain ⟨-, hrest⟩ := hmember.unique hother hsame (follows_of_begins (hcomma _) (Or.inl rfl)) (hends hy)
      exact (hy.congr hrest.symm).elim (hcomma _) (by decide)
    | more hother hseparator' hothers =>
      rw [List.append_assoc, List.append_assoc] at hsame
      obtain ⟨rfl, hrest⟩ := hmember.unique hother hsame (follows_of_begins (hcomma _) (Or.inl rfl))
        (follows_of_begins (hseparator'.begins rfl _) (Or.inl rfl))
      obtain ⟨rfl, hlast⟩ := hmembers.unique hothers (hseparator.cancel hseparator' rfl hrest) hx hy
      exact ⟨rfl, hlast⟩
termination_by sizeOf members
decreasing_by
  all_goals subst_vars
  all_goals simp only [List.cons.sizeOf_spec]
  all_goals omega

theorem Member.unique {first second x y : List UInt8} {member other : List UInt16 × JsonValue}
    (hfirst : Member first member) (hsecond : Member second other) (hsame : skip (first ++ x) = skip (second ++ y))
    (hx : Follows x) (hy : Follows y) : member = other ∧ skip x = skip y := by
  obtain ⟨hname, hseparator, hvalue⟩ := hfirst
  obtain ⟨hname', hseparator', hvalue'⟩ := hsecond
  rw [List.append_assoc, List.append_assoc, List.append_assoc, List.append_assoc] at hsame
  obtain ⟨rfl, hrest⟩ := hname.unique_skip hname' hsame
  have hafter := hseparator.cancel hseparator' rfl (congrArg skip hrest)
  obtain ⟨rfl, hlast⟩ := hvalue.unique hvalue' hafter hx hy
  exact ⟨rfl, hlast⟩
termination_by sizeOf member
decreasing_by
  subst_vars
  simp only [Prod.mk.sizeOf_spec]
  omega

end

/-- A text has at most one value. -/
theorem Document.unique {text : List UInt8} {value other : JsonValue} (hfirst : Document text value)
    (hsecond : Document text other) : value = other := by
  generalize hsame : text = second at hsecond
  obtain ⟨hbefore, hvalue, hafter⟩ := hfirst
  obtain ⟨hbefore', hvalue', hafter'⟩ := hsecond
  have hends : ∀ {rest : List UInt8}, Blank rest → Follows rest := by
    rintro rest hblank byte ⟨tail, htail⟩
    rw [skip_blank hblank] at htail
    cases htail
  rw [List.append_assoc, List.append_assoc] at hsame
  have hskip := congrArg skip hsame
  rw [skip_blank_append hbefore, skip_blank_append hbefore'] at hskip
  exact (hvalue.unique hvalue' hskip (hends hafter) (hends hafter')).1

end Readings

end JsonText
