import Mathlib.Algebra.Order.Field.Rat
import Mathlib.Data.List.Basic
import OjalvoChat.Library.Utf16

/-- A JSON value. A string is a sequence of UTF-16 code units, and an object keeps
its members in order. -/
inductive JsonValue where
  | null
  | bool (value : Bool)
  | number (value : ℚ)
  | string (units : List UInt16)
  | array (items : List JsonValue)
  | object (members : List (List UInt16 × JsonValue))

/-! The grammar of RFC 8259, over the bytes of a text in UTF-8. -/

namespace JsonText

/-- `ws`: space, tab, LF and CR. -/
def Blank (text : List UInt8) : Prop := ∀ byte ∈ text, byte ∈ ([0x20, 0x09, 0x0A, 0x0D] : List UInt8)

instance (text : List UInt8) : Decidable (Blank text) :=
  List.decidableBAll (· ∈ ([0x20, 0x09, 0x0A, 0x0D] : List UInt8)) text

/-- A structural character, with white space on both sides. -/
def Structural (mark : UInt8) (text : List UInt8) : Prop :=
  ∃ before after, Blank before ∧ Blank after ∧ text = before ++ mark :: after

section Numbers

def Digits (text : List UInt8) : Prop := text ≠ [] ∧ ∀ byte ∈ text, 0x30 ≤ byte ∧ byte ≤ 0x39

/-- The number with these decimal digits. -/
def natural (digits : List UInt8) : ℕ := digits.foldl (fun value byte => 10 * value + (byte.toNat - 0x30)) 0

/-- `int`: no digit follows a leading zero. -/
def Whole (text : List UInt8) : Prop := Digits text ∧ (text.head? = some 0x30 → text = [0x30])

/-- `frac`, which may be missing. -/
inductive Fraction : List UInt8 → ℚ → Prop where
  | none : Fraction [] 0
  | some {digits : List UInt8} (hdigits : Digits digits) :
    Fraction (0x2E :: digits) (natural digits / 10 ^ digits.length)

/-- `exp`, which may be missing. -/
inductive Exponent : List UInt8 → ℤ → Prop where
  | none : Exponent [] 0
  | unsigned {e : UInt8} {digits : List UInt8} (he : e = 0x65 ∨ e = 0x45) (hdigits : Digits digits) :
    Exponent (e :: digits) (natural digits)
  | plus {e : UInt8} {digits : List UInt8} (he : e = 0x65 ∨ e = 0x45) (hdigits : Digits digits) :
    Exponent (e :: 0x2B :: digits) (natural digits)
  | minus {e : UInt8} {digits : List UInt8} (he : e = 0x65 ∨ e = 0x45) (hdigits : Digits digits) :
    Exponent (e :: 0x2D :: digits) (-natural digits)

inductive Unsigned : List UInt8 → ℚ → Prop where
  | mk {whole frac exp : List UInt8} {fraction : ℚ} {exponent : ℤ} (hwhole : Whole whole)
    (hfraction : Fraction frac fraction) (hexponent : Exponent exp exponent) :
    Unsigned (whole ++ frac ++ exp) ((natural whole + fraction) * 10 ^ exponent)

inductive Number : List UInt8 → ℚ → Prop where
  | positive {text : List UInt8} {value : ℚ} (hunsigned : Unsigned text value) : Number text value
  | negative {text : List UInt8} {value : ℚ} (hunsigned : Unsigned text value) : Number (0x2D :: text) (-value)

end Numbers

section Strings

/-- The two-character escapes. -/
def escapes : List (UInt8 × UInt16) := [
  (0x22, 0x22),
  (0x5C, 0x5C),
  (0x2F, 0x2F),
  (0x62, 0x08),
  (0x66, 0x0C),
  (0x6E, 0x0A),
  (0x72, 0x0D),
  (0x74, 0x09)]

inductive HexDigit : UInt8 → ℕ → Prop where
  | digit {byte : UInt8} (hbyte : 0x30 ≤ byte ∧ byte ≤ 0x39) : HexDigit byte (byte.toNat - 0x30)
  | upper {byte : UInt8} (hbyte : 0x41 ≤ byte ∧ byte ≤ 0x46) : HexDigit byte (byte.toNat - 0x37)
  | lower {byte : UInt8} (hbyte : 0x61 ≤ byte ∧ byte ≤ 0x66) : HexDigit byte (byte.toNat - 0x57)

/-- What stands between quotation marks. No control character is `unescaped`. -/
inductive Chars : List UInt8 → List UInt16 → Prop where
  | nil : Chars [] []
  | unescaped {c : Char} {rest : List UInt8} {units : List UInt16}
    (hc : 0x20 ≤ c.toNat ∧ c.toNat ≠ 0x22 ∧ c.toNat ≠ 0x5C) (hrest : Chars rest units) :
    Chars (String.utf8EncodeChar c ++ rest) (utf16 c ++ units)
  | escape {byte : UInt8} {unit : UInt16} {rest : List UInt8} {units : List UInt16}
    (hescape : (byte, unit) ∈ escapes) (hrest : Chars rest units) : Chars (0x5C :: byte :: rest) (unit :: units)
  | hex {first second third fourth : UInt8} {a b c d : ℕ} {rest : List UInt8} {units : List UInt16}
    (hfirst : HexDigit first a) (hsecond : HexDigit second b) (hthird : HexDigit third c)
    (hfourth : HexDigit fourth d) (hrest : Chars rest units) :
    Chars (0x5C :: 0x75 :: first :: second :: third :: fourth :: rest)
      (UInt16.ofNat (0x1000 * a + 0x100 * b + 0x10 * c + d) :: units)

inductive StringText : List UInt8 → List UInt16 → Prop where
  | mk {chars : List UInt8} {units : List UInt16} (hchars : Chars chars units) :
    StringText (0x22 :: chars ++ [0x22]) units

end Strings

mutual

/-- `value`, with the white space that belongs to the structural characters. -/
inductive Value : List UInt8 → JsonValue → Prop where
  | null : Value [0x6E, 0x75, 0x6C, 0x6C] .null
  | false : Value [0x66, 0x61, 0x6C, 0x73, 0x65] (.bool false)
  | true : Value [0x74, 0x72, 0x75, 0x65] (.bool true)
  | number {text : List UInt8} {value : ℚ} (hnumber : Number text value) : Value text (.number value)
  | string {text : List UInt8} {units : List UInt16} (hstring : StringText text units) : Value text (.string units)
  | empty_array {begin_array end_array : List UInt8} (hbegin : Structural 0x5B begin_array)
    (hend : Structural 0x5D end_array) : Value (begin_array ++ end_array) (.array [])
  | array {begin_array text end_array : List UInt8} {items : List JsonValue} (hbegin : Structural 0x5B begin_array)
    (hitems : Items text items) (hend : Structural 0x5D end_array) :
    Value (begin_array ++ text ++ end_array) (.array items)
  | empty_object {begin_object end_object : List UInt8} (hbegin : Structural 0x7B begin_object)
    (hend : Structural 0x7D end_object) : Value (begin_object ++ end_object) (.object [])
  | object {begin_object text end_object : List UInt8} {members : List (List UInt16 × JsonValue)}
    (hbegin : Structural 0x7B begin_object) (hmembers : Members text members)
    (hend : Structural 0x7D end_object) : Value (begin_object ++ text ++ end_object) (.object members)

/-- One value or more, with separators between them. -/
inductive Items : List UInt8 → List JsonValue → Prop where
  | last {text : List UInt8} {value : JsonValue} (hvalue : Value text value) : Items text [value]
  | more {text value_separator rest : List UInt8} {value : JsonValue} {items : List JsonValue}
    (hvalue : Value text value) (hseparator : Structural 0x2C value_separator) (hrest : Items rest items) :
    Items (text ++ value_separator ++ rest) (value :: items)

/-- One member or more, with separators between them. -/
inductive Members : List UInt8 → List (List UInt16 × JsonValue) → Prop where
  | last {text : List UInt8} {member : List UInt16 × JsonValue} (hmember : Member text member) : Members text [member]
  | more {text value_separator rest : List UInt8} {member : List UInt16 × JsonValue}
    {members : List (List UInt16 × JsonValue)} (hmember : Member text member)
    (hseparator : Structural 0x2C value_separator) (hrest : Members rest members) :
    Members (text ++ value_separator ++ rest) (member :: members)

inductive Member : List UInt8 → List UInt16 × JsonValue → Prop where
  | mk {name name_separator text : List UInt8} {units : List UInt16} {value : JsonValue} (hname : StringText name units)
    (hseparator : Structural 0x3A name_separator) (hvalue : Value text value) :
    Member (name ++ name_separator ++ text) (units, value)

end

/-- `JSON-text`: one value between white space. -/
inductive Document : List UInt8 → JsonValue → Prop where
  | mk {before text after : List UInt8} {value : JsonValue} (hbefore : Blank before) (hvalue : Value text value)
    (hafter : Blank after) : Document (before ++ text ++ after) value

/-- No control character occurs. -/
def Printable (text : List UInt8) : Prop := ∀ byte ∈ text, 0x20 ≤ byte

instance (text : List UInt8) : Decidable (Printable text) := List.decidableBAll (0x20 ≤ ·) text

section Tokens

theorem printable_append {first second : List UInt8} (hfirst : Printable first) (hsecond : Printable second) :
    Printable (first ++ second) := List.forall_mem_append.mpr ⟨hfirst, hsecond⟩

theorem printable_cons {byte : UInt8} {rest : List UInt8} (hbyte : 0x20 ≤ byte) (hrest : Printable rest) :
    Printable (byte :: rest) := List.forall_mem_cons.mpr ⟨hbyte, hrest⟩

/-- The bytes of numbers. -/
def numeric (byte : UInt8) : Bool :=
  byte = 0x2B || byte = 0x2D || byte = 0x2E || byte = 0x45 || byte = 0x65 || 0x30 ≤ byte && byte ≤ 0x39

/-- Digits are bytes that can stand in a number. -/
theorem Digits.all_numeric {text : List UInt8} (hdigits : Digits text) : text.all numeric := by
  rw [List.all_eq_true]
  intro byte hmem
  simp [numeric, hdigits.2 byte hmem]

theorem Fraction.all_numeric {text : List UInt8} {value : ℚ} (hfraction : Fraction text value) : text.all numeric := by
  cases hfraction with
  | none => rfl
  | some hdigits => exact hdigits.all_numeric

theorem Exponent.all_numeric {text : List UInt8} {value : ℤ} (hexponent : Exponent text value) : text.all numeric := by
  cases hexponent with
  | none => rfl
  | unsigned he hdigits => rcases he with rfl | rfl <;> exact hdigits.all_numeric
  | plus he hdigits => rcases he with rfl | rfl <;> exact hdigits.all_numeric
  | minus he hdigits => rcases he with rfl | rfl <;> exact hdigits.all_numeric

theorem Unsigned.all_numeric {text : List UInt8} {value : ℚ} (hunsigned : Unsigned text value) : text.all numeric := by
  obtain ⟨hwhole, hfraction, hexponent⟩ := hunsigned
  rw [List.all_append, List.all_append, hwhole.1.all_numeric, hfraction.all_numeric, hexponent.all_numeric]
  rfl

theorem Number.all_numeric {text : List UInt8} {value : ℚ} (hnumber : Number text value) : text.all numeric := by
  cases hnumber with
  | positive hunsigned => exact hunsigned.all_numeric
  | negative hunsigned => exact hunsigned.all_numeric

/-- A number has no control characters. -/
theorem Number.printable {text : List UInt8} {value : ℚ} (hnumber : Number text value) : Printable text := by
  intro byte hmem
  have hnumeric := List.all_eq_true.mp hnumber.all_numeric byte hmem
  rw [UInt8.le_iff_toNat_le]
  simp only [numeric, Bool.or_eq_true, Bool.and_eq_true, decide_eq_true_eq] at hnumeric
  rcases hnumeric with ((((rfl | rfl) | rfl) | rfl) | rfl) | ⟨hdigit, -⟩
  case inr => exact le_trans (by decide) (UInt8.le_iff_toNat_le.mp hdigit)
  all_goals decide

theorem HexDigit.printable {byte : UInt8} {value : ℕ} (hdigit : HexDigit byte value) : 0x20 ≤ byte := by
  cases hdigit with
  | digit hbyte => exact UInt8.le_trans (by decide : 0x20 ≤ 0x30) hbyte.1
  | upper hbyte => exact UInt8.le_trans (by decide : 0x20 ≤ 0x41) hbyte.1
  | lower hbyte => exact UInt8.le_trans (by decide : 0x20 ≤ 0x61) hbyte.1

theorem le_ofNat {code : ℕ} (hcode : 0x20 ≤ code % 0x100) : 0x20 ≤ UInt8.ofNat code := by
  rw [UInt8.le_iff_toNat_le, UInt8.toNat_ofNat']
  exact hcode

/-- The bytes of an encoding of more than one byte are not ASCII. -/
theorem printable_utf8EncodeChar {c : Char} (hc : 0x20 ≤ c.toNat) : Printable (String.utf8EncodeChar c) := by
  fun_cases String.utf8EncodeChar c with
  | case1 v hsingle =>
    have hcode : v = c.toNat := rfl
    exact printable_cons (le_ofNat (by omega)) (List.forall_mem_nil _)
  | case2 v => exact printable_cons (le_ofNat (by omega)) (printable_cons (le_ofNat (by omega)) (List.forall_mem_nil _))
  | case3 v =>
    exact printable_cons (le_ofNat (by omega)) (printable_cons (le_ofNat (by omega))
      (printable_cons (le_ofNat (by omega)) (List.forall_mem_nil _)))
  | case4 v =>
    exact printable_cons (le_ofNat (by omega)) (printable_cons (le_ofNat (by omega))
      (printable_cons (le_ofNat (by omega)) (printable_cons (le_ofNat (by omega)) (List.forall_mem_nil _))))

/-- What stands between the quotes of a string has no control characters, which have
to be escaped. -/
theorem Chars.printable {text : List UInt8} {units : List UInt16} (hchars : Chars text units) : Printable text := by
  induction hchars with
  | nil => exact List.forall_mem_nil _
  | unescaped hc hrest ih => exact printable_append (printable_utf8EncodeChar hc.1) ih
  | @escape byte unit rest units hescape hrest ih =>
    have hletters : Printable (escapes.map Prod.fst) := by decide
    have hbyte : 0x20 ≤ byte := hletters byte (List.mem_map_of_mem hescape)
    exact printable_cons (by decide) (printable_cons hbyte ih)
  | hex hfirst hsecond hthird hfourth hrest ih =>
    exact printable_cons (by decide) (printable_cons (by decide) (printable_cons hfirst.printable
      (printable_cons hsecond.printable (printable_cons hthird.printable (printable_cons hfourth.printable ih)))))

theorem StringText.printable {text : List UInt8} {units : List UInt16} (hstring : StringText text units) :
    Printable text := by
  obtain ⟨hchars⟩ := hstring
  exact printable_cons (by decide) (printable_append hchars.printable (by decide))

end Tokens

section NulFree

theorem Printable.nul_free {text : List UInt8} (hprintable : Printable text) : 0 ∉ text :=
  fun hmem => absurd (hprintable 0 hmem) (by decide)

theorem Blank.nul_free {text : List UInt8} (hblank : Blank text) : 0 ∉ text :=
  fun hmem => absurd (hblank 0 hmem) (by decide)

theorem nul_free_append {first second : List UInt8} (hfirst : 0 ∉ first) (hsecond : 0 ∉ second) :
    0 ∉ first ++ second := by
  rw [List.mem_append]
  exact not_or_intro hfirst hsecond

theorem Structural.nul_free {mark : UInt8} {text : List UInt8} (hstructural : Structural mark text) (hmark : 0 ≠ mark) :
    0 ∉ text := by
  obtain ⟨before, after, hbefore, hafter, rfl⟩ := hstructural
  exact nul_free_append hbefore.nul_free (List.not_mem_cons_of_ne_of_not_mem hmark hafter.nul_free)

mutual

/-- A NUL byte is no blank, no mark and in no string, so that no value contains one.
-/
theorem Value.nul_free {text : List UInt8} {value : JsonValue} (hvalue : Value text value) : 0 ∉ text := by
  cases hvalue with
  | null => decide
  | false => decide
  | true => decide
  | number hnumber => exact hnumber.printable.nul_free
  | string hstring => exact hstring.printable.nul_free
  | empty_array hbegin hend => exact nul_free_append (hbegin.nul_free (by decide)) (hend.nul_free (by decide))
  | array hbegin hitems hend =>
    exact nul_free_append (nul_free_append (hbegin.nul_free (by decide)) hitems.nul_free) (hend.nul_free (by decide))
  | empty_object hbegin hend => exact nul_free_append (hbegin.nul_free (by decide)) (hend.nul_free (by decide))
  | object hbegin hmembers hend =>
    exact nul_free_append (nul_free_append (hbegin.nul_free (by decide)) hmembers.nul_free) (hend.nul_free (by decide))

theorem Items.nul_free {text : List UInt8} {items : List JsonValue} (hitems : Items text items) : 0 ∉ text := by
  cases hitems with
  | last hvalue => exact hvalue.nul_free
  | more hvalue hseparator hrest =>
    exact nul_free_append (nul_free_append hvalue.nul_free (hseparator.nul_free (by decide))) hrest.nul_free

theorem Members.nul_free {text : List UInt8} {members : List (List UInt16 × JsonValue)}
    (hmembers : Members text members) : 0 ∉ text := by
  cases hmembers with
  | last hmember => exact hmember.nul_free
  | more hmember hseparator hrest =>
    exact nul_free_append (nul_free_append hmember.nul_free (hseparator.nul_free (by decide))) hrest.nul_free

theorem Member.nul_free {text : List UInt8} {member : List UInt16 × JsonValue} (hmember : Member text member) :
    0 ∉ text := by
  obtain ⟨hname, hseparator, hvalue⟩ := hmember
  exact nul_free_append (nul_free_append hname.printable.nul_free (hseparator.nul_free (by decide))) hvalue.nul_free

end

/-- A text with a NUL byte is no document. -/
theorem Document.nul_free {text : List UInt8} {value : JsonValue} (hdocument : Document text value) : 0 ∉ text := by
  obtain ⟨hbefore, hvalue, hafter⟩ := hdocument
  exact nul_free_append (nul_free_append hbefore.nul_free hvalue.nul_free) hafter.nul_free

end NulFree

section Filter

variable {keep : UInt8 → Bool}

/-- What is left of blanks is blank. -/
theorem Blank.filter {text : List UInt8} (hblank : Blank text) : Blank (text.filter keep) :=
  fun byte hmem => hblank byte (List.mem_of_mem_filter hmem)

variable (hkeep : ∀ byte, 0x20 ≤ byte → keep byte = true)
include hkeep

/-- A text without control characters is kept as it is. -/
theorem filter_printable {text : List UInt8} (hprintable : Printable text) : text.filter keep = text :=
  List.filter_eq_self.mpr fun byte hmem => hkeep byte (hprintable byte hmem)

/-- A mark stays, with some of its blanks. -/
theorem Structural.filter {mark : UInt8} {text : List UInt8} (hstructural : Structural mark text)
    (hmark : 0x20 ≤ mark) : Structural mark (text.filter keep) := by
  obtain ⟨before, after, hbefore, hafter, rfl⟩ := hstructural
  refine ⟨before.filter keep, after.filter keep, hbefore.filter, hafter.filter, ?_⟩
  rw [List.filter_append, List.filter_cons_of_pos (hkeep mark hmark)]

mutual

/-- Without some of its control characters a text has the same value. They are white
space. -/
theorem Value.filter {text : List UInt8} {value : JsonValue} (hvalue : Value text value) :
    Value (text.filter keep) value := by
  cases hvalue with
  | null =>
    rw [filter_printable hkeep (by decide)]
    exact .null
  | false =>
    rw [filter_printable hkeep (by decide)]
    exact .false
  | true =>
    rw [filter_printable hkeep (by decide)]
    exact .true
  | number hnumber =>
    rw [filter_printable hkeep hnumber.printable]
    exact .number hnumber
  | string hstring =>
    rw [filter_printable hkeep hstring.printable]
    exact .string hstring
  | empty_array hbegin hend =>
    rw [List.filter_append]
    exact .empty_array (hbegin.filter hkeep (by decide)) (hend.filter hkeep (by decide))
  | array hbegin hitems hend =>
    rw [List.filter_append, List.filter_append]
    exact .array (hbegin.filter hkeep (by decide)) hitems.filter (hend.filter hkeep (by decide))
  | empty_object hbegin hend =>
    rw [List.filter_append]
    exact .empty_object (hbegin.filter hkeep (by decide)) (hend.filter hkeep (by decide))
  | object hbegin hmembers hend =>
    rw [List.filter_append, List.filter_append]
    exact .object (hbegin.filter hkeep (by decide)) hmembers.filter (hend.filter hkeep (by decide))

theorem Items.filter {text : List UInt8} {items : List JsonValue} (hitems : Items text items) :
    Items (text.filter keep) items := by
  cases hitems with
  | last hvalue => exact .last hvalue.filter
  | more hvalue hseparator hrest =>
    rw [List.filter_append, List.filter_append]
    exact .more hvalue.filter (hseparator.filter hkeep (by decide)) hrest.filter

theorem Members.filter {text : List UInt8} {members : List (List UInt16 × JsonValue)}
    (hmembers : Members text members) : Members (text.filter keep) members := by
  cases hmembers with
  | last hmember => exact .last hmember.filter
  | more hmember hseparator hrest =>
    rw [List.filter_append, List.filter_append]
    exact .more hmember.filter (hseparator.filter hkeep (by decide)) hrest.filter

theorem Member.filter {text : List UInt8} {member : List UInt16 × JsonValue} (hmember : Member text member) :
    Member (text.filter keep) member := by
  obtain ⟨hname, hseparator, hvalue⟩ := hmember
  rw [List.filter_append, List.filter_append, filter_printable hkeep hname.printable]
  exact .mk hname (hseparator.filter hkeep (by decide)) hvalue.filter

end

/-- A document keeps its value if some of its control characters are dropped: they
are blanks. -/
theorem Document.filter {text : List UInt8} {value : JsonValue} (hdocument : Document text value) :
    Document (text.filter keep) value := by
  obtain ⟨hbefore, hvalue, hafter⟩ := hdocument
  rw [List.filter_append, List.filter_append]
  exact .mk hbefore.filter (hvalue.filter hkeep) hafter.filter

end Filter

end JsonText
