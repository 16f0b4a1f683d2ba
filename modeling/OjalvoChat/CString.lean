import Mathlib.Data.List.TakeWhile

namespace ojalvo

/-- The bytes of a C string, without the NUL that ends it. -/
structure CString where
  bytes : List UInt8
  nul_free : 0 ∉ bytes
  deriving DecidableEq

namespace CString

/-- The C string that starts a block of bytes: what precedes the first NUL. -/
def of_bytes (raw : List UInt8) : CString where
  bytes := raw.takeWhile (· ≠ 0)
  nul_free hmem := by simpa using List.mem_takeWhile_imp hmem

/-- A string literal of the source. -/
def lit (text : String) : CString := of_bytes text.toUTF8.data.toList

theorem of_bytes_of_nul_free {raw : List UInt8} (hfree : 0 ∉ raw) : (of_bytes raw).bytes = raw := by
  simp only [of_bytes, List.takeWhile_eq_self_iff, decide_eq_true_eq]
  rintro byte hmem rfl
  exact hfree hmem

/-- What follows a NUL is not read. -/
theorem of_bytes_append_nul (raw rest : List UInt8) : of_bytes (raw ++ 0 :: rest) = of_bytes raw := by
  simp only [of_bytes, mk.injEq]
  induction raw with
  | nil => simp
  | cons byte raw ih => rw [List.cons_append, List.takeWhile_cons, List.takeWhile_cons, ih]

end CString

def strlen (text : CString) : Nat := text.bytes.length

/-- The copy that `strndup` makes: at most `limit` bytes. -/
def CString.cut (text : CString) (limit : Nat) : CString where
  bytes := text.bytes.take limit
  nul_free hmem := text.nul_free (List.mem_of_mem_take hmem)

theorem strlen_cut (text : CString) (limit : Nat) : strlen (text.cut limit) = min limit (strlen text) := by
  simp [strlen, CString.cut]

/-- Cutting keeps a string that already fits. -/
theorem CString.cut_of_strlen_le {text : CString} {limit : Nat} (hfits : strlen text ≤ limit) :
    text.cut limit = text := by
  obtain ⟨bytes, hfree⟩ := text
  simp only [CString.cut, mk.injEq]
  exact List.take_of_length_le hfits

end ojalvo
