import OjalvoChat.MessageBuffer
import OjalvoChat.Server

namespace ojalvo

/-- The bytes of a block of memory. Whoever reads or writes outside of it is
stopped. -/
abbrev Block := List UInt8

def Block.load (block : Block) (position : Nat) : Except Stop UInt8 :=
  if h : position < block.length then .ok (block.get ⟨position, h⟩) else .error .out_of_bounds

def Block.store (block : Block) (position : Nat) (byte : UInt8) : Except Stop Block :=
  if position < block.length then .ok (block.set position byte) else .error .out_of_bounds

/-- `memcpy` to the beginning of a block. -/
def Block.memcpy (block : Block) (bytes : List UInt8) : Except Stop Block :=
  if bytes.length ≤ block.length then .ok (bytes ++ block.drop bytes.length) else .error .out_of_bounds

/-- `message_buffer_extract` with the block it writes to. -/
def message_buffer_extract_to (buffer : MessageBuffer) (out : Block) (out_capacity : Nat) :
    Except Stop (Option (Block × Nat × MessageBuffer)) :=
  match message_buffer_extract buffer out_capacity with
  | none => .ok none
  | some (copied, raw_length, rest) => do
    let out ← out.memcpy copied
    let out ← out.store copied.length 0
    return some (out, raw_length, rest)

/-- The bytes that no message may hold: NUL, tab, CR, LF and backspace. -/
def stripped (rp : UInt8) : Bool := rp = 0 ∨ rp = 9 ∨ rp = 13 ∨ rp = 10 ∨ rp = 8

/-- The loop of `message_is_valid`, with so many bytes to go. -/
def message_is_valid_from (text : Block) (remaining i : Nat) : Except Stop Bool :=
  match remaining with
  | 0 => return true
  | remaining + 1 => do
    let rp ← text.load i
    if stripped rp then return false
    else message_is_valid_from text remaining (i + 1)

def message_is_valid (text : Block) (length : Nat) : Except Stop Bool := message_is_valid_from text length 0

/-- The loop of `message_buffer_sanitize`: it reads at one position and writes at
another. -/
def sanitize_from (text : Block) (remaining read_pos write_pos : Nat) : Except Stop (Block × Nat) :=
  match remaining with
  | 0 => return (text, write_pos)
  | remaining + 1 => do
    let rp ← text.load read_pos
    if stripped rp then sanitize_from text remaining (read_pos + 1) write_pos
    else
      let byte ← text.load read_pos
      let text ← text.store write_pos byte
      sanitize_from text remaining (read_pos + 1) (write_pos + 1)

/-- `message_buffer_sanitize` on the block that it changes in place. -/
def message_buffer_sanitize_at (text : Block) (length : Nat) : Except Stop (Block × Nat) := do
  let (text, write_pos) ← sanitize_from text length 0 0
  let text ← text.store write_pos 0
  return (text, write_pos)

namespace Block

theorem load_append_cons (before rest : Block) (byte : UInt8) :
    Block.load (before ++ byte :: rest) before.length = .ok byte := by
  simp [Block.load]

theorem store_append_cons (before rest : Block) (old byte : UInt8) :
    Block.store (before ++ old :: rest) before.length byte = .ok (before ++ byte :: rest) := by
  simp [Block.store]

end Block

/-- A byte that is kept goes to where dropped bytes begin, and nothing unread is
lost. -/
theorem store_kept (kept dropped rest : Block) (byte : UInt8) :
    ∃ stale, stale.length = dropped.length ∧
      Block.store (kept ++ dropped ++ byte :: rest) kept.length byte = .ok (kept ++ [byte] ++ stale ++ rest) := by
  cases dropped with
  | nil =>
    refine ⟨[], rfl, ?_⟩
    simpa using Block.store_append_cons kept rest byte byte
  | cons first dropped =>
    refine ⟨dropped ++ [byte], by simp, ?_⟩
    simpa using Block.store_append_cons kept (dropped ++ byte :: rest) first byte

section Loop

variable {text later : Block} {remaining read_pos write_pos : Nat} {byte : UInt8}
  (hload : text.load read_pos = .ok byte)
include hload

theorem sanitize_from_skip (hstripped : stripped byte = true) :
    sanitize_from text (remaining + 1) read_pos write_pos = sanitize_from text remaining (read_pos + 1) write_pos := by
  rw [sanitize_from, hload]
  exact if_pos hstripped

theorem sanitize_from_keep (hkept : stripped byte = false) (hstore : text.store write_pos byte = .ok later) :
    sanitize_from text (remaining + 1) read_pos write_pos =
      sanitize_from later remaining (read_pos + 1) (write_pos + 1) := by
  rw [sanitize_from, hload]
  change (if stripped byte = true then _ else _) = _
  rw [if_neg (by rw [hkept]; exact Bool.false_ne_true)]
  change (text.store write_pos byte >>= _) = _
  rw [hstore]
  rfl

end Loop

/-- A line as it lies in a block: what the loop has kept, what it has dropped since,
and what is unread. -/
theorem sanitize_from_eq (line kept dropped rest : Block) :
    ∃ stale, stale.length + (line.filter fun byte => !stripped byte).length = dropped.length + line.length ∧
      sanitize_from (kept ++ dropped ++ (line ++ rest)) line.length (kept.length + dropped.length) kept.length =
        .ok (kept ++ (line.filter fun byte => !stripped byte) ++ stale ++ rest,
          kept.length + (line.filter fun byte => !stripped byte).length) := by
  induction line generalizing kept dropped with
  | nil => exact ⟨dropped, rfl, by simp [sanitize_from]; rfl⟩
  | cons byte line ih =>
    have hload : Block.load (kept ++ dropped ++ byte :: (line ++ rest)) (kept.length + dropped.length) = .ok byte := by
      rw [← List.length_append]
      exact Block.load_append_cons (kept ++ dropped) (line ++ rest) byte
    rw [List.cons_append, List.length_cons]
    cases hstripped : stripped byte with
    | true =>
      obtain ⟨stale, hlength, hloop⟩ := ih kept (dropped ++ [byte])
      rw [sanitize_from_skip hload hstripped, List.filter_cons_of_neg (by simp [hstripped])]
      rw [List.length_append, List.length_singleton] at hlength
      refine ⟨stale, by omega, ?_⟩
      simpa [Nat.add_assoc] using hloop
    | false =>
      obtain ⟨later, hlater, hstore⟩ := store_kept kept dropped (line ++ rest) byte
      obtain ⟨stale, hlength, hloop⟩ := ih (kept ++ [byte]) later
      rw [sanitize_from_keep hload hstripped hstore, List.filter_cons_of_pos (by simp [hstripped]), List.length_cons]
      refine ⟨stale, by omega, ?_⟩
      have hposition : kept.length + dropped.length + 1 = (kept ++ [byte]).length + later.length := by
        rw [List.length_append, List.length_singleton, hlater]
        omega
      rw [hposition]
      simpa [Nat.add_assoc, Nat.add_comm 1] using hloop

theorem message_is_valid_from_eq (line before rest : Block) :
    message_is_valid_from (before ++ (line ++ rest)) line.length before.length =
      .ok (line.all fun byte => !stripped byte) := by
  induction line generalizing before with
  | nil => rfl
  | cons byte line ih =>
    rw [List.cons_append, List.length_cons, message_is_valid_from, Block.load_append_cons]
    change (if stripped byte = true then _ else _) = _
    rw [List.all_cons]
    cases hstripped : stripped byte with
    | true => rfl
    | false => simpa using ih (before ++ [byte])

section Lines

variable (line rest : Block)

theorem message_is_valid_eq :
    message_is_valid (line ++ rest) line.length = .ok (line.all fun byte => !stripped byte) :=
  message_is_valid_from_eq line [] rest

theorem message_buffer_sanitize_eq_filter :
    message_buffer_sanitize line line.length = line.filter fun byte => !stripped byte := by
  simp [message_buffer_sanitize, stripped]

/-- The line without the bytes that no message may hold, and a NUL right after it.
The block holds the line and at least one byte more. -/
theorem message_buffer_sanitize_at_eq (hroom : rest ≠ []) :
    ∃ stale, stale.length + (message_buffer_sanitize line line.length).length = line.length ∧
      message_buffer_sanitize_at (line ++ rest) line.length =
        .ok (message_buffer_sanitize line line.length ++ 0 :: (stale ++ rest).tail,
          (message_buffer_sanitize line line.length).length) := by
  obtain ⟨stale, hlength, hloop⟩ := sanitize_from_eq line [] [] rest
  rw [message_buffer_sanitize_eq_filter]
  refine ⟨stale, by simpa using hlength, ?_⟩
  obtain ⟨first, others, hlast⟩ := List.exists_cons_of_ne_nil (List.append_ne_nil_of_right_ne_nil stale hroom)
  simp only [List.nil_append, List.length_nil, Nat.zero_add, List.append_assoc, hlast] at hloop
  rw [hlast, message_buffer_sanitize_at, hloop]
  change (Block.store _ _ 0 >>= _) = _
  rw [Block.store_append_cons]
  rfl

end Lines

/-- Extraction to a block that is as large as the buffer copies the line and ends it
with a NUL. -/
theorem message_buffer_extract_to_eq {buffer : MessageBuffer} {out : Block} {raw later : List UInt8}
    (hout : out.length = SERVER_BUFFER_SIZE) (hdata : buffer.data = raw ++ 10 :: later) (hfree : 10 ∉ raw) :
    ∃ rest, message_buffer_extract_to buffer out SERVER_BUFFER_SIZE =
        .ok (some (raw ++ 0 :: out.drop (raw.length + 1), raw.length, rest)) ∧ rest.data = later := by
  obtain ⟨rest, hextract, hrest⟩ := message_buffer_extract_of_line hdata hfree
  have hfits := buffer.fits
  rw [hdata, List.length_append, List.length_cons, ← hout] at hfits
  have hroom : raw.length < out.length := by omega
  refine ⟨rest, ?_, hrest⟩
  have hcopy : out.memcpy raw = .ok (raw ++ out.get ⟨raw.length, hroom⟩ :: out.drop (raw.length + 1)) := by
    rw [Block.memcpy, if_pos hroom.le]
    simp
  rw [message_buffer_extract_to, hextract]
  change (out.memcpy raw >>= _) = _
  rw [hcopy]
  change (Block.store _ _ 0 >>= _) = _
  rw [Block.store_append_cons]
  rfl

end ojalvo
