import Ffado.Util.CmdSerialize

/-!
# Reads of a response

A parser reads a response with lengths that the device has sent. Which reads stay in the buffer,
count forwards and leave the cursor alone when they fail depends on the cursor only: a word must not
begin at the last byte, a quadlet or a string must not run over the end, an empty string must not
stand at the start, and the `int` that counts the bytes must not overflow.
-/
namespace Ffado.Cmd

open CircularMemory LabelledRun MachineInt

inductive ReadOp
  | byte
  | uint16
  | quadlet
  | chars (length : Fin (2 ^ 64))
  | peekByte
  | peekUInt16 (offset : Fin (2 ^ 64))
  | skip (length : Fin (2 ^ 64))

/-- The count of bytes does not leave the range of `int` when `n` are added to it. -/
def CountsOn (p n : ℕ) : Prop := i32 p + (n % 2 ^ 32 : ℕ) < 2 ^ 31

def StaysInside (length p : ℕ) : ReadOp → Prop
  | .byte => length ≤ p ∨ (p + 1 ≤ length ∧ CountsOn p 1)
  | .uint16 => length ≤ p ∨ (p + 2 ≤ length ∧ CountsOn p 2)
  | .quadlet => length ≤ p ∨ (p + 4 ≤ length ∧ CountsOn p 4)
  | .chars n => length ≤ p ∨ (0 < p + n ∧ p + n ≤ length ∧ CountsOn p n)
  | .peekByte => True
  | .peekUInt16 _ => True
  | .skip n => CountsOn p n

/-- The cursor behind a read that stays inside. -/
def cursorAfter (length p : ℕ) : ReadOp → ℕ
  | .byte => if p < length then p + 1 else p
  | .uint16 => if p < length then p + 2 else p
  | .quadlet => if p < length then p + 4 else p
  | .chars n => if p < length then p + n else p
  | .peekByte => p
  | .peekUInt16 _ => p
  | .skip n => u64 (p + n)

namespace BufferDeserialize

variable {d d' : BufferDeserialize} {order : ByteOrder} {op : ReadOp} {n : ℕ}

/-- The buffer behind an operation, and its result. -/
def perform (order : ByteOrder) (d : BufferDeserialize) : ReadOp → BufferDeserialize × Bool
  | .byte => (d.readByte.1, d.readByte.2.isSome)
  | .uint16 => (d.readUInt16.1, d.readUInt16.2.isSome)
  | .quadlet => ((d.readQuadlet order).1, (d.readQuadlet order).2.isSome)
  | .chars n => ((d.readChars n).1, (d.readChars n).2.1)
  | .peekByte => (d.peekByte.1, d.peekByte.2.isSome)
  | .peekUInt16 offset => ((d.peekUInt16 offset).1, (d.peekUInt16 offset).2.isSome)
  | .skip n => d.skip n

/-- Where the bytes that an operation delivers begin, and their number. -/
def delivered (d : BufferDeserialize) : ReadOp → ℕ × ℕ
  | .byte => (d.curPos, 1)
  | .uint16 => (d.curPos, 2)
  | .quadlet => (d.curPos, 4)
  | .chars n => (d.curPos, n)
  | .peekByte => (d.curPos, 1)
  | .peekUInt16 offset => (u64 (d.curPos + offset), 2)
  | .skip _ => (d.curPos, 0)

structure ReadOk (order : ByteOrder) (d : BufferDeserialize) (op : ReadOp) : Prop where
  inside : (d.perform order op).2 = true →
    ∀ i < (d.delivered op).2, (d.delivered op).1 + i < d.length
  forwards : d.getNrOfConsumedBytes ≤ (d.perform order op).1.getNrOfConsumedBytes
  unchanged : (d.perform order op).2 = false → (d.perform order op).1.curPos = d.curPos

theorem getNrOfConsumedBytes_le_advance :
    d.getNrOfConsumedBytes ≤ (d.advance n).getNrOfConsumedBytes ↔ CountsOn d.curPos n := by
  rw [getNrOfConsumedBytes, getNrOfConsumedBytes, advance_curPos]
  exact i32_le_i32_u64_add d.curPos n

theorem readOk_iff_of_true (hperform : d.perform order op = (d.advance n, true))
    (hdelivered : d.delivered op = (d.curPos, n)) (hlt : d.curPos < d.length) :
    ReadOk order d op ↔ d.curPos + n ≤ d.length ∧ CountsOn d.curPos n := by
  constructor
  · rintro ⟨hinside, hforwards, -⟩
    rw [hperform] at hinside hforwards
    rw [hdelivered] at hinside
    constructor
    · rcases Nat.eq_zero_or_pos n with rfl | hn
      · exact hlt.le
      · have hlast := hinside rfl (n - 1) (Nat.sub_lt hn one_pos)
        omega
    · exact getNrOfConsumedBytes_le_advance.mp hforwards
  · rintro ⟨hle, hcounts⟩
    constructor
    · rw [hdelivered]
      intro _ i hi
      omega
    · rw [hperform]
      exact getNrOfConsumedBytes_le_advance.mpr hcounts
    · simp [hperform]

theorem readOk_of_same {result : Bool} (hperform : d.perform order op = (d, result))
    (hinside : result = true → ∀ i < (d.delivered op).2, (d.delivered op).1 + i < d.length) :
    ReadOk order d op := by
  constructor
  · rwa [hperform]
  · rw [hperform]
  · rw [hperform]
    intro _
    rfl

theorem not_readOk_of_moved (hperform : d.perform order op = (d', false))
    (hmoved : d'.curPos ≠ d.curPos) : ¬ ReadOk order d op := by
  intro h
  have hcur := h.unchanged (by rw [hperform])
  rw [hperform] at hcur
  exact hmoved hcur

theorem perform_byte : d.perform order .byte =
    if d.curPos < d.length then (d.advance 1, true) else (d, false) := by
  simp only [perform, readByte, isCurPosValid_iff]
  split_ifs <;> rfl

theorem perform_quadlet : d.perform order .quadlet =
    if d.curPos < d.length then (d.advance 4, true) else (d, false) := by
  simp only [perform, readQuadlet, isCurPosValid_iff]
  split_ifs <;> rfl

/-- A read of `n` bytes that looks at the first one only. -/
theorem readOk_iff_of_unchecked (hperform : d.perform order op =
      if d.curPos < d.length then (d.advance n, true) else (d, false))
    (hdelivered : d.delivered op = (d.curPos, n)) :
    ReadOk order d op ↔ d.length ≤ d.curPos ∨ (d.curPos + n ≤ d.length ∧ CountsOn d.curPos n) := by
  rcases Nat.lt_or_ge d.curPos d.length with hlt | hge
  · rw [if_pos hlt] at hperform
    rw [readOk_iff_of_true hperform hdelivered hlt, or_iff_right (by omega)]
  · rw [if_neg (by omega)] at hperform
    exact iff_of_true (readOk_of_same hperform (by simp)) (Or.inl hge)

theorem readOk_uint16_iff : ReadOk order d .uint16 ↔ StaysInside d.length d.curPos .uint16 := by
  obtain ⟨hge, heq⟩ | ⟨hlast, heq⟩ | ⟨hle, heq⟩ := readUInt16_cases d
  · have hperform : d.perform order .uint16 = (d, false) := by
      rw [perform, heq, Option.isSome_none]
    exact iff_of_true (readOk_of_same hperform (by simp)) (Or.inl hge)
  · -- the first byte is gone
    have hperform : d.perform order .uint16 = (d.advance 1, false) := by
      rw [perform, heq, Option.isSome_none]
    have hcur := d.advance_curPos_of_le (n := 1) hlast.le
    apply iff_of_false (not_readOk_of_moved hperform (by omega))
    rw [StaysInside]
    omega
  · have hperform : d.perform order .uint16 = (d.advance 2, true) := by
      rw [perform, heq, Option.isSome_some]
    rw [readOk_iff_of_true hperform rfl (by omega), StaysInside, or_iff_right (by omega)]

theorem readOk_chars_iff (length : Fin (2 ^ 64)) :
    ReadOk order d (.chars length) ↔ StaysInside d.length d.curPos (.chars length) := by
  have hmax := sizeMax_add_one
  have hlength := d.length_lt
  rw [StaysInside]
  obtain ⟨hge, heq⟩ | ⟨hlt, hback, heq⟩ | ⟨hlt, hback, heq⟩ := readChars_cases d length
  · have hperform : d.perform order (.chars length) = (d, false) := by
      rw [perform, heq]
    exact iff_of_true (readOk_of_same hperform (by simp)) (Or.inl hge)
  · -- the cursor stays where the check has failed
    have hperform : d.perform order (.chars length) = (d.advance (length + sizeMax), false) := by
      rw [perform, heq]
    have hmoved : (d.advance (length + sizeMax)).curPos ≠ d.curPos := by
      rw [advance_curPos]
      omega
    apply iff_of_false (not_readOk_of_moved hperform hmoved)
    rw [u64] at hback
    omega
  · have hperform : d.perform order (.chars length) = (d.advance length, true) := by
      rw [perform, heq]
    have hpos : d.curPos + length ≤ d.length → 0 < d.curPos + length := by
      rw [u64] at hback
      omega
    rw [readOk_iff_of_true hperform rfl hlt, or_iff_right (by omega)]
    constructor
    · rintro ⟨hle, hcounts⟩
      exact ⟨hpos hle, hle, hcounts⟩
    · rintro ⟨-, hle, hcounts⟩
      exact ⟨hle, hcounts⟩

theorem readOk_peekByte : ReadOk order d .peekByte := by
  rcases Nat.lt_or_ge d.curPos d.length with hlt | hge
  · apply readOk_of_same (by rw [perform, peekByte, if_pos (d.isCurPosValid_iff.mpr hlt)])
    intro _ i hi
    simp only [delivered] at hi ⊢
    omega
  · apply readOk_of_same (by rw [perform, peekByte, if_neg (by rw [isCurPosValid_iff]; omega)])
    simp

theorem readOk_peekUInt16 (offset : Fin (2 ^ 64)) : ReadOk order d (.peekUInt16 offset) := by
  have hperform := peekUInt16_eq d offset
  split_ifs at hperform with hlt
  · apply readOk_of_same (by rw [perform, hperform])
    intro _ i hi
    simp only [delivered] at hi ⊢
    omega
  · exact readOk_of_same (by rw [perform, hperform]) (by simp)

theorem readOk_skip_iff (length : Fin (2 ^ 64)) :
    ReadOk order d (.skip length) ↔ CountsOn d.curPos length := by
  rw [← getNrOfConsumedBytes_le_advance]
  constructor
  · intro h
    exact h.forwards
  · intro h
    constructor
    · intro _ i hi
      exact absurd hi (Nat.not_lt_zero i)
    · exact h
    · simp [perform, skip]

theorem readOk_iff : ReadOk order d op ↔ StaysInside d.length d.curPos op := by
  cases op with
  | byte => exact readOk_iff_of_unchecked perform_byte rfl
  | uint16 => exact readOk_uint16_iff
  | quadlet => exact readOk_iff_of_unchecked perform_quadlet rfl
  | chars length => exact readOk_chars_iff length
  | peekByte => exact iff_of_true readOk_peekByte trivial
  | peekUInt16 offset => exact iff_of_true (readOk_peekUInt16 offset) trivial
  | skip length => exact readOk_skip_iff length

theorem perform_of_staysInside (h : StaysInside d.length d.curPos op) :
    (d.perform order op).1.length = d.length ∧
      (d.perform order op).1.curPos = cursorAfter d.length d.curPos op := by
  cases op with
  | byte =>
    rw [perform_byte, cursorAfter]
    split_ifs with hlt
    · exact ⟨d.advance_length 1, d.advance_curPos_of_le hlt⟩
    · exact ⟨rfl, rfl⟩
  | uint16 =>
    rw [StaysInside] at h
    rw [perform, cursorAfter]
    obtain ⟨hge, heq⟩ | ⟨hlast, -⟩ | ⟨hle, heq⟩ := readUInt16_cases d
    · rw [heq, if_neg (by omega)]
      exact ⟨rfl, rfl⟩
    · omega
    · rw [heq, if_pos (by omega)]
      exact ⟨d.advance_length 2, d.advance_curPos_of_le hle⟩
  | quadlet =>
    rw [StaysInside] at h
    rw [perform_quadlet, cursorAfter]
    split_ifs with hlt
    · exact ⟨d.advance_length 4, d.advance_curPos_of_le (by omega)⟩
    · exact ⟨rfl, rfl⟩
  | chars length =>
    rw [StaysInside] at h
    rw [perform, cursorAfter]
    by_cases hlt : d.curPos < d.length
    · obtain ⟨hpos, hle, -⟩ := h.resolve_left (by omega)
      rw [readChars_of_le hlt hpos hle, if_pos hlt]
      exact ⟨d.advance_length length, d.advance_curPos_of_le hle⟩
    · obtain ⟨-, heq⟩ | ⟨hlt', -⟩ | ⟨hlt', -⟩ := readChars_cases d length
      · rw [heq, if_neg hlt]
        exact ⟨rfl, rfl⟩
      · omega
      · omega
  | peekByte =>
    rw [perform, peekByte]
    split_ifs <;> exact ⟨rfl, rfl⟩
  | peekUInt16 offset =>
    rw [perform, peekUInt16_eq]
    exact ⟨rfl, rfl⟩
  | skip length => exact ⟨d.advance_length length, d.advance_curPos length⟩

/-- For every response and every sequence of operations: each one stays inside, counts forwards and
leaves the cursor alone when it fails, just if each one meets the condition at its cursor. -/
theorem reads_stay_inside_iff (order : ByteOrder) (d : BufferDeserialize) (ops : List ReadOp) :
    Along (fun d op => (d.perform order op).1) (ReadOk order) d ops ↔
      Along (cursorAfter d.length) (StaysInside d.length) d.curPos ops := by
  apply along_iff (fun d' p => d'.length = d.length ∧ d'.curPos = p)
  · rintro d' p op - ⟨hlength, rfl⟩
    rw [← hlength]
    exact readOk_iff
  · rintro d' p op - ⟨hlength, rfl⟩ hok
    rw [← hlength]
    exact perform_of_staysInside (readOk_iff.mp hok)
  · exact ⟨rfl, rfl⟩

/-- An empty string at the start of a response moves the cursor in front of it. -/
theorem empty_string_moves_cursor :
    ¬ Along (fun d op => (d.perform .littleEndian op).1) (ReadOk .littleEndian)
      (create (fun _ => 0) 4) [.chars 0] := by
  rintro ⟨hok, -⟩
  have hinside := readOk_iff.mp hok
  simp [StaysInside, create, u64] at hinside

end BufferDeserialize

end Ffado.Cmd
