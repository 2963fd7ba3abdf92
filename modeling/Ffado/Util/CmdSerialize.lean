import Ffado.Lib.CircularMemory
import Ffado.Lib.LabelledRun
import Ffado.Lib.MachineInt
import Ffado.Util.ByteSwap

/-!
# Command buffers

`BufferSerialize` writes the items of a command into a buffer of fixed length, and
`BufferDeserialize` reads them from a response. Each of their functions looks at the cursor at
another moment: before the first byte, before every byte, or behind the last one. The cursor is
the distance from the start of the buffer, and the memory goes on behind its end.
-/
namespace Ffado.Cmd

open CircularMemory LabelledRun MachineInt

/-- What a single write or read is about. -/
inductive Item
  | byte (value : UInt8)
  | uint16 (value : UInt16)
  | quadlet (value : Quadlet)
  | chars (values : List UInt8)
  deriving DecidableEq

def hiByte (value : UInt16) : UInt8 := ((value &&& 0xFF00) >>> 8).toUInt8

def loByte (value : UInt16) : UInt8 := (value &&& 0xFF).toUInt8

def ofBytes (hi lo : UInt8) : UInt16 := (hi.toUInt16 <<< 8) ||| lo.toUInt16

@[simp] theorem ofBytes_hiByte_loByte (value : UInt16) :
    ofBytes (hiByte value) (loByte value) = value := by
  apply UInt16.toBitVec_inj.mp
  apply BitVec.eq_of_getLsbD_eq
  intro i hi
  simp only [ofBytes, hiByte, loByte, UInt16.toBitVec_or, UInt16.toBitVec_shiftLeft,
    UInt8.toBitVec_toUInt16, UInt16.toBitVec_toUInt8, UInt16.toBitVec_and,
    UInt16.toBitVec_shiftRight, BitVec.getLsbD_or]
  interval_cases i <;> simp

def quadletBytes : ByteOrder → Quadlet → List UInt8
  | .littleEndian, v =>
    [⟨v.extractLsb' 0 8⟩, ⟨v.extractLsb' 8 8⟩, ⟨v.extractLsb' 16 8⟩, ⟨v.extractLsb' 24 8⟩]
  | .bigEndian, v =>
    [⟨v.extractLsb' 24 8⟩, ⟨v.extractLsb' 16 8⟩, ⟨v.extractLsb' 8 8⟩, ⟨v.extractLsb' 0 8⟩]

theorem quadlet_width : 8 + 8 + 8 + 8 = 32 := rfl

def quadletAt (order : ByteOrder) (m : ℕ → UInt8) (p : ℕ) : Quadlet :=
  match order with
  | .littleEndian =>
    ((m (p + 3)).toBitVec ++ (m (p + 2)).toBitVec ++ (m (p + 1)).toBitVec ++ (m p).toBitVec).cast
      quadlet_width
  | .bigEndian =>
    ((m p).toBitVec ++ (m (p + 1)).toBitVec ++ (m (p + 2)).toBitVec ++ (m (p + 3)).toBitVec).cast
      quadlet_width

@[simp] theorem length_quadletBytes (order : ByteOrder) (v : Quadlet) :
    (quadletBytes order v).length = 4 := by
  cases order <;> rfl

theorem append_bytes (v : Quadlet) :
    ((v.extractLsb' 24 8 ++ v.extractLsb' 16 8 ++ v.extractLsb' 8 8 ++ v.extractLsb' 0 8).cast rfl :
      Quadlet) = v := by
  apply BitVec.eq_of_getLsbD_eq
  intro i hi
  simp only [BitVec.getLsbD_cast, BitVec.getLsbD_append, BitVec.getLsbD_extractLsb']
  interval_cases i <;> simp

theorem quadletAt_of_contains {order : ByteOrder} {m : ℕ → UInt8} {p : ℕ} {v : Quadlet}
    (h : Contains m p (quadletBytes order v)) : quadletAt order m p = v := by
  cases order with
  | _ =>
    simp only [quadletBytes, contains_cons, contains_nil, Nat.add_assoc] at h
    obtain ⟨h0, h1, h2, h3, -⟩ := h
    rw [quadletAt, h0, h1, h2, h3]
    exact append_bytes v

namespace Item

def size : Item → ℕ
  | byte _ => 1
  | uint16 _ => 2
  | quadlet _ => 4
  | chars values => values.length

def bytes (order : ByteOrder) : Item → List UInt8
  | byte value => [value]
  | uint16 value => [hiByte value, loByte value]
  | quadlet value => quadletBytes order value
  | chars values => values

@[simp] theorem length_bytes (order : ByteOrder) (w : Item) : (w.bytes order).length = w.size := by
  cases w with
  | quadlet value => exact length_quadletBytes order value
  | _ => rfl

end Item

/-- A string to be written and the buffer both lie in the memory of the process, so that the
cursor behind them does not overflow. -/
structure BufferSerialize where
  memory : ℕ → UInt8
  curPos : ℕ
  length : ℕ
  length_lt : length < 2 ^ 64

namespace BufferSerialize

variable (s : BufferSerialize) (order : ByteOrder)

def create (memory : ℕ → UInt8) (length : Fin (2 ^ 64)) : BufferSerialize :=
  ⟨memory, 0, length, length.isLt⟩

def isCurPosValid : Bool := if s.length ≤ s.curPos then false else true

theorem isCurPosValid_iff : s.isCurPosValid = true ↔ s.curPos < s.length := by
  simp [isCurPosValid]

/-- Bytes are stored at the cursor, which moves behind them. -/
def put (bytes : List UInt8) : BufferSerialize :=
  { s with memory := storeAt s.memory s.curPos bytes, curPos := s.curPos + bytes.length }

@[simp] theorem put_curPos (bytes : List UInt8) : (s.put bytes).curPos = s.curPos + bytes.length :=
  rfl

@[simp] theorem put_length (bytes : List UInt8) : (s.put bytes).length = s.length := rfl

theorem put_nil : s.put [] = s := by
  rw [put, storeAt_nil]
  rfl

theorem put_put (bytes bytes' : List UInt8) :
    (s.put bytes).put bytes' = s.put (bytes ++ bytes') := by
  simp only [put, storeAt_append, List.length_append, Nat.add_assoc]

def writeByte (value : UInt8) : BufferSerialize × Bool :=
  if s.isCurPosValid then (s.put [value], true) else (s, false)

def writeUInt16 (value : UInt16) : BufferSerialize × Bool :=
  if s.isCurPosValid then
    let s := s.put [hiByte value]
    if s.isCurPosValid then (s.put [loByte value], true) else (s, false)
  else (s, false)

def writeQuadlet (value : Quadlet) : BufferSerialize × Bool :=
  if s.isCurPosValid then (s.put (quadletBytes order value), true) else (s, false)

def writeChars (values : List UInt8) : BufferSerialize × Bool :=
  if s.isCurPosValid then
    let s := { s with curPos := s.curPos + values.length }
    -- avoid write beyond buffer
    if s.isCurPosValid then
      let s := { s with curPos := s.curPos - values.length }
      (s.put values, true)
    else (s, false)
  else (s, false)

def write : Item → BufferSerialize × Bool
  | .byte value => s.writeByte value
  | .uint16 value => s.writeUInt16 value
  | .quadlet value => s.writeQuadlet order value
  | .chars values => s.writeChars values

/-- The items whose writes return true. -/
def written : BufferSerialize → List Item → List Item
  | _, [] => []
  | s, w :: ws =>
    if (s.write order w).2 then w :: written (s.write order w).1 ws
    else written (s.write order w).1 ws

def writeAll (ws : List Item) : BufferSerialize := ws.foldl (fun s w => (s.write order w).1) s

end BufferSerialize

/-- Cursor and lengths are of type `size_t`. -/
@[ext] structure BufferDeserialize where
  memory : ℕ → UInt8
  curPos : ℕ
  length : ℕ
  curPos_lt : curPos < 2 ^ 64
  length_lt : length < 2 ^ 64

namespace BufferDeserialize

variable (d : BufferDeserialize) (order : ByteOrder)

variable {n : ℕ}

theorem start_lt : 0 < 2 ^ 64 := by norm_num

def create (memory : ℕ → UInt8) (length : ℕ) : BufferDeserialize :=
  ⟨memory, 0, u64 length, start_lt, u64_lt length⟩

def isCurPosValid : Bool := if d.length ≤ d.curPos then false else true

theorem isCurPosValid_iff : d.isCurPosValid = true ↔ d.curPos < d.length := by
  simp [isCurPosValid]

@[irreducible] def advance (n : ℕ) : BufferDeserialize :=
  { d with curPos := u64 (d.curPos + n), curPos_lt := u64_lt _ }

def retreat (n : ℕ) : BufferDeserialize := d.advance (2 ^ 64 - u64 n)

@[simp] theorem advance_memory (n : ℕ) : (d.advance n).memory = d.memory := by
  rw [advance]

@[simp] theorem advance_length (n : ℕ) : (d.advance n).length = d.length := by
  rw [advance]

theorem advance_curPos (n : ℕ) : (d.advance n).curPos = u64 (d.curPos + n) := by
  rw [advance]

variable {d} in
theorem eq_advance {d' : BufferDeserialize} (hmemory : d'.memory = d.memory)
    (hlength : d'.length = d.length) (hcur : d'.curPos = u64 (d.curPos + n)) :
      d' = d.advance n := by
  apply BufferDeserialize.ext
  · rw [hmemory, advance_memory]
  · rw [hcur, advance_curPos]
  · rw [hlength, advance_length]

theorem advance_advance (n n' : ℕ) : (d.advance n).advance n' = d.advance (n + n') := by
  apply eq_advance (by simp) (by simp)
  rw [advance_curPos, advance_curPos, u64, u64, u64, Nat.mod_add_mod, Nat.add_assoc]

theorem advance_congr {n' : ℕ} (h : u64 n = u64 n') : d.advance n = d.advance n' := by
  apply eq_advance (by simp) (by simp)
  rw [u64, u64] at h
  rw [advance_curPos, u64, u64, Nat.add_mod, Nat.add_mod d.curPos n', h]

theorem advance_zero : d.advance 0 = d := by
  symm
  apply eq_advance rfl rfl
  exact (u64_of_lt d.curPos_lt).symm

theorem retreat_advance (n : ℕ) : (d.advance n).retreat n = d := by
  rw [retreat, advance_advance]
  apply Eq.trans _ d.advance_zero
  apply advance_congr
  rw [u64, u64, u64]
  omega

/-- A read that returns false does not assign the value. -/
def readByte : BufferDeserialize × Option UInt8 :=
  if d.isCurPosValid then (d.advance 1, some (d.memory d.curPos)) else (d, none)

def readUInt16 : BufferDeserialize × Option UInt16 :=
  if d.isCurPosValid then
    let hi := d.memory d.curPos
    let d := d.advance 1
    if d.isCurPosValid then
      let lo := d.memory d.curPos
      (d.advance 1, some (ofBytes hi lo))
    else (d, none)
  else (d, none)

def readQuadlet : BufferDeserialize × Option Quadlet :=
  if d.isCurPosValid then (d.advance 4, some (quadletAt order d.memory d.curPos)) else (d, none)

/-- The result, and where the pointer that was passed points to if it was assigned. -/
def readChars (length : ℕ) : BufferDeserialize × Bool × Option ℕ :=
  if d.isCurPosValid then
    let value := d.curPos
    let d := d.advance (length + sizeMax)
    if !d.isCurPosValid then (d, false, some value)
    else (d.advance 1, true, some value)
  else (d, false, none)

def peekByte : BufferDeserialize × Option UInt8 :=
  if d.isCurPosValid then (d, some (d.memory d.curPos)) else (d, none)

def peekUInt16 (offset : ℕ) : BufferDeserialize × Option UInt16 :=
  let d := d.advance offset
  if d.isCurPosValid then
    let hi := d.memory d.curPos
    let d := d.advance 1
    let value := if d.isCurPosValid then some (ofBytes hi (d.memory d.curPos)) else none
    ((d.retreat 1).retreat offset, value)
  else (d.retreat offset, none)

def skip (length : ℕ) : BufferDeserialize × Bool := (d.advance length, true)

def getNrOfConsumedBytes : ℤ := i32 d.curPos

theorem advance_curPos_of_le (h : d.curPos + n ≤ d.length) :
    (d.advance n).curPos = d.curPos + n := by
  rw [advance_curPos, u64_of_lt (h.trans_lt d.length_lt)]

section Spec

variable {d order}

theorem readByte_of_contains {value : UInt8} (hm : Contains d.memory d.curPos [value])
    (hle : d.curPos + 1 ≤ d.length) : d.readByte = (d.advance 1, some value) := by
  rw [readByte, if_pos (d.isCurPosValid_iff.mpr hle), (contains_cons.mp hm).1]

/-- A word at the end of the buffer is read half. -/
theorem readUInt16_cases (d : BufferDeserialize) :
    (d.length ≤ d.curPos ∧ d.readUInt16 = (d, none)) ∨
      (d.curPos + 1 = d.length ∧ d.readUInt16 = (d.advance 1, none)) ∨
      (d.curPos + 2 ≤ d.length ∧ d.readUInt16 =
        (d.advance 2, some (ofBytes (d.memory d.curPos) (d.memory (d.curPos + 1))))) := by
  rcases Nat.lt_or_ge d.curPos d.length with hlt | hge
  · right
    have hcur := d.advance_curPos_of_le (n := 1) hlt
    rw [readUInt16, if_pos (d.isCurPosValid_iff.mpr hlt)]
    simp only [isCurPosValid_iff, hcur, advance_length, advance_memory, advance_advance]
    rcases Nat.lt_or_ge (d.curPos + 1) d.length with hlt' | hge'
    · exact Or.inr ⟨hlt', if_pos hlt'⟩
    · exact Or.inl ⟨by omega, if_neg (by omega)⟩
  · left
    rw [readUInt16, if_neg (by rw [isCurPosValid_iff]; omega)]
    exact ⟨hge, rfl⟩

theorem readUInt16_of_contains {value : UInt16}
    (hm : Contains d.memory d.curPos [hiByte value, loByte value]) (hle : d.curPos + 2 ≤ d.length) :
    d.readUInt16 = (d.advance 2, some value) := by
  obtain ⟨hhi, hlo⟩ := contains_cons.mp hm
  obtain ⟨h, -⟩ | ⟨h, -⟩ | ⟨-, heq⟩ := readUInt16_cases d
  · omega
  · omega
  · rw [heq, hhi, (contains_cons.mp hlo).1, ofBytes_hiByte_loByte]

theorem readQuadlet_of_contains {value : Quadlet}
    (hm : Contains d.memory d.curPos (quadletBytes order value)) (hle : d.curPos + 4 ≤ d.length) :
    d.readQuadlet order = (d.advance 4, some value) := by
  rw [readQuadlet, if_pos (d.isCurPosValid_iff.mpr (by omega)), quadletAt_of_contains hm]

/-- The check of a string looks at its last byte, and for an empty one at the byte before. -/
theorem readChars_cases (d : BufferDeserialize) (n : ℕ) :
    (d.length ≤ d.curPos ∧ d.readChars n = (d, false, none)) ∨
      (d.curPos < d.length ∧ d.length ≤ u64 (d.curPos + (n + sizeMax)) ∧
        d.readChars n = (d.advance (n + sizeMax), false, some d.curPos)) ∨
      (d.curPos < d.length ∧ u64 (d.curPos + (n + sizeMax)) < d.length ∧
        d.readChars n = (d.advance n, true, some d.curPos)) := by
  rcases Nat.lt_or_ge d.curPos d.length with hlt | hge
  · right
    have hback : (d.advance (n + sizeMax)).advance 1 = d.advance n := by
      rw [advance_advance, Nat.add_assoc, sizeMax_add_one]
      apply advance_congr
      rw [u64, u64, Nat.add_mod_right]
    rw [readChars, if_pos (d.isCurPosValid_iff.mpr hlt)]
    rcases Nat.lt_or_ge (u64 (d.curPos + (n + sizeMax))) d.length with hlt' | hge'
    · have hvalid : (d.advance (n + sizeMax)).isCurPosValid = true := by
        rw [isCurPosValid_iff, advance_length, advance_curPos]
        exact hlt'
      right
      simp only [hvalid, hback]
      exact ⟨hlt, hlt', rfl⟩
    · have hvalid : (d.advance (n + sizeMax)).isCurPosValid = false := by
        rw [Bool.eq_false_iff, Ne, isCurPosValid_iff, advance_length, advance_curPos, not_lt]
        exact hge'
      left
      simp only [hvalid]
      exact ⟨hlt, hge', rfl⟩
  · left
    rw [readChars, if_neg (by rw [isCurPosValid_iff]; omega)]
    exact ⟨hge, rfl⟩

theorem readChars_of_le {n : ℕ} (hlt : d.curPos < d.length) (hpos : 0 < d.curPos + n)
    (hle : d.curPos + n ≤ d.length) : d.readChars n = (d.advance n, true, some d.curPos) := by
  have hlength := d.length_lt
  have hmax := sizeMax_add_one
  obtain ⟨h, -⟩ | ⟨-, h, -⟩ | ⟨-, -, heq⟩ := readChars_cases d n
  · omega
  · rw [u64] at h
    omega
  · exact heq

theorem peekUInt16_eq (d : BufferDeserialize) (offset : ℕ) :
    d.peekUInt16 offset =
      (d, if u64 (d.curPos + offset) + 1 < d.length then
        some (ofBytes (d.memory (u64 (d.curPos + offset))) (d.memory (u64 (d.curPos + offset) + 1)))
      else none) := by
  have hlength := d.length_lt
  rw [← d.advance_curPos offset]
  simp only [peekUInt16, retreat_advance, isCurPosValid_iff, advance_length, advance_memory]
  by_cases hlt : (d.advance offset).curPos < d.length
  · have hcur : ((d.advance offset).advance 1).curPos = (d.advance offset).curPos + 1 := by
      rw [advance_curPos, u64_of_lt (by omega)]
    rw [if_pos hlt, hcur]
  · rw [if_neg hlt, if_neg (by omega)]

end Spec

/-- A read of the type of the given item, of the same length if it is a string. -/
def readLike : Item → Option (Item × BufferDeserialize)
  | .byte _ => d.readByte.2.map fun value => (.byte value, d.readByte.1)
  | .uint16 _ => d.readUInt16.2.map fun value => (.uint16 value, d.readUInt16.1)
  | .quadlet _ => (d.readQuadlet order).2.map fun value => (.quadlet value, (d.readQuadlet order).1)
  | .chars values =>
    match d.readChars values.length with
    | (d', true, some p) => some (.chars (slice d.memory p values.length), d')
    | _ => none

def readBack : BufferDeserialize → List Item → Option (List Item × BufferDeserialize)
  | d, [] => some ([], d)
  | d, w :: ws => do
    let (v, d) ← d.readLike order w
    let (vs, d) ← readBack d ws
    return (v :: vs, d)

end BufferDeserialize

end Ffado.Cmd
