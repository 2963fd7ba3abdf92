import Ffado.Lib.Decoding
import Ffado.Util.CommandCodec

/-!
# AV/C info blocks

An info block starts with its compound length, its type and the length of its primary fields; the
compound length counts what follows it. A text is taken from the buffer as a C string: the announced
length moves the cursor only, and the text goes on until the first zero byte.
-/
namespace Ffado.Avc

open CircularMemory Cmd Decoding MachineInt

/-- A buffer that is read, the end of the memory it lies in, and the conjunction of the results. -/
structure Reader where
  de : BufferDeserialize
  mapped : ℕ
  result : Bool

/-- `none` is the use of a variable that has not been assigned, or of memory that is not there. -/
abbrev Deserializer := StateT Reader Option

namespace Deserializer

/-- A member keeps its value if the read fails. -/
def read {α : Type} (f : BufferDeserialize → BufferDeserialize × Option α)
    (old : α) : Deserializer α :=
  fun s => some ((f s.de).2.getD old,
    { s with de := (f s.de).1, result := s.result && (f s.de).2.isSome })

def readLocal {α : Type} (f : BufferDeserialize → BufferDeserialize × Option α) : Deserializer α :=
  fun s => (f s.de).2.map fun value => (value, { s with de := (f s.de).1 })

/-- The function returns false. -/
def refuse : Deserializer Unit := fun s => some ((), { s with result := false })

def skip (length : ℕ) : Deserializer Unit := fun s =>
    some ((), { s with de := (s.de.skip length).1 })

def getNrOfConsumedBytes : Deserializer ℤ := fun s => some (s.de.getNrOfConsumedBytes, s)

/-- `none` inside if nothing was assigned. -/
def peek (offset : ℕ) : Deserializer (Option UInt16) :=
  fun s => some ((s.de.peekUInt16 offset).2, { s with de := (s.de.peekUInt16 offset).1 })

def peekBlockType : Deserializer (Option UInt16) := peek 2

def peekBlockLength : Deserializer (Option UInt16) := peek 0

end Deserializer

open Deserializer

/-- The string at `p`, if it ends before the memory does. -/
def cString (m : ℕ → UInt8) (p mapped : ℕ) : Option (List UInt8) :=
  let rest := slice m p (mapped - p)
  if 0 ∈ rest then some (rest.takeWhile (· ≠ 0)) else none

/-- The text is appended from the pointer that the read assigns. -/
def readText (length : ℕ) : Deserializer (List UInt8) := fun s =>
  match s.de.readChars length with
  | (de, ok, some txt) => (cString s.de.memory txt s.mapped).map fun text =>
      (text, { s with de, result := s.result && ok })
  | (_, _, none) => none

structure Writer where
  se : BufferSerialize
  result : Bool

namespace Writer

variable (order : ByteOrder) (w : Writer)

def write (item : Item) : Writer := ⟨(w.se.write order item).1,
    w.result && (w.se.write order item).2⟩

/-- The result of the write is not looked at. -/
def writeIgnored (item : Item) : Writer := { w with se := (w.se.write order item).1 }

/-- The function returns false. -/
def refuse : Writer := { w with result := false }

end Writer

@[ext] structure InfoBlock where
  compoundLength : UInt16
  infoBlockType : UInt16
  primaryFieldLength : UInt16
  deriving DecidableEq

namespace InfoBlock

variable (b : InfoBlock) (supported : UInt16)

def fresh : InfoBlock := ⟨0, 0, 0⟩

def serialize (order : ByteOrder) (w : Writer) : Writer :=
  if supported ≠ 0xFFFF ∧ b.infoBlockType ≠ supported then w.refuse
  else
    ((w.write order (.uint16 b.compoundLength)).write order (.uint16 b.infoBlockType)).write order
      (.uint16 b.primaryFieldLength)

def deserialize : Deserializer InfoBlock := do
  let compoundLength ← read BufferDeserialize.readUInt16 b.compoundLength
  let infoBlockType ← read BufferDeserialize.readUInt16 b.infoBlockType
  let primaryFieldLength ← read BufferDeserialize.readUInt16 b.primaryFieldLength
  if supported ≠ 0xFFFF ∧ infoBlockType ≠ supported then refuse
  return ⟨compoundLength, infoBlockType, primaryFieldLength⟩

end InfoBlock

def rawTextType : UInt16 := 0x000A

def nameType : UInt16 := 0x000B

structure RawTextInfoBlock where
  header : InfoBlock
  text : List UInt8
  deriving DecidableEq

namespace RawTextInfoBlock

variable (b : RawTextInfoBlock)

def fresh : RawTextInfoBlock := ⟨.fresh, []⟩

def serialize (order : ByteOrder) (w : Writer) : Writer :=
  let w := b.header.serialize rawTextType order w
  if b.text ≠ [] then w.writeIgnored order (.chars b.text) else w

def deserialize : Deserializer RawTextInfoBlock := do
  let header ← b.header.deserialize rawTextType
  let text ← readText (sizeOfInt (header.compoundLength.toNat - 4))
  return ⟨header, text⟩

end RawTextInfoBlock

structure NameInfoBlock where
  header : InfoBlock
  text : List UInt8
  deriving DecidableEq

namespace NameInfoBlock

variable (b : NameInfoBlock)

def fresh : NameInfoBlock := ⟨.fresh, []⟩

def serialize (order : ByteOrder) (w : Writer) : Writer :=
  let w := b.header.serialize nameType order w
  if b.text ≠ [] then
    let w := (((w.write order (.uint16 0)).write order (.uint16 0)).write order (.uint16 0)).write
      order (.uint16 0)
    (w.write order (.uint16 (UInt16.ofNat b.text.length))).writeIgnored order (.chars b.text)
  else w

/-- `dummy16` and `length1` are not used. -/
def deserialize : Deserializer NameInfoBlock := do
  let header ← b.header.deserialize nameType
  let _ ← read BufferDeserialize.readUInt16 0
  let _ ← read BufferDeserialize.readUInt16 0
  let _ ← read BufferDeserialize.readUInt16 0
  let _ ← read BufferDeserialize.readUInt16 0
  let textLength ← readLocal BufferDeserialize.readUInt16
  let text ← readText textLength.toNat
  return ⟨header, text⟩

end NameInfoBlock

structure TextBlocks where
  rawText : RawTextInfoBlock
  name : NameInfoBlock
  deriving DecidableEq

namespace TextBlocks

variable (t : TextBlocks)

def fresh : TextBlocks := ⟨.fresh, .fresh⟩

def serialize (order : ByteOrder) (w : Writer) : Writer :=
  if 0 < t.rawText.header.compoundLength then t.rawText.serialize order w
  else if 0 < t.name.header.compoundLength then t.name.serialize order w
  else w

/-- First find out if the block is present. -/
def deserialize (bytesLeft : ℤ) : Deserializer TextBlocks :=
  if 0 < bytesLeft then do
    let some blockType ← peekBlockType | failure
    if blockType = rawTextType then
      let rawText ← t.rawText.deserialize
      return { t with rawText }
    else if blockType = nameType then
      let name ← t.name.deserialize
      return { t with name }
    else
      skip (sizeOfInt bytesLeft)
      return t
  else return t

end TextBlocks

def word (value : UInt16) : List UInt8 := [hiByte value, loByte value]

@[simp] theorem length_word (value : UInt16) : (word value).length = 2 := rfl

def InfoBlock.bytes (b : InfoBlock) : List UInt8 :=
  word b.compoundLength ++ (word b.infoBlockType ++ word b.primaryFieldLength)

@[simp] theorem InfoBlock.length_bytes (b : InfoBlock) : b.bytes.length = 6 := rfl

/-- All reads have succeeded so far, and the cursor is in front of these bytes. -/
structure Reader.Before (s : Reader) (bytes : List UInt8) : Prop where
  contains : Contains s.de.memory s.de.curPos bytes
  le : s.de.curPos + bytes.length ≤ s.de.length
  result : s.result = true

instance : Cursor Reader UInt8 where
  advance s n := { s with de := s.de.advance n }
  Holds := Reader.Before
  advance_zero s := by rw [BufferDeserialize.advance_zero]
  advance_advance s m n := by rw [BufferDeserialize.advance_advance]
  holds_append := by
    intro s xs ys
    constructor
    · rintro ⟨hcontains, hle, hresult⟩
      rw [contains_append] at hcontains
      rw [List.length_append] at hle
      have hcur := s.de.advance_curPos_of_le (n := xs.length) (by omega)
      constructor
      · exact ⟨hcontains.1, by omega, hresult⟩
      · constructor
        · simpa only [hcur, BufferDeserialize.advance_memory] using hcontains.2
        · simp only [hcur, BufferDeserialize.advance_length]
          omega
        · exact hresult
    · rintro ⟨⟨hxs, hle, hresult⟩, hys, hle', -⟩
      have hcur := s.de.advance_curPos_of_le hle
      simp only [hcur, BufferDeserialize.advance_memory] at hys
      simp only [hcur, BufferDeserialize.advance_length] at hle'
      constructor
      · exact contains_append.mpr ⟨hxs, hys⟩
      · rw [List.length_append]
        omega
      · exact hresult

open Cursor

section Reads

variable {s : Reader}

variable {α : Type} {n : ℕ}

@[simp] theorem advance_de (s : Reader) (n : ℕ) : (advance s n).de = s.de.advance n := rfl

@[simp] theorem advance_mapped (s : Reader) (n : ℕ) : (advance s n).mapped = s.mapped := rfl

@[simp] theorem advance_result (s : Reader) (n : ℕ) : (advance s n).result = s.result := rfl

theorem curPos_advance {bytes : List UInt8} (h : Holds s bytes) (hn : n ≤ bytes.length) :
    (advance s n).de.curPos = s.de.curPos + n :=
  s.de.advance_curPos_of_le (by have := h.le; omega)

/-- The cursor tells how much has been consumed. -/
theorem eq_of_advance_eq {m : ℕ} (hm : m < 2 ^ 64) (hn : n < 2 ^ 64)
    (h : advance s m = advance s n) : m = n := by
  have hcur := congrArg (fun s => s.de.curPos) h
  simp only [advance_de, BufferDeserialize.advance_curPos] at hcur
  rw [u64, u64] at hcur
  omega

theorem read_of_some {f : BufferDeserialize → BufferDeserialize × Option α} {old a : α}
    (h : f s.de = (s.de.advance n, some a)) : read f old s = some (a, advance s n) := by
  rw [Deserializer.read, h]
  simp only [Option.getD_some, Option.isSome_some, Bool.and_true]
  rfl

theorem run_read {γ : Type} (f : BufferDeserialize → BufferDeserialize × Option α) (old : α)
    (g : α → Deserializer γ) (s : Reader) :
    (read f old >>= g) s = g ((f s.de).2.getD old)
      { s with de := (f s.de).1, result := s.result && (f s.de).2.isSome } :=
  run_bind_of_some rfl

theorem decodes_byte (old value : UInt8) :
    Decodes (read BufferDeserialize.readByte old) [value] value := by
  intro s hs
  exact read_of_some (BufferDeserialize.readByte_of_contains hs.contains hs.le)

theorem decodes_word (old value : UInt16) :
    Decodes (read BufferDeserialize.readUInt16 old) (word value) value := by
  intro s hs
  exact read_of_some (BufferDeserialize.readUInt16_of_contains hs.contains hs.le)

theorem readLocal_of_some {f : BufferDeserialize → BufferDeserialize × Option α} {a : α}
    (h : f s.de = (s.de.advance n, some a)) : readLocal f s = some (a, advance s n) := by
  rw [readLocal, h]
  rfl

theorem decodes_localByte (value : UInt8) :
    Decodes (readLocal BufferDeserialize.readByte) [value] value := by
  intro s hs
  exact readLocal_of_some (BufferDeserialize.readByte_of_contains hs.contains hs.le)

theorem decodes_localWord (value : UInt16) :
    Decodes (readLocal BufferDeserialize.readUInt16) (word value) value := by
  intro s hs
  exact readLocal_of_some (BufferDeserialize.readUInt16_of_contains hs.contains hs.le)

theorem decodes_header {supported : UInt16} {b : InfoBlock} (old : InfoBlock)
    (htype : b.infoBlockType = supported) : Decodes (old.deserialize supported) b.bytes b := by
  have hrest : Decodes (do
      if supported ≠ 0xFFFF ∧ b.infoBlockType ≠ supported then refuse
      return InfoBlock.mk b.compoundLength b.infoBlockType b.primaryFieldLength) [] b := by
    rw [if_neg (fun h => h.2 htype)]
    exact decodes_pure b
  have hbytes : b.bytes = word b.compoundLength ++ (word b.infoBlockType ++
      (word b.primaryFieldLength ++ [])) := by
    rw [List.append_nil]
    rfl
  rw [hbytes]
  exact (decodes_word _ _).bind ((decodes_word _ _).bind ((decodes_word _ _).bind hrest))

end Reads

end Ffado.Avc
