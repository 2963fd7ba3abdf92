import Ffado.Avc.Emission

/-!
# Commands and the addresses of plugs

An AV/C command starts with three bytes. The address of a plug is a direction, a mode and as many
bytes as the class of the address has: three in a command, five in the specific data of a response.
The address of a command is read into the object of the class that is there, that of the specific
data into a new object of the class that the mode tells.

The results of the reads are not looked at. A byte that is not there leaves the member as it was.
-/
namespace Ffado.Avc

open Cmd Decoding Deserializer

/-- A member that is read; it keeps its value if the frame has ended. -/
def readMember (old : UInt8) : Deserializer UInt8 := read BufferDeserialize.readByte old

def readVariable : Deserializer UInt8 := readLocal BufferDeserialize.readByte

def readThree {α : Type} (mk : UInt8 → UInt8 → UInt8 → α) (a b c : UInt8) : Deserializer α := do
  let a ← readMember a
  let b ← readMember b
  let c ← readMember c
  return mk a b c

def readFive {α : Type} (mk : UInt8 → UInt8 → UInt8 → UInt8 → UInt8 → α) (a b c d e : UInt8) :
    Deserializer α := do
  let a ← readMember a
  let b ← readMember b
  let c ← readMember c
  let d ← readMember d
  let e ← readMember e
  return mk a b c d e

structure AVCCommand where
  ctype : UInt8
  subunit : UInt8
  opcode : UInt8
  deriving DecidableEq

namespace AVCCommand

def fields (x : AVCCommand) : List UInt8 := [x.ctype, x.subunit, x.opcode]

def serialize (x : AVCCommand) (w : Writer) : Writer := w.writeBytes x.fields

def deserialize (x : AVCCommand) : Deserializer AVCCommand :=
  readThree AVCCommand.mk x.ctype x.subunit x.opcode

end AVCCommand

inductive PlugAddressData
  | unit (plugType plugId reserved : UInt8)
  | subunit (plugId reserved0 reserved1 : UInt8)
  | functionBlock (functionBlockType functionBlockId plugId : UInt8)
  | undefined (reserved0 reserved1 reserved2 : UInt8)
  deriving DecidableEq

namespace PlugAddressData

def fields : PlugAddressData → List UInt8
  | unit a b c | subunit a b c | functionBlock a b c | undefined a b c => [a, b, c]

def serialize (x : PlugAddressData) (w : Writer) : Writer := w.writeBytes x.fields

def deserialize : PlugAddressData → Deserializer PlugAddressData
  | unit a b c => readThree unit a b c
  | subunit a b c => readThree subunit a b c
  | functionBlock a b c => readThree functionBlock a b c
  | undefined a b c => readThree undefined a b c

end PlugAddressData

structure PlugAddress where
  plugDirection : UInt8
  addressMode : UInt8
  plugAddressData : PlugAddressData
  deriving DecidableEq

namespace PlugAddress

def serialize (x : PlugAddress) (w : Writer) : Writer :=
  x.plugAddressData.serialize (w.writeBytes [x.plugDirection, x.addressMode])

def deserialize (x : PlugAddress) : Deserializer PlugAddress := do
  let plugDirection ← readMember x.plugDirection
  let addressMode ← readMember x.addressMode
  let plugAddressData ← x.plugAddressData.deserialize
  return ⟨plugDirection, addressMode, plugAddressData⟩

end PlugAddress

namespace SpecificData

inductive PlugAddressData
  | unit (plugType plugId reserved0 reserved1 reserved2 : UInt8)
  | subunit (subunitType subunitId plugId reserved0 reserved1 : UInt8)
  | functionBlock (subunitType subunitId functionBlockType functionBlockId plugId : UInt8)
  | undefined (reserved0 reserved1 reserved2 reserved3 reserved4 : UInt8)
  deriving DecidableEq

namespace PlugAddressData

def fields : PlugAddressData → List UInt8
  | unit a b c d e | subunit a b c d e | functionBlock a b c d e | undefined a b c d e =>
    [a, b, c, d, e]

def serialize (x : PlugAddressData) (w : Writer) : Writer := w.writeBytes x.fields

def deserialize : PlugAddressData → Deserializer PlugAddressData
  | unit a b c d e => readFive unit a b c d e
  | subunit a b c d e => readFive subunit a b c d e
  | functionBlock a b c d e => readFive functionBlock a b c d e
  | undefined a b c d e => readFive undefined a b c d e

def ofMode (addressMode : UInt8) : PlugAddressData :=
  if addressMode = 0x00 then unit 0x00 0xFF 0xFF 0xFF 0xFF
  else if addressMode = 0x01 then subunit 0x1D 0xFF 0xFF 0xFF 0xFF
  else if addressMode = 0x02 then functionBlock 0x1D 0xFF 0xFF 0xFF 0xFF
  else undefined 0xFF 0xFF 0xFF 0xFF 0xFF

def Matches (addressMode : UInt8) : PlugAddressData → Prop
  | unit _ _ _ _ _ => addressMode = 0x00
  | subunit _ _ _ _ _ => addressMode = 0x01
  | functionBlock _ _ _ _ _ => addressMode = 0x02
  | undefined _ _ _ _ _ => addressMode ≠ 0x00 ∧ addressMode ≠ 0x01 ∧ addressMode ≠ 0x02

end PlugAddressData

end SpecificData

structure PlugAddressSpecificData where
  plugDirection : UInt8
  addressMode : UInt8
  plugAddressData : SpecificData.PlugAddressData
  deriving DecidableEq

namespace PlugAddressSpecificData

def output : PlugAddressSpecificData := ⟨0x01, 0x00, .unit 0x00 0x00 0xFF 0xFF 0xFF⟩

def serialize (x : PlugAddressSpecificData) (w : Writer) : Writer :=
  x.plugAddressData.serialize (w.writeBytes [x.plugDirection, x.addressMode])

def deserialize (x : PlugAddressSpecificData) : Deserializer PlugAddressSpecificData := do
  let plugDirection ← readMember x.plugDirection
  let addressMode ← readMember x.addressMode
  let plugAddressData ← (SpecificData.PlugAddressData.ofMode addressMode).deserialize
  return ⟨plugDirection, addressMode, plugAddressData⟩

/-- The address data is of the class that is read back. -/
def Matches (x : PlugAddressSpecificData) : Prop := x.plugAddressData.Matches x.addressMode

def bytes (x : PlugAddressSpecificData) : List UInt8 :=
  [x.plugDirection, x.addressMode] ++ x.plugAddressData.fields

end PlugAddressSpecificData

theorem decodes_readThree {α : Type} (mk : UInt8 → UInt8 → UInt8 → α) (a b c a' b' c' : UInt8) :
    Decodes (readThree mk a' b' c') [a, b, c] (mk a b c) :=
  (decodes_byte a' a).bind ((decodes_byte b' b).bind ((decodes_byte c' c).bindPure _))

theorem decodes_readFive {α : Type} (mk : UInt8 → UInt8 → UInt8 → UInt8 → UInt8 → α)
    (a b c d e a' b' c' d' e' : UInt8) :
    Decodes (readFive mk a' b' c' d' e') [a, b, c, d, e] (mk a b c d e) :=
  (decodes_byte a' a).bind ((decodes_byte b' b).bind ((decodes_byte c' c).bind
    ((decodes_byte d' d).bind ((decodes_byte e' e).bindPure _))))

theorem SpecificData.PlugAddressData.decodes {addressMode : UInt8}
    {x : SpecificData.PlugAddressData} (h : x.Matches addressMode) :
      Decodes (ofMode addressMode).deserialize x.fields x := by
  cases x with
  | unit a b c d e =>
    obtain rfl : addressMode = 0x00 := h
    exact decodes_readFive unit a b c d e _ _ _ _ _
  | subunit a b c d e =>
    obtain rfl : addressMode = 0x01 := h
    exact decodes_readFive subunit a b c d e _ _ _ _ _
  | functionBlock a b c d e =>
    obtain rfl : addressMode = 0x02 := h
    exact decodes_readFive functionBlock a b c d e _ _ _ _ _
  | undefined a b c d e =>
    rw [ofMode, if_neg h.1, if_neg h.2.1, if_neg h.2.2]
    exact decodes_readFive undefined a b c d e _ _ _ _ _

namespace PlugAddressSpecificData

variable {x : PlugAddressSpecificData}

theorem Matches.decodes (h : x.Matches) (old : PlugAddressSpecificData) :
    Decodes old.deserialize x.bytes x :=
  (decodes_byte _ x.plugDirection).bind ((decodes_byte _ x.addressMode).bind
    ((SpecificData.PlugAddressData.decodes h).bindPure _))

theorem emits (x : PlugAddressSpecificData) : EmitsWith 0 x.serialize x.bytes :=
  (emitsWith_writeBytes [x.plugDirection, x.addressMode]).comp
    (emitsWith_writeBytes x.plugAddressData.fields)

end PlugAddressSpecificData

end Ffado.Avc
