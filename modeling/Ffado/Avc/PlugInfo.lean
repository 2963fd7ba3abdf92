import Ffado.Avc.PlugAddress
import Ffado.Lib.Decoding

/-!
# Extended plug info

The info type of a response tells which of eight classes of specific data follows. Lists are counted
and names have a length, but each class handles names in its own way: the name of a plug is taken
from the buffer up to the first zero byte, those of channels and clusters byte by byte, with every
`&` replaced by a `+`.
-/
namespace Ffado.Avc.PlugInfo

open Cmd Decoding Deserializer

structure PlugTypeSpecificData where
  plugType : UInt8
  deriving DecidableEq

namespace PlugTypeSpecificData

variable (x : PlugTypeSpecificData)

def fresh : PlugTypeSpecificData := ⟨0xFF⟩

def serialize (w : Writer) : Writer := w.writeBytes [x.plugType]

def deserialize : Deserializer PlugTypeSpecificData := do
  let plugType ← readMember x.plugType
  return ⟨plugType⟩

end PlugTypeSpecificData

structure PlugNameSpecificData where
  name : List UInt8
  deriving DecidableEq

/-- The name is assigned from the pointer that the read has set. The result also tells whether the
zero byte at the end of the name is in the frame. -/
def readName (length : ℕ) : Deserializer (List UInt8) := fun s =>
  match s.de.readChars length with
  | (de, ok, some pointer) => (cString s.de.memory pointer s.mapped).map fun name =>
      (name, { s with
        de, result := s.result && (ok && decide (pointer + name.length < s.de.length)) })
  | (_, _, none) => none

namespace PlugNameSpecificData

variable (x : PlugNameSpecificData)

def fresh : PlugNameSpecificData := ⟨[]⟩

/-- `strlen` of the name, in a byte. -/
def length : UInt8 := UInt8.ofNat (x.name.takeWhile (· ≠ 0)).length

def serialize (w : Writer) : Writer := (w.writeBytes [x.length]).writeBytes
    (x.name.take x.length.toNat)

def deserialize : Deserializer PlugNameSpecificData := do
  let length ← readVariable
  let name ← readName length.toNat
  return ⟨name⟩

end PlugNameSpecificData

structure PlugNumberOfChannelsSpecificData where
  nrOfChannels : UInt8
  deriving DecidableEq

namespace PlugNumberOfChannelsSpecificData

variable (x : PlugNumberOfChannelsSpecificData)

def fresh : PlugNumberOfChannelsSpecificData := ⟨0⟩

def serialize (w : Writer) : Writer := w.writeBytes [x.nrOfChannels]

def deserialize : Deserializer PlugNumberOfChannelsSpecificData := do
  let nrOfChannels ← readMember x.nrOfChannels
  return ⟨nrOfChannels⟩

end PlugNumberOfChannelsSpecificData

structure ChannelInfo where
  streamPosition : UInt8
  location : UInt8
  deriving DecidableEq

structure ClusterInfo where
  nrOfChannels : UInt8
  channelInfos : List ChannelInfo
  deriving DecidableEq

namespace ChannelInfo

def serialize (x : ChannelInfo) (w : Writer) : Writer := w.writeBytes [x.streamPosition, x.location]

def deserialize (x : ChannelInfo) : Deserializer ChannelInfo := do
  let streamPosition ← readMember x.streamPosition
  let location ← readMember x.location
  return ⟨streamPosition, location⟩

end ChannelInfo

namespace ClusterInfo

def serialize (x : ClusterInfo) (w : Writer) : Writer :=
  x.channelInfos.foldl (fun w info => info.serialize w) (w.writeBytes [x.nrOfChannels])

def deserialize (junk : ChannelInfo) : Deserializer ClusterInfo := do
  let nrOfChannels ← readVariable
  let channelInfos ← times nrOfChannels.toNat junk.deserialize
  return ⟨nrOfChannels, channelInfos⟩

end ClusterInfo

structure PlugChannelPositionSpecificData where
  nrOfClusters : UInt8
  clusterInfos : List ClusterInfo
  deriving DecidableEq

namespace PlugChannelPositionSpecificData

variable (x : PlugChannelPositionSpecificData)

def fresh : PlugChannelPositionSpecificData := ⟨0, []⟩

def serialize (w : Writer) : Writer :=
  x.clusterInfos.foldl (fun w info => info.serialize w) (w.writeBytes [x.nrOfClusters])

def deserialize (junk : ChannelInfo) : Deserializer PlugChannelPositionSpecificData := do
  let nrOfClusters ← readMember x.nrOfClusters
  let clusterInfos ← times nrOfClusters.toNat (ClusterInfo.deserialize junk)
  return ⟨nrOfClusters, clusterInfos⟩

end PlugChannelPositionSpecificData

def ampersand : UInt8 := 0x26

def plus : UInt8 := 0x2B

/-- A byte of a name; the right encoding is still to be done. -/
def encodeChar (c : UInt8) : UInt8 := if c = ampersand then plus else c

/-- A name that is read byte by byte ends with its first zero byte. -/
def readChars (stringLength : UInt8) : Deserializer (List UInt8) := do
  let chars ← times stringLength.toNat readVariable
  return (chars.map encodeChar).takeWhile (· ≠ 0)

structure PlugChannelNameSpecificData where
  streamPosition : UInt8
  stringLength : UInt8
  plugChannelName : List UInt8
  deriving DecidableEq

namespace PlugChannelNameSpecificData

variable (x : PlugChannelNameSpecificData)

def fresh : PlugChannelNameSpecificData := ⟨0, 0xFF, []⟩

def serialize (w : Writer) : Writer :=
  (w.writeBytes [x.streamPosition, x.stringLength]).writeBytes x.plugChannelName

def deserialize : Deserializer PlugChannelNameSpecificData := do
  let streamPosition ← readMember x.streamPosition
  let stringLength ← readMember x.stringLength
  let plugChannelName ← readChars stringLength
  return ⟨streamPosition, stringLength, plugChannelName⟩

end PlugChannelNameSpecificData

structure PlugInputSpecificData where
  plugAddress : PlugAddressSpecificData
  deriving DecidableEq

namespace PlugInputSpecificData

variable (x : PlugInputSpecificData)

def fresh : PlugInputSpecificData := ⟨.output⟩

def serialize (w : Writer) : Writer := x.plugAddress.serialize w

def deserialize : Deserializer PlugInputSpecificData := do
  let plugAddress ← x.plugAddress.deserialize
  return ⟨plugAddress⟩

end PlugInputSpecificData

structure PlugOutputSpecificData where
  nrOfOutputPlugs : UInt8
  outputPlugAddresses : List PlugAddressSpecificData
  deriving DecidableEq

namespace PlugOutputSpecificData

variable (x : PlugOutputSpecificData)

def fresh : PlugOutputSpecificData := ⟨0, []⟩

def serialize (w : Writer) : Writer :=
  x.outputPlugAddresses.foldl (fun w address => address.serialize w)
    (w.writeBytes [x.nrOfOutputPlugs])

/-- The addresses are appended to those that are there. -/
def deserialize : Deserializer PlugOutputSpecificData := do
  let nrOfOutputPlugs ← readMember x.nrOfOutputPlugs
  let addresses ← times nrOfOutputPlugs.toNat PlugAddressSpecificData.output.deserialize
  return ⟨nrOfOutputPlugs, x.outputPlugAddresses ++ addresses⟩

end PlugOutputSpecificData

structure ClusterInfoSpecificData where
  clusterIndex : UInt8
  portType : UInt8
  stringLength : UInt8
  clusterName : List UInt8
  deriving DecidableEq

namespace ClusterInfoSpecificData

variable (x : ClusterInfoSpecificData)

def fresh : ClusterInfoSpecificData := ⟨0, 0xFF, 0xFF, []⟩

def serialize (w : Writer) : Writer :=
  (w.writeBytes [x.clusterIndex, x.portType, x.stringLength]).writeBytes x.clusterName

def deserialize : Deserializer ClusterInfoSpecificData := do
  let clusterIndex ← readMember x.clusterIndex
  let portType ← readMember x.portType
  let stringLength ← readMember x.stringLength
  let clusterName ← readChars stringLength
  return ⟨clusterIndex, portType, stringLength, clusterName⟩

end ClusterInfoSpecificData

structure ExtendedPlugInfoInfoType where
  infoType : UInt8
  plugType : Option PlugTypeSpecificData
  plugName : Option PlugNameSpecificData
  plugNrOfChns : Option PlugNumberOfChannelsSpecificData
  plugChannelPosition : Option PlugChannelPositionSpecificData
  plugChannelName : Option PlugChannelNameSpecificData
  plugInput : Option PlugInputSpecificData
  plugOutput : Option PlugOutputSpecificData
  plugClusterInfo : Option ClusterInfoSpecificData
  deriving DecidableEq

namespace ExtendedPlugInfoInfoType

variable (x : ExtendedPlugInfoInfoType)

def fresh (infoType : UInt8) : ExtendedPlugInfoInfoType :=
  ⟨infoType, none, none, none, none, none, none, none, none⟩

def serializePart {α : Type} (serialize : α → Writer → Writer) (part : Option α) (w : Writer) :
    Writer :=
  match part with
  | some part => serialize part w
  | none => w

def serialize (w : Writer) : Writer :=
  let w := w.writeBytes [x.infoType]
  if x.infoType = 0x00 then serializePart PlugTypeSpecificData.serialize x.plugType w
  else if x.infoType = 0x01 then serializePart PlugNameSpecificData.serialize x.plugName w
  else if x.infoType = 0x02 then
    serializePart PlugNumberOfChannelsSpecificData.serialize x.plugNrOfChns w
  else if x.infoType = 0x03 then
    serializePart PlugChannelPositionSpecificData.serialize x.plugChannelPosition w
  else if x.infoType = 0x04 then
    serializePart PlugChannelNameSpecificData.serialize x.plugChannelName w
  else if x.infoType = 0x05 then serializePart PlugInputSpecificData.serialize x.plugInput w
  else if x.infoType = 0x06 then serializePart PlugOutputSpecificData.serialize x.plugOutput w
  else if x.infoType = 0x07 then serializePart ClusterInfoSpecificData.serialize x.plugClusterInfo w
  else w.refuse

def deserializePart (junk : ChannelInfo) : Deserializer (ExtendedPlugInfoInfoType × Bool) := do
  if x.infoType = 0x00 then
    let part ← (x.plugType.getD .fresh).deserialize
    return ({ x with plugType := some part }, true)
  else if x.infoType = 0x01 then
    let part ← PlugNameSpecificData.deserialize
    return ({ x with plugName := some part }, true)
  else if x.infoType = 0x02 then
    let part ← (x.plugNrOfChns.getD .fresh).deserialize
    return ({ x with plugNrOfChns := some part }, true)
  else if x.infoType = 0x03 then
    let part ← (x.plugChannelPosition.getD .fresh).deserialize junk
    return ({ x with plugChannelPosition := some part }, true)
  else if x.infoType = 0x04 then
    let part ← (x.plugChannelName.getD .fresh).deserialize
    return ({ x with plugChannelName := some part }, true)
  else if x.infoType = 0x05 then
    let part ← (x.plugInput.getD .fresh).deserialize
    return ({ x with plugInput := some part }, true)
  else if x.infoType = 0x06 then
    let part ← (x.plugOutput.getD .fresh).deserialize
    return ({ x with plugOutput := some part }, true)
  else if x.infoType = 0x07 then
    let part ← (x.plugClusterInfo.getD .fresh).deserialize
    return ({ x with plugClusterInfo := some part }, true)
  else return (x, false)

def deserialize (junk : ChannelInfo) : Deserializer (ExtendedPlugInfoInfoType × Bool) := do
  let infoType ← readMember x.infoType
  deserializePart { x with infoType } junk

end ExtendedPlugInfoInfoType

structure ExtendedPlugInfoCmd where
  command : AVCCommand
  subFunction : UInt8
  plugAddress : PlugAddress
  infoType : ExtendedPlugInfoInfoType
  deriving DecidableEq

namespace ExtendedPlugInfoCmd

variable (x : ExtendedPlugInfoCmd)

/-- The three objects in front of the info type; addresses are always read. -/
def deserializeHead : Deserializer ExtendedPlugInfoCmd := do
  let command ← x.command.deserialize
  let subFunction ← readMember x.subFunction
  let plugAddress ← x.plugAddress.deserialize
  return { x with command, subFunction, plugAddress }

def deserialize (junk : ChannelInfo) : Deserializer (ExtendedPlugInfoCmd × Bool) := do
  let x ← x.deserializeHead
  let infoType ← x.infoType.deserialize junk
  return ({ x with infoType := infoType.1 }, infoType.2)

end ExtendedPlugInfoCmd

end Ffado.Avc.PlugInfo
