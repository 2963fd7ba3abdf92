import Ffado.Avc.InfoBlock

/-!
# The music subunit status descriptor

The descriptor is a sequence of info blocks. Its routing status block contains the plugs of the
subunit, these contain clusters, and clusters contain signals; plugs and clusters may end with a
text. Every level counts for itself how many of its bytes have been consumed.
-/
namespace Ffado.Avc

open Cmd Decoding Deserializer MachineInt

variable (order : ByteOrder)

structure SignalInfo where
  musicPlugId : UInt16
  streamPosition : UInt8
  streamLocation : UInt8
  deriving DecidableEq

namespace SignalInfo

def serialize (x : SignalInfo) (w : Writer) : Writer :=
  ((w.write order (.uint16 x.musicPlugId)).write order (.byte x.streamPosition)).write order
    (.byte x.streamLocation)

def deserialize : Deserializer SignalInfo := do
  let musicPlugId ← readLocal BufferDeserialize.readUInt16
  let streamPosition ← readLocal BufferDeserialize.readByte
  let streamLocation ← readLocal BufferDeserialize.readByte
  return ⟨musicPlugId, streamPosition, streamLocation⟩

end SignalInfo

def clusterType : UInt16 := 0x810A

structure ClusterInfoBlock where
  header : InfoBlock
  streamFormat : UInt8
  portType : UInt8
  nbSignals : UInt8
  signalInfos : List SignalInfo
  texts : TextBlocks
  deriving DecidableEq

/-- What the compound length leaves, in `int`s; the difference is one of `unsigned int`s. -/
def bytesLeft (compoundLength : UInt16) (consumedAtStart consumedAtEnd : ℤ) : ℤ :=
  compoundLength.toNat - i32 (4 + consumedAtEnd - consumedAtStart)

namespace ClusterInfoBlock

variable (b : ClusterInfoBlock)

def fresh : ClusterInfoBlock := ⟨.fresh, 0, 0, 0, [], .fresh⟩

def serialize (w : Writer) : Writer :=
  let w := b.header.serialize clusterType order w
  let w := ((w.write order (.byte b.streamFormat)).write order (.byte b.portType)).write order
    (.byte b.nbSignals)
  if b.signalInfos.length ≠ b.nbSignals.toNat then w.refuse
  else b.texts.serialize order (b.signalInfos.foldl (fun w x => x.serialize order w) w)

def deserialize : Deserializer ClusterInfoBlock := do
  let header ← b.header.deserialize clusterType
  let consumedAtStart ← getNrOfConsumedBytes
  let streamFormat ← read BufferDeserialize.readByte b.streamFormat
  let portType ← read BufferDeserialize.readByte b.portType
  let nbSignals ← read BufferDeserialize.readByte b.nbSignals
  let signalInfos ← times nbSignals.toNat SignalInfo.deserialize
  let consumedAtSinfoEnd ← getNrOfConsumedBytes
  let texts ← b.texts.deserialize
    (bytesLeft header.compoundLength consumedAtStart consumedAtSinfoEnd)
  return ⟨header, streamFormat, portType, nbSignals, b.signalInfos ++ signalInfos, texts⟩

end ClusterInfoBlock

def subunitPlugType : UInt16 := 0x8109

structure SubunitPlugInfoBlock where
  header : InfoBlock
  subunitPlugId : UInt8
  signalFormat : UInt16
  plugType : UInt8
  nbClusters : UInt16
  nbChannels : UInt16
  clusters : List ClusterInfoBlock
  texts : TextBlocks
  deriving DecidableEq

namespace SubunitPlugInfoBlock

variable (b : SubunitPlugInfoBlock)

def fresh : SubunitPlugInfoBlock := ⟨.fresh, 0, 0, 0xFF, 0, 0, [], .fresh⟩

def serialize (w : Writer) : Writer :=
  let w := b.header.serialize subunitPlugType order w
  let w := ((w.write order (.byte b.subunitPlugId)).write order (.uint16 b.signalFormat)).write
    order (.byte b.plugType)
  let w := (w.write order (.uint16 b.nbClusters)).write order (.uint16 b.nbChannels)
  if b.clusters.length ≠ b.nbClusters.toNat then w.refuse
  else b.texts.serialize order (b.clusters.foldl (fun w c => c.serialize order w) w)

def deserialize : Deserializer SubunitPlugInfoBlock := do
  let header ← b.header.deserialize subunitPlugType
  if header.primaryFieldLength ≠ 8 then
    refuse
    return { b with header }
  else
    let consumedAtStart ← getNrOfConsumedBytes
    let subunitPlugId ← read BufferDeserialize.readByte b.subunitPlugId
    let signalFormat ← read BufferDeserialize.readUInt16 b.signalFormat
    let plugType ← read BufferDeserialize.readByte b.plugType
    let nbClusters ← read BufferDeserialize.readUInt16 b.nbClusters
    let nbChannels ← read BufferDeserialize.readUInt16 b.nbChannels
    let clusters ← times nbClusters.toNat ClusterInfoBlock.fresh.deserialize
    let consumedAtClusterEnd ← getNrOfConsumedBytes
    let texts ← b.texts.deserialize
      (bytesLeft header.compoundLength consumedAtStart consumedAtClusterEnd)
    return ⟨header, subunitPlugId, signalFormat, plugType, nbClusters, nbChannels,
      b.clusters ++ clusters, texts⟩

end SubunitPlugInfoBlock

/-- The source or the destination of a music plug. -/
structure PlugEnd where
  plugFunctionType : UInt8
  plugId : UInt8
  plugFunctionBlockId : UInt8
  streamPosition : UInt8
  streamLocation : UInt8
  deriving DecidableEq

namespace PlugEnd

variable (x : PlugEnd)

def serialize (w : Writer) : Writer :=
  let w := ((w.write order (.byte x.plugFunctionType)).write order (.byte x.plugId)).write order
    (.byte x.plugFunctionBlockId)
  (w.write order (.byte x.streamPosition)).write order (.byte x.streamLocation)

def deserialize : Deserializer PlugEnd := do
  let plugFunctionType ← read BufferDeserialize.readByte x.plugFunctionType
  let plugId ← read BufferDeserialize.readByte x.plugId
  let plugFunctionBlockId ← read BufferDeserialize.readByte x.plugFunctionBlockId
  let streamPosition ← read BufferDeserialize.readByte x.streamPosition
  let streamLocation ← read BufferDeserialize.readByte x.streamLocation
  return ⟨plugFunctionType, plugId, plugFunctionBlockId, streamPosition, streamLocation⟩

end PlugEnd

def musicPlugType : UInt16 := 0x810B

structure MusicPlugInfoBlock where
  header : InfoBlock
  plugType : UInt8
  plugId : UInt16
  routingSupport : UInt8
  source : PlugEnd
  dest : PlugEnd
  texts : TextBlocks
  deriving DecidableEq

namespace MusicPlugInfoBlock

variable (b : MusicPlugInfoBlock)

def fresh : MusicPlugInfoBlock := ⟨.fresh, 0, 0, 0, ⟨0, 0, 0, 0, 0⟩, ⟨0, 0, 0, 0, 0⟩, .fresh⟩

def serialize (w : Writer) : Writer :=
  let w := b.header.serialize musicPlugType order w
  let w := ((w.write order (.byte b.plugType)).write order (.uint16 b.plugId)).write order
    (.byte b.routingSupport)
  b.texts.serialize order (b.dest.serialize order (b.source.serialize order w))

def deserialize : Deserializer MusicPlugInfoBlock := do
  let header ← b.header.deserialize musicPlugType
  if header.primaryFieldLength ≠ 14 then
    refuse
    return { b with header }
  else
    let plugType ← read BufferDeserialize.readByte b.plugType
    let plugId ← read BufferDeserialize.readUInt16 b.plugId
    let routingSupport ← read BufferDeserialize.readByte b.routingSupport
    let source ← b.source.deserialize
    let dest ← b.dest.deserialize
    -- the text is looked for just if the compound length is greater than 18
    let texts ← b.texts.deserialize (header.compoundLength.toNat - 18)
    return ⟨header, plugType, plugId, routingSupport, source, dest, texts⟩

end MusicPlugInfoBlock

def routingStatusType : UInt16 := 0x8108

structure RoutingStatusInfoBlock where
  header : InfoBlock
  nbDestPlugs : UInt8
  nbSourcePlugs : UInt8
  nbMusicPlugs : UInt16
  destPlugs : List SubunitPlugInfoBlock
  sourcePlugs : List SubunitPlugInfoBlock
  musicPlugs : List MusicPlugInfoBlock
  deriving DecidableEq

namespace RoutingStatusInfoBlock

variable (b : RoutingStatusInfoBlock)

def fresh : RoutingStatusInfoBlock := ⟨.fresh, 0, 0, 0, [], [], []⟩

def serialize (w : Writer) : Writer :=
  let w := b.header.serialize routingStatusType order w
  let w := ((w.write order (.byte b.nbDestPlugs)).write order (.byte b.nbSourcePlugs)).write order
    (.uint16 b.nbMusicPlugs)
  if b.destPlugs.length ≠ b.nbDestPlugs.toNat then w.refuse
  else
    let w := b.destPlugs.foldl (fun w p => p.serialize order w) w
    if b.sourcePlugs.length ≠ b.nbSourcePlugs.toNat then w.refuse
    else
      let w := b.sourcePlugs.foldl (fun w p => p.serialize order w) w
      if b.musicPlugs.length ≠ b.nbMusicPlugs.toNat then w.refuse
      else b.musicPlugs.foldl (fun w p => p.serialize order w) w

/-- The plugs are appended to those that are there. -/
def deserialize : Deserializer RoutingStatusInfoBlock := do
  let header ← b.header.deserialize routingStatusType
  if header.primaryFieldLength ≠ 4 then
    refuse
    return { b with header }
  else
    let nbDestPlugs ← read BufferDeserialize.readByte b.nbDestPlugs
    let nbSourcePlugs ← read BufferDeserialize.readByte b.nbSourcePlugs
    let nbMusicPlugs ← read BufferDeserialize.readUInt16 b.nbMusicPlugs
    let destPlugs ← times nbDestPlugs.toNat SubunitPlugInfoBlock.fresh.deserialize
    let sourcePlugs ← times nbSourcePlugs.toNat SubunitPlugInfoBlock.fresh.deserialize
    let musicPlugs ← times nbMusicPlugs.toNat MusicPlugInfoBlock.fresh.deserialize
    return ⟨header, nbDestPlugs, nbSourcePlugs, nbMusicPlugs, b.destPlugs ++ destPlugs,
      b.sourcePlugs ++ sourcePlugs, b.musicPlugs ++ musicPlugs⟩

end RoutingStatusInfoBlock

def generalStatusType : UInt16 := 0x8100

structure GeneralStatusInfoBlock where
  header : InfoBlock
  currentTransmitCapability : UInt8
  currentReceiveCapability : UInt8
  currentLatencyCapability : Quadlet
  deriving DecidableEq

namespace GeneralStatusInfoBlock

variable (b : GeneralStatusInfoBlock)

def fresh : GeneralStatusInfoBlock := ⟨.fresh, 0, 0, 0xFFFFFFFF⟩

/-- The latency is swapped also if it has not been read. -/
def deserialize : Deserializer GeneralStatusInfoBlock := do
  let header ← b.header.deserialize generalStatusType
  if header.primaryFieldLength ≠ 6 then
    refuse
    return { b with header }
  else
    let transmit ← read BufferDeserialize.readByte b.currentTransmitCapability
    let receive ← read BufferDeserialize.readByte b.currentReceiveCapability
    let latency ← read (fun d => d.readQuadlet order) b.currentLatencyCapability
    return ⟨header, transmit, receive, condSwapFromBus32 order latency⟩

end GeneralStatusInfoBlock

def outputPlugStatusType : UInt16 := 0x8101

def deserializeOutputPlugStatus (b : InfoBlock) : Deserializer InfoBlock := do
  let header ← b.deserialize outputPlugStatusType
  skip (sizeOfInt (header.compoundLength.toNat - 4))
  return header

structure MusicStatusDescriptor where
  generalStatus : GeneralStatusInfoBlock
  outputPlugStatus : InfoBlock
  routingStatus : RoutingStatusInfoBlock

namespace MusicStatusDescriptor

def fresh : MusicStatusDescriptor := ⟨.fresh, .fresh, .fresh⟩

/-- One turn of the loop, for a block of the given type. -/
def deserializeBlock (desc : MusicStatusDescriptor) (blockType : UInt16) :
    Deserializer MusicStatusDescriptor := do
  let blockLength ← peekBlockLength
  if blockType = generalStatusType then
    let generalStatus ← desc.generalStatus.deserialize order
    return { desc with generalStatus }
  else if blockType = outputPlugStatusType then
    let outputPlugStatus ← deserializeOutputPlugStatus desc.outputPlugStatus
    return { desc with outputPlugStatus }
  else if blockType = routingStatusType then
    let routingStatus ← desc.routingStatus.deserialize
    return { desc with routingStatus }
  else
    -- an unknown block, of which the length is not a part
    let some blockLength := blockLength | failure
    skip blockLength.toNat
    return desc

/-- The loop goes on until a turn fails or there is no next block, for so many turns. -/
def deserializeBlocks : ℕ → MusicStatusDescriptor → Deserializer MusicStatusDescriptor
  | 0, desc => pure desc
  | turns + 1, desc => do
    let blockType ← peekBlockType
    match blockType with
    | none => return desc
    | some blockType =>
      if (← get).result then
        let desc ← desc.deserializeBlock order blockType
        deserializeBlocks turns desc
      else return desc

/-- `blocks_done++ > 10` holds for the first time after twelve blocks. -/
def maxTurns : ℕ := 12

def deserialize (desc : MusicStatusDescriptor) : Deserializer MusicStatusDescriptor :=
  desc.deserializeBlocks order maxTurns

end MusicStatusDescriptor

end Ffado.Avc
