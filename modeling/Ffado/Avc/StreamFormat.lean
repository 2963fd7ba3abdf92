import Ffado.Avc.PlugAddress
import Ffado.Lib.Decoding

/-!
# Extended stream format

The hierarchy of a format is a root and up to two levels. Just the two hierarchies of audio and
music that devices answer with are parsed: the sync stream, whose sampling frequency and rate
control share a byte, and the compound stream, which has no second level and a counted list of
infos.
-/
namespace Ffado.Avc.StreamFormat

open Cmd Decoding Deserializer

structure StreamFormatInfo where
  numberOfChannels : UInt8
  streamFormat : UInt8
  deriving DecidableEq

namespace StreamFormatInfo

def fields (x : StreamFormatInfo) : List UInt8 := [x.numberOfChannels, x.streamFormat]

def serialize (x : StreamFormatInfo) (w : Writer) : Writer := w.writeBytes x.fields

def deserialize (x : StreamFormatInfo) : Deserializer StreamFormatInfo := do
  let numberOfChannels ← readMember x.numberOfChannels
  let streamFormat ← readMember x.streamFormat
  return ⟨numberOfChannels, streamFormat⟩

end StreamFormatInfo

def dontCareFrequency : UInt8 := 0x0F

def dontCareRateControl : UInt8 := 0x01

structure FormatInformationStreamsSync where
  reserved0 : UInt8
  samplingFrequency : UInt8
  rateControl : UInt8
  reserved1 : UInt8
  deriving DecidableEq

namespace FormatInformationStreamsSync

variable (x : FormatInformationStreamsSync)

def fresh : FormatInformationStreamsSync := ⟨0xFF, dontCareFrequency, dontCareRateControl, 0xFF⟩

def operand : UInt8 :=
  let operand := (x.samplingFrequency <<< 4) ||| 0x0E
  if x.rateControl = dontCareRateControl then operand ||| 0x01 else operand

def fields : List UInt8 := [x.reserved0, x.operand, x.reserved1]

def serialize (w : Writer) : Writer := w.writeBytes x.fields

def deserialize : Deserializer FormatInformationStreamsSync := do
  let reserved0 ← readMember x.reserved0
  let operand ← readVariable
  let reserved1 ← readMember x.reserved1
  return ⟨reserved0, operand >>> 4, operand &&& 0x01, reserved1⟩

end FormatInformationStreamsSync

structure FormatInformationStreamsCompound where
  samplingFrequency : UInt8
  rateControl : UInt8
  numberOfStreamFormatInfos : UInt8
  streamFormatInfos : List StreamFormatInfo
  deriving DecidableEq

namespace FormatInformationStreamsCompound

variable (x : FormatInformationStreamsCompound)

def fresh : FormatInformationStreamsCompound := ⟨dontCareFrequency, dontCareRateControl, 0, []⟩

def serialize (w : Writer) : Writer :=
  x.streamFormatInfos.foldl (fun w info => info.serialize w)
    (w.writeBytes [x.samplingFrequency, x.rateControl, x.numberOfStreamFormatInfos])

/-- `junk` is what the members of a new info have before they are read. The infos are appended. -/
def deserialize (junk : StreamFormatInfo) : Deserializer FormatInformationStreamsCompound := do
  let samplingFrequency ← readMember x.samplingFrequency
  let rateControl ← readMember x.rateControl
  let numberOfStreamFormatInfos ← readMember x.numberOfStreamFormatInfos
  let infos ← times numberOfStreamFormatInfos.toNat junk.deserialize
  return ⟨samplingFrequency, rateControl, numberOfStreamFormatInfos, x.streamFormatInfos ++ infos⟩

end FormatInformationStreamsCompound

inductive FormatInformationStreams
  | sync (streams : FormatInformationStreamsSync)
  | compound (streams : FormatInformationStreamsCompound)
  deriving DecidableEq

def FormatInformationStreams.serialize : FormatInformationStreams → Writer → Writer
  | sync streams => streams.serialize
  | compound streams => streams.serialize

def rootAudioMusic : UInt8 := 0x90

def rootInvalid : UInt8 := 0xFF

def level1Am824 : UInt8 := 0x00

def level1Am824Compound : UInt8 := 0x40

def level1DontCare : UInt8 := 0xFF

def level2SyncStream : UInt8 := 0x40

def level2DontCare : UInt8 := 0xFF

structure FormatInformation where
  root : UInt8
  level1 : UInt8
  level2 : UInt8
  streams : Option FormatInformationStreams
  deriving DecidableEq

namespace FormatInformation

variable (x : FormatInformation)

def fresh : FormatInformation := ⟨rootInvalid, level1DontCare, level2DontCare, none⟩

def hierarchy : List UInt8 :=
  if x.root ≠ rootInvalid then
    if x.level1 ≠ level1DontCare then
      if x.level2 ≠ level2DontCare then [x.root, x.level1, x.level2] else [x.root, x.level1]
    else [x.root]
  else []

def serialize (w : Writer) : Writer :=
  let w := w.writeBytes x.hierarchy
  match x.streams with
  | some streams => streams.serialize w
  | none => w

/-- The streams of the object are deleted first. -/
def deserialize (junk : StreamFormatInfo) : Deserializer (FormatInformation × Bool) := do
  let root ← readMember x.root
  if root = rootAudioMusic then
    let level1 ← readMember x.level1
    if level1 = level1Am824 then
      -- compound streams don't have a second level
      let level2 ← readMember x.level2
      if level2 = level2SyncStream then
        let streams ← FormatInformationStreamsSync.fresh.deserialize
        return (⟨root, level1, level2, some (.sync streams)⟩, true)
      else return (⟨root, level1, level2, none⟩, false)
    else if level1 = level1Am824Compound then
      let streams ← FormatInformationStreamsCompound.fresh.deserialize junk
      return (⟨root, level1, x.level2, some (.compound streams)⟩, true)
    else return (⟨root, level1, x.level2, none⟩, false)
  else return (⟨root, x.level1, x.level2, none⟩, false)

end FormatInformation

/-- `eSF_ExtendedStreamFormatInformationCommandList` -/
def subFunctionList : UInt8 := 0xC1

structure ExtendedStreamFormatCmd where
  command : AVCCommand
  subFunction : UInt8
  plugAddress : PlugAddress
  status : UInt8
  indexInStreamFormat : UInt8
  formatInformation : FormatInformation
  deriving DecidableEq

namespace ExtendedStreamFormatCmd

variable (x : ExtendedStreamFormatCmd)

/-- What follows the status. The result of the format information is not looked at. -/
def deserializeFormat (junk : StreamFormatInfo) :
    Deserializer (ExtendedStreamFormatCmd × Bool) := do
  let formatInformation ← x.formatInformation.deserialize junk
  return ({ x with formatInformation := formatInformation.1 }, true)

def deserialize (junk : StreamFormatInfo) : Deserializer (ExtendedStreamFormatCmd × Bool) := do
  let command ← x.command.deserialize
  let subFunction ← readMember x.subFunction
  let plugAddress ← x.plugAddress.deserialize
  let status ← readMember x.status
  if subFunction = subFunctionList then
    let indexInStreamFormat ← readMember x.indexInStreamFormat
    deserializeFormat { x with command, subFunction, plugAddress, status, indexInStreamFormat } junk
  else
    deserializeFormat { x with command, subFunction, plugAddress, status } junk

end ExtendedStreamFormatCmd

end Ffado.Avc.StreamFormat
