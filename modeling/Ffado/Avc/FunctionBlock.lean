import Ffado.Avc.PlugAddress

/-!
# Function block commands

A command to a function block of an audio subunit has one of four parts, and the parts of the
feature and of the processing block have parts again, which are there if the command was prepared
with them. The type of the block and the control selector of a feature are read from the response,
and the part that belongs to them is used; the mixer of a processing block is the one that the
command has.

Here the results of reads and writes are looked at: the result of a function is that of the reader
or the writer behind it.
-/
namespace Ffado.Avc.FunctionBlock

open Cmd Decoding Deserializer

def upperByte (value : UInt16) : UInt8 := (value >>> 8).toUInt8

def lowerByte (value : UInt16) : UInt8 := (value &&& 0xFF).toUInt8

/-- What the local variables contain before they are read. -/
structure Locals where
  val : UInt8
  dataLengthHi : UInt8
  dataLengthLo : UInt8
  deriving DecidableEq

def writeControl (controlDataLength : UInt8) (value : UInt16) (w : Writer) : Writer :=
  w.recordBytes [controlDataLength, upperByte value, lowerByte value]

/-- Both bytes of the value are read into one local variable. -/
def readControl (junk : Locals) (controlDataLength : UInt8) : Deserializer (UInt8 × UInt16) := do
  let controlDataLength ← readMember controlDataLength
  let upper ← readMember junk.val
  let lower ← readMember upper
  return (controlDataLength, (upper.toUInt16 <<< 8) ||| lower.toUInt16)

structure FunctionBlockFeatureVolume where
  controlDataLength : UInt8
  volume : UInt16
  deriving DecidableEq

namespace FunctionBlockFeatureVolume

def serialize (x : FunctionBlockFeatureVolume) : Writer → Writer :=
  writeControl x.controlDataLength x.volume

def deserialize (junk : Locals) (x : FunctionBlockFeatureVolume) :
    Deserializer FunctionBlockFeatureVolume := do
  let control ← readControl junk x.controlDataLength
  return ⟨control.1, control.2⟩

end FunctionBlockFeatureVolume

structure FunctionBlockFeatureLRBalance where
  controlDataLength : UInt8
  lrBalance : UInt16
  deriving DecidableEq

namespace FunctionBlockFeatureLRBalance

def serialize (x : FunctionBlockFeatureLRBalance) : Writer → Writer :=
  writeControl x.controlDataLength x.lrBalance

def deserialize (junk : Locals) (x : FunctionBlockFeatureLRBalance) :
    Deserializer FunctionBlockFeatureLRBalance := do
  let control ← readControl junk x.controlDataLength
  return ⟨control.1, control.2⟩

end FunctionBlockFeatureLRBalance

def featureUnknown : UInt8 := 0x00

def featureVolume : UInt8 := 0x02

def featureLRBalance : UInt8 := 0x03

structure FunctionBlockFeature where
  selectorLength : UInt8
  audioChannelNumber : UInt8
  controlSelector : UInt8
  volume : Option FunctionBlockFeatureVolume
  lrBalance : Option FunctionBlockFeatureLRBalance
  deriving DecidableEq

namespace FunctionBlockFeature

variable (x : FunctionBlockFeature)

def fresh : FunctionBlockFeature := ⟨0x02, 0x00, featureUnknown, none, none⟩

/-- A part that is not there is used all the same. -/
def serialize (w : Writer) : Option Writer :=
  let w := w.recordBytes [x.selectorLength, x.audioChannelNumber, x.controlSelector]
  if x.controlSelector = featureVolume then x.volume.map fun part => part.serialize w
  else if x.controlSelector = featureLRBalance then x.lrBalance.map fun part => part.serialize w
  else some w.refuse

def deserializePart (junk : Locals) : Deserializer FunctionBlockFeature :=
  if x.controlSelector = featureVolume then
    match x.volume with
    | some part => do
      let part ← part.deserialize junk
      return { x with volume := some part }
    | none => failure
  else if x.controlSelector = featureLRBalance then
    match x.lrBalance with
    | some part => do
      let part ← part.deserialize junk
      return { x with lrBalance := some part }
    | none => failure
  else do
    refuse
    return x

def deserialize (junk : Locals) : Deserializer FunctionBlockFeature := do
  let selectorLength ← readMember x.selectorLength
  let audioChannelNumber ← readMember x.audioChannelNumber
  let controlSelector ← readMember x.controlSelector
  deserializePart { x with selectorLength, audioChannelNumber, controlSelector } junk

end FunctionBlockFeature

structure FunctionBlockSelector where
  selectorLength : UInt8
  inputFbPlugNumber : UInt8
  controlSelector : UInt8
  deriving DecidableEq

namespace FunctionBlockSelector

variable (x : FunctionBlockSelector)

def fresh : FunctionBlockSelector := ⟨0x02, 0x00, 0x01⟩

def serialize (w : Writer) : Writer :=
  w.recordBytes [x.selectorLength, x.inputFbPlugNumber, x.controlSelector]

def deserialize : Deserializer FunctionBlockSelector :=
  readThree FunctionBlockSelector.mk x.selectorLength x.inputFbPlugNumber x.controlSelector

end FunctionBlockSelector

structure FunctionBlockProcessingMixer where
  controlSelector : UInt8
  controlDataLength : UInt8
  mixerSetting : UInt16
  deriving DecidableEq

namespace FunctionBlockProcessingMixer

variable (x : FunctionBlockProcessingMixer)

def serialize (w : Writer) : Writer :=
  (w.recordBytes [x.controlSelector, x.controlDataLength]).recordWord x.mixerSetting

/-- Two bytes of padding are read, and not used. -/
def deserialize : Deserializer FunctionBlockProcessingMixer := do
  let controlSelector ← readMember x.controlSelector
  let controlDataLength ← readMember x.controlDataLength
  let mixerSetting ← read BufferDeserialize.readUInt16 x.mixerSetting
  let _ ← readMember 0
  let _ ← readMember 0
  return ⟨controlSelector, controlDataLength, mixerSetting⟩

end FunctionBlockProcessingMixer

def processingEnhancedMixer : UInt8 := 0xF1

def statusProgramableState : UInt8 := 0x00

def statusLevel : UInt8 := 0x01

structure FunctionBlockProcessingEnhancedMixer where
  controlSelector : UInt8
  statusSelector : UInt8
  controlDataLength : UInt16
  programableStateData : List UInt8
  levelData : List UInt16
  deriving DecidableEq

namespace FunctionBlockProcessingEnhancedMixer

variable (x : FunctionBlockProcessingEnhancedMixer)

/-- Serialising sets the length. -/
def sent : FunctionBlockProcessingEnhancedMixer :=
  if x.statusSelector = statusProgramableState then
    { x with controlDataLength := UInt16.ofNat (x.programableStateData.length / 8) }
  else if x.statusSelector = statusLevel then
    { x with controlDataLength := UInt16.ofNat (x.levelData.length * 2) }
  else x

/-- The byte of eight states. -/
def packedStates (states : List UInt8) : UInt8 :=
  (List.range 8).foldl (fun value j => value ||| (states.getD j 0 <<< UInt8.ofNat (7 - j))) 0

/-- What is written behind the selectors. -/
def data : List UInt8 :=
  let length := x.sent.controlDataLength
  if x.statusSelector = statusProgramableState then
    [upperByte length, lowerByte length] ++
      (List.range length.toNat).map fun i => packedStates (x.programableStateData.drop (i * 8))
  else if x.statusSelector = statusLevel then
    [upperByte length, lowerByte length] ++
      (x.levelData.take (length.toNat / 2)).flatMap fun value => [upperByte value, lowerByte value]
  else []

def serialize (w : Writer) : Writer :=
  (w.recordBytes [x.controlSelector, x.statusSelector]).recordBytes x.data

def readLevel : Deserializer UInt16 := do
  let mixerValueHi ← readMember 0
  let mixerValueLo ← readMember 0
  return (mixerValueHi.toUInt16 <<< 8) + mixerValueLo.toUInt16

/-- The selectors of the response are bogus and overwritten. -/
def deserialize (junk : Locals) : Deserializer FunctionBlockProcessingEnhancedMixer := do
  let _ ← readMember x.controlSelector
  let _ ← readMember x.statusSelector
  let dataLengthHi ← readMember junk.dataLengthHi
  let dataLengthLo ← readMember junk.dataLengthLo
  let controlDataLength := (dataLengthHi.toUInt16 <<< 8) + dataLengthLo.toUInt16
  let levelData ← times (controlDataLength.toNat / 2) readLevel
  return ⟨processingEnhancedMixer, statusLevel, controlDataLength,
    x.programableStateData, levelData⟩

end FunctionBlockProcessingEnhancedMixer

structure FunctionBlockProcessing where
  selectorLength : UInt8
  fbInputPlugNumber : UInt8
  inputAudioChannelNumber : UInt8
  outputAudioChannelNumber : UInt8
  mixer : Option FunctionBlockProcessingMixer
  enhancedMixer : Option FunctionBlockProcessingEnhancedMixer
  deriving DecidableEq

/-- The bytes that are left are read one by one. -/
def drainLoop : ℕ → BufferDeserialize → BufferDeserialize
  | 0, de => de
  | fuel + 1, de =>
    match de.readByte with
    | (de, some _) => drainLoop fuel de
    | (de, none) => de

/-- The results of these reads are not looked at. -/
def drain : Deserializer Unit := fun s =>
  some ((), { s with de := if s.de.peekByte.2.isSome then drainLoop s.de.length s.de else s.de })

namespace FunctionBlockProcessing

variable (x : FunctionBlockProcessing)

def fresh : FunctionBlockProcessing := ⟨0x04, 0x00, 0x00, 0x00, none, none⟩

def fields : List UInt8 :=
  [x.selectorLength, x.fbInputPlugNumber, x.inputAudioChannelNumber, x.outputAudioChannelNumber]

def serialize (w : Writer) : Writer :=
  let w := w.recordBytes x.fields
  match x.mixer, x.enhancedMixer with
  | some mixer, _ => mixer.serialize w
  | none, some enhancedMixer => enhancedMixer.serialize w
  | none, none => w.refuse

/-- The control selector of the response is not used: the mixer is the one that was sent. -/
def deserializePart (junk : Locals) : Deserializer FunctionBlockProcessing := do
  let _ ← read BufferDeserialize.peekByte 0
  match x.mixer, x.enhancedMixer with
  | some mixer, _ =>
    let mixer ← mixer.deserialize
    return { x with mixer := some mixer }
  | none, some enhancedMixer =>
    let enhancedMixer ← enhancedMixer.deserialize junk
    return { x with enhancedMixer := some enhancedMixer }
  | none, none =>
    refuse
    return x

def deserialize (junk : Locals) : Deserializer FunctionBlockProcessing := do
  let selectorLength ← readMember x.selectorLength
  let fbInputPlugNumber ← readMember x.fbInputPlugNumber
  let inputAudioChannelNumber ← readMember x.inputAudioChannelNumber
  let outputAudioChannelNumber ← readMember x.outputAudioChannelNumber
  let x ← deserializePart ⟨selectorLength, fbInputPlugNumber, inputAudioChannelNumber,
    outputAudioChannelNumber, x.mixer, x.enhancedMixer⟩ junk
  drain
  return x

end FunctionBlockProcessing

def typeSelector : UInt8 := 0x80

def typeFeature : UInt8 := 0x81

def typeProcessing : UInt8 := 0x82

def typeCodec : UInt8 := 0x83

/-- A class without members, whose functions return false. -/
structure FunctionBlockCodec where
  deriving DecidableEq

structure FunctionBlockCmd where
  command : AVCCommand
  functionBlockType : UInt8
  functionBlockId : UInt8
  controlAttribute : UInt8
  selector : Option FunctionBlockSelector
  feature : Option FunctionBlockFeature
  processing : Option FunctionBlockProcessing
  codec : Option FunctionBlockCodec
  deriving DecidableEq

namespace FunctionBlockCmd

variable (x : FunctionBlockCmd)

def serializeHead (w : Writer) : Writer :=
  Writer.recordBytes { x.command.serialize w with result := true }
    [x.functionBlockType, x.functionBlockId, x.controlAttribute]

def serialize (w : Writer) : Option Writer :=
  let w := x.serializeHead w
  if x.functionBlockType = typeSelector then
    match x.selector with
    | some part => some (part.serialize w)
    | none => some w.refuse
  else if x.functionBlockType = typeFeature then
    match x.feature with
    | some part => part.serialize w
    | none => some w.refuse
  else if x.functionBlockType = typeProcessing then
    match x.processing with
    | some part => some (part.serialize w)
    | none => some w.refuse
  else some w.refuse

/-- The command after it was serialised. -/
def sent : FunctionBlockCmd :=
  { x with processing := x.processing.map fun part =>
      { part with
        enhancedMixer := part.enhancedMixer.map FunctionBlockProcessingEnhancedMixer.sent } }

def accept : Deserializer Unit := fun s => some ((), { s with result := true })

def deserializeHead : Deserializer FunctionBlockCmd := do
  let command ← x.command.deserialize
  accept
  let functionBlockType ← readMember x.functionBlockType
  let functionBlockId ← readMember x.functionBlockId
  let controlAttribute ← readMember x.controlAttribute
  return { x with command, functionBlockType, functionBlockId, controlAttribute }

def deserializePart (junk : Locals) : Deserializer FunctionBlockCmd := do
  if x.functionBlockType = typeSelector then
    let part ← (x.selector.getD .fresh).deserialize
    return { x with selector := some part }
  else if x.functionBlockType = typeFeature then
    let part ← (x.feature.getD .fresh).deserialize junk
    return { x with feature := some part }
  else if x.functionBlockType = typeProcessing then
    let part ← (x.processing.getD .fresh).deserialize junk
    return { x with processing := some part }
  else if x.functionBlockType = typeCodec then
    refuse
    return { x with codec := some {} }
  else
    refuse
    return x

def deserialize (junk : Locals) : Deserializer FunctionBlockCmd := do
  let x ← x.deserializeHead
  x.deserializePart junk

end FunctionBlockCmd

end Ffado.Avc.FunctionBlock
