import Ffado.Avc.FunctionBlockAnswers
import Ffado.Avc.PlugInfoRoundTrip
import Ffado.Avc.StreamFormatRoundTrip
import Ffado.Lib.ObjectHeap

/-!
# Clones

`clone` of a data object calls the copy constructor of its class. Objects are in a heap and hold
pointers to their parts, so that a copy may have parts of its own, share those of the original, or
have pointers that nobody has set.

Plug addresses, the plug's inputs and outputs and the format information clone their parts. The
compound stream has the copy constructor of the compiler, which copies the pointers of its infos.
The info type copies the part of its type, and `initialize` then puts a new one in its place. The
mixers are copied without their settings. Features and processing blocks copy one part and leave the
other pointers as they are.
-/
namespace Ffado.Avc.Clone

open ObjectHeap PlugInfo StreamFormat FunctionBlock

/-- Objects without pointers. -/
inductive Plain
  | plugAddressData (x : SpecificData.PlugAddressData)
  | plugType (x : PlugTypeSpecificData)
  | plugName (x : PlugNameSpecificData)
  | plugNrOfChns (x : PlugNumberOfChannelsSpecificData)
  | plugChannelPosition (x : PlugChannelPositionSpecificData)
  | plugChannelName (x : PlugChannelNameSpecificData)
  | plugClusterInfo (x : ClusterInfoSpecificData)
  | streamFormatInfo (x : StreamFormatInfo)
  | sync (x : FormatInformationStreamsSync)
  | selector (x : FunctionBlockSelector)
  | volume (x : FunctionBlockFeatureVolume)
  | lrBalance (x : FunctionBlockFeatureLRBalance)
  | mixer (x : FunctionBlockProcessingMixer)
  | enhancedMixer (x : FunctionBlockProcessingEnhancedMixer)
  deriving DecidableEq

namespace Plain

def serialize : Plain → Writer → Writer
  | plugAddressData x => x.serialize
  | plugType x => x.serialize
  | plugName x => x.serialize
  | plugNrOfChns x => x.serialize
  | plugChannelPosition x => x.serialize
  | plugChannelName x => x.serialize
  | plugClusterInfo x => x.serialize
  | streamFormatInfo x => x.serialize
  | sync x => x.serialize
  | selector x => x.serialize
  | volume x => x.serialize
  | lrBalance x => x.serialize
  | mixer x => x.serialize
  | enhancedMixer x => x.serialize

def bytes : Plain → List UInt8
  | plugAddressData x => x.fields
  | plugType x => [x.plugType]
  | plugName x => [x.length] ++ x.name.take x.length.toNat
  | plugNrOfChns x => [x.nrOfChannels]
  | plugChannelPosition x => x.bytes
  | plugChannelName x => x.bytes
  | plugClusterInfo x => x.bytes
  | streamFormatInfo x => x.fields
  | sync x => x.fields
  | selector x => [x.selectorLength, x.inputFbPlugNumber, x.controlSelector]
  | volume x => [x.controlDataLength, upperByte x.volume, lowerByte x.volume]
  | lrBalance x => [x.controlDataLength, upperByte x.lrBalance, lowerByte x.lrBalance]
  | mixer x => [x.controlSelector, x.controlDataLength] ++ word x.mixerSetting
  | enhancedMixer x => [x.controlSelector, x.statusSelector] ++ x.data

/-- The bytes are those that the object writes to a buffer that has room for them. -/
theorem emits (x : Plain) : EmitsWith 0 x.serialize x.bytes := by
  cases x with
  | plugAddressData x => exact emitsWith_writeBytes x.fields
  | plugType x => exact emitsWith_writeBytes [x.plugType]
  | plugName x => exact (emitsWith_writeBytes [x.length]).comp (emitsWith_writeBytes _)
  | plugNrOfChns x => exact emitsWith_writeBytes [x.nrOfChannels]
  | plugChannelPosition x => exact x.emits
  | plugChannelName x => exact x.emits
  | plugClusterInfo x => exact x.emits
  | streamFormatInfo x => exact emitsWith_writeBytes x.fields
  | sync x => exact emitsWith_writeBytes x.fields
  | mixer x =>
    intro w hroom
    change (w.recordBytes [x.controlSelector, x.controlDataLength]).recordWord x.mixerSetting = _
    rw [Writer.recordWord_eq, ← Writer.recordBytes_append]
    exact emitsWith_recordBytes _ w hroom
  | enhancedMixer x => exact (emitsWith_recordBytes _).comp (emitsWith_recordBytes x.data)
  | _ => exact emitsWith_recordBytes _

/-- The copy constructors. A mixer gets the setting of a new one; an enhanced mixer gets its
selectors only, and `junk` is what is in the member that is not set. -/
def copy (junk : UInt16) : Plain → Plain
  | mixer x => mixer ⟨x.controlSelector, 0x02, 0x0000⟩
  | enhancedMixer x => enhancedMixer ⟨x.controlSelector, x.statusSelector, junk, [], []⟩
  | x => x

end Plain

inductive Pointer
  | null
  /-- A member that no constructor has set. -/
  | wild
  | set (p : ℕ)
  deriving DecidableEq

namespace Pointer

def ifSet {α : Type} {f : Type → Type} [Alternative f] (pointer : Pointer) (use : ℕ → f α)
    (otherwise : f α) : f α :=
  match pointer with
  | null => otherwise
  | wild => failure
  | set p => use p

/-- The pointer is used without a test. -/
def use {α : Type} {f : Type → Type} [Alternative f] (pointer : Pointer) (use : ℕ → f α) : f α :=
  pointer.ifSet use failure

def addresses : Pointer → List ℕ
  | set p => [p]
  | null | wild => []

end Pointer

inductive Cell
  | plain (x : Plain)
  | plugAddress (plugDirection addressMode : UInt8) (plugAddressData : ℕ)
  | plugInput (plugAddress : ℕ)
  | plugOutput (nrOfOutputPlugs : UInt8) (outputPlugAddresses : List ℕ)
  | infoType (infoType : UInt8) (parts : UInt8 → Pointer)
  | compound (samplingFrequency rateControl numberOfStreamFormatInfos : UInt8)
      (streamFormatInfos : List ℕ)
  | formatInformation (root level1 level2 : UInt8) (streams : Pointer)
  | feature (selectorLength audioChannelNumber controlSelector : UInt8) (volume lrBalance : Pointer)
  | processing (selectorLength fbInputPlugNumber inputAudioChannelNumber
      outputAudioChannelNumber : UInt8) (mixer enhancedMixer : Pointer)

def infoTypes : List UInt8 := [0x00, 0x01, 0x02, 0x03, 0x04, 0x05, 0x06, 0x07]

def Cell.pointers : Cell → List ℕ
  | plain _ => []
  | plugAddress _ _ data => [data]
  | plugInput address => [address]
  | plugOutput _ addresses => addresses
  | infoType _ parts => infoTypes.flatMap fun i => (parts i).addresses
  | compound _ _ _ infos => infos
  | formatInformation _ _ _ streams => streams.addresses
  | feature _ _ _ volume lrBalance => volume.addresses ++ lrBalance.addresses
  | processing _ _ _ _ mixer enhancedMixer => mixer.addresses ++ enhancedMixer.addresses

abbrev Memory := ℕ → Option Cell

/-- What the object at an address writes. No object has parts below the given depth. -/
def serialize (m : Memory) : ℕ → ℕ → Option (List UInt8)
  | 0, _ => none
  | depth + 1, p =>
    match m p with
    | none => none
    | some (.plain x) => some x.bytes
    | some (.plugAddress direction mode data) =>
        (serialize m depth data).map ([direction, mode] ++ ·)
    | some (.plugInput address) => serialize m depth address
    | some (.plugOutput number addresses) =>
      (addresses.mapM (serialize m depth)).map fun parts => [number] ++ parts.flatten
    | some (.infoType t parts) =>
      if t ∈ infoTypes then
        ((parts t).ifSet (serialize m depth) (some [])).map ([t] ++ ·)
      else some [t]
    | some (.compound frequency rateControl number infos) =>
      (infos.mapM (serialize m depth)).map fun parts =>
        [frequency, rateControl, number] ++ parts.flatten
    | some (.formatInformation root level1 level2 streams) =>
      (streams.ifSet (serialize m depth) (some [])).map
        ((FormatInformation.mk root level1 level2 none).hierarchy ++ ·)
    | some (.feature length channel selector volume lrBalance) =>
      Option.map ([length, channel, selector] ++ ·)
        (if selector = featureVolume then volume.use (serialize m depth)
        else if selector = featureLRBalance then lrBalance.use (serialize m depth)
        else some [])
    | some (.processing length plug input output mixer enhancedMixer) =>
      (mixer.ifSet (serialize m depth) (enhancedMixer.ifSet (serialize m depth) (some []))).map
        ([length, plug, input, output] ++ ·)

/-- An info type has data with addresses, which have data again. -/
def depth : ℕ := 4

def newPart (t : UInt8) : Alloc Cell ℕ :=
  if t = 0x00 then new (.plain (.plugType .fresh))
  else if t = 0x01 then new (.plain (.plugName .fresh))
  else if t = 0x02 then new (.plain (.plugNrOfChns .fresh))
  else if t = 0x03 then new (.plain (.plugChannelPosition .fresh))
  else if t = 0x04 then new (.plain (.plugChannelName .fresh))
  else if t = 0x05 then do
    let data ← new (.plain (.plugAddressData PlugAddressSpecificData.output.plugAddressData))
    let address ← new (.plugAddress PlugAddressSpecificData.output.plugDirection
      PlugAddressSpecificData.output.addressMode data)
    new (.plugInput address)
  else if t = 0x06 then new (.plugOutput 0 [])
  else new (.plain (.plugClusterInfo .fresh))

/-- The pointer of the type is overwritten; with a type that is not known, false is returned. -/
def initializePart (p : ℕ) : Alloc Cell Unit := do
  match ← deref p with
  | .infoType t parts =>
    if t ∈ infoTypes then
      let part ← newPart t
      assign p (.infoType t (Function.update parts t (.set part)))
    else pure ()
  | _ => failure

def copyIfSet (copy : ℕ → Alloc Cell ℕ) (pointer : Pointer) : Alloc Cell Pointer :=
  pointer.ifSet (fun p => do
    let p ← copy p
    return .set p) (pure .null)

/-- The second part is copied if there is no first one; nothing else is set. -/
def copyOneOf (copy : ℕ → Alloc Cell ℕ) (first second : Pointer) : Alloc Cell (Pointer × Pointer) :=
  first.ifSet (fun p => do
    let p ← copy p
    return (.set p, .wild)) <|
  second.ifSet (fun p => do
    let p ← copy p
    return (.wild, .set p)) <|
  pure (.wild, .wild)

def clone (junk : UInt16) : ℕ → ℕ → Alloc Cell ℕ
  | 0, _ => failure
  | depth + 1, p => do
    match ← deref p with
    | .plain x => new (.plain (x.copy junk))
    | .plugAddress direction mode data =>
      let data ← clone junk depth data
      new (.plugAddress direction mode data)
    | .plugInput address =>
      let address ← clone junk depth address
      new (.plugInput address)
    | .plugOutput number addresses =>
      let addresses ← addresses.mapM (clone junk depth)
      new (.plugOutput number addresses)
    | .infoType t parts =>
      if t ∈ infoTypes then
        let part ← (parts t).use (clone junk depth)
        let copy ← new (.infoType t (Function.update (fun _ => .null) t (.set part)))
        initializePart copy
        return copy
      else
        let copy ← new (.infoType t fun _ => .null)
        initializePart copy
        return copy
    | .compound frequency rateControl number infos =>
      new (.compound frequency rateControl number infos)
    | .formatInformation root level1 level2 streams =>
      let streams ← copyIfSet (clone junk depth) streams
      new (.formatInformation root level1 level2 streams)
    | .feature length channel selector volume lrBalance =>
      let parts ← copyOneOf (clone junk depth) volume lrBalance
      new (.feature length channel selector parts.1 parts.2)
    | .processing length plug input output mixer enhancedMixer =>
      let parts ← copyOneOf (clone junk depth) mixer enhancedMixer
      new (.processing length plug input output parts.1 parts.2)

end Ffado.Avc.Clone
