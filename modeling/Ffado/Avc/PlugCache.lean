import Ffado.Lib.PathStore

/-!
# The plugs in the device cache

The plugs of a unit, with what is known of their channels and formats, are written to a store under
paths that are put together from names and indices. They are read back in two passes: first the
plugs themselves, then the connections between them, which are kept by global ids.

The paths are those of the source. A separator is put behind the path of an element, where the
source has it in front of the names below.
-/
namespace Ffado.Avc.Cache

open PathStore

/-- Numbers are written as `long long`. -/
inductive Value
  | int (v : ℤ)
  | text (s : String)
  deriving DecidableEq

abbrev Store := List (String × Value)

abbrev Byte := BitVec 8

abbrev Int32 := BitVec 32

def byteValue (b : Byte) : Value := .int b.toNat

def intValue (v : Int32) : Value := .int v.toInt

def boolValue (b : Bool) : Value := .int (if b then 1 else 0)

def isExisting (s : Store) (path : String) : Bool := (lookup s path).isSome

def readLongLong (s : Store) (path : String) : Option ℤ :=
  match lookup s path with
  | some (.int v) => some v
  | _ => none

def readText (s : Store) (path : String) : Option String :=
  match lookup s path with
  | some (.text t) => some t
  | _ => none

/-- A number is cast to the type of the variable it is read into. -/
def readByte (s : Store) (path : String) : Option Byte := (readLongLong s path).map (BitVec.ofInt 8)

def readInt (s : Store) (path : String) : Option Int32 :=
  (readLongLong s path).map (BitVec.ofInt 32)

def readBool (s : Store) (path : String) : Option Bool := (readLongLong s path).map (· != 0)

inductive SubunitType
  | monitor
  | audio
  | printer
  | disc
  | vcr
  | tuner
  | ca
  | camera
  | panel
  | bulletinBoard
  | cameraStorage
  | music
  | vendorUnique
  | reserved
  | extended
  | unit
  deriving DecidableEq

def SubunitType.code : SubunitType → ℤ
  | monitor => 0x00
  | audio => 0x01
  | printer => 0x02
  | disc => 0x03
  | vcr => 0x04
  | tuner => 0x05
  | ca => 0x06
  | camera => 0x07
  | panel => 0x09
  | bulletinBoard => 0x0a
  | cameraStorage => 0x0b
  | music => 0x0c
  | vendorUnique => 0x1c
  | reserved => 0x1d
  | extended => 0x1e
  | unit => 0x1f

def SubunitType.all : List SubunitType :=
  [monitor, audio, printer, disc, vcr, tuner, ca, camera, panel, bulletinBoard,
    cameraStorage, music, vendorUnique, reserved, extended, unit]

inductive PlugAddressType
  | pcr
  | externalPlug
  | asynchronousPlug
  | subunitPlug
  | functionBlockPlug
  | undefined
  deriving DecidableEq

def PlugAddressType.all : List PlugAddressType :=
  [pcr, externalPlug, asynchronousPlug, subunitPlug, functionBlockPlug, undefined]

def PlugAddressType.code (t : PlugAddressType) : ℤ := PlugAddressType.all.idxOf t

inductive PlugDirection
  | input
  | output
  | unknown
  deriving DecidableEq

def PlugDirection.all : List PlugDirection := [input, output, unknown]

def PlugDirection.code (d : PlugDirection) : ℤ := PlugDirection.all.idxOf d

inductive PlugType
  | isoStream
  | asyncStream
  | midi
  | sync
  | analog
  | digital
  | unknown
  deriving DecidableEq

def PlugType.all : List PlugType := [isoStream, asyncStream, midi, sync, analog, digital, unknown]

def PlugType.code (t : PlugType) : ℤ := PlugType.all.idxOf t

/-- The member of an enumeration with a value; no other values are written. -/
def readEnum {ε : Type} (all : List ε) (code : ε → ℤ) (s : Store) (path : String) : Option ε :=
  (readLongLong s path).bind fun v => all.find? fun e => code e = v

theorem SubunitType.find?_code (t : SubunitType) :
    SubunitType.all.find? (fun t' => t'.code = t.code) = some t := by
  cases t <;> rfl

theorem PlugAddressType.find?_code (t : PlugAddressType) :
    PlugAddressType.all.find? (fun t' => t'.code = t.code) = some t := by
  cases t <;> rfl

theorem PlugDirection.find?_code (d : PlugDirection) :
    PlugDirection.all.find? (fun d' => d'.code = d.code) = some d := by
  cases d <;> rfl

theorem PlugType.find?_code (t : PlugType) :
    PlugType.all.find? (fun t' => t'.code = t.code) = some t := by
  cases t <;> rfl

structure ChannelInfo where
  streamPosition : Byte
  location : Byte
  name : String
  deriving DecidableEq

structure ClusterInfo where
  index : Int32
  portType : Byte
  name : String
  nrOfChannels : Byte
  channelInfos : List ChannelInfo
  streamFormat : Byte
  deriving DecidableEq

structure FormatInfo where
  samplingFrequency : Byte
  isSyncStream : Bool
  audioChannels : Byte
  midiChannels : Byte
  index : Byte
  deriving DecidableEq

/-- Global ids are counted from zero, in an `int`. -/
structure GlobalId where
  val : ℕ
  lt : val < 2 ^ 31
  deriving DecidableEq

/-- Plugs refer to each other by their global ids. -/
structure Plug where
  subunitType : SubunitType
  subunitId : Byte
  functionBlockType : Byte
  functionBlockId : Byte
  addressType : PlugAddressType
  direction : PlugDirection
  id : Byte
  infoPlugType : PlugType
  nrOfChannels : Byte
  name : String
  clusterInfos : List ClusterInfo
  samplingFrequency : Byte
  formatInfos : List FormatInfo
  inputConnections : List GlobalId
  outputConnections : List GlobalId
  globalId : GlobalId
  deriving DecidableEq

structure PlugManager where
  plugs : List Plug
  globalIdCounter : Int32

def ChannelInfo.entries (c : ChannelInfo) : List (Key × Value) :=
  [(.leaf "m_streamPosition", byteValue c.streamPosition),
    (.leaf "m_location", byteValue c.location), (.leaf "m_name", .text c.name)]

def ClusterInfo.entries (c : ClusterInfo) : List (Key × Value) :=
  [(.leaf "m_index", intValue c.index), (.leaf "m_portType", byteValue c.portType),
    (.leaf "m_name", .text c.name), (.leaf "m_nrOfChannels", byteValue c.nrOfChannels)] ++
  numbered "m_channelInfo" ChannelInfo.entries 0 c.channelInfos ++
  [(.leaf "m_streamFormat", byteValue c.streamFormat)]

def FormatInfo.entries (f : FormatInfo) : List (Key × Value) :=
  [(.leaf "m_samplingFrequency", byteValue f.samplingFrequency),
    (.leaf "m_isSyncStream", boolValue f.isSyncStream),
    (.leaf "m_audioChannels", byteValue f.audioChannels),
    (.leaf "m_midiChannels", byteValue f.midiChannels), (.leaf "m_index", byteValue f.index)]

def GlobalId.value (g : GlobalId) : Value := .int g.val

def GlobalId.entries (g : GlobalId) : List (Key × Value) := [(.leaf "global_id", g.value)]

def plugVectorEntries (name : String) (vec : List GlobalId) : List (Key × Value) :=
  numbered name GlobalId.entries 0 vec

def Plug.entries (p : Plug) : List (Key × Value) :=
  [(.leaf "m_subunitType", .int p.subunitType.code), (.leaf "m_subunitId", byteValue p.subunitId),
    (.leaf "m_functionBlockType", byteValue p.functionBlockType),
    (.leaf "m_functionBlockId", byteValue p.functionBlockId),
    (.leaf "m_addressType", .int p.addressType.code), (.leaf "m_direction", .int p.direction.code),
    (.leaf "m_id", byteValue p.id), (.leaf "m_infoPlugType", .int p.infoPlugType.code),
    (.leaf "m_nrOfChannels", byteValue p.nrOfChannels), (.leaf "m_name", .text p.name)] ++
  numbered "m_clusterInfos" ClusterInfo.entries 0 p.clusterInfos ++
  [(.leaf "m_samplingFrequency", byteValue p.samplingFrequency)] ++
  numbered "m_formatInfo" FormatInfo.entries 0 p.formatInfos ++
  plugVectorEntries "m_inputConnections" p.inputConnections ++
  plugVectorEntries "m_outputConnections" p.outputConnections ++
  [(.leaf "m_globalId", p.globalId.value)]

/-- What is written below the path of the unit, with the path `"Plug"` that the unit passes on. -/
def PlugManager.entries (m : PlugManager) : List (Key × Value) :=
  numbered "Plug" Plug.entries 0 m.plugs ++
  [(.leaf "Plugm_globalIdCounter", intValue m.globalIdCounter)]

def PlugManager.serialize (base : String) (m : PlugManager) : Store := write base m.entries

/-- An element of a list is read if one of its values exists. -/
def itemOf {α : Type} (existing : Bool) (value : Option α) : Item α :=
  if existing then
    match value with
    | some a => .found a
    | none => .failed
  else .absent

def readChannelInfo (s : Store) (path : String) : Option ChannelInfo := do
  let streamPosition ← readByte s (path ++ "m_streamPosition")
  let location ← readByte s (path ++ "m_location")
  let name ← readText s (path ++ "m_name")
  return ⟨streamPosition, location, name⟩

def deserializeChannelInfos (fuel : ℕ) (s : Store) (base : String) :
    Option (List ChannelInfo × Bool) :=
  collect (fun i =>
    let path := element base "m_channelInfo" i
    some (itemOf (isExisting s (path ++ "m_streamPosition")) (readChannelInfo s path))) fuel 0

def readClusterInfo (s : Store) (path : String) (channels : List ChannelInfo × Bool) :
    Option ClusterInfo := do
  let index ← readInt s (path ++ "m_index")
  let portType ← readByte s (path ++ "m_portType")
  let name ← readText s (path ++ "m_name")
  let nrOfChannels ← readByte s (path ++ "m_nrOfChannels")
  let channelInfos ← if channels.2 then some channels.1 else none
  let streamFormat ← readByte s (path ++ "m_streamFormat")
  return ⟨index, portType, name, nrOfChannels, channelInfos, streamFormat⟩

def deserializeClusterInfos (fuel : ℕ) (s : Store) (base : String) :
    Option (List ClusterInfo × Bool) :=
  collect (fun i =>
    let path := element base "m_clusterInfos" i
    if isExisting s (path ++ "m_index") then
      (deserializeChannelInfos fuel s path).map fun channels =>
        itemOf true (readClusterInfo s path channels)
    else some .absent) fuel 0

def readFormatInfo (s : Store) (path : String) : Option FormatInfo := do
  let samplingFrequency ← readByte s (path ++ "m_samplingFrequency")
  let isSyncStream ← readBool s (path ++ "m_isSyncStream")
  let audioChannels ← readByte s (path ++ "m_audioChannels")
  let midiChannels ← readByte s (path ++ "m_midiChannels")
  let index ← readByte s (path ++ "m_index")
  return ⟨samplingFrequency, isSyncStream, audioChannels, midiChannels, index⟩

def deserializeFormatInfos (fuel : ℕ) (s : Store) (base name : String) :
    Option (List FormatInfo × Bool) :=
  collect (fun i =>
    let path := element base name i
    some (itemOf (isExisting s (path ++ "m_samplingFrequency")) (readFormatInfo s path))) fuel 0

/-- The constructor keeps an id that is not negative. For others it would ask a plug manager that
the unit does not have yet; they are not written. -/
def globalIdOf (v : Int32) : Option GlobalId :=
  if h : v.toNat < 2 ^ 31 then some ⟨v.toNat, h⟩ else none

def readPlug (s : Store) (path : String) (clusters : List ClusterInfo × Bool)
    (formats : List FormatInfo × Bool) : Option Plug := do
  let subunitType ← readEnum SubunitType.all SubunitType.code s (path ++ "m_subunitType")
  let subunitId ← readByte s (path ++ "m_subunitId")
  let functionBlockType ← readByte s (path ++ "m_functionBlockType")
  let functionBlockId ← readByte s (path ++ "m_functionBlockId")
  let addressType ← readEnum PlugAddressType.all PlugAddressType.code s (path ++ "m_addressType")
  let direction ← readEnum PlugDirection.all PlugDirection.code s (path ++ "m_direction")
  let id ← readByte s (path ++ "m_id")
  let globalId ← (readInt s (path ++ "m_globalId")).bind globalIdOf
  let infoPlugType ← readEnum PlugType.all PlugType.code s (path ++ "m_infoPlugType")
  let nrOfChannels ← readByte s (path ++ "m_nrOfChannels")
  let name ← readText s (path ++ "m_name")
  let clusterInfos ← if clusters.2 then some clusters.1 else none
  let samplingFrequency ← readByte s (path ++ "m_samplingFrequency")
  let formatInfos ← if formats.2 then some formats.1 else none
  return ⟨subunitType, subunitId, functionBlockType, functionBlockId, addressType, direction, id,
    infoPlugType, nrOfChannels, name, clusterInfos, samplingFrequency, formatInfos,
    [], [], globalId⟩

/-- The connections are left for later. -/
def Plug.deserialize (fuel : ℕ) (s : Store) (path : String) : Option (Item Plug) :=
  if isExisting s (path ++ "m_subunitType") then
    match deserializeClusterInfos fuel s path,
      deserializeFormatInfos fuel s path "m_formatInfos" with
    | some clusters, some formats => some (itemOf true (readPlug s path clusters formats))
    | _, _ => none
  else some .absent

def PlugManager.deserialize (fuel : ℕ) (s : Store) (base : String) : Option PlugManager :=
  (collect (fun i => Plug.deserialize fuel s (element base "Plug" i)) fuel 0).map fun plugs =>
    ⟨plugs.1, (readInt s (base ++ "Plugm_globalIdCounter")).getD 0⟩

def getPlug (plugs : List Plug) (iGlobalId : Int32) : Option Plug :=
  plugs.find? fun p => (p.globalId.val : ℤ) = iGlobalId.toInt

def deserializePlugVector (fuel : ℕ) (s : Store) (base name : String) (plugs : List Plug) :
    Option (List GlobalId × Bool) :=
  collect (fun i =>
    let path := element base name i ++ "global_id"
    some (itemOf (isExisting s path)
      (((readInt s path).bind (getPlug plugs)).map Plug.globalId))) fuel 0

def Plug.deserializeConnections (fuel : ℕ) (s : Store) (base : String)
    (plugs : List Plug) (p : Plug) : Option Plug :=
  let path := element base "Plug" p.globalId.val
  match deserializePlugVector fuel s path "m_inputConnections" plugs,
    deserializePlugVector fuel s path "m_outputConnections" plugs with
  | some inputs, some outputs =>
    some
      { p with
        inputConnections := p.inputConnections ++ inputs.1
        outputConnections := p.outputConnections ++ outputs.1 }
  | _, _ => none

def PlugManager.deserializeUpdate (fuel : ℕ) (s : Store) (base : String) (m : PlugManager) :
    Option PlugManager :=
  (m.plugs.mapM (Plug.deserializeConnections fuel s base m.plugs)).map fun plugs =>
    { m with plugs := plugs }

end Ffado.Avc.Cache
