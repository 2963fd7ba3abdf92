import Ffado.Avc.RepeatedParse

/-!
# The audio subunit identifier descriptor

Its parser clears every list before it fills it. The loop over the identifiers of a root object list
tests the counter of the loop around it, so that it is not entered or does not end.
-/
namespace Ffado.Avc

open Cmd Decoding Deserializer Lockstep

/-- The members have no value before they are read. -/
structure AudioClusterInformation where
  clusterInfoLength : UInt16
  numberOfChannels : UInt8
  chConfigType : UInt8
  predefinedChannelConfig : UInt16
  channelNameIds : List UInt16
  deriving DecidableEq

namespace AudioClusterInformation

def deserialize : Deserializer AudioClusterInformation := do
  let clusterInfoLength ← readLocal BufferDeserialize.readUInt16
  let numberOfChannels ← readLocal BufferDeserialize.readByte
  let chConfigType ← readLocal BufferDeserialize.readByte
  let predefinedChannelConfig ← readLocal BufferDeserialize.readUInt16
  -- only if there is still data in the cluster info
  if 4 < clusterInfoLength then
    let channelNameIds ← times numberOfChannels.toNat (readLocal BufferDeserialize.readUInt16)
    return ⟨clusterInfoLength, numberOfChannels, chConfigType, predefinedChannelConfig,
      channelNameIds⟩
  else
    return ⟨clusterInfoLength, numberOfChannels, chConfigType, predefinedChannelConfig, []⟩

theorem keeps_deserialize : Keeps Reader.Ok deserialize := by
  refine (keeps_readLocal _).bind fun _ => (keeps_readLocal _).bind fun _ => ?_
  refine (keeps_readLocal _).bind fun _ => (keeps_readLocal _).bind fun _ => ?_
  exact Keeps.ite (((keeps_readLocal _).times _).bind fun _ => keeps_pure _) (keeps_pure _)

end AudioClusterInformation

structure AudioConfigurationDependentInformation where
  configurationDependentInfoLength : UInt16
  configurationId : UInt16
  masterClusterInformation : AudioClusterInformation
  numberOfSubunitSourcePlugLinkInformation : UInt8
  subunitSourcePlugLinkInformations : List UInt16
  numberOfFunctionBlockDependentInformation : UInt8
  deriving DecidableEq

namespace AudioConfigurationDependentInformation

def deserialize : Deserializer AudioConfigurationDependentInformation := do
  let configurationDependentInfoLength ← readLocal BufferDeserialize.readUInt16
  let configurationId ← readLocal BufferDeserialize.readUInt16
  let masterClusterInformation ← AudioClusterInformation.deserialize
  let numberOfLinks ← readLocal BufferDeserialize.readByte
  let links ← times numberOfLinks.toNat (readLocal BufferDeserialize.readUInt16)
  let numberOfFunctionBlocks ← readLocal BufferDeserialize.readByte
  if numberOfFunctionBlocks ≠ 0 then refuse
  return ⟨configurationDependentInfoLength, configurationId, masterClusterInformation,
    numberOfLinks, links, numberOfFunctionBlocks⟩

theorem keeps_deserialize : Keeps Reader.Ok deserialize := by
  refine (keeps_readLocal _).bind fun _ => (keeps_readLocal _).bind fun _ => ?_
  refine AudioClusterInformation.keeps_deserialize.bind fun _ =>
    (keeps_readLocal _).bind fun _ => ?_
  refine ((keeps_readLocal _).times _).bind fun _ => (keeps_readLocal _).bind fun _ => ?_
  exact Keeps.ite (keeps_refuse.bind fun _ => keeps_pure _) (keeps_pure _)

end AudioConfigurationDependentInformation

structure AudioSubunitDependentInformation where
  audioSubunitDependentInfoFieldsLength : UInt16
  audioSubunitVersion : UInt8
  numberOfConfigurations : UInt8
  configurations : List AudioConfigurationDependentInformation
  deriving DecidableEq

namespace AudioSubunitDependentInformation

def deserialize (x : AudioSubunitDependentInformation) :
    Deserializer AudioSubunitDependentInformation := do
  let fieldsLength ← read BufferDeserialize.readUInt16 x.audioSubunitDependentInfoFieldsLength
  let version ← read BufferDeserialize.readByte x.audioSubunitVersion
  let numberOfConfigurations ← read BufferDeserialize.readByte x.numberOfConfigurations
  let configurations ←
    times numberOfConfigurations.toNat AudioConfigurationDependentInformation.deserialize
  return ⟨fieldsLength, version, numberOfConfigurations, configurations⟩

theorem locked_deserialize (x x' : AudioSubunitDependentInformation) :
    Locked Reader.Ok Eq x.deserialize x'.deserialize := by
  refine (locked_read _ _ _).bind fun _ => (locked_read _ _ _).bind fun _ => ?_
  refine (locked_read _ _ _).bind fun _ => ?_
  refine (AudioConfigurationDependentInformation.keeps_deserialize.times _).locked.bind fun _ => ?_
  exact .pure rfl

end AudioSubunitDependentInformation

structure AudioIdentifierDescriptor where
  generationId : UInt8
  sizeOfListId : UInt8
  sizeOfObjectId : UInt8
  sizeOfObjectPosition : UInt8
  numberOfRootObjectLists : UInt16
  rootObjectListIds : List UInt8
  audioSubunitDependentLength : UInt16
  audioSubunitDependentInfo : AudioSubunitDependentInformation
  deriving DecidableEq

namespace AudioIdentifierDescriptor

/-- The inner loop of root object list `i`, whose body does not change what it tests. -/
def readListId (sizeOfListId : UInt8) (i : ℕ) : Deserializer (List UInt8) :=
  if i < sizeOfListId.toNat then failure else pure []

def readListIds (sizeOfListId : UInt8) : ℕ → ℕ → Deserializer (List UInt8)
  | 0, _ => pure []
  | lists + 1, i => do
    let ids ← readListId sizeOfListId i
    let rest ← readListIds sizeOfListId lists (i + 1)
    return ids ++ rest

theorem keeps_readListIds (sizeOfListId : UInt8) (lists i : ℕ) :
    Keeps Reader.Ok (readListIds sizeOfListId lists i) := by
  induction lists generalizing i with
  | zero => exact keeps_pure []
  | succ lists ih =>
    have hlist : Keeps Reader.Ok (readListId sizeOfListId i) :=
      Keeps.ite keeps_failure (keeps_pure [])
    exact hlist.bind fun _ => (ih (i + 1)).bind fun _ => keeps_pure _

def deserialize (x : AudioIdentifierDescriptor) : Deserializer AudioIdentifierDescriptor := do
  let generationId ← read BufferDeserialize.readByte x.generationId
  let sizeOfListId ← read BufferDeserialize.readByte x.sizeOfListId
  let sizeOfObjectId ← read BufferDeserialize.readByte x.sizeOfObjectId
  let sizeOfObjectPosition ← read BufferDeserialize.readByte x.sizeOfObjectPosition
  let numberOfRootObjectLists ← read BufferDeserialize.readUInt16 x.numberOfRootObjectLists
  let rootObjectListIds ← readListIds sizeOfListId numberOfRootObjectLists.toNat 0
  let length ← read BufferDeserialize.readUInt16 x.audioSubunitDependentLength
  if length ≠ 0 then
    let info ← x.audioSubunitDependentInfo.deserialize
    return ⟨generationId, sizeOfListId, sizeOfObjectId, sizeOfObjectPosition,
      numberOfRootObjectLists, rootObjectListIds, length, info⟩
  else
    return ⟨generationId, sizeOfListId, sizeOfObjectId, sizeOfObjectPosition,
      numberOfRootObjectLists, rootObjectListIds, length, x.audioSubunitDependentInfo⟩

/-- The dependent information is kept if there is none in the descriptor. -/
def Alike (x x' a a' : AudioIdentifierDescriptor) : Prop :=
  a' = { a with audioSubunitDependentInfo := a'.audioSubunitDependentInfo } ∧
    Overwritten x.audioSubunitDependentInfo x'.audioSubunitDependentInfo
      a.audioSubunitDependentInfo a'.audioSubunitDependentInfo

theorem locked_deserialize (x x' : AudioIdentifierDescriptor) :
    Locked Reader.Ok (Alike x x') x.deserialize x'.deserialize := by
  refine (locked_read _ _ _).bind fun _ => (locked_read _ _ _).bind fun _ => ?_
  refine (locked_read _ _ _).bind fun _ => (locked_read _ _ _).bind fun _ => ?_
  refine (locked_read _ _ _).bind fun _ => (keeps_readListIds _ _ _).locked.bind fun _ => ?_
  refine (locked_read _ _ _).bind fun _ => Locked.ite ?_ (.pure ⟨rfl, Or.inr ⟨rfl, rfl⟩⟩)
  exact (x.audioSubunitDependentInfo.locked_deserialize _).bind fun _ => .pure ⟨rfl, Or.inl rfl⟩

/-- Parsed into the object that it gave, a descriptor changes nothing. -/
theorem reparsed_eq {x a a' : AudioIdentifierDescriptor} {s t u : Reader}
    (ha : x.deserialize s = some (a, t)) (ht : t.result = true)
    (ha' : a.deserialize s = some (a', u)) (hu : u.result = true) : a' = a := by
  obtain ⟨-, hsame, hinfo⟩ := (x.locked_deserialize a).agree s a t a' u ha ha' ht hu
  rw [hsame, hinfo.eq]

end AudioIdentifierDescriptor

end Ffado.Avc
