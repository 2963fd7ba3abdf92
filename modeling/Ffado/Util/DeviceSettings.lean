import Mathlib.Data.List.Basic

/-!
# Settings of a device in the configuration files

Every configuration file can have a list of device definitions. A setting is looked up in the first
definition with the ids of the device. A definition that lacks one of the ids is passed over, as is
a file without a list.
-/
namespace Ffado.Util

/-- What libconfig converts a stored value to. It throws if the type does not fit. -/
structure Conversions (Value Float : Type) where
  toUnsigned : Value → Option UInt32
  toInt : Value → Option Int32
  toLongLong : Value → Option Int64
  toFloat : Value → Option Float

/-- A group of settings. -/
structure DeviceDefinition (Value : Type) where
  lookup : String → Option Value

/-- A file without `device_definitions` throws when they are looked up. -/
structure ConfigFile (Value : Type) where
  deviceDefinitions : Option (List (DeviceDefinition Value))

namespace Configuration

variable {Value Float T : Type} (conv : Conversions Value Float) (vendorId modelId : UInt32)

def ids (s : DeviceDefinition Value) : Option (UInt32 × UInt32) := do
  let vendorid ← s.lookup "vendorid"
  let modelid ← s.lookup "modelid"
  let vid ← conv.toUnsigned vendorid
  let mid ← conv.toUnsigned modelid
  return (vid, mid)

def findDefinition : List (DeviceDefinition Value) → Option (DeviceDefinition Value)
  | [] => none
  | s :: list =>
    match ids conv s with
    | some (vid, mid) =>
      if vendorId = vid ∧ modelId = mid then some s else findDefinition list
    | none => findDefinition list

def getDeviceSetting : List (ConfigFile Value) → Option (DeviceDefinition Value)
  | [] => none
  | c :: files =>
    match c.deviceDefinitions with
    | none => getDeviceSetting files
    | some list =>
      match findDefinition conv vendorId modelId list with
      | some s => some s
      | none => getDeviceSetting files

def lookupValue (convert : Value → Option T) (s : DeviceDefinition Value)
    (setting : String) (ref : T) : Bool × T :=
  match (s.lookup setting).bind convert with
  | some value => (true, value)
  | none => (false, ref)

variable (files : List (ConfigFile Value)) (setting : String)

def getValueForDeviceSetting.int32 (ref : Int32) : Bool × Int32 :=
  match getDeviceSetting conv vendorId modelId files with
  | some s => lookupValue conv.toInt s setting ref
  | none => (false, ref)

/-- The value is looked up into a copy of the reference. -/
def getValueForDeviceSetting.int64 (ref : Int64) : Bool × Int64 :=
  match getDeviceSetting conv vendorId modelId files with
  | some s =>
    let refverylong := ref
    ((lookupValue conv.toLongLong s setting refverylong).1, ref)
  | none => (false, ref)

def getValueForDeviceSetting.float (ref : Float) : Bool × Float :=
  match getDeviceSetting conv vendorId modelId files with
  | some s => lookupValue conv.toFloat s setting ref
  | none => (false, ref)

def storedValue (convert : Value → Option T) : Option T := do
  let s ← (files.flatMap fun c => c.deviceDefinitions.getD []).find?
    fun s => ids conv s = some (vendorId, modelId)
  (s.lookup setting).bind convert

/-- The result tells whether there is a value, and then the reference has it. -/
def Gives (value : Option T) (ref : T) (r : Bool × T) : Prop := r = (value.isSome, value.getD ref)

variable {conv vendorId modelId} in
theorem findDefinition_eq (list : List (DeviceDefinition Value)) :
    findDefinition conv vendorId modelId list =
      list.find? fun s => ids conv s = some (vendorId, modelId) := by
  induction list with
  | nil => rfl
  | cons s list ih =>
    unfold findDefinition
    cases hids : ids conv s with
    | none => simp [hids, ih]
    | some p =>
      by_cases hp : vendorId = p.1 ∧ modelId = p.2
      · obtain ⟨rfl, rfl⟩ := hp
        simp [hids]
      · have hne : p ≠ (vendorId, modelId) := by
          rintro rfl
          exact hp ⟨rfl, rfl⟩
        simp [hids, hp, hne, ih]

theorem getDeviceSetting_eq :
    getDeviceSetting conv vendorId modelId files =
      (files.flatMap fun c => c.deviceDefinitions.getD []).find?
        fun s => ids conv s = some (vendorId, modelId) := by
  induction files with
  | nil => rfl
  | cons c files ih =>
    unfold getDeviceSetting
    rw [List.flatMap_cons, List.find?_append, ← ih]
    cases c.deviceDefinitions with
    | none => rfl
    | some list =>
      rw [Option.getD_some, ← findDefinition_eq]
      cases hfind : findDefinition conv vendorId modelId list <;> simp [hfind]

theorem lookup_gives (convert : Value → Option T) (ref : T) :
    Gives (storedValue conv vendorId modelId files setting convert) ref
      (match getDeviceSetting conv vendorId modelId files with
      | some s => lookupValue convert s setting ref
      | none => (false, ref)) := by
  rw [getDeviceSetting_eq, storedValue]
  cases (files.flatMap fun c => c.deviceDefinitions.getD []).find?
    fun s => ids conv s = some (vendorId, modelId) with
  | none => rfl
  | some s =>
    change lookupValue convert s setting ref =
      (((s.lookup setting).bind convert).isSome, ((s.lookup setting).bind convert).getD ref)
    rw [lookupValue]
    cases (s.lookup setting).bind convert <;> rfl

theorem getValueForDeviceSetting_int64 (ref : Int64) :
    getValueForDeviceSetting.int64 conv vendorId modelId files setting ref =
      ((storedValue conv vendorId modelId files setting conv.toLongLong).isSome, ref) := by
  have hlookup := congrArg Prod.fst (lookup_gives conv vendorId modelId files setting
    conv.toLongLong ref)
  rw [getValueForDeviceSetting.int64]
  cases hdef : getDeviceSetting conv vendorId modelId files with
  | _ =>
    rw [hdef] at hlookup
    exact Prod.ext hlookup rfl

/-- All variants give the stored value just if the reference of the 64-bit one has it already, or
there is none. -/
theorem getValueForDeviceSetting_iff (ref32 : Int32) (ref64 : Int64) (refFloat : Float) :
    (Gives (storedValue conv vendorId modelId files setting conv.toInt) ref32
        (getValueForDeviceSetting.int32 conv vendorId modelId files setting ref32) ∧
      Gives (storedValue conv vendorId modelId files setting conv.toLongLong) ref64
        (getValueForDeviceSetting.int64 conv vendorId modelId files setting ref64) ∧
      Gives (storedValue conv vendorId modelId files setting conv.toFloat) refFloat
        (getValueForDeviceSetting.float conv vendorId modelId files setting refFloat)) ↔
    ∀ value, storedValue conv vendorId modelId files setting conv.toLongLong = some value →
      value = ref64 := by
  rw [getValueForDeviceSetting_int64]
  constructor
  · rintro ⟨-, h64, -⟩ value hvalue
    rw [hvalue] at h64
    exact (Prod.mk.inj h64).2.symm
  · intro h
    refine ⟨lookup_gives .., ?_, lookup_gives ..⟩
    cases hvalue : storedValue conv vendorId modelId files setting conv.toLongLong with
    | none => rfl
    | some value => rw [h value hvalue, Gives, Option.getD_some]

/-- Every value is the number 7. -/
def seven : Conversions Unit Unit := ⟨fun _ => some 7, fun _ => some 7, fun _ => some 7,
    fun _ => some ()⟩

/-- The setting is there, but the reference keeps its value. -/
theorem getInt64_keeps_reference :
    getValueForDeviceSetting.int64 seven 7 7 [⟨some [⟨fun _ => some ()⟩]⟩] "xrun" 0 = (true, 0) ∧
      storedValue seven 7 7 [⟨some [⟨fun _ => some ()⟩]⟩] "xrun" seven.toLongLong = some 7 := by
  decide

end Configuration

end Ffado.Util
