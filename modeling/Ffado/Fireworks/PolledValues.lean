import Ffado.Util.CmdSerialize

/-!
# Polled values of a FireWorks device

A response has the numbers of the output and input meters and then the meters, for which there are
100 places. The numbers are added as unsigned and compared as a signed integer.
-/
namespace Ffado.Fireworks

open Cmd MachineInt

def polledMaxNbMeters : ℤ := 100

/-- What is left of a response, and the result of the reads so far. -/
structure EfcReader where
  de : BufferDeserialize
  result : Bool

structure EfcHeader where
  length : Quadlet
  version : Quadlet
  seqnum : Quadlet
  category : Quadlet
  command : Quadlet
  retval : Quadlet

structure EfcPolledValuesCmd where
  categoryId : Quadlet
  commandId : Quadlet
  header : EfcHeader
  status : Quadlet
  detectSpdif : Quadlet
  detectAdat : Quadlet
  reserved3 : Quadlet
  reserved4 : Quadlet
  nbOutputMeters : Quadlet
  nbInputMeters : Quadlet
  reserved5 : Quadlet
  reserved6 : Quadlet
  meters : List Quadlet

variable (order : ByteOrder)

def deserializeAndSwap (old : Quadlet) : StateM EfcReader Quadlet := fun s =>
  match s.de.readQuadlet order with
  | (de, some value) => (condSwapFromBus32 order value, ⟨de, s.result⟩)
  | (de, none) => (condSwapFromBus32 order old, ⟨de, false⟩)

def EfcHeader.deserialize (h : EfcHeader) : StateM EfcReader EfcHeader := do
  let length ← deserializeAndSwap order h.length
  let version ← deserializeAndSwap order h.version
  let seqnum ← deserializeAndSwap order h.seqnum
  let category ← deserializeAndSwap order h.category
  let command ← deserializeAndSwap order h.command
  let retval ← deserializeAndSwap order h.retval
  return ⟨length, version, seqnum, category, command, retval⟩

namespace EfcPolledValuesCmd

variable (x : EfcPolledValuesCmd)

def accepted (h : EfcHeader) (s : EfcReader) : Bool :=
  if h.version > 1 then false
  else if h.category ≠ x.categoryId then false
  else if h.command ≠ x.commandId then false
  else s.result

def deserializeFields (header : EfcHeader) : StateM EfcReader EfcPolledValuesCmd := do
  let status ← deserializeAndSwap order x.status
  let detectSpdif ← deserializeAndSwap order x.detectSpdif
  let detectAdat ← deserializeAndSwap order x.detectAdat
  let reserved3 ← deserializeAndSwap order x.reserved3
  let reserved4 ← deserializeAndSwap order x.reserved4
  let nbOutputMeters ← deserializeAndSwap order x.nbOutputMeters
  let nbInputMeters ← deserializeAndSwap order x.nbInputMeters
  let reserved5 ← deserializeAndSwap order x.reserved5
  let reserved6 ← deserializeAndSwap order x.reserved6
  return ⟨x.categoryId, x.commandId, header, status, detectSpdif, detectAdat, reserved3, reserved4,
    nbOutputMeters, nbInputMeters, reserved5, reserved6, []⟩

/-- The loop over the meters. A meter that cannot be read is not delivered. -/
def deserializeMeters : ℕ → EfcReader → List Quadlet × EfcReader
  | 0, s => ([], s)
  | n + 1, s =>
    match s.de.readQuadlet order with
    | (de, some value) =>
      let (meters, s) := deserializeMeters n ⟨de, s.result⟩
      (condSwapFromBus32 order value :: meters, s)
    | (de, none) => deserializeMeters n ⟨de, false⟩

def nbMeters : ℤ := i32 (x.nbOutputMeters + x.nbInputMeters).toNat

/-- Too large a number of meters is taken as none. -/
def limited : EfcPolledValuesCmd :=
  if x.nbMeters > polledMaxNbMeters then { x with nbOutputMeters := 0, nbInputMeters := 0 } else x

/-- The header and the fields of a response, unless one of them makes the command fail. -/
def received (de : BufferDeserialize) : Option (EfcPolledValuesCmd × EfcReader) :=
  let (header, s) := x.header.deserialize order ⟨de, true⟩
  if !x.accepted header s then none
  else
    let (y, s) := x.deserializeFields order header ⟨s.de, true⟩
    if !s.result then none else some (y, s)

/-- The members of the command after the loop over the meters, if the result is true. -/
def withMeters (n : ℕ) (s : EfcReader) : Option EfcPolledValuesCmd :=
  let (meters, s) := deserializeMeters order n s
  if s.result then some { x with meters := meters } else none

def deserialize (de : BufferDeserialize) : Option EfcPolledValuesCmd :=
  (x.received order de).bind fun r => r.1.limited.withMeters order r.1.limited.nbMeters.toNat r.2

variable {x order}

theorem deserializeMeters_result {n : ℕ} {s : EfcReader}
    (h : (deserializeMeters order n s).2.result = true) :
    s.result = true ∧ (deserializeMeters order n s).1.length = n := by
  induction n generalizing s with
  | zero => exact ⟨h, rfl⟩
  | succ n ih =>
    unfold deserializeMeters at h ⊢
    rcases hread : s.de.readQuadlet order with ⟨de, _ | value⟩
    · rw [hread] at h
      exact absurd (ih h).1 Bool.false_ne_true
    · rw [hread] at h
      obtain ⟨hresult, hlength⟩ := ih h
      exact ⟨hresult, congrArg (· + 1) hlength⟩

/-- The numbers of the meters that are kept. -/
theorem limited_counts (x : EfcPolledValuesCmd) :
    x.limited.nbOutputMeters.toNat + x.limited.nbInputMeters.toNat ≤ 100 ∧
        x.limited.nbMeters.toNat = x.limited.nbOutputMeters.toNat + x.limited.nbInputMeters.toNat ↔
      100 < x.nbMeters ∨ x.nbOutputMeters.toNat + x.nbInputMeters.toNat ≤ 100 := by
  have hmeters : x.nbMeters = i32 (x.nbOutputMeters + x.nbInputMeters).toNat := rfl
  have hle : x.nbOutputMeters.toNat + x.nbInputMeters.toNat ≤ 100 →
      x.nbMeters = (x.nbOutputMeters.toNat + x.nbInputMeters.toNat : ℕ) := by
    intro h
    rw [hmeters, BitVec.toNat_add, Nat.mod_eq_of_lt (by omega)]
    exact i32_of_range (by omega) (by omega)
  unfold limited
  split_ifs with hmax
  · exact iff_of_true ⟨by simp, by simp [nbMeters, i32]⟩ (.inl hmax)
  · constructor
    · intro h
      exact .inr h.1
    · rintro (h | h)
      · exact absurd h hmax
      · exact ⟨h, by rw [hle h]; rfl⟩

theorem counts_withMeters {n : ℕ} {s : EfcReader} {y : EfcPolledValuesCmd}
    (h : x.withMeters order n s = some y) : y.nbOutputMeters = x.nbOutputMeters ∧
      y.nbInputMeters = x.nbInputMeters ∧ y.meters.length = n := by
  unfold withMeters at h
  dsimp only at h
  split_ifs at h with hresult
  obtain rfl := Option.some.inj h
  exact ⟨rfl, rfl, (deserializeMeters_result hresult).2⟩

end EfcPolledValuesCmd

open EfcPolledValuesCmd

/-- The meters of a response that is accepted are bounded just if the sum of their numbers, as a
signed integer, is beyond the bound whenever the sum itself is. -/
theorem polledValues_bounded_iff (x : EfcPolledValuesCmd) (de : BufferDeserialize) :
    (∀ y, x.deserialize order de = some y →
      y.nbOutputMeters.toNat + y.nbInputMeters.toNat ≤ 100 ∧
        y.meters.length = y.nbOutputMeters.toNat + y.nbInputMeters.toNat) ↔
    ∀ y, x.deserialize order de = some y → ∀ z s, x.received order de = some (z, s) →
      100 < z.nbMeters ∨ z.nbOutputMeters.toNat + z.nbInputMeters.toNat ≤ 100 := by
  refine forall₂_congr fun y hy => ?_
  rw [deserialize] at hy
  obtain ⟨⟨z, s⟩, hreceived, hrest⟩ := Option.bind_eq_some_iff.mp hy
  obtain ⟨houtput, hinput, hmeters⟩ := counts_withMeters hrest
  rw [hreceived, houtput, hinput, hmeters, limited_counts]
  constructor
  · rintro h z' s' heq
    cases heq
    exact h
  · intro h
    exact h z s rfl

/-- A response with two numbers of 2³¹. -/
def halves (p : ℕ) : UInt8 :=
  if p = 19 then 1 else if p = 44 ∨ p = 48 then 0x80 else 0

/-- The command of category 0 and number 1, `EFC_CMD_HW_GET_POLLED`. -/
def polled : EfcPolledValuesCmd := ⟨0, 1, ⟨0, 0, 0, 0, 0, 0⟩, 0, 0, 0, 0, 0, 0, 0, 0, 0, []⟩

theorem halves_not_bounded :
    (polled.deserialize .bigEndian (.create halves 60)).map
      (fun y => (y.nbOutputMeters, y.nbInputMeters, y.meters)) =
        some (0x80000000, 0x80000000, []) := by
  decide +kernel

end Ffado.Fireworks
