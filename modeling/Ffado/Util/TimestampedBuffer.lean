import Ffado.Lib.MachineInt
import Ffado.Util.Ringbuffer
import Mathlib.Data.Rat.Defs
import Mathlib.Algebra.Order.Ring.Rat

/-!
# The time-aware frame buffer

`TimestampedBuffer` owns the event ring, the frame counter and the delay-locked loop
that turns timestamps into a rate. The floating point values of the source are exact
rationals here. Unsigned products are reduced modulo `2 ^ 32` where the source forms
them, and the signed frame counter wraps as an `int` does.

An operation is `none` when the process stops in it: a failed `assert`, a null event
buffer, or a ring size that the shift in `create` cannot represent. Memory that the
allocator hands out is an argument.
-/
namespace Ffado

open CircularMemory MachineInt

def timestampMax : ℚ := 3145728000
def framesPerProcessBlock : ℕ := 8

def dllPi : ℚ := 3.141592653589793238
def dllSqrt2 : ℚ := 1.414213562373095049
def dll2Pi : ℚ := 2 * dllPi
def dllOmega : ℚ := dll2Pi * 0.01

structure TimestampedBuffer where
  eventBuffer : Option Ringbuffer
  processBuffer : ℕ → UInt8
  clusterSize : ℕ
  processBlockSize : ℕ
  eventSize : ℕ
  eventsPerFrame : ℕ
  bufferSize : ℕ
  bytesPerFrame : ℕ
  bytesPerBuffer : ℕ
  transparent : Bool
  wrapAt : ℚ
  framecounter : ℤ
  bufferTailTimestamp : ℚ
  bufferNextTailTimestamp : ℚ
  dllE2 : ℚ
  dllB : ℚ
  dllC : ℚ
  nominalRate : ℚ
  currentRate : ℚ
  updatePeriod : ℕ

namespace TimestampedBuffer

variable {tb' : TimestampedBuffer}

/-- The constructor. -/
def new : TimestampedBuffer where
  eventBuffer := none
  processBuffer := fun _ => 0
  clusterSize := 0
  processBlockSize := 0
  eventSize := 0
  eventsPerFrame := 0
  bufferSize := 0
  bytesPerFrame := 0
  bytesPerBuffer := 0
  transparent := true
  wrapAt := 0xFFFFFFFFFFFFFFFF
  framecounter := 0
  bufferTailTimestamp := timestampMax + 1
  bufferNextTailTimestamp := timestampMax + 1
  dllE2 := 0
  dllB := dllSqrt2 * dllOmega
  dllC := dllOmega * dllOmega
  nominalRate := 0
  currentRate := 0
  updatePeriod := 0

variable (tb : TimestampedBuffer)

/-- The real size of a frame. The source's product wraps at `2 ^ 32`; the two agree
whenever a frame fits an `unsigned int`. -/
def frameBytes : ℕ := tb.eventSize * tb.eventsPerFrame

def setBandwidth (bw : ℚ) : TimestampedBuffer × Bool :=
  let bwRel := bw * (tb.nominalRate * tb.updatePeriod)
  if bwRel ≥ 1 / 2 then (tb, false)
  else
    ({ tb with
      dllB := bwRel * (dllSqrt2 * dll2Pi)
      dllC := bwRel * bwRel * dll2Pi * dll2Pi }, true)

def setNominalRate (r : ℚ) : TimestampedBuffer := { tb with nominalRate := r }
def setUpdatePeriod (n : ℕ) : TimestampedBuffer := { tb with updatePeriod := n }
def setWrapValue (w : ℚ) : TimestampedBuffer := { tb with wrapAt := w }
def setTransparent (v : Bool) : TimestampedBuffer := { tb with transparent := v }

def setRate (rate : ℚ) : TimestampedBuffer :=
  { tb with
    currentRate := rate
    dllE2 := tb.updatePeriod * rate
    bufferNextTailTimestamp := tb.bufferTailTimestamp + tb.updatePeriod * rate }

/-- The derived sizes are recomputed by each of the three setters. -/
def withSizes (eventSize eventsPerFrame bufferSize : ℕ) : TimestampedBuffer :=
  { tb with
    eventSize := eventSize
    eventsPerFrame := eventsPerFrame
    bufferSize := bufferSize
    bytesPerFrame := u32 (eventSize * eventsPerFrame)
    bytesPerBuffer := u32 (u32 (eventSize * eventsPerFrame) * bufferSize) }

def setEventSize (s : ℕ) : TimestampedBuffer := tb.withSizes s tb.eventsPerFrame tb.bufferSize
def setEventsPerFrame (n : ℕ) : TimestampedBuffer := tb.withSizes tb.eventSize n tb.bufferSize
def setBufferSize (n : ℕ) : TimestampedBuffer := tb.withSizes tb.eventSize tb.eventsPerFrame n

def getBufferFill : ℕ := (tb.framecounter % 2 ^ 32).toNat

/-- One correction by the wrap value, in either direction. -/
def wrapTimestamp (ts : ℚ) : ℚ :=
  if ts ≥ tb.wrapAt then ts - tb.wrapAt
  else if ts < 0 then ts + tb.wrapAt
  else ts

def restartAt (tail : ℚ) : TimestampedBuffer :=
  { tb with
    bufferTailTimestamp := tail
    dllE2 := tb.updatePeriod * tb.currentRate
    bufferNextTailTimestamp := tail + tb.updatePeriod * tb.currentRate }

def setBufferTailTimestamp (newTimestamp : ℚ) : TimestampedBuffer :=
  tb.restartAt (tb.wrapTimestamp newTimestamp)

def setBufferHeadTimestamp (newTimestamp : ℚ) : TimestampedBuffer :=
  tb.restartAt (tb.wrapTimestamp (newTimestamp + tb.currentRate * tb.framecounter))

def getTimestampFromTail (nframes : ℤ) : ℚ :=
  tb.wrapTimestamp (tb.bufferTailTimestamp - nframes * tb.currentRate)

def getBufferHeadTimestamp : ℚ × ℤ := (tb.getTimestampFromTail tb.framecounter, tb.framecounter)
def getBufferTailTimestamp : ℚ × ℤ := (tb.getTimestampFromTail 0, tb.framecounter)

def calculateRate : ℚ :=
  let diff := tb.bufferNextTailTimestamp - tb.bufferTailTimestamp
  let max := tb.wrapAt / 2
  let diff :=
    if diff > max then diff - tb.wrapAt
    else if diff < -max then diff + tb.wrapAt
    else diff
  let rate := diff / tb.updatePeriod
  if |tb.nominalRate - rate| > tb.nominalRate * (1 / 10) then tb.nominalRate else rate

def resetFrameCounter : TimestampedBuffer := { tb with framecounter := 0 }

def decrementFrameCounter (nbframes : ℕ) : TimestampedBuffer :=
  { tb with framecounter := i32 (tb.framecounter - nbframes) }

/-- The error handed to the loop by `incrementFrameCounter`. -/
def dllError (newTimestamp : ℚ) : ℚ :=
  let diff := newTimestamp - tb.bufferNextTailTimestamp
  if diff > tb.wrapAt / 2 then tb.wrapAt - diff
  else if diff < -tb.wrapAt / 2 then tb.wrapAt + diff
  else diff

def incrementFrameCounter (nbframes : ℕ) (newTimestamp : ℚ) : Option TimestampedBuffer :=
  if newTimestamp < tb.wrapAt ∧ newTimestamp ≥ 0 ∧ nbframes = tb.updatePeriod then
    let err := tb.dllError newTimestamp
    let next := tb.bufferNextTailTimestamp + (tb.dllB * err + tb.dllE2)
    let moved : TimestampedBuffer :=
      { tb with
        framecounter := i32 (tb.framecounter + nbframes)
        bufferTailTimestamp := tb.bufferNextTailTimestamp
        bufferNextTailTimestamp := if next ≥ tb.wrapAt then next - tb.wrapAt else next
        dllE2 := tb.dllE2 + tb.dllC * err }
    some { moved with currentRate := moved.calculateRate }
  else none

variable {tb} in
/-- Beside the counter only the loop's values change. -/
theorem incrementFrameCounter_spec {nbframes : ℕ} {ts : ℚ}
    (h : tb.incrementFrameCounter nbframes ts = some tb') :
    (ts < tb.wrapAt ∧ ts ≥ 0 ∧ nbframes = tb.updatePeriod) ∧
      ∃ tail next e2 rate, tb' = { tb with
        framecounter := i32 (tb.framecounter + nbframes)
        bufferTailTimestamp := tail
        bufferNextTailTimestamp := next
        dllE2 := e2
        currentRate := rate } := by
  simp only [incrementFrameCounter] at h
  split_ifs at h with hassert hwrap <;> cases h <;> exact ⟨hassert, _, _, _, _, rfl⟩

theorem incrementFrameCounter_isSome_iff (nbframes : ℕ) (ts : ℚ) :
    (tb.incrementFrameCounter nbframes ts).isSome ↔
      ts < tb.wrapAt ∧ ts ≥ 0 ∧ nbframes = tb.updatePeriod := by
  simp only [incrementFrameCounter]
  split_ifs with h <;> simp [h]

def clearBuffer : Option (TimestampedBuffer × Bool) := do
  let rb ← tb.eventBuffer
  some ({ tb.resetFrameCounter with
    eventBuffer := some rb.reset
    currentRate := tb.nominalRate
    dllE2 := tb.nominalRate * tb.updatePeriod }, true)

def resizeBuffer (newSize : ℕ) (memory : ℕ → UInt8) : Option (TimestampedBuffer × Bool) :=
  if newSize ≠ 0 ∧ tb.eventsPerFrame ≠ 0 ∧ tb.eventSize ≠ 0 then do
    let rb ← Ringbuffer.create (u32 (u32 (tb.eventsPerFrame * newSize) * tb.eventSize)) memory
    some ({ tb.resetFrameCounter with
      eventBuffer := some rb
      currentRate := tb.nominalRate
      dllE2 := tb.nominalRate * tb.updatePeriod
      bufferSize := newSize }, true)
  else none

def prepare (memory : ℕ → UInt8) : Option (TimestampedBuffer × Bool) :=
  if tb.bufferSize ≠ 0 ∧ tb.eventsPerFrame ≠ 0 ∧ tb.eventSize ≠ 0 ∧ tb.nominalRate ≠ 0 ∧
      tb.updatePeriod ≠ 0 then do
    let (resized, _) ← { tb with currentRate := tb.nominalRate }.resizeBuffer tb.bufferSize memory
    some ({ resized with
      clusterSize := u32 (tb.eventsPerFrame * tb.eventSize)
      processBlockSize := u32 (u32 (tb.eventsPerFrame * tb.eventSize) * framesPerProcessBlock)
      processBuffer := fun _ => 0
      dllE2 := tb.nominalRate * tb.updatePeriod
      bufferTailTimestamp := timestampMax + 1
      bufferNextTailTimestamp := timestampMax + 1 }, true)
  else none

/-- The size in bytes of `nframes` frames, as an `unsigned int`. -/
def transferSize (nframes : ℕ) : ℕ := u32 (u32 (nframes * tb.eventSize) * tb.eventsPerFrame)

def writeDummyFrame : Option (TimestampedBuffer × Bool) := do
  let rb ← tb.eventBuffer
  let writeSize := u32 (tb.eventSize * tb.eventsPerFrame)
  let (rb, written) := rb.write (fun _ => 0) writeSize
  if written < writeSize then some ({ tb with eventBuffer := some rb }, false)
  else
    some ({ tb with eventBuffer := some rb, framecounter := i32 (tb.framecounter + 1) }, true)

def writeFrames (nframes : ℕ) (data : ℕ → UInt8) (ts : ℚ) :
    Option (TimestampedBuffer × Bool) := do
  let writeSize := tb.transferSize nframes
  if tb.transparent then
    if tb.bufferTailTimestamp < timestampMax ∧ tb.bufferNextTailTimestamp < timestampMax then
      let counted ← tb.incrementFrameCounter nframes ts
      some ((counted.decrementFrameCounter nframes).setBufferTailTimestamp ts, true)
    else some (tb.setBufferTailTimestamp ts, true)
  else
    let rb ← tb.eventBuffer
    let (rb, written) := rb.write data writeSize
    if written < writeSize then some ({ tb with eventBuffer := some rb }, false)
    else
      let counted ← { tb with eventBuffer := some rb }.incrementFrameCounter nframes ts
      some (counted, true)

def preloadFrames (nframes : ℕ) (data : ℕ → UInt8) (keepHeadTs : Bool) :
    Option (TimestampedBuffer × Bool) := do
  let writeSize := tb.transferSize nframes
  let rb ← tb.eventBuffer
  let (rb, written) := rb.write data writeSize
  if written < writeSize then some ({ tb with eventBuffer := some rb }, false)
  else
    let ts := if keepHeadTs then tb.getBufferHeadTimestamp.1 else tb.getBufferTailTimestamp.1
    let counted :=
      { tb with eventBuffer := some rb, framecounter := i32 (tb.framecounter + nframes) }
    some (if keepHeadTs then counted.setBufferHeadTimestamp ts
      else counted.setBufferTailTimestamp ts, true)

/-- The fill is not looked at. -/
def dropFrames (nframes : ℕ) : Option (TimestampedBuffer × Bool) := do
  let rb ← tb.eventBuffer
  let moved := { tb with eventBuffer := some (rb.readAdvance (tb.transferSize nframes)) }
  some (moved.decrementFrameCounter nframes, true)

/-- The memory at `data` is returned as well. A transparent buffer leaves it alone. -/
def readFrames (nframes : ℕ) (data : ℕ → UInt8) :
    Option (TimestampedBuffer × Bool × (ℕ → UInt8)) := do
  let readSize := tb.transferSize nframes
  if tb.transparent then some (tb, true, data)
  else
    let rb ← tb.eventBuffer
    let (data, rb, count) := rb.read data readSize
    let moved := { tb with eventBuffer := some rb }
    if count < readSize then some (moved, false, data)
    else some (moved.decrementFrameCounter nframes, true, data)

/-- What `prepare` sets up and no transfer changes: the ring, and the sizes that the block
operations work with. -/
structure Prepared (rb : Ringbuffer) : Prop where
  eventBuffer_eq : tb.eventBuffer = some rb
  eventSize_pos : 0 < tb.eventSize
  eventsPerFrame_pos : 0 < tb.eventsPerFrame
  clusterSize_eq : tb.clusterSize = u32 tb.frameBytes
  processBlockSize_eq : tb.processBlockSize = u32 (tb.clusterSize * framesPerProcessBlock)

theorem transferSize_eq (nframes : ℕ) : tb.transferSize nframes =
    u32 (nframes * tb.frameBytes) := by
  rw [transferSize, u32_u32_mul, frameBytes, Nat.mul_assoc]

variable {tb}

theorem Prepared.frameBytes_pos {rb : Ringbuffer} (h : tb.Prepared rb) : 0 < tb.frameBytes :=
  Nat.mul_pos h.eventSize_pos h.eventsPerFrame_pos

theorem Prepared.processBlockSize_exact {rb : Ringbuffer} (h : tb.Prepared rb)
    (hblock : framesPerProcessBlock * tb.frameBytes < 2 ^ 32) :
    tb.clusterSize = tb.frameBytes ∧
      tb.processBlockSize = framesPerProcessBlock * tb.frameBytes := by
  have hcs : tb.clusterSize = tb.frameBytes := by
    rw [h.clusterSize_eq, u32_of_lt]
    rw [framesPerProcessBlock] at hblock
    omega
  refine ⟨hcs, ?_⟩
  rw [h.processBlockSize_eq, hcs, Nat.mul_comm, u32_of_lt hblock]

/-- A new ring is empty, and holds the buffer in the arithmetic of `create`. -/
theorem resizeBuffer_spec {newSize : ℕ} {memory : ℕ → UInt8} {result : Bool}
    (h : tb.resizeBuffer newSize memory = some (tb', result)) :
    result = true ∧ newSize ≠ 0 ∧ 0 < tb.eventSize ∧ 0 < tb.eventsPerFrame ∧
      ∃ rb, Ringbuffer.create (u32 (newSize * tb.frameBytes)) memory = some rb ∧
        tb' = { tb with
          eventBuffer := some rb
          framecounter := 0
          currentRate := tb.nominalRate
          dllE2 := tb.nominalRate * tb.updatePeriod
          bufferSize := newSize } := by
  have hsz : u32 (u32 (tb.eventsPerFrame * newSize) * tb.eventSize) =
      u32 (newSize * tb.frameBytes) := by
    rw [u32_u32_mul, frameBytes]
    congr 1
    ring
  simp only [resizeBuffer, hsz] at h
  split_ifs at h with hpos
  rw [Option.bind_eq_bind, Option.bind_eq_some_iff] at h
  obtain ⟨rb, hrb, heq⟩ := h
  simp only [Option.some.injEq, Prod.mk.injEq] at heq
  exact ⟨heq.2.symm, hpos.1, Nat.pos_of_ne_zero hpos.2.2, Nat.pos_of_ne_zero hpos.2.1, rb, hrb,
    heq.1.symm⟩

theorem prepare_spec {memory : ℕ → UInt8} {result : Bool}
    (h : tb.prepare memory = some (tb', result)) : ∃ rb, tb'.Prepared rb ∧ tb'.framecounter = 0 ∧
      tb'.bufferSize = tb.bufferSize ∧ Ringbuffer.create (u32 (tb.bufferSize * tb.frameBytes))
        memory = some rb ∧
      tb'.frameBytes = tb.frameBytes ∧ tb'.updatePeriod = tb.updatePeriod ∧
      tb'.transparent = tb.transparent ∧ tb'.wrapAt = tb.wrapAt := by
  unfold prepare at h
  split_ifs at h with hpos
  rw [Option.bind_eq_bind, Option.bind_eq_some_iff] at h
  obtain ⟨⟨resized, _⟩, hres, heq⟩ := h
  obtain ⟨-, -, hes, hepf, rb, hrb, rfl⟩ := resizeBuffer_spec hres
  simp only [Option.some.injEq, Prod.mk.injEq] at heq
  obtain ⟨rfl, -⟩ := heq
  exact ⟨rb, ⟨rfl, hes, hepf, by rw [frameBytes, Nat.mul_comm], rfl⟩, rfl, rfl, hrb, rfl, rfl, rfl,
    rfl⟩

end TimestampedBuffer
end Ffado
