import Ffado.Lib.LabelledRun
import Ffado.Lib.TransferPlan
import Ffado.Util.TimestampedBuffer

/-!
# Zero-copy block processing

`blockProcessWriteFrames` and `blockProcessReadFrames` let the client work in the ring's
own memory. Where the end of the ring leaves less than eight frames of straight memory,
eight frames are bounced through the process buffer. The two loops differ only in the
direction of the transfer, so the loop is written once over a `Direction`.

The result of a transfer lists the client calls it made, in order: the frame count and the
offset that the client saw, the bytes that it consumed or produced, and its answer.
-/
namespace Ffado

open CircularMemory TransferPlan LabelledRun MachineInt

/-- `TimestampedBufferClient`. The area is what the client finds behind its `data`
pointer. For a write it answers with the area as it leaves it. -/
structure Client where
  processReadBlock : (ℕ → UInt8) → ℕ → ℕ → Bool
  processWriteBlock : (ℕ → UInt8) → ℕ → ℕ → (ℕ → UInt8) × Bool

structure BlockCall where
  nframes : ℕ
  offset : ℕ
  data : List UInt8
  ok : Bool
  deriving DecidableEq, Repr

/-- How a block operation ends. `aborted` covers a failed assertion and a trapped division;
`unfinished` is a loop of the model that has run out of fuel. -/
inductive Exit
  | returned (result : Bool)
  | aborted
  | unfinished
  deriving DecidableEq, Repr

/-- The client's `bool`, stored in the `int` that is then compared with zero. -/
def xrunOf (ok : Bool) : ℤ := if ok then 1 else 0

/-- One client call of a transfer. `failed` is the ring if the transfer ends with an xrun
right after the call, `done` the ring if it goes on. -/
structure Handover where
  call : BlockCall
  processBuffer : ℕ → UInt8
  failed : Ringbuffer
  done : Ringbuffer

/-- What depends on the direction: the vector that is asked for, a call through the process
buffer, and a call on the ring's memory from `start` on. -/
structure Direction where
  vector : Ringbuffer → Ringbuffer.Data × Ringbuffer.Data
  bounce : (rb : Ringbuffer) → (processBuffer : ℕ → UInt8) → (offset : ℕ) → Handover
  direct : (rb : Ringbuffer) → (processBuffer : ℕ → UInt8) → (start bytes offset : ℕ) → Handover

/-- The client fills the area, then the ring takes it over. -/
def writing (c : Client) (clusterSize processBlockSize : ℕ) : Direction where
  vector := Ringbuffer.getWriteVector
  bounce rb processBuffer offset :=
    let answer := c.processWriteBlock processBuffer framesPerProcessBlock offset
    let filled := memcpy processBuffer 0 answer.1 processBlockSize
    { call := ⟨framesPerProcessBlock, offset, slice answer.1 0 processBlockSize, answer.2⟩
      processBuffer := filled
      failed := rb
      done := (rb.write filled processBlockSize).1 }
  direct rb processBuffer start bytes offset :=
    let answer := c.processWriteBlock (pointer rb.buf start) (bytes / clusterSize) offset
    let filled := rb.poke start answer.1 bytes
    { call := ⟨bytes / clusterSize, offset, slice answer.1 0 bytes, answer.2⟩
      processBuffer := processBuffer
      failed := filled
      done := filled.writeAdvance bytes }

def reading (c : Client) (clusterSize processBlockSize : ℕ) : Direction where
  vector := Ringbuffer.getReadVector
  bounce rb processBuffer offset :=
    let copy := rb.read processBuffer processBlockSize
    { call := ⟨framesPerProcessBlock, offset, slice copy.1 0 processBlockSize,
        c.processReadBlock copy.1 framesPerProcessBlock offset⟩
      processBuffer := copy.1
      failed := copy.2.1
      done := copy.2.1 }
  direct rb processBuffer start bytes offset :=
    { call := ⟨bytes / clusterSize, offset, slice rb.buf start bytes,
        c.processReadBlock (pointer rb.buf start) (bytes / clusterSize) offset⟩
      processBuffer := processBuffer
      failed := rb
      done := rb.readAdvance bytes }

/-- The call of one iteration and the number of bytes that it moves. -/
def Direction.handover (dir : Direction) (processBlockSize : ℕ) (rb : Ringbuffer)
    (processBuffer : ℕ → UInt8) (bytesLeft offset : ℕ) : Handover × ℕ :=
  let first := (dir.vector rb).1
  if first.len < processBlockSize then
    (dir.bounce rb processBuffer offset, processBlockSize)
  else
    let bytes :=
      if bytesLeft > first.len then first.len - first.len % processBlockSize else bytesLeft
    (dir.direct rb processBuffer first.buf bytes offset, bytes)

structure LoopResult where
  ring : Ringbuffer
  processBuffer : ℕ → UInt8
  calls : List BlockCall
  exit : Exit

/-- The offset in frames, in the unsigned arithmetic of the source. -/
def frameOffset (clusterSize nbframes bytesLeft : ℕ) : ℕ :=
  u32 (u32 (nbframes * clusterSize) + 2 ^ 32 - bytesLeft) / clusterSize

/-- The `while` loop of both operations. -/
def transferLoop (dir : Direction) (clusterSize processBlockSize nbframes : ℕ) :
    ℕ → Ringbuffer → (ℕ → UInt8) → ℕ → LoopResult
  | 0, rb, processBuffer, _ => ⟨rb, processBuffer, [], .unfinished⟩
  | fuel + 1, rb, processBuffer, bytesLeft =>
    if bytesLeft = 0 then ⟨rb, processBuffer, [], .returned true⟩
    else if clusterSize = 0 then ⟨rb, processBuffer, [], .aborted⟩
    else
      let vec := dir.vector rb
      if vec.1.len + vec.2.len < processBlockSize then ⟨rb, processBuffer, [], .returned false⟩
      else if processBlockSize = 0 ∧ bytesLeft > vec.1.len then ⟨rb, processBuffer, [], .aborted⟩
      else
        let offset := frameOffset clusterSize nbframes bytesLeft
        let (h, moved) := dir.handover processBlockSize rb processBuffer bytesLeft offset
        if xrunOf h.call.ok < 0 then ⟨h.failed, h.processBuffer, [h.call], .returned false⟩
        else
          let bytesLeft := u32 (bytesLeft + 2 ^ 32 - moved)
          if processBlockSize = 0 ∨ bytesLeft % processBlockSize ≠ 0 then
            ⟨h.done, h.processBuffer, [h.call], .aborted⟩
          else
            let rest := transferLoop dir clusterSize processBlockSize nbframes fuel h.done
              h.processBuffer bytesLeft
            { rest with calls := h.call :: rest.calls }

structure BlockResult where
  buffer : TimestampedBuffer
  calls : List BlockCall
  exit : Exit

namespace TimestampedBuffer

variable (tb : TimestampedBuffer)

/-- `bytes2write` and `bytes2read`. -/
def blockSize (nbframes : ℕ) : ℕ := u32 (u32 (nbframes * tb.eventsPerFrame) * tb.eventSize)

/-- The loop on the buffer's own ring. An iteration uses up space of the ring, so that
the ring's size is enough fuel. -/
def blockTransfer (dir : Direction) (nbframes : ℕ) : BlockResult :=
  match tb.eventBuffer with
  | none => ⟨tb, [], if tb.blockSize nbframes = 0 then .returned true else .aborted⟩
  | some rb =>
    let r := transferLoop dir tb.clusterSize tb.processBlockSize nbframes rb.size rb
      tb.processBuffer (tb.blockSize nbframes)
    ⟨{ tb with eventBuffer := some r.ring, processBuffer := r.processBuffer }, r.calls, r.exit⟩

def blockProcessWriteFrames (c : Client) (nbframes : ℕ) (ts : ℚ) : BlockResult :=
  let r := tb.blockTransfer (writing c tb.clusterSize tb.processBlockSize) nbframes
  if r.exit = .returned true then
    match r.buffer.incrementFrameCounter nbframes ts with
    | none => { r with exit := .aborted }
    | some counted => { r with buffer := counted }
  else r

def blockProcessReadFrames (c : Client) (nbframes : ℕ) : BlockResult :=
  let r := tb.blockTransfer (reading c tb.clusterSize tb.processBlockSize) nbframes
  if r.exit = .returned true then { r with buffer := r.buffer.decrementFrameCounter nbframes }
  else r

end TimestampedBuffer

/-- The call moves `k` bytes as a step of `R`, under the given frame count and offset. -/
structure Handover.Spec (h : Handover) (R : Ringbuffer → BlockCall → Ringbuffer → Prop)
    (rb : Ringbuffer) (k nframes offset : ℕ) : Prop where
  step : R rb h.call h.done
  length_data : h.call.data.length = k
  nframes_eq : h.call.nframes = nframes
  offset_eq : h.call.offset = offset

/-- What the loop needs to know about a direction: where it works (`pos`), how much there
is (`space`), and that every call is a step of `R` that moves on by the bytes it names. -/
structure Direction.Law (dir : Direction) (clusterSize processBlockSize : ℕ)
    (pos space : Ringbuffer → ℕ) (R : Ringbuffer → BlockCall → Ringbuffer → Prop) : Prop where
  vector_eq : ∀ rb, dir.vector rb = (⟨pos rb, straight rb.size (pos rb) (space rb)⟩,
    ⟨0, space rb - straight rb.size (pos rb) (space rb)⟩)
  size_eq : ∀ {rb call rb'}, R rb call rb' → rb'.size = rb.size
  pos_eq : ∀ {rb call rb'}, R rb call rb' → pos rb' = (pos rb + call.data.length) % rb.size
  space_eq : ∀ {rb call rb'}, R rb call rb' → space rb' = space rb - call.data.length
  bounce : ∀ rb processBuffer offset, processBlockSize ≤ space rb →
    (dir.bounce rb processBuffer offset).Spec R rb processBlockSize framesPerProcessBlock offset
  direct : ∀ rb processBuffer k offset, k ≤ straight rb.size (pos rb) (space rb) →
    (dir.direct rb processBuffer (pos rb) k offset).Spec R rb k (k / clusterSize) offset

theorem xrunOf_nonneg (ok : Bool) : ¬ xrunOf ok < 0 := by
  cases ok <;> simp [xrunOf]

/-- The loop's exit for each ending of its plan. -/
def exitOf : Ending → Exit
  | .complete => .returned true
  | .short => .returned false
  | .misaligned => .aborted
  | .unfinished => .unfinished

section Loop

variable {dir : Direction} {cs blk : ℕ} {pos space : Ringbuffer → ℕ}
  {R : Ringbuffer → BlockCall → Ringbuffer → Prop} (law : dir.Law cs blk pos space R)
include law

/-- Each iteration makes the call of the plan's next chunk. -/
theorem Direction.Law.handover_spec {rb : Ringbuffer} (processBuffer : ℕ → UInt8)
    (left offset : ℕ) (h : blk ≤ space rb) :
    (dir.handover blk rb processBuffer left offset).2 =
        chunk rb.size blk (pos rb) (space rb) left ∧
      (dir.handover blk rb processBuffer left offset).1.Spec R rb
        (chunk rb.size blk (pos rb) (space rb) left)
        (if straight rb.size (pos rb) (space rb) < blk then framesPerProcessBlock
          else chunk rb.size blk (pos rb) (space rb) left / cs) offset := by
  simp only [Direction.handover, law.vector_eq]
  by_cases hseg : straight rb.size (pos rb) (space rb) < blk
  · have hk : chunk rb.size blk (pos rb) (space rb) left = blk := by simp [chunk, hseg]
    simp only [hseg, if_true, hk]
    exact ⟨trivial, law.bounce rb processBuffer offset h⟩
  · have hk : chunk rb.size blk (pos rb) (space rb) left =
        if left > straight rb.size (pos rb) (space rb) then
          straight rb.size (pos rb) (space rb) - straight rb.size (pos rb) (space rb) % blk
        else left := by
      simp [chunk, hseg]
    have hle := chunk_le_straight left (Nat.le_of_not_lt hseg)
    simp only [hseg, if_false, ← hk]
    exact ⟨trivial, law.direct rb processBuffer _ offset hle⟩

theorem Direction.Law.vector_len (rb : Ringbuffer) :
    (dir.vector rb).1.len + (dir.vector rb).2.len = space rb := by
  rw [law.vector_eq]
  exact Nat.add_sub_cancel' (straight_le _ _ _)

theorem Direction.Law.transferLoop_spec (hcs : cs ≠ 0) (nbframes : ℕ) :
    ∀ (fuel : ℕ) (rb : Ringbuffer) (processBuffer : ℕ → UInt8) (left : ℕ),
      let r := transferLoop dir cs blk nbframes fuel rb processBuffer left
      let p := plan (2 ^ 32) rb.size blk fuel (pos rb) (space rb) left
      r.calls.map (·.data.length) = p.1 ∧ r.exit = exitOf p.2 ∧ Run R rb r.calls r.ring := by
  intro fuel
  induction fuel with
  | zero =>
    intro rb processBuffer left
    exact ⟨rfl, rfl, .nil rb⟩
  | succ fuel ih =>
    intro rb processBuffer left
    unfold transferLoop plan
    simp only [law.vector_len]
    by_cases h1 : left = 0
    · simp only [h1, if_true]
      exact ⟨rfl, rfl, .nil rb⟩
    by_cases h2 : space rb < blk
    · simp only [h1, hcs, h2, if_true, if_false]
      exact ⟨rfl, rfl, .nil rb⟩
    have hfirst : (dir.vector rb).1.len = straight rb.size (pos rb) (space rb) := by
      rw [law.vector_eq]
    by_cases h3 : blk = 0 ∧ left > straight rb.size (pos rb) (space rb)
    · simp only [h1, hcs, hfirst, h3, if_false]
      exact ⟨rfl, rfl, .nil rb⟩
    obtain ⟨hmoved, hspec⟩ := law.handover_spec processBuffer left
      (frameOffset cs nbframes left) (Nat.le_of_not_lt h2)
    simp only [h1, hcs, h2, hfirst, h3, xrunOf_nonneg, if_false, hmoved]
    generalize (dir.handover blk rb processBuffer left (frameOffset cs nbframes left)).1 = h at *
    generalize chunk rb.size blk (pos rb) (space rb) left = k at *
    have hrem : remaining (2 ^ 32) left k = u32 (left + 2 ^ 32 - k) := rfl
    simp only [hrem]
    by_cases h4 : blk = 0 ∨ u32 (left + 2 ^ 32 - k) % blk ≠ 0
    · simp only [h4, if_true]
      exact ⟨by simp [hspec.length_data], rfl, .cons hspec.step (.nil _)⟩
    · have hrest := ih h.done h.processBuffer (u32 (left + 2 ^ 32 - k))
      rw [law.size_eq hspec.step, law.pos_eq hspec.step, law.space_eq hspec.step,
        hspec.length_data] at hrest
      obtain ⟨ih1, ih2, ih3⟩ := hrest
      simp only [h4, if_false]
      exact ⟨by rw [List.map_cons, ih1, hspec.length_data], ih2, .cons hspec.step ih3⟩

end Loop

structure WriteStep (c : Client) (rb : Ringbuffer) (call : BlockCall) (rb' : Ringbuffer) :
    Prop where
  fits : call.data.length ≤ rb.writeSpace
  appended : ∃ src, slice src 0 call.data.length = call.data ∧
    rb.Appended src call.data.length rb'
  produced : ∃ area, (c.processWriteBlock area call.nframes call.offset).2 = call.ok ∧
    slice (c.processWriteBlock area call.nframes call.offset).1 0 call.data.length = call.data

structure ReadStep (c : Client) (rb : Ringbuffer) (call : BlockCall) (rb' : Ringbuffer) :
    Prop where
  fits : call.data.length ≤ rb.readSpace
  popped : rb.Popped call.data.length rb'
  oldest : rb.contents.take call.data.length = call.data
  consumed : ∃ area, slice area 0 call.data.length = call.data ∧
    c.processReadBlock area call.nframes call.offset = call.ok

theorem writing_law (c : Client) (cs blk : ℕ) : (writing c cs blk).Law cs blk
    Ringbuffer.writePtr Ringbuffer.writeSpace (WriteStep c) where
  vector_eq rb := rb.getWriteVector_eq
  size_eq h := by
    obtain ⟨_, -, ha⟩ := h.appended
    exact ha.size_eq
  pos_eq h := by
    obtain ⟨_, -, ha⟩ := h.appended
    exact ha.writePtr_eq
  space_eq h := by
    obtain ⟨_, -, ha⟩ := h.appended
    exact ha.writeSpace_eq h.fits
  bounce rb processBuffer offset hblk := by
    let filled := memcpy processBuffer 0
      (c.processWriteBlock processBuffer framesPerProcessBlock offset).1 blk
    have happ := rb.write_appended filled blk
    rw [Nat.min_eq_left hblk] at happ
    refine ⟨⟨?_, ⟨filled, ?_, ?_⟩, ⟨processBuffer, rfl, ?_⟩⟩, length_slice _ _ _, rfl, rfl⟩
    · simpa [writing] using hblk
    · simp [writing, filled, slice_memcpy]
    · simpa [writing] using happ
    · simp [writing]
  direct rb processBuffer k offset hk := by
    have hle : k ≤ rb.writeSpace := hk.trans (straight_le _ _ _)
    have hend : rb.writePtr + k ≤ rb.size := by
      have := rb.writePtr_lt_size
      unfold straight at hk
      omega
    let filled := (c.processWriteBlock (pointer rb.buf rb.writePtr) (k / cs) offset).1
    have happ := rb.poke_writeAdvance_appended filled hend
    refine ⟨⟨?_, ⟨filled, ?_, ?_⟩, ⟨pointer rb.buf rb.writePtr, rfl, ?_⟩⟩, length_slice _ _ _,
      rfl, rfl⟩
    · simpa [writing] using hle
    · simp [writing, filled]
    · simpa [writing] using happ
    · simp [writing]

theorem reading_law (c : Client) (cs blk : ℕ) : (reading c cs blk).Law cs blk
    Ringbuffer.readPtr Ringbuffer.readSpace (ReadStep c) where
  vector_eq rb := rb.getReadVector_eq
  size_eq h := h.popped.size_eq
  pos_eq h := h.popped.readPtr_eq
  space_eq h := h.popped.readSpace_eq h.fits
  bounce rb processBuffer offset hblk := by
    have hpop := rb.read_popped processBuffer blk
    have hdata := rb.slice_read processBuffer blk
    rw [Nat.min_eq_left hblk] at hpop hdata
    refine ⟨⟨?_, ?_, ?_, ⟨(rb.read processBuffer blk).1, ?_, rfl⟩⟩, length_slice _ _ _, rfl, rfl⟩
    · simpa [reading] using hblk
    · simpa [reading] using hpop
    · simpa [reading] using hdata.symm
    · simp [reading]
  direct rb processBuffer k offset hk := by
    have hle : k ≤ rb.readSpace := hk.trans (straight_le _ _ _)
    have hend : rb.readPtr + k ≤ rb.size := by
      have := rb.readPtr_lt_size
      unfold straight at hk
      omega
    refine ⟨⟨?_, ?_, ?_, ⟨pointer rb.buf rb.readPtr, ?_, rfl⟩⟩, length_slice _ _ _, rfl, rfl⟩
    · simpa [reading] using hle
    · simpa [reading] using rb.readAdvance_popped k
    · simp [reading, Ringbuffer.contents, window_take _ _ hle, window_eq_slice _ hend]
    · simp [reading]

theorem contents_of_writes {c : Client} {rb rb' : Ringbuffer} {calls : List BlockCall}
    (h : Run (WriteStep c) rb calls rb') :
    rb'.contents = rb.contents ++ calls.flatMap (·.data) := by
  induction h with
  | nil => simp
  | cons hstep _ ih =>
    obtain ⟨src, hsrc, happ⟩ := hstep.appended
    rw [ih, happ.contents_eq hstep.fits, hsrc, List.flatMap_cons, List.append_assoc]

/-- A run of reads takes everything that was shown from the front. -/
theorem contents_of_reads {c : Client} {rb rb' : Ringbuffer} {calls : List BlockCall}
    (h : Run (ReadStep c) rb calls rb') :
    rb.contents = calls.flatMap (·.data) ++ rb'.contents := by
  induction h with
  | nil => simp
  | @cons rb₁ rb₂ _ call _ hstep _ ih =>
    rw [List.flatMap_cons, List.append_assoc, ← ih, hstep.popped.contents_eq hstep.fits]
    conv_lhs => rw [← List.take_append_drop call.data.length rb₁.contents, hstep.oldest]

end Ffado
