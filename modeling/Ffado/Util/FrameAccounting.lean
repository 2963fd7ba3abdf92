import Ffado.Util.BlockRefinement

/-!
# The frame counter and the ring

The frame counter is meant to be the number of frames in the ring, and to stay within the
buffer size. Every operation updates the two separately. This module gives the operations
after `prepare` as steps, says under which condition a step keeps counter and ring together,
and that runs of such steps do.

The condition is not checked by the code. A copying write that does not fit leaves the part
of its bytes that did fit in the ring, a block operation that runs out keeps the chunks that
it has moved, `dropFrames` moves the read pointer whatever the fill, and the ring is larger
than the buffer size in general.
-/
namespace Ffado

open CircularMemory TransferPlan LabelledRun MachineInt

namespace TimestampedBuffer

variable {result : Bool} {data memory : ℕ → UInt8}

/-- The operations on a prepared buffer. -/
inductive Op
  | writeFrames (nframes : ℕ) (data : ℕ → UInt8) (ts : ℚ)
  | preloadFrames (nframes : ℕ) (data : ℕ → UInt8) (keepHeadTs : Bool)
  | writeDummyFrame
  | readFrames (nframes : ℕ) (data : ℕ → UInt8)
  | dropFrames (nframes : ℕ)
  | blockProcessWriteFrames (c : Client) (nbframes : ℕ) (ts : ℚ)
  | blockProcessReadFrames (c : Client) (nbframes : ℕ)
  | clearBuffer
  | resizeBuffer (newSize : ℕ) (memory : ℕ → UInt8)
  | setTransparent (v : Bool)

def BlockResult.returned? (r : BlockResult) : Option TimestampedBuffer :=
  match r.exit with
  | .returned _ => some r.buffer
  | _ => none

/-- The buffer after an operation, whatever the operation returns; `none` if it aborts. -/
def step (tb : TimestampedBuffer) : Op → Option TimestampedBuffer
  | .writeFrames nframes data ts => (tb.writeFrames nframes data ts).map (·.1)
  | .preloadFrames nframes data keep => (tb.preloadFrames nframes data keep).map (·.1)
  | .writeDummyFrame => tb.writeDummyFrame.map (·.1)
  | .readFrames nframes data => (tb.readFrames nframes data).map (·.1)
  | .dropFrames nframes => (tb.dropFrames nframes).map (·.1)
  | .blockProcessWriteFrames c nbframes ts =>
    BlockResult.returned? (tb.blockProcessWriteFrames c nbframes ts)
  | .blockProcessReadFrames c nbframes =>
    BlockResult.returned? (tb.blockProcessReadFrames c nbframes)
  | .clearBuffer => tb.clearBuffer.map (·.1)
  | .resizeBuffer newSize memory => (tb.resizeBuffer newSize memory).map (·.1)
  | .setTransparent v => some (tb.setTransparent v)

variable (tb : TimestampedBuffer)

def readable : ℕ := (tb.eventBuffer.map Ringbuffer.readSpace).getD 0
def writable : ℕ := (tb.eventBuffer.map Ringbuffer.writeSpace).getD 0

/-- The counter is the number of frames in the ring, and within the buffer size. -/
def Accounted : Prop :=
  tb.framecounter * tb.frameBytes = tb.readable ∧ 0 ≤ tb.framecounter ∧
    tb.framecounter ≤ tb.bufferSize

instance : Decidable tb.Accounted := inferInstanceAs (Decidable (_ ∧ _))

def Room (n : ℕ) : Prop := n * tb.frameBytes ≤ tb.writable ∧ tb.framecounter + n ≤ tb.bufferSize

/-- The step moves whole frames that are there or have room, or nothing at all. A copying
transfer moves nothing if the ring is full (empty), a block transfer if there is less than a
process block. -/
def Fits : Op → Prop
  | .writeFrames n _ _ =>
    tb.transparent ∨ tb.Room n ∨ (tb.writable = 0 ∧ tb.transferSize n ≠ 0)
  | .preloadFrames n _ _ => tb.Room n ∨ (tb.writable = 0 ∧ tb.transferSize n ≠ 0)
  | .writeDummyFrame => tb.Room 1 ∨ (tb.writable = 0 ∧ u32 tb.frameBytes ≠ 0)
  | .readFrames n _ =>
    tb.transparent ∨ n ≤ tb.framecounter ∨ (tb.readable = 0 ∧ tb.transferSize n ≠ 0)
  | .dropFrames n => n ≤ tb.framecounter
  | .blockProcessWriteFrames _ n _ =>
    (tb.Room n ∧ framesPerProcessBlock * tb.frameBytes < 2 ^ 32) ∨
      (tb.blockSize n ≠ 0 ∧ tb.writable < tb.processBlockSize)
  | .blockProcessReadFrames _ n =>
    (n ≤ tb.framecounter ∧ framesPerProcessBlock * tb.frameBytes < 2 ^ 32) ∨
      (tb.blockSize n ≠ 0 ∧ tb.readable < tb.processBlockSize)
  | .clearBuffer | .resizeBuffer _ _ | .setTransparent _ => True

/-- The state of a prepared buffer whose ring holds `n` frames, and whose counter says so. -/
structure Holds (rb : Ringbuffer) (n : ℕ) : Prop extends tb.Prepared rb where
  framecounter_eq : tb.framecounter = n
  readSpace_eq : rb.readSpace = n * tb.frameBytes
  le_bufferSize : n ≤ tb.bufferSize

variable {tb} {tb' : TimestampedBuffer} {rb rb' : Ringbuffer} {n k : ℕ}

theorem Prepared.readable_eq (h : tb.Prepared rb) : tb.readable = rb.readSpace := by
  simp [readable, h.eventBuffer_eq]

theorem Prepared.writable_eq (h : tb.Prepared rb) : tb.writable = rb.writeSpace := by
  simp [writable, h.eventBuffer_eq]

theorem Holds.accounted (h : tb.Holds rb n) : tb.Accounted := by
  refine ⟨?_, ?_, ?_⟩
  · rw [h.readable_eq, h.readSpace_eq, h.framecounter_eq]
    rfl
  · rw [h.framecounter_eq]
    exact Int.natCast_nonneg n
  · rw [h.framecounter_eq]
    exact_mod_cast h.le_bufferSize

theorem Holds.lt (h : tb.Holds rb n) : n < 2 ^ 30 := by
  have hread := rb.readSpace_lt
  have hsize := rb.size_le
  have hle : n * 1 ≤ n * tb.frameBytes := Nat.mul_le_mul_left n h.frameBytes_pos
  rw [h.readSpace_eq] at hread
  omega

structure SameSizes (tb tb' : TimestampedBuffer) : Prop where
  eventSize_eq : tb'.eventSize = tb.eventSize
  eventsPerFrame_eq : tb'.eventsPerFrame = tb.eventsPerFrame
  clusterSize_eq : tb'.clusterSize = tb.clusterSize
  processBlockSize_eq : tb'.processBlockSize = tb.processBlockSize
  bufferSize_eq : tb'.bufferSize = tb.bufferSize

/-- No transfer changes the sizes: it moves the ring, the counter and the clock. -/
theorem sameSizes_with (tb : TimestampedBuffer) (eventBuffer : Option Ringbuffer)
    (processBuffer : ℕ → UInt8) (transparent : Bool) (framecounter : ℤ)
    (tail nextTail dllE2 currentRate : ℚ) :
    SameSizes tb { tb with
      eventBuffer := eventBuffer
      processBuffer := processBuffer
      transparent := transparent
      framecounter := framecounter
      bufferTailTimestamp := tail
      bufferNextTailTimestamp := nextTail
      dllE2 := dllE2
      currentRate := currentRate } :=
  ⟨rfl, rfl, rfl, rfl, rfl⟩

theorem SameSizes.frameBytes_eq (h : SameSizes tb tb') : tb'.frameBytes = tb.frameBytes := by
  rw [frameBytes, frameBytes, h.eventSize_eq, h.eventsPerFrame_eq]

theorem Prepared.of_sameSizes (h : tb.Prepared rb) (hs : SameSizes tb tb')
    (hring : tb'.eventBuffer = some rb') : tb'.Prepared rb' :=
  ⟨hring, hs.eventSize_eq ▸ h.eventSize_pos, hs.eventsPerFrame_eq ▸ h.eventsPerFrame_pos,
    by rw [hs.clusterSize_eq, h.clusterSize_eq, hs.frameBytes_eq],
    by rw [hs.processBlockSize_eq, h.processBlockSize_eq, hs.clusterSize_eq]⟩

/-- Counter and ring unchanged. -/
theorem Holds.keep (h : tb.Holds rb n) (hs : SameSizes tb tb') (hring : tb'.eventBuffer = some rb')
    (hfc : tb'.framecounter = tb.framecounter) (hread : rb'.readSpace = rb.readSpace) :
    tb'.Holds rb' n :=
  { h.toPrepared.of_sameSizes hs hring with
    framecounter_eq := by rw [hfc, h.framecounter_eq]
    readSpace_eq := by rw [hread, h.readSpace_eq, hs.frameBytes_eq]
    le_bufferSize := by rw [hs.bufferSize_eq]; exact h.le_bufferSize }

/-- A transfer that did not take place. -/
theorem Holds.untouched (h : tb.Holds rb n) (processBuffer : ℕ → UInt8) (transparent : Bool) :
    Holds { tb with
      eventBuffer := some rb
      processBuffer := processBuffer
      transparent := transparent } rb n :=
  h.keep (sameSizes_with ..) rfl rfl rfl

theorem Holds.returned_untouched (h : tb.Holds rb n) {processBuffer : ℕ → UInt8}
    {calls : List BlockCall}
    (hstep : BlockResult.returned?
      ⟨{ tb with eventBuffer := some rb, processBuffer := processBuffer }, calls,
        .returned false⟩ = some tb') : ∃ rb' m, tb'.Holds rb' m := by
  cases hstep
  exact ⟨rb, n, h.untouched processBuffer tb.transparent⟩

/-- `k` frames more in both. -/
theorem Holds.add (h : tb.Holds rb n) (hs : SameSizes tb tb') (hring : tb'.eventBuffer = some rb')
    (hroom : tb.Room k) (hfc : tb'.framecounter = i32 (tb.framecounter + k))
    (hread : rb'.readSpace = rb.readSpace + k * tb.frameBytes) : tb'.Holds rb' (n + k) := by
  have hlt : (n + k) * tb.frameBytes < 2 ^ 30 := by
    have := rb'.readSpace_lt
    have := rb'.size_le
    rw [Nat.add_mul, ← h.readSpace_eq, ← hread]
    omega
  have hnk : (n + k) * 1 ≤ (n + k) * tb.frameBytes := Nat.mul_le_mul_left _ h.frameBytes_pos
  exact
    { h.toPrepared.of_sameSizes hs hring with
      framecounter_eq := by
        rw [hfc, h.framecounter_eq, i32_of_range (by omega) (by omega)]
        rfl
      readSpace_eq := by rw [hread, h.readSpace_eq, hs.frameBytes_eq, Nat.add_mul]
      le_bufferSize := by
        have := hroom.2
        rw [h.framecounter_eq] at this
        rw [hs.bufferSize_eq]
        exact_mod_cast this }

/-- `k` frames less in both. -/
theorem Holds.remove (h : tb.Holds rb n) (hs : SameSizes tb tb')
    (hring : tb'.eventBuffer = some rb') (hk : k ≤ n)
    (hfc : tb'.framecounter = i32 (tb.framecounter - k))
    (hread : rb'.readSpace = rb.readSpace - k * tb.frameBytes) : tb'.Holds rb' (n - k) := by
  have hlt := h.lt
  exact
    { h.toPrepared.of_sameSizes hs hring with
      framecounter_eq := by
        rw [hfc, h.framecounter_eq, i32_of_range (by omega) (by omega), Nat.cast_sub hk]
      readSpace_eq := by rw [hread, h.readSpace_eq, hs.frameBytes_eq, Nat.sub_mul]
      le_bufferSize := by
        have := h.le_bufferSize
        rw [hs.bufferSize_eq]
        omega }

theorem Holds.write_room (h : tb.Holds rb n) (hroom : tb.Room k) (data : ℕ → UInt8) :
    tb.transferSize k = k * tb.frameBytes ∧
      (rb.write data (k * tb.frameBytes)).2 = k * tb.frameBytes ∧
      (rb.write data (k * tb.frameBytes)).1.readSpace = rb.readSpace + k * tb.frameBytes := by
  have hle : k * tb.frameBytes ≤ rb.writeSpace := h.writable_eq ▸ hroom.1
  have hsum := rb.readSpace_add_writeSpace
  have hsize := rb.size_le
  have happ := rb.write_appended data (k * tb.frameBytes)
  rw [Nat.min_eq_left hle] at happ
  refine ⟨?_, ?_, happ.readSpace_eq hle⟩
  · rw [transferSize_eq, u32_of_lt (by omega)]
  · rw [Ringbuffer.write_count, Nat.min_eq_left hle]

theorem Prepared.write_full (h : tb.Prepared rb) (hfull : tb.writable = 0) (data : ℕ → UInt8)
    (cnt : ℕ) : rb.write data cnt = (rb, 0) := by
  rw [h.writable_eq] at hfull
  simp [Ringbuffer.write, hfull]

theorem Holds.writeFrames (h : tb.Holds rb n) {ts : ℚ} (hfits : tb.Fits (.writeFrames k data ts))
    (hstep : tb.writeFrames k data ts = some (tb', result)) : ∃ rb' m, tb'.Holds rb' m := by
  have hlt := h.lt
  unfold TimestampedBuffer.writeFrames at hstep
  by_cases htr : tb.transparent = true
  · refine ⟨rb, n, ?_⟩
    split_ifs at hstep with hts
    · rw [Option.bind_eq_bind, Option.bind_eq_some_iff] at hstep
      obtain ⟨counted, hinc, heq⟩ := hstep
      obtain ⟨-, _, _, _, _, rfl⟩ := incrementFrameCounter_spec hinc
      obtain ⟨rfl, -⟩ := heq
      refine h.keep (sameSizes_with ..) h.eventBuffer_eq ?_ rfl
      change i32 (i32 (tb.framecounter + k) - k) = tb.framecounter
      rw [Int.sub_eq_add_neg, i32_i32_add, Int.add_neg_cancel_right, h.framecounter_eq,
        i32_of_range (by omega) (by omega)]
    · obtain ⟨rfl, -⟩ := hstep
      exact h.keep (sameSizes_with ..) h.eventBuffer_eq rfl rfl
  · simp only [htr, h.eventBuffer_eq, Option.bind_eq_bind, Option.bind_some] at hstep
    rcases hfits with htr' | hroom | ⟨hfull, hsize⟩
    · exact absurd htr' htr
    · obtain ⟨hsz, hcount, hread⟩ := h.write_room hroom data
      simp only [hsz, hcount, lt_irrefl, if_false, Bool.false_eq_true,
        Option.bind_eq_some_iff] at hstep
      obtain ⟨counted, hinc, heq⟩ := hstep
      obtain ⟨-, _, _, _, _, rfl⟩ := incrementFrameCounter_spec hinc
      obtain ⟨rfl, -⟩ := heq
      exact ⟨_, n + k, h.add (sameSizes_with ..) rfl hroom rfl hread⟩
    · simp only [h.write_full hfull, Nat.pos_of_ne_zero hsize, if_true, Bool.false_eq_true,
        if_false, Option.some.injEq, Prod.mk.injEq] at hstep
      obtain ⟨rfl, -⟩ := hstep
      exact ⟨rb, n, h.untouched _ _⟩

theorem Holds.preloadFrames (h : tb.Holds rb n) {keep : Bool}
    (hfits : tb.Fits (.preloadFrames k data keep))
    (hstep : tb.preloadFrames k data keep = some (tb', result)) : ∃ rb' m, tb'.Holds rb' m := by
  simp only [TimestampedBuffer.preloadFrames, h.eventBuffer_eq, Option.bind_eq_bind,
    Option.bind_some] at hstep
  rcases hfits with hroom | ⟨hfull, hsize⟩
  · obtain ⟨hsz, hcount, hread⟩ := h.write_room hroom data
    simp only [hsz, hcount, lt_irrefl, if_false, Option.some.injEq, Prod.mk.injEq] at hstep
    obtain ⟨rfl, -⟩ := hstep
    refine ⟨(rb.write data (k * tb.frameBytes)).1, n + k, h.add ?_ ?_ hroom ?_ hread⟩
    all_goals split_ifs
    all_goals first | rfl | exact sameSizes_with ..
  · simp only [h.write_full hfull, Nat.pos_of_ne_zero hsize, if_true, Option.some.injEq,
      Prod.mk.injEq] at hstep
    obtain ⟨rfl, -⟩ := hstep
    exact ⟨rb, n, h.untouched _ _⟩

theorem Holds.writeDummyFrame (h : tb.Holds rb n) (hfits : tb.Fits .writeDummyFrame)
    (hstep : tb.writeDummyFrame = some (tb', result)) : ∃ rb' m, tb'.Holds rb' m := by
  simp only [TimestampedBuffer.writeDummyFrame, h.eventBuffer_eq, Option.bind_eq_bind,
    Option.bind_some] at hstep
  rcases hfits with hroom | ⟨hfull, hsize⟩
  · obtain ⟨hsz, hcount, hread⟩ := h.write_room hroom (fun _ => 0)
    have hone : u32 (tb.eventSize * tb.eventsPerFrame) = 1 * tb.frameBytes := by
      rw [← hsz, transferSize_eq, Nat.one_mul, frameBytes]
    simp only [hone, hcount, lt_irrefl, if_false, Option.some.injEq, Prod.mk.injEq] at hstep
    obtain ⟨rfl, -⟩ := hstep
    exact ⟨_, n + 1, h.add (sameSizes_with ..) rfl hroom rfl hread⟩
  · have hpos : 0 < u32 (tb.eventSize * tb.eventsPerFrame) := Nat.pos_of_ne_zero hsize
    simp only [h.write_full hfull, hpos, if_true, Option.some.injEq, Prod.mk.injEq] at hstep
    obtain ⟨rfl, -⟩ := hstep
    exact ⟨rb, n, h.untouched _ _⟩

/-- Frames that are counted are in the ring, and their size is exact. -/
theorem Holds.stock (h : tb.Holds rb n) (hk : (k : ℤ) ≤ tb.framecounter) :
    k ≤ n ∧ tb.transferSize k = k * tb.frameBytes ∧ k * tb.frameBytes ≤ rb.readSpace := by
  have hkn : k ≤ n := by
    rw [h.framecounter_eq] at hk
    exact_mod_cast hk
  have hle : k * tb.frameBytes ≤ rb.readSpace := by
    rw [h.readSpace_eq]
    exact Nat.mul_le_mul_right _ hkn
  have hread := rb.readSpace_lt
  have hsize := rb.size_le
  exact ⟨hkn, by rw [transferSize_eq, u32_of_lt (by omega)], hle⟩

theorem Holds.readFrames (h : tb.Holds rb n) {data' : ℕ → UInt8}
    (hfits : tb.Fits (.readFrames k data))
    (hstep : tb.readFrames k data = some (tb', result, data')) : ∃ rb' m, tb'.Holds rb' m := by
  unfold TimestampedBuffer.readFrames at hstep
  by_cases htr : tb.transparent = true
  · simp only [htr, if_true, Option.some.injEq, Prod.mk.injEq] at hstep
    obtain ⟨rfl, -⟩ := hstep
    exact ⟨rb, n, h⟩
  · simp only [htr, h.eventBuffer_eq, Option.bind_eq_bind, Option.bind_some, Bool.false_eq_true,
      if_false] at hstep
    rcases hfits with htr' | hk | ⟨hempty, hsize⟩
    · exact absurd htr' htr
    · obtain ⟨hkn, hsz, hle⟩ := h.stock hk
      have hpop := rb.read_popped data (k * tb.frameBytes)
      rw [Nat.min_eq_left hle] at hpop
      rw [hsz, Ringbuffer.read_count, Nat.min_eq_left hle, if_neg (lt_irrefl _)] at hstep
      obtain ⟨rfl, -⟩ := hstep
      exact ⟨_, n - k, h.remove (sameSizes_with ..) rfl hkn rfl (hpop.readSpace_eq hle)⟩
    · rw [h.readable_eq] at hempty
      have hread : rb.read data (tb.transferSize k) = (data, rb, 0) := by
        simp [Ringbuffer.read, hempty]
      simp only [hread, Nat.pos_of_ne_zero hsize, if_true, Option.some.injEq,
        Prod.mk.injEq] at hstep
      obtain ⟨rfl, -⟩ := hstep
      exact ⟨rb, n, h.untouched _ _⟩

theorem Holds.dropFrames (h : tb.Holds rb n) (hfits : tb.Fits (.dropFrames k))
    (hstep : tb.dropFrames k = some (tb', result)) : ∃ rb' m, tb'.Holds rb' m := by
  obtain ⟨hkn, hsz, hle⟩ := h.stock hfits
  simp only [TimestampedBuffer.dropFrames, h.eventBuffer_eq, hsz, Option.bind_eq_bind,
    Option.bind_some, Option.some.injEq, Prod.mk.injEq] at hstep
  obtain ⟨rfl, -⟩ := hstep
  have hpop := rb.readAdvance_popped (k * tb.frameBytes)
  exact ⟨_, n - k, h.remove (sameSizes_with ..) rfl hkn rfl (hpop.readSpace_eq hle)⟩

/-- A frame size divides the range of an `unsigned int` only if it is a power of two, and
then the process block does too. -/
theorem processBlock_dvd {frameBytes left : ℕ}
    (hblk : framesPerProcessBlock * frameBytes < 2 ^ 32) (hleft : frameBytes ∣ left)
    (h : framesPerProcessBlock * frameBytes ∣ 2 ^ 32 + left) :
    framesPerProcessBlock * frameBytes ∣ left := by
  have hfb : frameBytes ∣ 2 ^ 32 :=
    (Nat.dvd_add_left hleft).mp (dvd_trans (Dvd.intro_left _ rfl) h)
  obtain ⟨j, -, rfl⟩ := (Nat.dvd_prime_pow Nat.prime_two).mp hfb
  have hpow : framesPerProcessBlock * 2 ^ j = 2 ^ (3 + j) := by rw [Nat.pow_add]; rfl
  rw [hpow] at h hblk ⊢
  have hj : 3 + j < 32 := (Nat.pow_lt_pow_iff_right (by norm_num)).mp hblk
  exact (Nat.dvd_add_right (Nat.pow_dvd_pow 2 hj.le)).mp h

theorem Prepared.blockTransfer_fits (h : tb.Prepared rb) {dir : Direction}
    {pos space : Ringbuffer → ℕ} {R : Ringbuffer → BlockCall → Ringbuffer → Prop}
    (law : dir.Law tb.clusterSize tb.processBlockSize pos space R) (hspace : space rb < rb.size)
    (hfits : k * tb.frameBytes ≤ space rb)
    (hblock : framesPerProcessBlock * tb.frameBytes < 2 ^ 32) :
    ∃ rb' processBuffer calls exit, tb.blockTransfer dir k =
        ⟨{ tb with eventBuffer := some rb', processBuffer := processBuffer }, calls, exit⟩ ∧
      Run R rb calls rb' ∧
      ((exit = .returned true ∧ (calls.map (·.data.length)).sum = k * tb.frameBytes) ∨
        (exit = .returned false ∧ calls = []) ∨ exit = .aborted) := by
  have hsize := rb.size_le
  have hfb := h.frameBytes_pos
  obtain ⟨hcs, hblk⟩ := h.processBlockSize_exact hblock
  have hbytes : tb.blockSize k = k * tb.frameBytes := by
    rw [blockSize_eq, u32_of_lt (by omega)]
  have hwrap : framesPerProcessBlock * tb.frameBytes ∣ k * tb.frameBytes ∨
      ¬ framesPerProcessBlock * tb.frameBytes ∣ 2 ^ 32 + k * tb.frameBytes := by
    by_contra hnot
    obtain ⟨hno, hdvd⟩ := not_or.mp hnot
    exact hno (processBlock_dvd hblock (Dvd.intro_left _ rfl) (not_not.mp hdvd))
  simp only [blockTransfer, h.eventBuffer_eq, hbytes]
  rw [hcs, hblk] at law ⊢
  obtain ⟨hlens, hexit, hrun⟩ := law.transferLoop_spec hfb.ne' k rb.size rb tb.processBuffer
    (k * tb.frameBytes)
  refine ⟨_, _, _, _, rfl, hrun, ?_⟩
  rw [hlens, hexit]
  rcases plan_of_le (N := rb.size)
    (Nat.mul_pos (by decide) hfb) (p := pos rb) hspace hfits (by omega) hblock hwrap
    with ⟨hend, hsum⟩ | hshort | hend
  · exact .inl ⟨by rw [hend]; rfl, hsum⟩
  · rw [hshort] at hlens ⊢
    exact .inr (.inl ⟨rfl, List.map_eq_nil_iff.mp hlens⟩)
  · exact .inr (.inr (by rw [hend]; rfl))

/-- With less than a process block there, nothing happens. -/
theorem Prepared.blockTransfer_refused (h : tb.Prepared rb) {dir : Direction}
    {pos space : Ringbuffer → ℕ} {R : Ringbuffer → BlockCall → Ringbuffer → Prop}
    (law : dir.Law tb.clusterSize tb.processBlockSize pos space R) (hne : tb.blockSize k ≠ 0)
    (hlt : space rb < tb.processBlockSize) :
    tb.blockTransfer dir k =
      ⟨{ tb with eventBuffer := some rb, processBuffer := tb.processBuffer }, [],
        .returned false⟩ := by
  have hcs : tb.clusterSize ≠ 0 := by
    intro hz
    rw [h.processBlockSize_eq, hz] at hlt
    simp [u32] at hlt
  obtain ⟨fuel, hfuel⟩ := Nat.exists_eq_add_of_lt rb.size_pos
  simp only [blockTransfer, h.eventBuffer_eq, hfuel, transferLoop, law.vector_len, hne, hcs, hlt,
    if_true, if_false]

theorem sum_length_flatMap (calls : List BlockCall) :
    (calls.flatMap (·.data)).length = (calls.map (·.data.length)).sum := by
  simp [List.length_flatMap]

theorem Holds.blockProcessWriteFrames (h : tb.Holds rb n) {c : Client} {ts : ℚ}
    (hfits : tb.Fits (.blockProcessWriteFrames c k ts))
    (hstep : BlockResult.returned? (tb.blockProcessWriteFrames c k ts) = some tb') :
    ∃ rb' m, tb'.Holds rb' m := by
  have hlt : rb.writeSpace < rb.size := by
    have := rb.readSpace_add_writeSpace
    omega
  unfold TimestampedBuffer.blockProcessWriteFrames at hstep
  rcases hfits with ⟨hroom, hblock⟩ | ⟨hne, hfull⟩
  · obtain ⟨rb', pb, calls, exit, hres, hrun, hexit⟩ := h.blockTransfer_fits (writing_law c _ _)
      hlt (h.writable_eq ▸ hroom.1) hblock
    rw [hres] at hstep
    rcases hexit with ⟨rfl, hsum⟩ | ⟨rfl, rfl⟩ | rfl
    · have hread : rb'.readSpace = rb.readSpace + k * tb.frameBytes := by
        have := congrArg List.length (contents_of_writes hrun)
        rwa [List.length_append, sum_length_flatMap, hsum, Ringbuffer.length_contents,
          Ringbuffer.length_contents] at this
      simp only [if_true] at hstep
      split at hstep
      · simp [BlockResult.returned?] at hstep
      · rename_i counted hinc
        obtain ⟨-, _, _, _, _, rfl⟩ := incrementFrameCounter_spec hinc
        simp only [BlockResult.returned?, Option.some.injEq] at hstep
        subst hstep
        exact ⟨rb', n + k, h.add (sameSizes_with ..) rfl hroom rfl hread⟩
    · cases hrun
      exact h.returned_untouched hstep
    · simp [BlockResult.returned?] at hstep
  · rw [h.blockTransfer_refused (writing_law c _ _) hne (h.writable_eq ▸ hfull)] at hstep
    exact h.returned_untouched hstep

theorem Holds.blockProcessReadFrames (h : tb.Holds rb n) {c : Client}
    (hfits : tb.Fits (.blockProcessReadFrames c k))
    (hstep : BlockResult.returned? (tb.blockProcessReadFrames c k) = some tb') :
    ∃ rb' m, tb'.Holds rb' m := by
  unfold TimestampedBuffer.blockProcessReadFrames at hstep
  rcases hfits with ⟨hstock, hblock⟩ | ⟨hne, hempty⟩
  · obtain ⟨hkn, -, hle⟩ := h.stock hstock
    obtain ⟨rb', pb, calls, exit, hres, hrun, hexit⟩ := h.blockTransfer_fits (reading_law c _ _)
      rb.readSpace_lt hle hblock
    rw [hres] at hstep
    rcases hexit with ⟨rfl, hsum⟩ | ⟨rfl, rfl⟩ | rfl
    · have hread : rb'.readSpace = rb.readSpace - k * tb.frameBytes := by
        have := congrArg List.length (contents_of_reads hrun)
        rw [List.length_append, sum_length_flatMap, hsum, Ringbuffer.length_contents,
          Ringbuffer.length_contents] at this
        omega
      simp only [BlockResult.returned?, if_true, Option.some.injEq] at hstep
      subst hstep
      exact ⟨rb', n - k, h.remove (sameSizes_with ..) rfl hkn rfl hread⟩
    · cases hrun
      exact h.returned_untouched hstep
    · simp [BlockResult.returned?] at hstep
  · rw [h.blockTransfer_refused (reading_law c _ _) hne (h.readable_eq ▸ hempty)] at hstep
    exact h.returned_untouched hstep

theorem Holds.clearBuffer (h : tb.Holds rb n) (hstep : tb.clearBuffer = some (tb', result)) :
    ∃ rb' m, tb'.Holds rb' m := by
  simp only [TimestampedBuffer.clearBuffer, h.eventBuffer_eq, Option.bind_eq_bind,
    Option.bind_some, Option.some.injEq, Prod.mk.injEq] at hstep
  obtain ⟨rfl, -⟩ := hstep
  exact ⟨rb.reset, 0, ⟨rfl, h.eventSize_pos, h.eventsPerFrame_pos, h.clusterSize_eq,
    h.processBlockSize_eq⟩, rfl, by rw [Ringbuffer.reset_readSpace, Nat.zero_mul], Nat.zero_le _⟩

theorem Holds.resizeBuffer (h : tb.Holds rb n) {newSize : ℕ}
    (hstep : tb.resizeBuffer newSize memory = some (tb', result)) : ∃ rb' m, tb'.Holds rb' m := by
  obtain ⟨-, -, -, -, rb', hcreate, rfl⟩ := resizeBuffer_spec hstep
  exact ⟨rb', 0, ⟨rfl, h.eventSize_pos, h.eventsPerFrame_pos, h.clusterSize_eq,
    h.processBlockSize_eq⟩, rfl, by rw [(rb'.create_spec hcreate).1, Nat.zero_mul], Nat.zero_le _⟩

theorem Holds.step (h : tb.Holds rb n) {op : Op} (hfits : tb.Fits op)
    (hstep : tb.step op = some tb') : ∃ rb' m, tb'.Holds rb' m := by
  cases op with
  | writeFrames k data ts =>
    obtain ⟨⟨b, result⟩, hop, rfl⟩ := Option.map_eq_some_iff.mp hstep
    exact h.writeFrames hfits hop
  | preloadFrames k data keep =>
    obtain ⟨⟨b, result⟩, hop, rfl⟩ := Option.map_eq_some_iff.mp hstep
    exact h.preloadFrames hfits hop
  | writeDummyFrame =>
    obtain ⟨⟨b, result⟩, hop, rfl⟩ := Option.map_eq_some_iff.mp hstep
    exact h.writeDummyFrame hfits hop
  | readFrames k data =>
    obtain ⟨⟨b, result, data'⟩, hop, rfl⟩ := Option.map_eq_some_iff.mp hstep
    exact h.readFrames hfits hop
  | dropFrames k =>
    obtain ⟨⟨b, result⟩, hop, rfl⟩ := Option.map_eq_some_iff.mp hstep
    exact h.dropFrames hfits hop
  | blockProcessWriteFrames c k ts => exact h.blockProcessWriteFrames hfits hstep
  | blockProcessReadFrames c k => exact h.blockProcessReadFrames hfits hstep
  | clearBuffer =>
    obtain ⟨⟨b, result⟩, hop, rfl⟩ := Option.map_eq_some_iff.mp hstep
    exact h.clearBuffer hop
  | resizeBuffer newSize memory =>
    obtain ⟨⟨b, result⟩, hop, rfl⟩ := Option.map_eq_some_iff.mp hstep
    exact h.resizeBuffer hop
  | setTransparent v =>
    cases hstep
    exact ⟨rb, n, h.keep (sameSizes_with ..) h.eventBuffer_eq rfl rfl⟩

theorem prepare_holds {tb₀ : TimestampedBuffer} (h : tb₀.prepare memory = some (tb, result)) :
    ∃ rb, tb.Holds rb 0 := by
  obtain ⟨rb, hprep, hfc, -, hcreate, -⟩ := prepare_spec h
  exact ⟨rb, hprep, hfc, by rw [(rb.create_spec hcreate).1, Nat.zero_mul], Nat.zero_le _⟩

/-- Along every run after `prepare` whose steps all fit, the frame counter is the number of
frames in the ring and stays within the buffer size. -/
theorem accounted_of_fitting_run {tb₀ tb tb' : TimestampedBuffer} {ops : List Op}
    (hprep : tb₀.prepare memory = some (tb, true)) (hrun : Run (Guarded Fits step) tb ops tb') :
    tb'.Accounted := by
  have hinv : ∃ rb n, tb'.Holds rb n := by
    refine hrun.invariant (fun b => ∃ rb n, b.Holds rb n) ?_ ?_
    · rintro b op b' ⟨rb, n, hb⟩ ⟨hfits, hstep⟩
      exact hb.step hfits hstep
    · obtain ⟨rb, hb⟩ := prepare_holds hprep
      exact ⟨rb, 0, hb⟩
  obtain ⟨rb, n, hb⟩ := hinv
  exact hb.accounted

/-- A buffer of three frames of four bytes. Its ring has sixteen bytes. -/
def threeFrames : TimestampedBuffer :=
  { TimestampedBuffer.new with
    eventSize := 4
    eventsPerFrame := 1
    bufferSize := 3
    nominalRate := 512
    updatePeriod := 2 }

def threeFramesPrepared : TimestampedBuffer :=
  (threeFrames.prepare fun _ => 0).elim threeFrames (·.1)

theorem threeFrames_prepare :
    threeFrames.prepare (fun _ => 0) = some (threeFramesPrepared, true) := rfl

theorem accounted_of_fitting_run_threeFrames : ∃ tb',
    Run (Guarded Fits step) threeFramesPrepared
        [.setTransparent false, .writeFrames 2 (fun _ => 1) 0] tb' ∧ tb'.Accounted := by
  have hrun : Run (Guarded Fits step) threeFramesPrepared
      [.setTransparent false, .writeFrames 2 (fun _ => 1) 0] _ :=
    .cons ⟨trivial, rfl⟩ (.cons ⟨Or.inr (Or.inl ⟨by decide, by decide⟩), rfl⟩ (.nil _))
  exact ⟨_, hrun, accounted_of_fitting_run threeFrames_prepare hrun⟩

/-- The second write stores seven of its eight bytes, fails, and leaves them behind: fifteen
readable bytes for two counted frames. -/
theorem not_accounted_after_failed_write : ∃ tb',
    threeFrames.prepare (fun _ => 0) = some (threeFramesPrepared, true) ∧
      Run (Guarded Always step) threeFramesPrepared
        [.setTransparent false, .writeFrames 2 (fun _ => 1) 0, .writeFrames 2 (fun _ => 1) 0] tb' ∧
      tb'.framecounter = 2 ∧ tb'.frameBytes = 4 ∧ tb'.readable = 15 ∧ ¬ tb'.Accounted := by
  refine ⟨_, threeFrames_prepare,
    .cons ⟨trivial, rfl⟩ (.cons ⟨trivial, rfl⟩ (.cons ⟨trivial, rfl⟩ (.nil _))), ?_⟩
  decide +kernel

end TimestampedBuffer
end Ffado
