import Ffado.Streaming.Readiness

/-!
# Transfers of one period

The manager accepts every period of at least 8, 16 or 32 frames, depending on the rate. The
block transfers work in blocks of eight frames, and stop the process when the frames that are
left are no whole number of blocks. A period that is no multiple of eight gets through only if
it lies in the straight part of the ring, so that it is moved in one chunk.
-/
namespace Ffado

open CircularMemory LabelledRun MachineInt TransferPlan

theorem eight_le_of_streamingParamsOk {params : StreamingParams} {period : ℕ} {rate nBuffers : ℤ}
    (h : streamingParamsOk params period rate nBuffers = true) :
      framesPerProcessBlock ≤ period := by
  have hnonneg : ¬ (period : ℤ) < 0 := by omega
  simp only [streamingParamsOk, if_neg hnonneg] at h
  rw [framesPerProcessBlock]
  split_ifs at h <;> omega

section Loop

variable {dir : Direction} {cs blk : ℕ} {pos space : Ringbuffer → ℕ}
  {R : Ringbuffer → BlockCall → Ringbuffer → Prop}

theorem Direction.Law.transferLoop_straight (law : dir.Law cs blk pos space R) (hcs : 0 < cs)
    (hblk : blk = framesPerProcessBlock * cs) {nbframes : ℕ} (h8 : framesPerProcessBlock ≤ nbframes)
    (hM : nbframes * cs < 2 ^ 32) (fuel : ℕ) (rb : Ringbuffer) (processBuffer : ℕ → UInt8)
    (hle : nbframes * cs ≤ straight rb.size (pos rb) (space rb)) :
    ∃ rb' processBuffer' calls,
      transferLoop dir cs blk nbframes (fuel + 2) rb processBuffer (nbframes * cs) =
        ⟨rb', processBuffer', calls, .returned true⟩ ∧ Tiles cs 0 calls nbframes := by
  have hblock : blk ≤ nbframes * cs := hblk ▸ Nat.mul_le_mul_right cs h8
  have hb : 0 < blk := hblk ▸ Nat.mul_pos (by decide) hcs
  have hspace := straight_le rb.size (pos rb) (space rb)
  have hchunk : chunk rb.size blk (pos rb) (space rb) (nbframes * cs) = nbframes * cs := by
    rw [chunk, if_neg (by omega), if_neg (by omega)]
  obtain ⟨hmoved, hspec⟩ := law.handover_spec processBuffer (nbframes * cs)
    (frameOffset cs nbframes (nbframes * cs)) (by omega : blk ≤ space rb)
  rw [hchunk] at hmoved hspec
  have hframes := hspec.nframes_eq
  rw [if_neg (by omega), Nat.mul_div_cancel _ hcs] at hframes
  have hoffset := frameOffset_eq hcs (Nat.zero_le _) hM
  have hdone : u32 (nbframes * cs + 2 ^ 32 - nbframes * cs) = 0 := by
    rw [Nat.add_sub_cancel_left]
    rfl
  have hne : nbframes * cs ≠ 0 := by omega
  have hroom : ¬ space rb < blk := by omega
  have hend : ∀ rb processBuffer, transferLoop dir cs blk nbframes (fuel + 1) rb processBuffer 0 =
      ⟨rb, processBuffer, [], .returned true⟩ := fun rb processBuffer => by simp [transferLoop]
  unfold transferLoop
  simp only [law.vector_len, xrunOf_nonneg, if_false, hmoved, hdone, hcs.ne', hb.ne', false_and,
    false_or, Nat.zero_mod, ne_eq, not_true_eq_false, hne, hroom, hend]
  refine ⟨_, _, _, rfl, .cons (hspec.offset_eq.trans hoffset) ?_ ?_ ?_⟩
  · rw [hframes]
    exact Nat.lt_of_lt_of_le (by decide) h8
  · rw [hspec.length_data, hframes]
  · rw [hframes, Nat.zero_add]
    exact .nil nbframes

end Loop

namespace TimestampedBuffer

variable {tb : TimestampedBuffer} {rb : Ringbuffer}

/-- A period of at least one block, for which there is room (or data), is transferred if it is a
whole number of blocks or lies in the straight part of the ring. Otherwise the process stops. -/
theorem Prepared.blockTransfer_period (h : tb.Prepared rb) {dir : Direction}
    {pos space : Ringbuffer → ℕ} {R : Ringbuffer → BlockCall → Ringbuffer → Prop}
    (law : dir.Law tb.clusterSize tb.processBlockSize pos space R) {period : ℕ}
    (h8 : framesPerProcessBlock ≤ period) (hspace : space rb < rb.size)
    (hfits : period * tb.frameBytes ≤ space rb) :
    if framesPerProcessBlock ∣ period ∨
        period * tb.frameBytes ≤ straight rb.size (pos rb) (space rb) then
      ∃ rb' processBuffer calls, tb.blockTransfer dir period =
        ⟨{ tb with eventBuffer := some rb', processBuffer := processBuffer }, calls,
          .returned true⟩ ∧ Tiles tb.frameBytes 0 calls period
    else (tb.blockTransfer dir period).exit = .aborted := by
  have hsize := rb.size_le
  have hfb := h.frameBytes_pos
  have hblock := Nat.mul_le_mul_right tb.frameBytes h8
  obtain ⟨hcs, hblk, hbytes⟩ := h.sizes_exact le_rfl h8 (by omega)
  split_ifs with hcase
  · by_cases hd : framesPerProcessBlock ∣ period
    · obtain ⟨rb', pb, calls, hres, -, htiles⟩ := h.blockTransfer_tiles law hd hspace hfits
      exact ⟨rb', pb, calls, hres, htiles⟩
    · rw [hcs, hblk] at law
      obtain ⟨fuel, hfuel⟩ : ∃ fuel, rb.size = fuel + 2 := ⟨rb.size - 2, by
        rw [framesPerProcessBlock] at hblock
        omega⟩
      obtain ⟨rb', pb, calls, hres, htiles⟩ := law.transferLoop_straight hfb rfl h8 (by omega) fuel
        rb tb.processBuffer (hcase.resolve_left hd)
      simp only [blockTransfer, h.eventBuffer_eq, hbytes, hcs, hblk, hfuel, hres]
      exact ⟨rb', pb, calls, rfl, htiles⟩
  · obtain ⟨hd, hlt⟩ := not_or.mp hcase
    rw [hcs, hblk] at law
    obtain ⟨fuel, hfuel⟩ := Nat.exists_eq_add_of_lt rb.size_pos
    rw [Nat.zero_add] at hfuel
    have hbroken : ¬ framesPerProcessBlock * tb.frameBytes ∣ period * tb.frameBytes := by
      rw [Nat.mul_dvd_mul_iff_right hfb]
      exact hd
    obtain ⟨-, hexit, -⟩ := law.transferLoop_spec hfb.ne' period rb.size rb tb.processBuffer
      (period * tb.frameBytes)
    have hplan : (plan (2 ^ 32) rb.size (framesPerProcessBlock * tb.frameBytes) (fuel + 1) (pos rb)
        (space rb) (period * tb.frameBytes)).2 = .misaligned :=
      plan_misaligned (Nat.mul_pos (by decide) hfb) hfits (by omega) hblock hbroken
        (not_le.mp hlt)
    simp only [blockTransfer, h.eventBuffer_eq, hbytes, hcs, hblk, hexit]
    rw [hfuel] at hplan ⊢
    rw [hplan]
    rfl

end TimestampedBuffer

namespace StreamProcessor

/-- The call succeeds, has passed the frames `0, …, period - 1` to the client, once each and in
order, and leaves the frame counter at `count`. -/
def PeriodMoved (sp : StreamProcessor) (r : BlockResult) (answer : Option (StreamProcessor × Bool))
    (period : ℕ) (count : ℤ) : Prop :=
  ∃ sp', answer = some (sp', true) ∧ Tiles sp.dataBuffer.frameBytes 0 r.calls period ∧
    sp'.dataBuffer.framecounter = count

variable {sp : StreamProcessor} {rb : Ringbuffer} {period : ℕ}

theorem getFrames_period_iff (ctx : Context) (c : Client) (hwet : sp.state ≠ .dryRunning)
    (hprep : sp.dataBuffer.Prepared rb) (h8 : framesPerProcessBlock ≤ period)
    (htype : sp.processorType = .receive) (hsync : ctx.syncTicksPerFrame ≠ 0)
    (hdata : period * sp.dataBuffer.frameBytes ≤ rb.readSpace)
    (hcount : period ≤ sp.dataBuffer.framecounter ∧ sp.dataBuffer.framecounter < 2 ^ 31) :
    sp.PeriodMoved (sp.dataBuffer.blockProcessReadFrames c period) (sp.getFrames ctx c period)
        period (sp.dataBuffer.framecounter - period) ↔
      framesPerProcessBlock ∣ period ∨ period * sp.dataBuffer.frameBytes ≤
        straight rb.size rb.readPtr rb.readSpace := by
  have hexact : i32 (sp.dataBuffer.framecounter - period) = sp.dataBuffer.framecounter - period :=
    i32_of_range (by omega) (by omega)
  have htransfer := hprep.blockTransfer_period (reading_law c _ _) h8 rb.readSpace_lt hdata
  simp only [PeriodMoved, getFrames, getFramesWet, htype, hwet, hsync, if_true, if_false]
  split_ifs at htransfer with hcase
  · obtain ⟨rb', pb, calls, hres, htiles⟩ := htransfer
    simp only [TimestampedBuffer.blockProcessReadFrames, hres, if_true, hcase, iff_true]
    exact ⟨_, rfl, htiles, hexact⟩
  · simp [TimestampedBuffer.blockProcessReadFrames, htransfer, blockOutcome, hcase]

theorem putFrames_period_iff (c : Client) {ts : ℚ} (hwet : sp.state ≠ .dryRunning)
    (hprep : sp.dataBuffer.Prepared rb) (h8 : framesPerProcessBlock ≤ period)
    (htype : sp.processorType = .transmit) (hperiod : period = sp.dataBuffer.updatePeriod)
    (hts : ts < sp.dataBuffer.wrapAt ∧ ts ≥ 0)
    (hspace : period * sp.dataBuffer.frameBytes ≤ rb.writeSpace)
    (hcount : 0 ≤ sp.dataBuffer.framecounter ∧ sp.dataBuffer.framecounter + period < 2 ^ 31) :
    sp.PeriodMoved (sp.dataBuffer.blockProcessWriteFrames c period ts) (sp.putFrames c period ts)
        period (sp.dataBuffer.framecounter + period) ↔
      framesPerProcessBlock ∣ period ∨ period * sp.dataBuffer.frameBytes ≤
        straight rb.size rb.writePtr rb.writeSpace := by
  have hexact := i32_of_range (by omega) hcount.2
  have hlt : rb.writeSpace < rb.size := by
    have := rb.readSpace_add_writeSpace
    omega
  have htransfer := hprep.blockTransfer_period (writing_law c _ _) h8 hlt hspace
  simp only [PeriodMoved, putFrames, putFramesWet, htype, hwet, if_true, if_false]
  split_ifs at htransfer with hcase
  · obtain ⟨rb', pb, calls, hres, htiles⟩ := htransfer
    obtain ⟨counted, hinc⟩ := Option.isSome_iff_exists.mp
      (({ sp.dataBuffer with eventBuffer := some rb', processBuffer := pb
        }.incrementFrameCounter_isSome_iff period ts).mpr ⟨hts.1, hts.2, hperiod⟩)
    obtain ⟨-, _, _, _, _, rfl⟩ := TimestampedBuffer.incrementFrameCounter_spec hinc
    simp only [TimestampedBuffer.blockProcessWriteFrames, hres, if_true, hinc, hcase, iff_true]
    exact ⟨_, rfl, htiles, hexact⟩
  · simp [TimestampedBuffer.blockProcessWriteFrames, htransfer, blockOutcome, hcase]

/-- A transfer of one accepted period works just if the period is a multiple of eight or lies in
the straight part of the ring, in front of the read or the write pointer. -/
theorem period_transfer_iff (params : StreamingParams) (period : ℕ)
    (haccepted : streamingParamsOk params period (-1) (-1) = true) (sp : StreamProcessor)
    (ctx : Context) (c : Client) (rb : Ringbuffer) (hprep : sp.dataBuffer.Prepared rb)
    (hwet : sp.state ≠ .dryRunning) :
    (sp.processorType = .receive → ctx.syncTicksPerFrame ≠ 0 →
      period * sp.dataBuffer.frameBytes ≤ rb.readSpace →
      period ≤ sp.dataBuffer.framecounter ∧ sp.dataBuffer.framecounter < 2 ^ 31 →
      (sp.PeriodMoved (sp.dataBuffer.blockProcessReadFrames c period) (sp.getFrames ctx c period)
          period (sp.dataBuffer.framecounter - period) ↔
        framesPerProcessBlock ∣ period ∨ period * sp.dataBuffer.frameBytes ≤
          straight rb.size rb.readPtr rb.readSpace)) ∧
    (sp.processorType = .transmit → period = sp.dataBuffer.updatePeriod → ∀ ts : ℚ,
      ts < sp.dataBuffer.wrapAt ∧ ts ≥ 0 →
      period * sp.dataBuffer.frameBytes ≤ rb.writeSpace →
      0 ≤ sp.dataBuffer.framecounter ∧ sp.dataBuffer.framecounter + period < 2 ^ 31 →
      (sp.PeriodMoved (sp.dataBuffer.blockProcessWriteFrames c period ts)
          (sp.putFrames c period ts) period (sp.dataBuffer.framecounter + period) ↔
        framesPerProcessBlock ∣ period ∨ period * sp.dataBuffer.frameBytes ≤
          straight rb.size rb.writePtr rb.writeSpace)) := by
  have h8 := eight_le_of_streamingParamsOk haccepted
  constructor
  · intro htype hsync hdata hcount
    exact getFrames_period_iff ctx c hwet hprep h8 htype hsync hdata hcount
  · intro htype hperiod ts hts hspace hcount
    exact putFrames_period_iff c hwet hprep h8 htype hperiod hts hspace hcount

def lateSender : StreamProcessor :=
  { new .transmit with
    state := .running
    nextState := .running
    dataBuffer := lateBuffer }

theorem period_transfer_iff_lateSender :
    streamingParamsOk ⟨8, 48000, 2⟩ 8 (-1) (-1) = true ∧
      lateSender.PeriodMoved (lateSender.dataBuffer.blockProcessWriteFrames numberingClient 8 0)
        (lateSender.putFrames numberingClient 8 0) 8 8 := by
  have haccepted : streamingParamsOk ⟨8, 48000, 2⟩ (8 : ℕ) (-1) (-1) = true := by decide
  have hprep : lateSender.dataBuffer.Prepared lateRing := ⟨rfl, by decide, by decide, rfl, rfl⟩
  have hiff := (period_transfer_iff ⟨8, 48000, 2⟩ 8 haccepted lateSender quadletStream
    numberingClient lateRing hprep (by decide)).2 rfl rfl 0 (by decide +kernel) (by decide)
    (by decide)
  exact ⟨haccepted, hiff.mpr (.inl (by decide))⟩

/-- The ring for two periods of thirteen quadlets, when two periods have passed through it. -/
def passedRing : Ringbuffer where
  buf := fun _ => 0
  powerOfTwo := 7
  writePtr := 104
  readPtr := 104
  one_le_powerOfTwo := by decide
  powerOfTwo_le := by decide
  writePtr_lt := by decide
  readPtr_lt := by decide

/-- Frames of one quadlet, six of them before the end of the ring. -/
def oddSender : StreamProcessor :=
  { lateSender with
    dataBuffer := { lateBuffer with
      eventBuffer := some passedRing
      clusterSize := 4
      processBlockSize := 32
      eventSize := 4
      bufferSize := 27
      updatePeriod := 13 } }

/-- An accepted period of thirteen frames stops the process at the first chunk. -/
theorem odd_period_aborts :
    streamingParamsOk ⟨13, 48000, 2⟩ 13 (-1) (-1) = true ∧
      oddSender.dataBuffer.Prepared passedRing ∧
      13 * oddSender.dataBuffer.frameBytes ≤ passedRing.writeSpace ∧
      (oddSender.dataBuffer.blockProcessWriteFrames numberingClient 13 0).calls.map (·.nframes) =
        [8] ∧
      (oddSender.putFrames numberingClient 13 0).isNone = true := by
  refine ⟨by decide, ⟨rfl, by decide, by decide, rfl, rfl⟩, by decide, ?_, ?_⟩
  · decide +kernel
  · decide +kernel

end StreamProcessor
end Ffado
