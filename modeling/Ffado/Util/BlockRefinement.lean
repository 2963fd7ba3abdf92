import Ffado.Util.BlockTransfer

/-!
# Block processing refines a queue transfer

For a whole number of process blocks for which there is room (or data), the chunks of a
transfer are invisible: a write appends the client's frames to the queue and a read shows
the client the oldest frames, and the client is asked for the frames `0, 1, 2, …` once each
and in this order.
-/
namespace Ffado

open CircularMemory TransferPlan LabelledRun MachineInt

variable {calls : List BlockCall} {frameBytes a b : ℕ}

/-- The calls ask for the frames from `a` up to `b`, each once and in order, and every call
comes with the bytes of its frames. -/
inductive Tiles (frameBytes : ℕ) : ℕ → List BlockCall → ℕ → Prop
  | nil (a : ℕ) : Tiles frameBytes a [] a
  | cons {a b : ℕ} {call : BlockCall} {calls : List BlockCall} :
      call.offset = a → 0 < call.nframes → call.data.length = call.nframes * frameBytes →
      Tiles frameBytes (a + call.nframes) calls b → Tiles frameBytes a (call :: calls) b

theorem Tiles.length_data (h : Tiles frameBytes a calls b) :
    a ≤ b ∧ (calls.flatMap (·.data)).length = (b - a) * frameBytes := by
  induction h with
  | nil => simp
  | @cons a b call calls _ _ hlen _ ih =>
    refine ⟨by omega, ?_⟩
    rw [List.flatMap_cons, List.length_append, ih.2, hlen, ← Nat.add_mul]
    congr 1
    omega

theorem Tiles.length_of_mem (h : Tiles frameBytes a calls b) :
    ∀ call ∈ calls, call.data.length = call.nframes * frameBytes := by
  induction h with
  | nil => simp
  | cons _ _ hlen _ ih => exact List.forall_mem_cons.mpr ⟨hlen, ih⟩

/-- Calls that are all served from one memory of frames deliver it without gaps. -/
theorem Tiles.flatMap_eq_slice (h : Tiles frameBytes a calls b) (frames : ℕ → UInt8)
    (hdata : ∀ call ∈ calls, call.data = slice frames (call.offset * frameBytes) call.data.length) :
    calls.flatMap (·.data) = slice frames (a * frameBytes) ((b - a) * frameBytes) := by
  induction h with
  | nil => simp
  | @cons a b call calls hoff _ hlen htail ih =>
    have hcall := hdata call List.mem_cons_self
    have hrest := ih fun c hc => hdata c (List.mem_cons_of_mem _ hc)
    have hle := htail.length_data.1
    have hsplit : (b - a) * frameBytes =
        call.nframes * frameBytes + (b - (a + call.nframes)) * frameBytes := by
      rw [← Nat.add_mul]
      congr 1
      omega
    rw [List.flatMap_cons, hrest, hcall, hlen, hoff, hsplit, slice_append, Nat.add_mul]

section Loop

variable {dir : Direction} {cs blk : ℕ} {pos space : Ringbuffer → ℕ}
  {R : Ringbuffer → BlockCall → Ringbuffer → Prop}

theorem frameOffset_eq {a nbframes : ℕ} (hcs : 0 < cs) (ha : a ≤ nbframes)
    (hM : nbframes * cs < 2 ^ 32) : frameOffset cs nbframes ((nbframes - a) * cs) = a := by
  have hsplit : nbframes * cs = a * cs + (nbframes - a) * cs := by
    rw [← Nat.add_mul, Nat.add_sub_cancel' ha]
  have he : nbframes * cs + 2 ^ 32 - (nbframes - a) * cs = a * cs + 2 ^ 32 := by omega
  rw [frameOffset, u32_of_lt hM, he, u32, Nat.add_mod_right, Nat.mod_eq_of_lt (by omega),
    Nat.mul_div_cancel _ hcs]

/-- In a transfer of whole process blocks each chunk is a whole number of process blocks,
within the frames that are left. -/
theorem Direction.Law.handover_frames (law : dir.Law cs blk pos space R) (hcs : 0 < cs)
    (hblk : blk = framesPerProcessBlock * cs) {rb : Ringbuffer} (processBuffer : ℕ → UInt8)
    {frames : ℕ} (offset : ℕ) (hpos : 0 < frames) (h8 : framesPerProcessBlock ∣ frames)
    (hspace : frames * cs ≤ space rb) :
    let h := dir.handover blk rb processBuffer (frames * cs) offset
    h.2 = h.1.call.nframes * cs ∧ h.1.call.data.length = h.1.call.nframes * cs ∧
      R rb h.1.call h.1.done ∧ h.1.call.offset = offset ∧ 0 < h.1.call.nframes ∧
      h.1.call.nframes ≤ frames ∧ framesPerProcessBlock ∣ h.1.call.nframes := by
  have hleft : 0 < frames * cs := Nat.mul_pos hpos hcs
  have hdl : blk ∣ frames * cs := hblk ▸ Nat.mul_dvd_mul_right h8 cs
  have hbs : blk ≤ space rb := (Nat.le_of_dvd hleft hdl).trans hspace
  have hb : 0 < blk := hblk ▸ Nat.mul_pos (by decide) hcs
  obtain ⟨hmoved, hspec⟩ := law.handover_spec processBuffer (frames * cs) offset hbs
  have hk0 := chunk_pos rb.size (pos rb) (space rb) hb hleft.ne'
  have hkl := chunk_le_left rb.size (pos rb) (space rb) hdl hleft.ne'
  obtain ⟨m, hm⟩ := dvd_chunk rb.size (pos rb) (space rb) hdl
  have hframes : (dir.handover blk rb processBuffer (frames * cs) offset).1.call.nframes =
      framesPerProcessBlock * m := by
    rw [hspec.nframes_eq]
    split_ifs with hs
    · have hchunk : chunk rb.size blk (pos rb) (space rb) (frames * cs) = blk := by simp [chunk, hs]
      have hm1 : m = 1 := Nat.eq_of_mul_eq_mul_left hb (by omega)
      rw [hm1, Nat.mul_one]
    · rw [hm, hblk, Nat.mul_right_comm, Nat.mul_div_cancel _ hcs]
  have hbytes : chunk rb.size blk (pos rb) (space rb) (frames * cs) =
      framesPerProcessBlock * m * cs := by
    rw [hm, hblk, Nat.mul_right_comm]
  simp only [hframes]
  refine ⟨hmoved.trans hbytes, hspec.length_data.trans hbytes, hspec.step, hspec.offset_eq, ?_, ?_,
    dvd_mul_right _ _⟩
  · exact Nat.pos_of_mul_pos_right (hbytes ▸ hk0)
  · exact Nat.le_of_mul_le_mul_right (hbytes ▸ hkl) hcs

/-- A transfer of whole process blocks covers its frames: the counter of the bytes that are
left stays the size of the frames that are left. -/
theorem Direction.Law.transferLoop_tiles (law : dir.Law cs blk pos space R) (hcs : 0 < cs)
    (hblk : blk = framesPerProcessBlock * cs) (nbframes : ℕ) (hM : nbframes * cs < 2 ^ 32) :
    ∀ (fuel : ℕ) (rb : Ringbuffer) (processBuffer : ℕ → UInt8) (a : ℕ), a ≤ nbframes →
      framesPerProcessBlock ∣ nbframes - a → (nbframes - a) * cs ≤ space rb → space rb < fuel →
      Tiles cs a (transferLoop dir cs blk nbframes fuel rb processBuffer
        ((nbframes - a) * cs)).calls nbframes := by
  intro fuel
  induction fuel with
  | zero =>
    intro rb processBuffer a _ _ _ hfuel
    omega
  | succ fuel ih =>
    intro rb processBuffer a ha h8 hspace hfuel
    rcases Nat.eq_or_lt_of_le ha with rfl | hlt
    · simp only [transferLoop, Nat.sub_self, Nat.zero_mul, if_true]
      exact .nil a
    have hleft : 0 < (nbframes - a) * cs := Nat.mul_pos (by omega) hcs
    have hleM : (nbframes - a) * cs ≤ nbframes * cs := Nat.mul_le_mul_right _ (by omega)
    have hb : 0 < blk := hblk ▸ Nat.mul_pos (by decide) hcs
    have hbs : blk ≤ space rb :=
      (Nat.le_of_dvd hleft (hblk ▸ Nat.mul_dvd_mul_right h8 cs)).trans hspace
    obtain ⟨hmoved, hlen, hstep, hoff, hpos, hle, hd⟩ := law.handover_frames hcs hblk processBuffer
      (frameOffset cs nbframes ((nbframes - a) * cs)) (by omega) h8 hspace
    have hspace' := law.space_eq hstep
    unfold transferLoop
    simp only [law.vector_len, xrunOf_nonneg, if_false, hmoved, hleft.ne', hcs.ne', hb.ne',
      false_and, false_or, Nat.not_lt.mpr hbs]
    generalize (dir.handover blk rb processBuffer ((nbframes - a) * cs)
      (frameOffset cs nbframes ((nbframes - a) * cs))).1 = h at *
    have hsub : (nbframes - a) * cs - h.call.nframes * cs =
        (nbframes - (a + h.call.nframes)) * cs := by
      rw [← Nat.sub_mul, Nat.sub_sub]
    have hbytes := Nat.mul_le_mul_right cs hle
    have hnext : u32 ((nbframes - a) * cs + 2 ^ 32 - h.call.nframes * cs) =
        (nbframes - (a + h.call.nframes)) * cs := by
      rw [← hsub]
      exact remaining_of_le hbytes (by omega)
    have h8' : framesPerProcessBlock ∣ nbframes - (a + h.call.nframes) := by
      rw [← Nat.sub_sub]
      exact Nat.dvd_sub h8 hd
    have haligned : (nbframes - (a + h.call.nframes)) * cs % blk = 0 := by
      rw [hblk]
      exact Nat.mod_eq_zero_of_dvd (Nat.mul_dvd_mul_right h8' cs)
    have hmoves : 0 < h.call.nframes * cs := Nat.mul_pos hpos hcs
    simp only [hnext, haligned, ne_eq, not_true_eq_false, if_false]
    refine .cons (hoff.trans (frameOffset_eq hcs ha hM)) hpos hlen ?_
    exact ih _ _ _ (by omega) h8' (by omega) (by omega)

end Loop

namespace TimestampedBuffer

variable {tb : TimestampedBuffer} {rb : Ringbuffer}

variable {nbframes : ℕ}

theorem blockSize_eq (nbframes : ℕ) : tb.blockSize nbframes = u32 (nbframes * tb.frameBytes) := by
  rw [blockSize, u32_u32_mul, frameBytes]
  congr 1
  ring

/-- Nothing overflows in a transfer of at least one process block that fits a ring. -/
theorem Prepared.sizes_exact (h : tb.Prepared rb) {n : ℕ} (hn : n ≤ nbframes)
    (hpos : framesPerProcessBlock ≤ nbframes) (hfits : nbframes * tb.frameBytes < 2 ^ 30) :
    tb.clusterSize = tb.frameBytes ∧
      tb.processBlockSize = framesPerProcessBlock * tb.frameBytes ∧
      tb.blockSize n = n * tb.frameBytes := by
  have hle := Nat.mul_le_mul_right tb.frameBytes hpos
  have hle' := Nat.mul_le_mul_right tb.frameBytes hn
  obtain ⟨hcs, hblk⟩ := h.processBlockSize_exact (by omega)
  exact ⟨hcs, hblk, by rw [blockSize_eq, u32_of_lt (by omega)]⟩

theorem Prepared.blockTransfer_tiles (h : tb.Prepared rb)
    {dir : Direction} {pos space : Ringbuffer → ℕ} {R : Ringbuffer → BlockCall → Ringbuffer → Prop}
    (law : dir.Law tb.clusterSize tb.processBlockSize pos space R)
    (h8 : framesPerProcessBlock ∣ nbframes) (hspace : space rb < rb.size)
    (hfits : nbframes * tb.frameBytes ≤ space rb) :
    ∃ rb' processBuffer calls, tb.blockTransfer dir nbframes =
        ⟨{ tb with eventBuffer := some rb', processBuffer := processBuffer }, calls,
          .returned true⟩ ∧
      Run R rb calls rb' ∧ Tiles tb.frameBytes 0 calls nbframes := by
  have hsize := rb.size_le
  simp only [blockTransfer, h.eventBuffer_eq]
  rcases Nat.eq_zero_or_pos nbframes with rfl | hpos
  · obtain ⟨fuel, hfuel⟩ := Nat.exists_eq_add_of_lt rb.size_pos
    have hzero : tb.blockSize 0 = 0 := by simp [blockSize, u32]
    rw [hfuel, hzero]
    exact ⟨rb, tb.processBuffer, [], by simp [transferLoop], .nil rb, .nil 0⟩
  · obtain ⟨hcs, hblk, hbytes⟩ := h.sizes_exact le_rfl (Nat.le_of_dvd hpos h8) (by omega)
    have hfb := h.frameBytes_pos
    rw [hbytes]
    rw [hcs, hblk] at law ⊢
    obtain ⟨-, hexit, hrun⟩ := law.transferLoop_spec hfb.ne' nbframes rb.size rb tb.processBuffer
      (nbframes * tb.frameBytes)
    have hplan := plan_complete (M := 2 ^ 32) (N := rb.size)
      (Nat.mul_pos (by decide : 0 < framesPerProcessBlock) hfb) rb.size (pos rb) (space rb)
      (nbframes * tb.frameBytes) hspace (Nat.mul_dvd_mul_right h8 _) hfits (by omega)
    have htiles := law.transferLoop_tiles hfb rfl nbframes (by omega) rb.size rb
      tb.processBuffer 0 (by omega) (by simpa using h8) (by simpa using hfits) hspace
    rw [hplan.1] at hexit
    rw [Nat.sub_zero] at htiles
    exact ⟨_, _, _, by rw [hexit]; rfl, hrun, htiles⟩

/-- After a transfer that ran to its end, the frame counter decides whether the operation
returns; the ring is as the transfer left it. -/
theorem blockProcessWriteFrames_of_transfer {c : Client} {b : TimestampedBuffer}
    {calls : List BlockCall} (ts : ℚ)
    (h : tb.blockTransfer (writing c tb.clusterSize tb.processBlockSize) nbframes =
      ⟨b, calls, .returned true⟩)
    :
    let r := tb.blockProcessWriteFrames c nbframes ts
    r.buffer.eventBuffer = b.eventBuffer ∧ r.calls = calls ∧
      r.exit = if ts < b.wrapAt ∧ ts ≥ 0 ∧ nbframes = b.updatePeriod then .returned true
        else .aborted := by
  have hsome := b.incrementFrameCounter_isSome_iff nbframes ts
  simp only [blockProcessWriteFrames, h, if_true]
  cases hinc : b.incrementFrameCounter nbframes ts with
  | none =>
    rw [hinc] at hsome
    simpa using hsome
  | some counted =>
    obtain ⟨hassert, _, _, _, _, rfl⟩ := incrementFrameCounter_spec hinc
    simp [hassert]

theorem Prepared.blockProcessWriteFrames_appends (h : tb.Prepared rb) (c : Client) (ts : ℚ)
    (h8 : framesPerProcessBlock ∣ nbframes) (hspace : nbframes * tb.frameBytes ≤ rb.writeSpace) :
    let r := tb.blockProcessWriteFrames c nbframes ts
    ∃ rb', r.buffer.eventBuffer = some rb' ∧ Run (WriteStep c) rb r.calls rb' ∧
      Tiles tb.frameBytes 0 r.calls nbframes ∧
      r.exit = if ts < tb.wrapAt ∧ ts ≥ 0 ∧ nbframes = tb.updatePeriod then .returned true
        else .aborted := by
  have hlt : rb.writeSpace < rb.size := by
    have := rb.readSpace_add_writeSpace
    omega
  obtain ⟨rb', pb, calls, hres, hrun, htiles⟩ :=
    h.blockTransfer_tiles (writing_law c _ _) h8 hlt hspace
  obtain ⟨hring, hcalls, hexit⟩ := blockProcessWriteFrames_of_transfer ts hres
  exact ⟨rb', hring, hcalls ▸ hrun, hcalls ▸ htiles, hexit⟩

theorem Prepared.blockProcessReadFrames_pops (h : tb.Prepared rb) (c : Client)
    (h8 : framesPerProcessBlock ∣ nbframes) (hspace : nbframes * tb.frameBytes ≤ rb.readSpace) :
    let r := tb.blockProcessReadFrames c nbframes
    ∃ rb', r.buffer.eventBuffer = some rb' ∧ Run (ReadStep c) rb r.calls rb' ∧
      Tiles tb.frameBytes 0 r.calls nbframes ∧ r.exit = .returned true := by
  obtain ⟨rb', pb, calls, hres, hrun, htiles⟩ :=
    h.blockTransfer_tiles (reading_law c _ _) h8 rb.readSpace_lt hspace
  simp only [blockProcessReadFrames, hres, if_true]
  exact ⟨rb', rfl, hrun, htiles, trivial⟩

end TimestampedBuffer

/-- The client writes its frames from one memory, whatever the area holds before. -/
def Client.Produces (c : Client) (frameBytes : ℕ) (frames : ℕ → UInt8) : Prop :=
  ∀ area nframes offset, ∀ i < nframes * frameBytes,
    (c.processWriteBlock area nframes offset).1 i = frames (offset * frameBytes + i)

/-- The block operations are queue transfers, for every ring, every position of its pointers
and every frame size. The calls tile the frames of the transfer. A write appends what the
calls produced, and for a client that serves its frames from one memory that is this memory,
frame by frame. A read shows the client the oldest frames, in order, and removes them. -/
theorem blockProcess_refines_fifo (c : Client) (tb : TimestampedBuffer) (rb : Ringbuffer)
    (hprep : tb.Prepared rb) (nbframes : ℕ) (h8 : framesPerProcessBlock ∣ nbframes) :
    (nbframes * tb.frameBytes ≤ rb.writeSpace → ∀ ts,
      let r := tb.blockProcessWriteFrames c nbframes ts
      ∃ rb', r.buffer.eventBuffer = some rb' ∧
        rb'.contents = rb.contents ++ r.calls.flatMap (·.data) ∧
        Tiles tb.frameBytes 0 r.calls nbframes ∧
        (∀ call ∈ r.calls, ∃ area, call.data =
          slice (c.processWriteBlock area call.nframes call.offset).1 0 call.data.length) ∧
        (∀ frames, c.Produces tb.frameBytes frames →
          rb'.contents = rb.contents ++ slice frames 0 (nbframes * tb.frameBytes)) ∧
        (0 ≤ ts → ts < tb.wrapAt → nbframes = tb.updatePeriod → r.exit = .returned true)) ∧
    (nbframes * tb.frameBytes ≤ rb.readSpace →
      let r := tb.blockProcessReadFrames c nbframes
      ∃ rb', r.buffer.eventBuffer = some rb' ∧
        r.calls.flatMap (·.data) = rb.contents.take (nbframes * tb.frameBytes) ∧
        rb'.contents = rb.contents.drop (nbframes * tb.frameBytes) ∧
        Tiles tb.frameBytes 0 r.calls nbframes ∧
        (∀ call ∈ r.calls, ∃ area, slice area 0 call.data.length = call.data ∧
          c.processReadBlock area call.nframes call.offset = call.ok) ∧
        r.exit = .returned true) := by
  constructor
  · intro hspace ts
    obtain ⟨rb', hring, hrun, htiles, hexit⟩ :=
      hprep.blockProcessWriteFrames_appends c ts h8 hspace
    have hcontents := contents_of_writes hrun
    have hproduced := hrun.forall_mem fun _ _ _ hstep => hstep.produced
    refine ⟨rb', hring, hcontents, htiles, ?_, ?_, ?_⟩
    · intro call hcall
      obtain ⟨area, -, hdata⟩ := hproduced call hcall
      exact ⟨area, hdata.symm⟩
    · intro frames hframes
      rw [hcontents, htiles.flatMap_eq_slice frames, Nat.zero_mul, Nat.sub_zero]
      intro call hcall
      obtain ⟨area, -, hdata⟩ := hproduced call hcall
      have hlen := htiles.length_of_mem call hcall
      rw [← hdata, length_slice]
      apply slice_congr
      intro i hi
      rw [Nat.zero_add]
      exact hframes area _ _ i (hlen ▸ hi)
    · intro h0 hwrap hper
      rw [hexit, if_pos ⟨hwrap, h0, hper⟩]
  · intro hspace
    obtain ⟨rb', hring, hrun, htiles, hexit⟩ := hprep.blockProcessReadFrames_pops c h8 hspace
    have hcontents := contents_of_reads hrun
    have hlen : ((tb.blockProcessReadFrames c nbframes).calls.flatMap (·.data)).length =
        nbframes * tb.frameBytes := by
      simpa using htiles.length_data.2
    refine ⟨rb', hring, ?_, ?_, htiles, ?_, hexit⟩
    · rw [hcontents, ← hlen, List.take_left]
    · rw [hcontents, ← hlen, List.drop_left]
    · exact hrun.forall_mem fun _ _ _ hstep => hstep.consumed

/-- A ring of 32 bytes whose pointers stand 12 bytes before its end. -/
def lateRing : Ringbuffer where
  buf := fun _ => 0
  powerOfTwo := 5
  writePtr := 20
  readPtr := 20
  one_le_powerOfTwo := by decide
  powerOfTwo_le := by decide
  writePtr_lt := by decide
  readPtr_lt := by decide

/-- Frames of three bytes, so that a process block straddles the end of `lateRing`. -/
def lateBuffer : TimestampedBuffer :=
  { TimestampedBuffer.new with
    eventBuffer := some lateRing
    clusterSize := 3
    processBlockSize := 24
    eventSize := 3
    eventsPerFrame := 1
    bufferSize := 10
    updatePeriod := 8 }

def numberingClient : Client where
  processReadBlock _ _ _ := true
  processWriteBlock _ _ offset := (fun i => UInt8.ofNat (offset * 3 + i), true)

theorem blockProcess_refines_fifo_lateBuffer :
    lateBuffer.Prepared lateRing ∧ 8 * lateBuffer.frameBytes ≤ lateRing.writeSpace ∧
      ∃ rb', (lateBuffer.blockProcessWriteFrames numberingClient 8 0).buffer.eventBuffer =
        some rb' ∧ rb'.contents = lateRing.contents ++ slice (fun i => UInt8.ofNat i) 0 24 := by
  have hprep : lateBuffer.Prepared lateRing := ⟨rfl, by decide, by decide, rfl, rfl⟩
  have hspace : 8 * lateBuffer.frameBytes ≤ lateRing.writeSpace := by decide
  obtain ⟨rb', hring, -, -, -, hframes, -⟩ :=
    (blockProcess_refines_fifo numberingClient lateBuffer lateRing hprep 8 (by decide)).1 hspace 0
  exact ⟨hprep, hspace, rb', hring, hframes _ fun _ _ _ _ _ => rfl⟩

end Ffado
