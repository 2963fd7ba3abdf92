import Ffado.Streaming.Readiness

/-!
# Failures of a block transfer

A block transfer fails at a chunk if the client refuses it, or if the ring runs out of data or
space. Both are meant to make the transfer return `false`, and `getFrames` and `putFrames` to
pass that on. A refusal is a `bool` that is compared with zero as an `int`, so the loop never
sees it, and the two callers ignore the result. This module relates what the operations return
to what happens inside them.
-/
namespace Ffado

open LabelledRun Postcondition TransferPlan

namespace TimestampedBuffer

variable (tb : TimestampedBuffer) (c : Client) (nbframes : ℕ) (ts : ℚ)

/-- The transfer comes to a chunk for which the ring has less than a process block. -/
def RunsOut (pos space : Ringbuffer → ℕ) : Prop :=
  tb.clusterSize ≠ 0 ∧ ∃ rb, tb.eventBuffer = some rb ∧
    (plan (2 ^ 32) rb.size tb.processBlockSize rb.size (pos rb) (space rb)
      (tb.blockSize nbframes)).2 = .short

def RunsOutOfData : Prop := tb.RunsOut nbframes Ringbuffer.readPtr Ringbuffer.readSpace
def RunsOutOfSpace : Prop := tb.RunsOut nbframes Ringbuffer.writePtr Ringbuffer.writeSpace

theorem exitOf_eq_false_iff (e : Ending) : exitOf e = .returned false ↔ e = .short := by
  cases e <;> simp [exitOf]

theorem transferLoop_zero_clusterSize (dir : Direction) (blk fuel : ℕ) (rb : Ringbuffer)
    (processBuffer : ℕ → UInt8) (left : ℕ) :
    (transferLoop dir 0 blk nbframes fuel rb processBuffer left).exit ≠ .returned false := by
  cases fuel with
  | zero => simp [transferLoop]
  | succ fuel =>
    unfold transferLoop
    split_ifs <;> simp_all

variable {tb} in
theorem blockTransfer_eq_false_iff {dir : Direction} {pos space : Ringbuffer → ℕ}
    {R : Ringbuffer → BlockCall → Ringbuffer → Prop}
    (law : dir.Law tb.clusterSize tb.processBlockSize pos space R) :
    (tb.blockTransfer dir nbframes).exit = .returned false ↔ tb.RunsOut nbframes pos space := by
  unfold blockTransfer RunsOut
  cases hring : tb.eventBuffer with
  | none => by_cases hbytes : tb.blockSize nbframes = 0 <;> simp [hbytes]
  | some rb =>
    by_cases hcs : tb.clusterSize = 0
    · simp [hcs, transferLoop_zero_clusterSize]
    · obtain ⟨-, hexit, -⟩ := law.transferLoop_spec hcs nbframes rb.size rb tb.processBuffer
        (tb.blockSize nbframes)
      simp only [hexit, exitOf_eq_false_iff]
      constructor
      · intro hshort
        exact ⟨hcs, rb, rfl, hshort⟩
      · rintro ⟨-, _, heq, hshort⟩
        cases heq
        exact hshort

theorem blockProcessReadFrames_eq_false_iff :
    (tb.blockProcessReadFrames c nbframes).exit = .returned false ↔ tb.RunsOutOfData nbframes := by
  rw [RunsOutOfData, ← blockTransfer_eq_false_iff nbframes (reading_law c _ _)]
  unfold blockProcessReadFrames
  dsimp only
  split_ifs with hdone <;> simp [hdone]

theorem blockProcessWriteFrames_eq_false_iff :
    (tb.blockProcessWriteFrames c nbframes ts).exit = .returned false ↔
      tb.RunsOutOfSpace nbframes := by
  rw [RunsOutOfSpace, ← blockTransfer_eq_false_iff nbframes (writing_law c _ _)]
  unfold blockProcessWriteFrames
  dsimp only
  split_ifs with hdone
  · cases (tb.blockTransfer _ nbframes).buffer.incrementFrameCounter nbframes ts <;> simp [hdone]
  · rfl

end TimestampedBuffer

/-- A failure inside a transfer reaches the caller of the processor: a refusal or running out
makes the transfer return `false`, and then the processor's call does so too. -/
structure FailureReported (r : BlockResult) (runsOut : Prop)
    (answer : Option (StreamProcessor × Bool)) : Prop where
  transfer : (∃ call ∈ r.calls, call.ok = false) ∨ runsOut → r.exit = .returned false
  caller : r.exit = .returned false → ∃ sp, answer = some (sp, false)

theorem failureReported_iff {r : BlockResult} {runsOut : Prop}
    {answer : Option (StreamProcessor × Bool)} (hexit : r.exit = .returned false ↔ runsOut)
    (hanswer : ∀ sp, answer ≠ some (sp, false)) :
    FailureReported r runsOut answer ↔ (∀ call ∈ r.calls, call.ok = true) ∧ ¬ runsOut := by
  constructor
  · intro h
    have hnot : ¬ runsOut := by
      intro hout
      obtain ⟨sp, hsp⟩ := h.caller (hexit.mpr hout)
      exact hanswer sp hsp
    refine ⟨?_, hnot⟩
    intro call hcall
    by_contra hrefused
    have hfalse := h.transfer (.inl ⟨call, hcall, by simpa using hrefused⟩)
    exact hnot (hexit.mp hfalse)
  · rintro ⟨hok, hnot⟩
    constructor
    · rintro (⟨call, hcall, hrefused⟩ | hout)
      · rw [hok call hcall] at hrefused
        cases hrefused
      · exact absurd hout hnot
    · intro hfalse
      exact absurd (hexit.mp hfalse) hnot

namespace StreamProcessor

variable (sp : StreamProcessor) (ctx : Context) (c : Client) (nbframes : ℕ) (ts : ℚ)

theorem getFramesWet_true :
    Ensures (sp.getFramesWet ctx c nbframes) fun r => r.2 = true := by
  apply Ensures.ite
  · intro _
    exact ensures_none
  · intro _
    apply ensures_bind
    rintro ⟨sp', result⟩
    exact ensures_some.mpr rfl

theorem putFramesWet_true : Ensures (sp.putFramesWet c nbframes ts) fun r => r.2 = true := by
  apply ensures_bind
  rintro ⟨sp', result⟩
  exact ensures_some.mpr rfl

variable {sp}

theorem getFrames_ne_false (hwet : sp.state ≠ .dryRunning) (sp' : StreamProcessor) :
    sp.getFrames ctx c nbframes ≠ some (sp', false) := by
  intro h
  unfold getFrames at h
  split_ifs at h
  have htrue := sp.getFramesWet_true ctx c nbframes _ h
  cases htrue

theorem putFrames_ne_false (hwet : sp.state ≠ .dryRunning) (sp' : StreamProcessor) :
    sp.putFrames c nbframes ts ≠ some (sp', false) := by
  intro h
  unfold putFrames at h
  split_ifs at h
  have htrue := sp.putFramesWet_true c nbframes ts _ h
  cases htrue

/-- On the wet path failures are reported exactly when there are none. -/
theorem transfer_failure_reported_iff (hwet : sp.state ≠ .dryRunning) :
    (FailureReported (sp.dataBuffer.blockProcessReadFrames c nbframes)
        (sp.dataBuffer.RunsOutOfData nbframes) (sp.getFrames ctx c nbframes) ↔
      (∀ call ∈ (sp.dataBuffer.blockProcessReadFrames c nbframes).calls, call.ok = true) ∧
        ¬ sp.dataBuffer.RunsOutOfData nbframes) ∧
    (FailureReported (sp.dataBuffer.blockProcessWriteFrames c nbframes ts)
        (sp.dataBuffer.RunsOutOfSpace nbframes) (sp.putFrames c nbframes ts) ↔
      (∀ call ∈ (sp.dataBuffer.blockProcessWriteFrames c nbframes ts).calls, call.ok = true) ∧
        ¬ sp.dataBuffer.RunsOutOfSpace nbframes) := by
  constructor
  · exact failureReported_iff (sp.dataBuffer.blockProcessReadFrames_eq_false_iff c nbframes)
      (getFrames_ne_false ctx c nbframes hwet)
  · exact failureReported_iff (sp.dataBuffer.blockProcessWriteFrames_eq_false_iff c nbframes ts)
      (putFrames_ne_false c nbframes ts hwet)

def refusingClient : Client where
  processReadBlock _ _ _ := false
  processWriteBlock area _ _ := (area, false)

theorem transfer_failure_reported_iff_runningThree :
    runningThree.state ≠ .dryRunning ∧
    (FailureReported (runningThree.dataBuffer.blockProcessReadFrames refusingClient 8)
        (runningThree.dataBuffer.RunsOutOfData 8)
        (runningThree.getFrames quadletStream refusingClient 8) ↔
      (∀ call ∈ (runningThree.dataBuffer.blockProcessReadFrames refusingClient 8).calls,
        call.ok = true) ∧ ¬ runningThree.dataBuffer.RunsOutOfData 8) :=
  ⟨by decide, (transfer_failure_reported_iff quadletStream refusingClient 8 0 (by decide)).1⟩

/-- In a running processor with an empty buffer a write of eight frames that the client
refuses returns `true`; a read returns `false`, and `getFrames` returns `true`. -/
theorem transfer_failures_hidden :
    ∃ sp, Run (Guarded Always step) (new .receive) (startup quadletStream) sp ∧
      (sp.dataBuffer.blockProcessWriteFrames refusingClient 8 0).exit = .returned true ∧
      (sp.dataBuffer.blockProcessWriteFrames refusingClient 8 0).calls.map (·.ok) = [false] ∧
      (sp.dataBuffer.blockProcessReadFrames refusingClient 8).exit = .returned false ∧
      (sp.getFrames quadletStream refusingClient 8).map (·.2) = some true := by
  obtain ⟨sp, hrun, hsp⟩ := exists_run_of_foldlM
    (fun sp : StreamProcessor => decide (
      (sp.dataBuffer.blockProcessWriteFrames refusingClient 8 0).exit = .returned true ∧
      (sp.dataBuffer.blockProcessWriteFrames refusingClient 8 0).calls.map (·.ok) = [false] ∧
      (sp.dataBuffer.blockProcessReadFrames refusingClient 8).exit = .returned false ∧
      (sp.getFrames quadletStream refusingClient 8).map (·.2) = some true))
    (show ((startup quadletStream).foldlM step (new .receive)).map _ = some true by decide +kernel)
  exact ⟨sp, hrun, of_decide_eq_true hsp⟩

end StreamProcessor
end Ffado
