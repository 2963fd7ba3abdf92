import Ffado.Lib.Postcondition
import Ffado.Streaming.BufferMode

/-!
# State changes as transactions

The callers of `updateState` take the answer `false` to mean that the processor is where it was.
`Outcome` lists the ways in which a call can end. In two of them the answer is `false` although
something has happened: the transition functions collect the results of their steps and assign
the new state all the same, and the prefill of a transmit buffer can fail after the buffer was
replaced. `Completes` says, from the state before the call, when neither of them occurs.
-/
namespace Ffado

open CycleTimer MachineInt Postcondition

namespace TimestampedBuffer

/-- Size, transparency, frame counter and contents of two buffers agree. -/
structure SameFrames (tb tb' : TimestampedBuffer) : Prop where
  bufferSize_eq : tb'.bufferSize = tb.bufferSize
  transparent_eq : tb'.transparent = tb.transparent
  framecounter_eq : tb'.framecounter = tb.framecounter
  contents_eq : tb'.eventBuffer.map Ringbuffer.contents = tb.eventBuffer.map Ringbuffer.contents

theorem SameFrames.refl (tb : TimestampedBuffer) : SameFrames tb tb := ⟨rfl, rfl, rfl, rfl⟩

theorem SameFrames.readable_eq {tb tb' : TimestampedBuffer} (h : SameFrames tb tb') :
    tb'.readable = tb.readable := by
  have hlen : ∀ t : TimestampedBuffer, t.readable =
      ((t.eventBuffer.map Ringbuffer.contents).map List.length).getD 0 := by
    intro t
    cases ht : t.eventBuffer <;> simp [readable, ht]
  rw [hlen, hlen, h.contents_eq]

theorem setBandwidth_result (tb : TimestampedBuffer) (bw : ℚ) :
    (tb.setBandwidth bw).2 = true ↔ bw * (tb.nominalRate * tb.updatePeriod) < 1 / 2 := by
  rw [← not_le, setBandwidth]
  split_ifs with h
  · simpa using h
  · simpa using h

theorem clearBuffer_result (tb : TimestampedBuffer) : Ensures tb.clearBuffer fun r =>
    r.2 = true := by
  apply ensures_bind
  intro rb
  exact ensures_some.mpr rfl

theorem prepare_result (tb : TimestampedBuffer) (memory : ℕ → UInt8) :
    Ensures (tb.prepare memory) fun r => r.2 = true := by
  apply Ensures.ite
  · intro _
    apply ensures_bind
    intro r
    exact ensures_some.mpr rfl
  · intro _
    exact ensures_none

/-- Prefilling a new buffer succeeds exactly if the ring is large enough. Otherwise there are
bytes in the ring that the counter does not know of. -/
theorem preloadFrames_resized {tb tb₁ tb₂ : TimestampedBuffer} {newSize n : ℕ}
    {memory data : ℕ → UInt8} {resized result keep : Bool}
    (hresize : tb.resizeBuffer newSize memory = some (tb₁, resized))
    (hload : tb₁.preloadFrames n data keep = some (tb₂, result)) :
    (result = true ↔ ∀ p ∈ Ringbuffer.firstPower (u32 (newSize * tb.frameBytes)) 30 1,
      u32 (n * tb.frameBytes) < 2 ^ p) ∧
    (result = false → tb₂.framecounter = 0 ∧ 0 < tb₂.readable) := by
  obtain ⟨-, -, -, -, rb, hrb, rfl⟩ := resizeBuffer_spec hresize
  obtain ⟨hempty, -, -, -⟩ := Ringbuffer.create_spec rb hrb
  have hspace := rb.readSpace_add_writeSpace
  have htwo := rb.one_lt_size
  have hcount := rb.write_count data (u32 (n * tb.frameBytes))
  have happ := rb.write_appended data (u32 (n * tb.frameBytes))
  have hread := happ.readSpace_eq (Nat.min_le_right _ _)
  simp only [Ringbuffer.create_powerOfTwo rb hrb, Option.mem_def, Option.some.injEq, forall_eq']
  change (_ ↔ _ < rb.size) ∧ _
  simp only [preloadFrames, transferSize_eq, Option.bind_eq_bind, Option.bind_some] at hload
  simp only [show ∀ t : TimestampedBuffer, t.frameBytes = t.eventSize * t.eventsPerFrame
    from fun _ => rfl] at *
  rw [hcount] at hload
  split_ifs at hload with hshort
  · obtain ⟨rfl, rfl⟩ : _ ∧ _ := by simpa using hload
    refine ⟨by simp only [Bool.false_eq_true, false_iff]; omega, fun _ => ⟨rfl, ?_⟩⟩
    simp only [readable, Option.map_some, Option.getD_some, hread]
    omega
  all_goals
    obtain ⟨-, rfl⟩ : _ ∧ _ := by simpa using hload
    refine ⟨by simp only [true_iff]; omega, fun h => absurd h (by simp)⟩

end TimestampedBuffer

namespace StreamProcessor

/-- What the answer of a state change stands for. -/
structure Atomic (sp sp' : StreamProcessor) (result : Bool) : Prop where
  of_false : result = false →
    sp'.state = sp.state ∧ TimestampedBuffer.SameFrames sp.dataBuffer sp'.dataBuffer
  of_true : result = true → sp'.state = sp.nextState

def updatePeriod (sp : StreamProcessor) (ctx : Context) : ℕ :=
  match sp.processorType with
  | .receive => ctx.nominalFramesPerPacket
  | .transmit => ctx.periodSize

/-- No step of the requested transition fails once something has been changed: the bandwidth of
the loop is below half the update rate, the ports are reset, and the silence fits the new
ring. -/
def Completes (sp : StreamProcessor) (ctx : Context) : Prop :=
  match sp.state, sp.nextState with
  | .created, .stopped => 10 * sp.updatePeriod ctx < ctx.nominalRate ∧ ctx.portsPrepared = true
  | .dryRunning, .stopped => ctx.stopHandler = true → ctx.portsPrepared = true
  | .dryRunning, .waitingForStreamEnable => sp.processorType = .transmit →
    ∀ p ∈ Ringbuffer.firstPower
        (u32 (u32 (sp.periodFrames ctx + 1) * sp.dataBuffer.frameBytes)) 30 1,
      u32 (sp.periodFrames ctx * sp.dataBuffer.frameBytes) < 2 ^ p
  | .waitingForStreamEnable, .running =>
    sp.dllBandwidthHz / ticksPerSecond * (sp.dataBuffer.nominalRate * sp.dataBuffer.updatePeriod)
      < 1 / 2
  | _, _ => True

/-- How a state change can end, if `c` is the condition for its completion. -/
inductive Outcome (sp : StreamProcessor) (c : Prop) : StreamProcessor × Bool → Prop
  | reached {sp' : StreamProcessor} : c → sp'.state = sp.nextState → Outcome sp c (sp', true)
  | refused : c → Outcome sp c (sp, false)
  | moved {sp' : StreamProcessor} : ¬ c → sp'.state ≠ sp.state → Outcome sp c (sp', false)
  | halfway {sp' : StreamProcessor} : ¬ c → sp'.dataBuffer.framecounter = 0 →
      0 < sp'.dataBuffer.readable → Outcome sp c (sp', false)

variable {sp sp' : StreamProcessor} {c : Prop} {result : Bool} {ctx : Context}

theorem Outcome.of_state (hstate : sp'.state = sp.nextState) (hne : sp.nextState ≠ sp.state)
    (hiff : result = true ↔ c) : Outcome sp c (sp', result) := by
  cases result with
  | true => exact .reached (hiff.mp rfl) hstate
  | false => exact .moved (fun hc => Bool.noConfusion (hiff.mpr hc)) (hstate ▸ hne)

theorem Outcome.atomic (h : Outcome sp c (sp', result)) (hc : c) : sp.Atomic sp' result := by
  cases h with
  | reached _ hstate => exact ⟨fun h => Bool.noConfusion h, fun _ => hstate⟩
  | refused _ => exact ⟨fun _ => ⟨rfl, .refl _⟩, fun h => Bool.noConfusion h⟩
  | moved hnot _ => exact absurd hc hnot
  | halfway hnot _ _ => exact absurd hc hnot

/-- In a buffer whose counter is right, every other end shows. -/
theorem Outcome.completes (h : Outcome sp c (sp', result)) (hacc : sp.dataBuffer.Accounted)
    (hatomic : sp.Atomic sp' result) : c := by
  cases h with
  | reached hc _ => exact hc
  | refused hc => exact hc
  | moved _ hne => exact absurd (hatomic.of_false rfl).1 hne
  | halfway _ hzero hpos =>
    have hsame := (hatomic.of_false rfl).2
    have hcount : sp.dataBuffer.framecounter = 0 := hsame.framecounter_eq.symm.trans hzero
    have hempty : sp.dataBuffer.readable = 0 := by
      have hbytes := hacc.1
      rw [hcount] at hbytes
      omega
    rw [hsame.readable_eq, hempty] at hpos
    exact absurd hpos (lt_irrefl 0)

theorem muteBuffer_result (sp : StreamProcessor) :
    Ensures sp.muteBuffer fun r => r.2 = true := by
  refine sp.dataBuffer.clearBuffer_result.bind ?_
  intro r hr
  exact ensures_some.mpr hr

theorem enterStopped_spec (sp : StreamProcessor) (ctx : Context) (result : Bool) :
    Ensures (sp.enterStopped ctx result) fun r =>
      r.1.state = .stopped ∧ r.2 = (result && ctx.portsPrepared) := by
  refine sp.muteBuffer_result.bind ?_
  rintro ⟨sp', cleared⟩ hcleared
  rw [ensures_some]
  refine ⟨rfl, ?_⟩
  rw [show cleared = true from hcleared, Bool.and_true]

theorem fastBandwidth_iff (sp : StreamProcessor) (ctx : Context) :
    streamprocessorDllFastBwHz / ticksPerSecond *
        ((ticksPerSecond : ℚ) / ctx.nominalRate * sp.updatePeriod ctx) < 1 / 2 ↔
      10 * sp.updatePeriod ctx < ctx.nominalRate := by
  have hrate : (0 : ℚ) < ctx.nominalRate := by exact_mod_cast ctx.nominalRate_pos
  have hticks : (ticksPerSecond : ℚ) ≠ 0 := by norm_num [ticksPerSecond]
  have hval : streamprocessorDllFastBwHz / ticksPerSecond *
      ((ticksPerSecond : ℚ) / ctx.nominalRate * sp.updatePeriod ctx) =
      5 * sp.updatePeriod ctx / ctx.nominalRate := by
    rw [streamprocessorDllFastBwHz]
    field_simp
  rw [hval, div_lt_div_iff₀ hrate (by norm_num)]
  constructor
  · intro h
    have : (10 * sp.updatePeriod ctx : ℚ) < ctx.nominalRate := by linarith
    exact_mod_cast this
  · intro h
    have : (10 * sp.updatePeriod ctx : ℚ) < ctx.nominalRate := by exact_mod_cast h
    linarith

theorem configuredBuffer_updatePeriod (sp : StreamProcessor) (ctx : Context) :
    (sp.configuredBuffer ctx).updatePeriod = sp.updatePeriod ctx := by
  unfold configuredBuffer updatePeriod
  cases sp.processorType <;> rfl

theorem setupDataBuffer_result (sp : StreamProcessor) (ctx : Context)
    (hrate : sp.ticksPerFrame = (ticksPerSecond : ℚ) / ctx.nominalRate) :
    Ensures (sp.setupDataBuffer ctx) fun r =>
      (r.2 = true ↔ 10 * sp.updatePeriod ctx < ctx.nominalRate) := by
  apply Ensures.ite
  · intro _
    refine (TimestampedBuffer.prepare_result _ _).bind ?_
    rintro ⟨tb, prepared⟩ hprepared
    rw [ensures_some, show prepared = true from hprepared, Bool.and_true,
      TimestampedBuffer.setBandwidth_result, ← fastBandwidth_iff, ← configuredBuffer_updatePeriod,
      ← hrate]
    rfl
  · intro hneg
    have hpos : (0 : ℚ) < ctx.nominalRate := by exact_mod_cast ctx.nominalRate_pos
    refine absurd ?_ hneg
    simp only [hrate, ticksPerSecond]
    positivity

theorem doStop_created (hstate : sp.state = .created) (hnext : sp.nextState = .stopped) :
    Ensures (sp.doStop ctx) (Outcome sp
      (10 * sp.updatePeriod ctx < ctx.nominalRate ∧ ctx.portsPrepared = true)) := by
  simp only [doStop, hstate]
  refine (setupDataBuffer_result _ ctx rfl).bind ?_
  rintro ⟨sp₁, result⟩ hresult
  refine (sp₁.enterStopped_spec ctx result).mono ?_
  rintro ⟨sp₂, answer⟩ ⟨hstopped, hanswer⟩
  apply Outcome.of_state (hstopped.trans hnext.symm) (by rw [hnext, hstate]; decide)
  rw [show answer = _ from hanswer, Bool.and_eq_true]
  exact and_congr_left fun _ => hresult

theorem doStop_dryRunning (hstate : sp.state = .dryRunning) (hnext : sp.nextState = .stopped) :
    Ensures (sp.doStop ctx) (Outcome sp (ctx.stopHandler = true → ctx.portsPrepared = true)) := by
  simp only [doStop, hstate]
  apply Ensures.ite
  · intro hstop
    refine (sp.enterStopped_spec ctx true).mono ?_
    rintro ⟨sp', answer⟩ ⟨hstopped, hanswer⟩
    apply Outcome.of_state (hstopped.trans hnext.symm) (by rw [hnext, hstate]; decide)
    rw [show answer = _ from hanswer, Bool.true_and]
    exact ⟨fun h _ => h, fun h => h hstop⟩
  · intro hstop
    exact ensures_some.mpr (.refused fun h => absurd h hstop)

theorem muteBuffer_reached (assign : StreamProcessor → StreamProcessor)
    (hassign : ∀ sp', (assign sp').state = sp.nextState) :
    Ensures (sp.muteBuffer >>= fun r => some (assign r.1, r.2)) (Outcome sp True) := by
  refine sp.muteBuffer_result.bind ?_
  rintro ⟨sp', result⟩ hresult
  rw [ensures_some, show result = true from hresult]
  exact .reached trivial (hassign sp')

theorem doDryRunning_outcome (hnext : sp.nextState = .dryRunning) :
    Ensures sp.doDryRunning (Outcome sp True) := by
  cases hstate : sp.state with
  | waitingForStream =>
    simp only [doDryRunning, hstate]
    exact ensures_some.mpr (.reached trivial hnext.symm)
  | waitingForStreamEnable =>
    simp only [doDryRunning, hstate]
    exact muteBuffer_reached (fun sp' => { sp' with state := .dryRunning }) fun _ => hnext.symm
  | waitingForStreamDisable =>
    simp only [doDryRunning, hstate]
    exact muteBuffer_reached
      (fun sp' => { sp' with lastTimestamp := 0, lastTimestamp2 := 0, state := .dryRunning })
      fun _ => hnext.symm
  | _ =>
    simp only [doDryRunning, hstate]
    exact ensures_some.mpr (.refused trivial)

theorem doWaitForStreamEnable_outcome (hstate : sp.state = .dryRunning)
    (hnext : sp.nextState = .waitingForStreamEnable) :
    Ensures (sp.doWaitForStreamEnable ctx) (Outcome sp (sp.processorType = .transmit →
      ∀ p ∈ Ringbuffer.firstPower
          (u32 (u32 (sp.periodFrames ctx + 1) * sp.dataBuffer.frameBytes)) 30 1,
        u32 (sp.periodFrames ctx * sp.dataBuffer.frameBytes) < 2 ^ p)) := by
  simp only [doWaitForStreamEnable, hstate]
  refine Ensures.bind (fun r hr => hr) ?_
  rintro ⟨tb, resized⟩ hresize
  obtain ⟨rfl, -⟩ := TimestampedBuffer.resizeBuffer_spec hresize
  simp only [if_true]
  cases htype : sp.processorType with
  | receive =>
    simp only [prefill, Option.bind_eq_bind, Option.bind_some, if_true]
    exact ensures_some.mpr (.reached (fun h => nomatch h) hnext.symm)
  | transmit =>
    simp only [prefill, transferSilence, Option.bind_eq_bind, Option.bind_assoc]
    refine Ensures.bind (fun r hr => hr) ?_
    rintro ⟨tb₂, filled⟩ hload
    have hsilence := hload
    obtain ⟨hiff, hhalf⟩ := TimestampedBuffer.preloadFrames_resized hresize hsilence
    cases filled with
    | true => exact ensures_some.mpr (.reached (fun _ => hiff.mp rfl) hnext.symm)
    | false =>
      obtain ⟨hzero, hpos⟩ := hhalf rfl
      exact ensures_some.mpr
        (.halfway (fun h => Bool.noConfusion (hiff.mpr (h trivial))) hzero hpos)

theorem doRunning_outcome (hstate : sp.state = .waitingForStreamEnable)
    (hnext : sp.nextState = .running) :
    Ensures sp.doRunning (Outcome sp (sp.dllBandwidthHz / ticksPerSecond *
      (sp.dataBuffer.nominalRate * sp.dataBuffer.updatePeriod) < 1 / 2)) := by
  simp only [doRunning, hstate]
  rw [ensures_some]
  apply Outcome.of_state hnext.symm (by rw [hnext, hstate]; decide)
  exact TimestampedBuffer.setBandwidth_result _ _

theorem updateState_outcome (sp : StreamProcessor) (ctx : Context) :
    Ensures (sp.updateState ctx) (Outcome sp (sp.Completes ctx)) := by
  apply Ensures.ite
  · intro heq
    refine ensures_some.mpr (.reached ?_ heq)
    rw [Completes, ← heq]
    cases sp.state <;> trivial
  · intro _
    split
    · rename_i hstate hnext
      simpa only [Completes, hstate, hnext] using doStop_created hstate hnext
    · rename_i hstate hnext
      simp only [Completes, doWaitForRunningStream, hstate, hnext]
      exact ensures_some.mpr (.reached trivial hnext.symm)
    · rename_i hstate hnext
      simpa only [Completes, hstate, hnext] using doDryRunning_outcome hnext
    · rename_i hstate hnext
      simpa only [Completes, hstate, hnext] using doStop_dryRunning hstate hnext
    · rename_i hstate hnext
      simpa only [Completes, hstate, hnext] using doWaitForStreamEnable_outcome hstate hnext
    · rename_i hstate hnext
      simpa only [Completes, hstate, hnext] using doDryRunning_outcome hnext
    · rename_i hstate hnext
      simpa only [Completes, hstate, hnext] using doRunning_outcome hstate hnext
    · rename_i hstate hnext
      simp only [Completes, doWaitForStreamDisable, hstate, hnext]
      exact ensures_some.mpr (.reached trivial hnext.symm)
    · rename_i hstate hnext
      simpa only [Completes, hstate, hnext] using doDryRunning_outcome hnext
    · refine ensures_some.mpr (.refused ?_)
      unfold Completes
      split <;> simp_all

/-- A state change does what its answer says if the transition can complete; and if the counter
of the buffer is right, in no other case. -/
theorem updateState_atomic_iff (h : sp.updateState ctx = some (sp', result)) :
    (sp.Completes ctx → sp.Atomic sp' result) ∧
      (sp.dataBuffer.Accounted → sp.Atomic sp' result → sp.Completes ctx) := by
  have houtcome := sp.updateState_outcome ctx (sp', result) h
  exact ⟨houtcome.atomic, houtcome.completes⟩

def aboutToStop (processorType : ProcessorType) : StreamProcessor :=
  { new processorType with nextState := .stopped }

theorem updateState_atomic_iff_quadletStream : ∃ sp' result,
    (aboutToStop .transmit).updateState quadletStream = some (sp', result) ∧
      (aboutToStop .transmit).Atomic sp' result := by
  have hsome : ((aboutToStop .transmit).updateState quadletStream).isSome := by decide +kernel
  obtain ⟨⟨sp', result⟩, h⟩ := Option.isSome_iff_exists.mp hsome
  have hcompletes : (aboutToStop .transmit).Completes quadletStream :=
    ⟨show 10 * 8 < 48000 by norm_num, rfl⟩
  exact ⟨sp', result, h, (updateState_atomic_iff h).1 hcompletes⟩

/-- A period of more than a tenth of a second: the bandwidth of the loop is refused. -/
def longPeriod : Context := { quadletStream with periodSize := 8192 }

/-- The answer is `false`, and the processor has left its state. -/
theorem stopped_by_failed_updateState : ∃ sp' result,
    (aboutToStop .transmit).updateState longPeriod = some (sp', result) ∧
      result = false ∧ sp'.state = .stopped ∧ (aboutToStop .transmit).state = .created ∧
      ¬ (aboutToStop .transmit).Atomic sp' result := by
  have heval : ((aboutToStop .transmit).updateState longPeriod).map (fun r => (r.1.state, r.2)) =
      some (.stopped, false) := by decide +kernel
  obtain ⟨⟨sp', result⟩, h, hpair⟩ := Option.map_eq_some_iff.mp heval
  obtain ⟨hstate, hresult⟩ := Prod.mk.inj hpair
  refine ⟨sp', result, h, hresult, hstate, rfl, ?_⟩
  intro hatomic
  have hsame : sp'.state = .created := (hatomic.of_false hresult).1
  exact absurd (hstate.symm.trans hsame) (by decide)

end StreamProcessor
end Ffado
