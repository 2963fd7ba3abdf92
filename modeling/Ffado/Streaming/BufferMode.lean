import Ffado.Lib.LabelledRun
import Ffado.Lib.Postcondition
import Ffado.Streaming.StreamProcessor
import Mathlib.Logic.Relation

/-!
# The state machine and the mode of the buffer

A stream processor that is stopped or dry-running keeps its buffer transparent; one that is
running does not. State and mode are set together in the `do…` functions only. This module
abstracts a processor to the pair of its state and the mode, says which moves the `do…`
functions make on these pairs, and shows that every call of the packet loop and of the client
is a sequence of such moves. The calls by which the ISO side reports a dead stream set the
state alone.
-/
namespace Ffado

open LabelledRun Postcondition Relation

namespace TimestampedBuffer

variable (tb : TimestampedBuffer)

theorem incrementFrameCounter_transparent (nbframes : ℕ) (ts : ℚ) :
    Ensures (tb.incrementFrameCounter nbframes ts) fun tb' => tb'.transparent = tb.transparent := by
  intro tb' h
  obtain ⟨-, _, _, _, _, rfl⟩ := incrementFrameCounter_spec h
  rfl

theorem resizeBuffer_transparent (newSize : ℕ) (memory : ℕ → UInt8) :
    Ensures (tb.resizeBuffer newSize memory) fun r => r.1.transparent = tb.transparent := by
  rintro ⟨tb', result⟩ h
  obtain ⟨-, -, -, -, _, -, rfl⟩ := resizeBuffer_spec h
  rfl

theorem prepare_transparent (memory : ℕ → UInt8) :
    Ensures (tb.prepare memory) fun r => r.1.transparent = tb.transparent := by
  rintro ⟨tb', result⟩ h
  obtain ⟨_, -, -, -, -, -, -, hmode, -⟩ := prepare_spec h
  exact hmode

theorem writeFrames_transparent (nframes : ℕ) (data : ℕ → UInt8) (ts : ℚ) :
    Ensures (tb.writeFrames nframes data ts) fun r => r.1.transparent = tb.transparent := by
  apply Ensures.ite
  · intro _
    apply Ensures.ite
    · intro _
      refine (tb.incrementFrameCounter_transparent nframes ts).bind ?_
      simp [setBufferTailTimestamp, restartAt, decrementFrameCounter]
    · simp [setBufferTailTimestamp, restartAt]
  · intro _
    apply ensures_bind
    intro rb
    apply Ensures.ite
    · simp
    · intro _
      refine (incrementFrameCounter_transparent _ nframes ts).bind ?_
      simp

theorem preloadFrames_transparent (nframes : ℕ) (data : ℕ → UInt8) (keepHeadTs : Bool) :
    Ensures (tb.preloadFrames nframes data keepHeadTs) fun r =>
      r.1.transparent = tb.transparent := by
  apply ensures_bind
  intro rb
  apply Ensures.ite
  · simp
  · cases keepHeadTs <;> simp [setBufferTailTimestamp, setBufferHeadTimestamp, restartAt]

theorem dropFrames_transparent (nframes : ℕ) :
    Ensures (tb.dropFrames nframes) fun r => r.1.transparent = tb.transparent := by
  apply ensures_bind
  simp [decrementFrameCounter]

theorem readFrames_transparent (nframes : ℕ) (data : ℕ → UInt8) :
    Ensures (tb.readFrames nframes data) fun r => r.1.transparent = tb.transparent := by
  apply Ensures.ite
  · simp
  · intro _
    apply ensures_bind
    intro rb
    apply Ensures.ite <;> intro _ <;> simp [decrementFrameCounter]

theorem blockTransfer_transparent (dir : Direction) (nbframes : ℕ) :
    (tb.blockTransfer dir nbframes).buffer.transparent = tb.transparent := by
  unfold blockTransfer
  cases tb.eventBuffer <;> rfl

theorem blockProcessWriteFrames_transparent (c : Client) (nbframes : ℕ) (ts : ℚ) :
    (tb.blockProcessWriteFrames c nbframes ts).buffer.transparent = tb.transparent := by
  have hmoved := tb.blockTransfer_transparent
    (writing c tb.clusterSize tb.processBlockSize) nbframes
  unfold blockProcessWriteFrames
  dsimp only
  split_ifs
  · cases hcount : (tb.blockTransfer _ nbframes).buffer.incrementFrameCounter nbframes ts with
    | none => simpa [hcount] using hmoved
    | some counted =>
      have hcounted := incrementFrameCounter_transparent _ nbframes ts counted hcount
      simpa [hcount] using hcounted.trans hmoved
  · exact hmoved

theorem blockProcessReadFrames_transparent (c : Client) (nbframes : ℕ) :
    (tb.blockProcessReadFrames c nbframes).buffer.transparent = tb.transparent := by
  have hmoved := tb.blockTransfer_transparent
    (reading c tb.clusterSize tb.processBlockSize) nbframes
  unfold blockProcessReadFrames
  dsimp only
  split_ifs
  · simpa [decrementFrameCounter] using hmoved
  · exact hmoved

theorem setBandwidth_transparent (bw : ℚ) : (tb.setBandwidth bw).1.transparent =
    tb.transparent := by
  unfold setBandwidth
  dsimp only
  split_ifs <;> rfl

end TimestampedBuffer

/-- State of the processor, and whether its buffer is transparent. -/
abbrev Mode := ProcessorState × Bool

/-- The moves of the `do…` functions. Those that go back to a silent state make the buffer
transparent, entering the running state makes it opaque, and the others leave it. -/
inductive Move : Mode → Mode → Prop
  | prepare (b : Bool) : Move (.created, b) (.stopped, true)
  | stop (b : Bool) : Move (.dryRunning, b) (.stopped, true)
  | await (b : Bool) : Move (.stopped, b) (.waitingForStream, b)
  | detect (b : Bool) : Move (.waitingForStream, b) (.dryRunning, b)
  | giveUp (b : Bool) : Move (.waitingForStreamEnable, b) (.dryRunning, true)
  | disabled (b : Bool) : Move (.waitingForStreamDisable, b) (.dryRunning, true)
  | enable (b : Bool) : Move (.dryRunning, b) (.waitingForStreamEnable, b)
  | run (b : Bool) : Move (.waitingForStreamEnable, b) (.running, false)
  | disable (b : Bool) : Move (.running, b) (.waitingForStreamDisable, b)

/-- The mode that belongs to a state. -/
def Mode.Agrees : Mode → Prop
  | (.running, b) | (.waitingForStreamDisable, b) => b = false
  | (.invalid, _) | (.error, _) => True
  | (_, b) => b = true

theorem Move.agrees {m m' : Mode} (h : Move m m') (hm : m.Agrees) : m'.Agrees := by
  cases h with
  | prepare | stop | giveUp | disabled | run => rfl
  | await | detect | enable | disable => exact hm

theorem agrees_of_moves {m m' : Mode} (h : ReflTransGen Move m m') (hm : m.Agrees) : m'.Agrees := by
  induction h with
  | refl => exact hm
  | tail _ hmove ih => exact hmove.agrees ih

namespace StreamProcessor

variable (sp : StreamProcessor) (ctx : Context) (p : Packet) {m : Mode} {α β : Type}

variable {r : Option (StreamProcessor × α)}

def mode : Mode := (sp.state, sp.dataBuffer.transparent)

def Moves (m : Mode) (r : Option (StreamProcessor × α)) : Prop :=
  Ensures r fun x => ReflTransGen Move m x.1.mode

variable {sp} in
theorem Moves.stay {a : α} (h : sp.mode = m) : Moves m (some (sp, a)) := by
  rw [Moves, ensures_some, h]

variable {sp} in
theorem Moves.once {a : α} (h : Move m sp.mode) : Moves m (some (sp, a)) := by
  rw [Moves, ensures_some]
  exact .single h

theorem Moves.bind {k : StreamProcessor × α → Option (StreamProcessor × β)} (h : Moves m r)
    (hk : ∀ sp a, Moves sp.mode (k (sp, a))) : Moves m (r >>= k) := by
  refine Ensures.bind h ?_
  rintro ⟨sp, a⟩ hfirst
  exact (hk sp a).mono fun x hx => hfirst.trans hx

theorem Moves.ite {c : Prop} [Decidable c] {r' : Option (StreamProcessor × α)} (h : Moves m r)
    (h' : Moves m r') : Moves m (if c then r else r') :=
  Ensures.ite (fun _ => h) fun _ => h'

variable {sp} in
theorem Moves.of_map (h : Moves m r) (hr : r.map (·.1) = some sp) :
    ReflTransGen Move m sp.mode := by
  obtain ⟨x, hx, rfl⟩ := Option.map_eq_some_iff.mp hr
  exact h x hx

theorem Moves.orError {change : Option (StreamProcessor × Bool)}
    {next : StreamProcessor → Option (StreamProcessor × Disposition)} (h : Moves m change)
    (hnext : ∀ sp, Moves sp.mode (next sp)) : Moves m (orError change next) := by
  refine h.bind ?_
  intro sp result
  cases result with
  | false => exact Moves.stay rfl
  | true => exact hnext sp

theorem configuredBuffer_transparent :
    (sp.configuredBuffer ctx).transparent = sp.dataBuffer.transparent := by
  unfold configuredBuffer
  cases sp.processorType <;> rfl

theorem setupDataBuffer_mode :
    Ensures (sp.setupDataBuffer ctx) fun r => r.1.mode = sp.mode := by
  have hconf := sp.configuredBuffer_transparent ctx
  apply Ensures.ite
  · intro _
    refine (TimestampedBuffer.prepare_transparent _ _).bind ?_
    rintro ⟨tb, prepared⟩ htb
    have hmode : tb.transparent = sp.dataBuffer.transparent :=
      htb.trans ((TimestampedBuffer.setBandwidth_transparent _ _).trans hconf)
    rw [ensures_some, mode, mode, hmode]
  · intro _
    rw [ensures_some, mode, mode, hconf]

theorem setupDataBuffer_keeps :
    Ensures (sp.setupDataBuffer ctx) fun r => r.1.state = sp.state ∧ r.1.nextState = sp.nextState ∧
      r.1.scratchBufferSizeBytes = sp.scratchBufferSizeBytes := by
  apply Ensures.ite
  · intro _
    apply ensures_bind
    intro r
    exact ensures_some.mpr ⟨rfl, rfl, rfl⟩
  · intro _
    exact ensures_some.mpr ⟨rfl, rfl, rfl⟩

theorem transferSilence_mode (nframes : ℕ) :
    Ensures (sp.transferSilence ctx nframes) fun r => r.1.mode = sp.mode := by
  refine (sp.dataBuffer.preloadFrames_transparent nframes _ true).bind ?_
  rintro ⟨tb, result⟩ htb
  rw [ensures_some, mode, mode, htb]

theorem muteBuffer_mode : Ensures sp.muteBuffer fun r => r.1.mode = (sp.state, true) := by
  apply ensures_bind
  rintro ⟨tb, result⟩
  rw [ensures_some]
  rfl

theorem enterStopped_mode (result : Bool) :
    Ensures (sp.enterStopped ctx result) fun r => r.1.mode = (.stopped, true) := by
  refine sp.muteBuffer_mode.bind ?_
  rintro ⟨sp', cleared⟩ hmute
  rw [ensures_some, mode, (Prod.mk.inj hmute).2]

theorem doStop_moves : Moves sp.mode (sp.doStop ctx) := by
  cases hstate : sp.state with
  | created =>
    simp only [doStop, hstate]
    refine (setupDataBuffer_mode _ ctx).bind ?_
    rintro ⟨sp', result⟩ -
    refine (sp'.enterStopped_mode ctx result).mono ?_
    intro x hx
    rw [hx, mode, hstate]
    exact .single (.prepare _)
  | dryRunning =>
    simp only [doStop, hstate]
    refine Moves.ite ?_ (Moves.stay rfl)
    refine (sp.enterStopped_mode ctx true).mono ?_
    intro x hx
    rw [hx, mode, hstate]
    exact .single (.stop _)
  | _ =>
    simp only [doStop, hstate]
    exact Moves.stay rfl

theorem doWaitForRunningStream_moves : Moves sp.mode sp.doWaitForRunningStream := by
  cases hstate : sp.state with
  | stopped =>
    simp only [doWaitForRunningStream, mode, hstate]
    exact Moves.once (.await _)
  | _ =>
    simp only [doWaitForRunningStream, hstate]
    exact Moves.stay rfl

theorem muteBuffer_moves {k : StreamProcessor × Bool → Option (StreamProcessor × Bool)}
    (hmove : Move sp.mode (.dryRunning, true))
    (hk : ∀ sp' r, Ensures (k (sp', r)) fun x =>
      x.1.mode = (.dryRunning, sp'.dataBuffer.transparent)) :
    Moves sp.mode (sp.muteBuffer >>= k) := by
  refine sp.muteBuffer_mode.bind ?_
  rintro ⟨sp', result⟩ hmute
  refine (hk sp' result).mono ?_
  intro x hx
  rw [hx, (Prod.mk.inj hmute).2]
  exact .single hmove

theorem doDryRunning_moves : Moves sp.mode sp.doDryRunning := by
  cases hstate : sp.state with
  | waitingForStream =>
    simp only [doDryRunning, mode, hstate]
    cases sp.processorType <;> exact Moves.once (.detect _)
  | waitingForStreamEnable =>
    simp only [doDryRunning, hstate]
    apply muteBuffer_moves
    · rw [mode, hstate]
      exact .giveUp _
    · intro sp' r
      rw [ensures_some, mode]
  | waitingForStreamDisable =>
    simp only [doDryRunning, hstate]
    apply muteBuffer_moves
    · rw [mode, hstate]
      exact .disabled _
    · intro sp' r
      rw [ensures_some, mode]
  | _ =>
    simp only [doDryRunning, hstate]
    exact Moves.stay rfl

theorem prefill_mode : Ensures (sp.prefill ctx) fun r => r.1.mode = sp.mode := by
  unfold prefill
  cases sp.processorType with
  | receive => exact ensures_some.mpr rfl
  | transmit => exact sp.transferSilence_mode ctx _

theorem doWaitForStreamEnable_moves : Moves sp.mode (sp.doWaitForStreamEnable ctx) := by
  unfold doWaitForStreamEnable
  split
  · rename_i hstate
    refine (sp.dataBuffer.resizeBuffer_transparent _ ctx.memory).bind ?_
    rintro ⟨tb, resized⟩ htb
    have hresized : { sp with dataBuffer := tb }.mode = sp.mode := by rw [mode, mode, htb]
    refine Moves.ite ?_ (Moves.stay hresized)
    refine (prefill_mode _ ctx).bind ?_
    rintro ⟨sp', filled⟩ hsp'
    have hmode : sp'.mode = sp.mode := hsp'.trans hresized
    refine Moves.ite (Moves.once ?_) (Moves.stay hmode)
    have htransparent := (Prod.mk.inj hmode).2
    rw [mode, mode, hstate, htransparent]
    exact .enable _
  · exact Moves.stay rfl

theorem doRunning_moves : Moves sp.mode sp.doRunning := by
  cases hstate : sp.state with
  | waitingForStreamEnable =>
    simp only [doRunning, mode, hstate]
    exact Moves.once (.run _)
  | _ =>
    simp only [doRunning, hstate]
    exact Moves.stay rfl

theorem doWaitForStreamDisable_moves : Moves sp.mode sp.doWaitForStreamDisable := by
  cases hstate : sp.state with
  | running =>
    simp only [doWaitForStreamDisable, mode, hstate]
    exact Moves.once (.disable _)
  | _ =>
    simp only [doWaitForStreamDisable, hstate]
    exact Moves.stay rfl

theorem updateState_moves : Moves sp.mode (sp.updateState ctx) := by
  refine Moves.ite (Moves.stay rfl) ?_
  split
  · exact sp.doStop_moves ctx
  · exact sp.doWaitForRunningStream_moves
  · exact sp.doDryRunning_moves
  · exact sp.doStop_moves ctx
  · exact sp.doWaitForStreamEnable_moves ctx
  · exact sp.doDryRunning_moves
  · exact sp.doRunning_moves
  · exact sp.doWaitForStreamDisable_moves
  · exact sp.doDryRunning_moves
  · exact Moves.stay rfl

theorem switchTo_moves (next : ProcessorState) : Moves sp.mode (sp.switchTo ctx next) :=
  updateState_moves { sp with nextState := next } ctx

theorem periodSizeChanged_moves (n : ℕ) : Moves sp.mode (sp.periodSizeChanged ctx n) := by
  refine Moves.ite (Moves.stay rfl) (Moves.ite (Moves.stay rfl) ?_)
  refine (setupDataBuffer_mode _ ctx).bind ?_
  rintro ⟨sp', result⟩ hsp'
  have hmode : sp'.mode = sp.mode := hsp'
  rw [← hmode]
  exact Moves.ite (sp'.updateState_moves ctx) (Moves.stay rfl)

theorem prepare_moves : Moves sp.mode (sp.prepare ctx) := by
  refine (sp.periodSizeChanged_moves ctx ctx.periodSize).bind ?_
  intro sp' result
  exact Moves.ite (sp'.switchTo_moves ctx .stopped) (Moves.stay rfl)

theorem switchIfDue_moves (next : ProcessorState) : Moves sp.mode (sp.switchIfDue ctx p next) :=
  Moves.ite (sp.switchTo_moves ctx next) (Moves.stay rfl)

theorem followRequest_moves : Moves sp.mode (sp.followRequest ctx) :=
  Moves.ite (sp.updateState_moves ctx) (Moves.stay rfl)

theorem startXrun_moves : Moves sp.mode (sp.startXrun ctx p) :=
  switchTo_moves { sp with
    inXrun := true
    cycleToSwitchState := CycleTimer.cycleTimerGetCycles p.pktCtr + 1 } ctx _

theorem transferPayload_moves : Moves sp.mode (sp.transferPayload p) := by
  unfold transferPayload
  cases p.payload with
  | nothing => exact Moves.stay rfl
  | write nevents data =>
    refine (sp.dataBuffer.writeFrames_transparent nevents data _).bind ?_
    rintro ⟨tb, result⟩ htb
    apply Moves.stay
    rw [mode, mode, htb]
  | read nevents data =>
    refine (sp.dataBuffer.readFrames_transparent nevents data).bind ?_
    rintro ⟨tb, result, area⟩ htb
    apply Moves.stay
    rw [mode, mode, htb]

theorem receiveData_moves : Moves sp.mode (sp.receiveData ctx p) := by
  refine (sp.transferPayload_moves p).bind ?_
  intro sp' result
  refine Moves.ite ?_ (Moves.ite (Moves.stay rfl) (Moves.stay rfl))
  exact (sp'.startXrun_moves ctx p).orError fun _ => Moves.stay rfl

theorem correctedTimestamp_mode : ((sp.fixLastTimestamp ctx).correctTimestamp ctx).mode =
    sp.mode := by
  have hfix : (sp.fixLastTimestamp ctx).mode = sp.mode := by
    unfold fixLastTimestamp
    dsimp only
    split_ifs <;> simp only [mode]
  rw [← hfix]
  unfold correctTimestamp
  split_ifs
  · simp [mode, TimestampedBuffer.setBufferTailTimestamp, TimestampedBuffer.restartAt]
  · rfl

theorem receivePacket_moves : Moves sp.mode (sp.receivePacket ctx p) := by
  unfold receivePacket
  split
  · rw [← sp.correctedTimestamp_mode ctx]
    generalize (sp.fixLastTimestamp ctx).correctTimestamp ctx = sp'
    refine Moves.ite ?_ (Moves.ite ?_ (sp'.receiveData_moves ctx p))
    · exact (sp'.switchIfDue_moves ctx p .dryRunning).orError fun _ => Moves.stay rfl
    · refine (sp'.updateState_moves ctx).orError ?_
      intro sp''
      exact Moves.ite (Moves.stay rfl) (sp''.receiveData_moves ctx p)
  · exact Moves.stay rfl
  · exact Moves.stay rfl

theorem receiveHeader_moves : Moves sp.mode (sp.receiveHeader ctx p) := by
  refine Moves.ite (Moves.ite ?_ ?_) ?_
  · exact (startXrun_moves _ ctx p).orError fun sp' => sp'.receivePacket_moves ctx p
  · exact receivePacket_moves _ ctx p
  · exact receivePacket_moves _ ctx p

theorem putPacket_moves : Moves sp.mode (sp.putPacket ctx p) := by
  refine Moves.ite (Moves.stay rfl) (Moves.ite (Moves.stay rfl) (Moves.ite (Moves.stay rfl) ?_))
  refine Moves.ite ?_ (Moves.ite ?_ ?_)
  · exact (switchIfDue_moves _ ctx p .dryRunning).orError fun _ => Moves.stay rfl
  · exact (switchIfDue_moves _ ctx p .running).orError fun sp' => sp'.receiveHeader_moves ctx p
  · exact receiveHeader_moves _ ctx p

theorem sendEmptyPacket_moves : Moves sp.mode (sp.sendEmptyPacket ctx) :=
  (sp.followRequest_moves ctx).orError fun _ => Moves.stay rfl

theorem sendSilentPacket_moves : Moves sp.mode (sp.sendSilentPacket ctx p) := by
  unfold sendSilentPacket
  split
  · exact Moves.stay rfl
  · exact sp.sendEmptyPacket_moves ctx
  · exact Moves.stay rfl

theorem sendData_moves : Moves sp.mode (sp.sendData ctx p) := by
  refine (sp.transferPayload_moves p).bind ?_
  intro sp' result
  refine Moves.ite ?_ (Moves.stay rfl)
  exact (sp'.startXrun_moves ctx p).orError fun sp'' => sp''.sendEmptyPacket_moves ctx

theorem sendPacket_moves : Moves sp.mode (sp.sendPacket ctx p) := by
  unfold sendPacket
  split
  · exact (followRequest_moves _ ctx).orError fun sp' => sp'.sendData_moves ctx p
  · exact (followRequest_moves _ ctx).orError fun sp' => sp'.sendData_moves ctx p
  · exact (startXrun_moves _ ctx p).orError fun sp' => sp'.sendEmptyPacket_moves ctx
  · exact (followRequest_moves _ ctx).orError fun sp' => sp'.sendEmptyPacket_moves ctx
  · exact (followRequest_moves _ ctx).orError fun _ => Moves.stay rfl
  · exact Moves.stay rfl

theorem getPacket_moves : Moves sp.mode (sp.getPacket ctx p) := by
  refine Moves.ite (Moves.stay rfl) (Moves.ite (Moves.stay rfl) ?_)
  have hflag : (if p.dropped > 0 then { sp with inXrun := true } else sp).mode = sp.mode := by
    split_ifs <;> rfl
  rw [← hflag]
  generalize (if p.dropped > 0 then { sp with inXrun := true } else sp) = sp'
  refine Moves.ite ?_ ?_
  · exact (sp'.startXrun_moves ctx p).orError fun sp'' => sp''.sendEmptyPacket_moves ctx
  split
  · exact Moves.stay rfl
  · exact Moves.stay rfl
  · exact (sp'.switchIfDue_moves ctx p .dryRunning).orError
      fun sp'' => sp''.sendSilentPacket_moves ctx p
  · refine Moves.ite ?_ (sp'.sendEmptyPacket_moves ctx)
    exact (sp'.switchIfDue_moves ctx p .running).orError fun sp'' => sp''.sendEmptyPacket_moves ctx
  · exact (sp'.switchIfDue_moves ctx p .dryRunning).orError
      fun sp'' => sp''.sendEmptyPacket_moves ctx
  · exact sp'.sendPacket_moves ctx p
  · exact sp'.sendEmptyPacket_moves ctx

theorem blockOutcome_moves {r : BlockResult}
    (h : r.buffer.transparent = sp.dataBuffer.transparent) : Moves sp.mode (sp.blockOutcome r) := by
  unfold blockOutcome
  split
  · apply Moves.stay
    rw [mode, mode, h]
  · exact ensures_none

theorem getFrames_moves (c : Client) (nbframes : ℕ) :
    Moves sp.mode (sp.getFrames ctx c nbframes) := by
  refine Moves.ite (Moves.ite (Moves.stay rfl) (Moves.ite ensures_none ?_)) ensures_none
  refine (sp.blockOutcome_moves
    (sp.dataBuffer.blockProcessReadFrames_transparent c nbframes)).bind ?_
  intro sp' _
  exact Moves.stay rfl

theorem putFrames_moves (c : Client) (nbframes : ℕ) (ts : ℚ) :
    Moves sp.mode (sp.putFrames c nbframes ts) := by
  refine Moves.ite (Moves.ite (Moves.stay rfl) ?_) ensures_none
  refine (sp.blockOutcome_moves
    (sp.dataBuffer.blockProcessWriteFrames_transparent c nbframes ts)).bind ?_
  intro sp' _
  exact Moves.stay rfl

theorem dropFrames_moves (nbframes : ℕ) : Moves sp.mode (sp.dropFrames nbframes) := by
  refine (sp.dataBuffer.dropFrames_transparent nbframes).bind ?_
  rintro ⟨tb, result⟩ htb
  apply Moves.stay
  rw [mode, mode, htb]

theorem putSilenceFrames_moves (nbframes : ℕ) (ts : ℚ) :
    Moves sp.mode (sp.putSilenceFrames ctx nbframes ts) := by
  refine Moves.ite ensures_none (Moves.ite (Moves.stay rfl) ?_)
  refine (sp.dataBuffer.writeFrames_transparent nbframes _ ts).bind ?_
  rintro ⟨tb, result⟩ htb
  apply Moves.stay
  rw [mode, mode, htb]

theorem shiftStream_moves (nbframes : ℤ) : Moves sp.mode (sp.shiftStream nbframes) :=
  Moves.ite (Moves.stay rfl) (Moves.ite (sp.dropFrames_moves _) (Moves.stay rfl))

/-- The calls by which the ISO side reports that the stream is gone. -/
def Request.StopsStream : Request → Prop
  | .packetsStopped | .handlerDied => True
  | _ => False

/-- Such a report comes only while the buffer is transparent. -/
def StopsMuted (sp : StreamProcessor) (e : Context × Request) : Prop :=
  e.2.StopsStream → sp.dataBuffer.transparent = true

variable {sp} {sp' : StreamProcessor} {e : Context × Request}

theorem scheduleStartDryRunning_mode (t : ℤ) :
    (sp.scheduleStartDryRunning ctx t).1.mode = sp.mode := by
  unfold scheduleStartDryRunning
  split
  · split_ifs <;> rfl
  all_goals rfl

theorem unlessIn_mode (target : ProcessorState) {request : StreamProcessor × Bool}
    (h : request.1.mode = sp.mode) : (sp.unlessIn target request).1.mode = sp.mode := by
  unfold unlessIn
  split_ifs
  · rfl
  · exact h

/-- What a call does to state and mode. -/
theorem step_mode (h : sp.step e = some sp') :
    (¬ e.2.StopsStream ∧ ReflTransGen Move sp.mode sp'.mode) ∨
      (¬ e.2.StopsStream ∧ sp'.mode = (.error, sp.dataBuffer.transparent)) ∨
      (e.2.StopsStream ∧ sp'.mode = (.stopped, sp.dataBuffer.transparent)) := by
  have hstay {sp₁ : StreamProcessor} (heq : some sp₁ = some sp') (hsp₁ : sp₁.mode = sp.mode) :
      ReflTransGen Move sp.mode sp'.mode := by
    rw [← Option.some.inj heq, hsp₁]
  obtain ⟨ctx, request⟩ := e
  cases request with
  | init =>
    refine .inl ⟨id, hstay h ?_⟩
    unfold init
    split_ifs <;> rfl
  | prepare => exact .inl ⟨id, (sp.prepare_moves ctx).of_map h⟩
  | periodSizeChanged n => exact .inl ⟨id, (sp.periodSizeChanged_moves ctx n).of_map h⟩
  | scheduleStartDryRunning t => exact .inl ⟨id, hstay h (scheduleStartDryRunning_mode ctx t)⟩
  | scheduleStartRunning t => exact .inl ⟨id, hstay h rfl⟩
  | scheduleStopDryRunning t => exact .inl ⟨id, hstay h rfl⟩
  | scheduleStopRunning t => exact .inl ⟨id, hstay h rfl⟩
  | startDryRunning t =>
    exact .inl ⟨id, hstay h (unlessIn_mode _ (scheduleStartDryRunning_mode ctx t))⟩
  | putPacket p => exact .inl ⟨id, (sp.putPacket_moves ctx p).of_map h⟩
  | getPacket p => exact .inl ⟨id, (sp.getPacket_moves ctx p).of_map h⟩
  | getFrames c nbframes => exact .inl ⟨id, (sp.getFrames_moves ctx c nbframes).of_map h⟩
  | putFrames c nbframes ts => exact .inl ⟨id, (sp.putFrames_moves c nbframes ts).of_map h⟩
  | dropFrames nbframes => exact .inl ⟨id, (sp.dropFrames_moves nbframes).of_map h⟩
  | putSilenceFrames nbframes ts =>
    exact .inl ⟨id, (sp.putSilenceFrames_moves ctx nbframes ts).of_map h⟩
  | shiftStream nbframes => exact .inl ⟨id, (sp.shiftStream_moves nbframes).of_map h⟩
  | packetsStopped =>
    cases h
    exact .inr (.inr ⟨trivial, rfl⟩)
  | handlerDied =>
    cases h
    exact .inr (.inr ⟨trivial, rfl⟩)
  | handleBusReset =>
    cases h
    exact .inr (.inl ⟨id, rfl⟩)
  | _ => exact .inl ⟨id, hstay h (unlessIn_mode _ rfl)⟩

/-- Stopped and dry-running processors have a transparent buffer, running ones do not. -/
structure BufferMode (sp : StreamProcessor) : Prop where
  transparent_of_silent : sp.state = .stopped ∨ sp.state = .waitingForStream ∨
    sp.state = .dryRunning → sp.dataBuffer.transparent = true
  not_transparent_of_running : sp.state = .running → sp.dataBuffer.transparent = false

theorem bufferMode_of_agrees (h : sp.mode.Agrees) : sp.BufferMode := by
  constructor
  · rintro (hstate | hstate | hstate) <;> simpa [mode, hstate, Mode.Agrees] using h
  · intro hstate
    simpa [mode, hstate, Mode.Agrees] using h

theorem agrees_of_step (h : sp.mode.Agrees) (hstep : Guarded StopsMuted step sp e sp') :
    sp'.mode.Agrees := by
  rcases step_mode hstep.2 with ⟨-, hmoves⟩ | ⟨-, herror⟩ | ⟨hstops, hstopped⟩
  · exact agrees_of_moves hmoves h
  · rw [herror]
    trivial
  · rw [hstopped, hstep.1 hstops]
    rfl

/-- A stream that goes away while the buffer is in use leaves it opaque. -/
theorem not_bufferMode_of_stop (hstep : sp.step e = some sp') (hguard : ¬ sp.StopsMuted e) :
    ¬ sp'.BufferMode := by
  intro hmode
  obtain ⟨hstops, hopaque⟩ := Classical.not_imp.mp hguard
  rcases step_mode hstep with ⟨hnot, -⟩ | ⟨hnot, -⟩ | ⟨-, hstopped⟩
  · exact hnot hstops
  · exact hnot hstops
  · obtain ⟨hstate, htransparent⟩ := Prod.mk.inj hstopped
    exact hopaque (htransparent.symm.trans (hmode.transparent_of_silent (.inl hstate)))

theorem bufferMode_iff_stopsMuted {processorType : ProcessorType} {es : List (Context × Request)}
    (hrun : Run (Guarded Always step) (new processorType) es sp) :
    (∀ es₁ sp₁, es₁ <+: es → Run (Guarded Always step) (new processorType) es₁ sp₁ →
      sp₁.BufferMode) ↔
      Run (Guarded StopsMuted step) (new processorType) es sp :=
  run_stays_iff_guarded (fun _ => bufferMode_of_agrees) (fun _ _ _ => agrees_of_step)
    (fun _ _ _ _ => not_bufferMode_of_stop) hrun rfl

/-- Two buffers of eight frames of one quadlet, at 48 kHz, where every service does its work. -/
def quadletStream : Context where
  nbBuffers := 2
  periodSize := 8
  nominalRate := 48000
  nominalRate_pos := by norm_num
  eventSize := 4
  eventsPerFrame := 1
  nominalFramesPerPacket := 8
  syncTicksPerFrame := 512
  cycleTimerTicks := 0
  memory := fun _ => 0
  silenceBlock := (fun _ => 0, true)
  registered := true
  startHandler := true
  stopHandler := true
  portsSized := true
  portsInitialised := true
  portsPrepared := true
  portsSilenced := true
  childPrepared := true

def goodPacket : Packet where
  pktCtr := 0
  dropped := 0
  header := .ok
  timestamp := 0
  silentHeader := .packet
  payload := .nothing
  answer := fun _ => .ok

/-- From the constructor of a receive processor to its running state. -/
def startup (ctx : Context) : List (Context × Request) :=
  [.init, .prepare, .scheduleStartDryRunning 0, .putPacket goodPacket, .putPacket goodPacket,
    .scheduleStartRunning 0, .putPacket goodPacket, .putPacket goodPacket].map (ctx, ·)

/-- The handler stops, and the client starts the stream again. -/
def restart (ctx : Context) : List (Context × Request) :=
  [.packetsStopped, .scheduleStartDryRunning 0, .putPacket goodPacket,
    .putPacket goodPacket].map (ctx, ·)

theorem bufferMode_iff_stopsMuted_startup :
    ∃ sp, Run (Guarded Always step) (new .receive) (startup quadletStream) sp ∧
      ((∀ es₁ sp₁, es₁ <+: startup quadletStream →
        Run (Guarded Always step) (new .receive) es₁ sp₁ → sp₁.BufferMode) ↔
        Run (Guarded StopsMuted step) (new .receive) (startup quadletStream) sp) := by
  obtain ⟨sp, hrun, -⟩ := exists_run_of_foldlM
    (fun sp : StreamProcessor => decide (sp.state = .running))
    (show ((startup quadletStream).foldlM step (new .receive)).map _ = some true by decide +kernel)
  exact ⟨sp, hrun, bufferMode_iff_stopsMuted hrun⟩

/-- The restarted processor is dry-running with a buffer that still takes part. -/
theorem not_transparent_after_restart :
    ∃ sp, Run (Guarded Always step) (new .receive)
        (startup quadletStream ++ restart quadletStream) sp ∧
      sp.state = .dryRunning ∧ ¬ sp.BufferMode := by
  obtain ⟨sp, hrun, hsp⟩ := exists_run_of_foldlM
    (fun sp : StreamProcessor => decide (sp.state = .dryRunning) && !sp.dataBuffer.transparent)
    (show ((startup quadletStream ++ restart quadletStream).foldlM step (new .receive)).map _ =
      some true by decide +kernel)
  obtain ⟨hstate, htransparent⟩ : sp.state = .dryRunning ∧ sp.dataBuffer.transparent = false := by
    simpa using hsp
  refine ⟨sp, hrun, hstate, ?_⟩
  intro hmode
  rw [hmode.transparent_of_silent (.inr (.inr hstate))] at htransparent
  exact Bool.noConfusion htransparent

end StreamProcessor
end Ffado
