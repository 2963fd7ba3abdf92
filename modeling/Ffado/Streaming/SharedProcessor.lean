import Ffado.Lib.SharedProgram
import Ffado.Streaming.BufferMode

/-!
# A processor between two threads

The ISO thread calls `putPacket` or `getPacket`, and the client thread stores requests, without
a lock between them. Here these calls are programs whose actions touch `m_next_state` or
`m_state` at most once, so that the other thread can come in between any two of them. Only the
ISO thread assigns `m_state`.
-/
namespace Ffado

open CycleTimer Postcondition SharedProgram Program

/-- The pairs for which `updateState` has a transition function. -/
def ProcessorState.implements : ProcessorState → ProcessorState → Bool
  | .created, .stopped => true
  | .stopped, .waitingForStream => true
  | .waitingForStream, .dryRunning => true
  | .dryRunning, .stopped => true
  | .dryRunning, .waitingForStreamEnable => true
  | .waitingForStreamEnable, .dryRunning => true
  | .waitingForStreamEnable, .running => true
  | .running, .waitingForStreamDisable => true
  | .waitingForStreamDisable, .dryRunning => true
  | _, _ => false

/-- The next state is the present one, or `updateState` knows the way. -/
def ProcessorState.Fits (state next : ProcessorState) : Prop :=
  state = next ∨ state.implements next = true

structure SharedProcessor where
  sp : StreamProcessor
  /-- The copy of `m_next_state` in `updateState`, from the copying to the assignment of
  `m_state`. -/
  nextStateCopy : Option ProcessorState
  /-- `updateState` has been at its exit for invalid transitions. -/
  invalidTransition : Bool

namespace SharedProcessor

variable (c : SharedProcessor)

def modify (f : StreamProcessor → StreamProcessor) : SharedProcessor := { c with sp := f c.sp }

def setNextState (next : ProcessorState) : SharedProcessor :=
  c.modify fun sp => { sp with nextState := next }

/-- `updateState` after the copying: the state changes according to the copy, while
`m_next_state` may have another value by now. -/
def changeState (ctx : Context) (next : ProcessorState) : Option (SharedProcessor × Bool) :=
  if c.sp.state ≠ next ∧ c.sp.state.implements next = false then
    some ({ c with nextStateCopy := none, invalidTransition := true }, false)
  else do
    let (sp, result) ← { c.sp with nextState := next }.updateState ctx
    some ({ c with sp := { sp with nextState := c.sp.nextState }, nextStateCopy := none }, result)

end SharedProcessor

namespace IsoThread

variable (ctx : Context) (p : Packet)

def readState : Program SharedProcessor ProcessorState := read fun c => c.sp.state

def modify (f : StreamProcessor → StreamProcessor) : Program SharedProcessor Unit :=
  write fun c => c.modify f

def updateState : Program SharedProcessor Bool := do
  let next ← atomic fun c =>
    some ({ c with nextStateCopy := some c.sp.nextState }, c.sp.nextState)
  atomic fun c => c.changeState ctx next

def switchTo (next : ProcessorState) : Program SharedProcessor Bool := do
  write fun c => c.setNextState next
  updateState ctx

def switchIfDue (next : ProcessorState) : Program SharedProcessor Bool := do
  if ← read fun c => c.sp.switchDue p.pktCtr then switchTo ctx next else pure true

def requested : Program SharedProcessor Bool :=
  read fun c => decide (c.sp.state ≠ c.sp.nextState)

def followRequest : Program SharedProcessor Bool := do
  if ← requested then updateState ctx else pure true

def startXrun : Program SharedProcessor Bool := do
  modify fun sp => { sp with
    inXrun := true
    cycleToSwitchState := cycleTimerGetCycles p.pktCtr + 1 }
  switchTo ctx .waitingForStreamDisable

def orError (change : Program SharedProcessor Bool) (next : Program SharedProcessor Disposition) :
    Program SharedProcessor Disposition := do
  if ← change then next else pure .error

def transferPayload : Program SharedProcessor ChildReturnValue :=
  atomic fun c => (c.sp.transferPayload p).map fun r => ({ c with sp := r.1 }, r.2)

def receiveData : Program SharedProcessor Disposition := do
  let result ← transferPayload p
  if result = .xRun then orError (startXrun ctx p) (pure .defer)
  else if result = .ok then pure .ok
  else pure .error

def receivePacket : Program SharedProcessor Disposition :=
  match p.header with
  | .ok => do
    modify fun sp => (sp.fixLastTimestamp ctx).correctTimestamp ctx
    if (← readState) = .waitingForStream then
      orError (switchIfDue ctx p .dryRunning) (pure .ok)
    else if ← requested then
      orError (updateState ctx) do
        if (← readState) = .waitingForStream then pure .ok else receiveData ctx p
    else receiveData ctx p
  | .invalid => pure .ok
  | _ => pure .error

def receiveHeader : Program SharedProcessor Disposition := do
  modify fun sp => { sp with lastTimestamp := p.timestamp }
  if p.dropped ≠ 0 then
    modify fun sp => { sp with correctLastTimestamp := true }
    if (← readState) = .running then orError (startXrun ctx p) (receivePacket ctx p)
    else receivePacket ctx p
  else receivePacket ctx p

def putPacket : Program SharedProcessor Disposition := do
  let state ← readState
  if state = .invalid then pure .error
  else if state = .created then pure .defer
  else if state = .error then pure .ok
  else
    modify fun sp => { sp with lastTimestamp2 := sp.lastTimestamp }
    if state = .waitingForStreamDisable then
      orError (switchIfDue ctx p .dryRunning) (pure .ok)
    else if ← read fun c => decide (c.sp.state = .waitingForStreamEnable ∧
        c.sp.nextState = .waitingForStreamEnable) then
      orError (switchIfDue ctx p .running) (receiveHeader ctx p)
    else receiveHeader ctx p

def sendEmptyPacket : Program SharedProcessor Disposition :=
  orError (followRequest ctx) (pure .ok)

def sendSilentPacket : Program SharedProcessor Disposition :=
  match p.silentHeader with
  | .packet => pure .ok
  | .emptyPacket => sendEmptyPacket ctx
  | _ => pure .error

def sendData : Program SharedProcessor Disposition := do
  let result ← transferPayload p
  if result = .xRun then orError (startXrun ctx p) (sendEmptyPacket ctx)
  else pure (if result = .defer ∨ p.header = .defer then .defer else .ok)

def sendPacket : Program SharedProcessor Disposition :=
  match p.header with
  | .packet | .defer => do
    modify fun sp => { sp with lastTimestamp := p.timestamp, lastTimestamp2 := sp.lastTimestamp }
    orError (followRequest ctx) (sendData ctx p)
  | .xRun => do
    modify fun sp => { sp with lastTimestamp := p.timestamp }
    orError (startXrun ctx p) (sendEmptyPacket ctx)
  | .emptyPacket => do
    modify fun sp => { sp with lastTimestamp := p.timestamp }
    orError (followRequest ctx) (sendEmptyPacket ctx)
  | .again => do
    modify fun sp => { sp with lastTimestamp := p.timestamp }
    orError (followRequest ctx) (pure .defer)
  | _ => do
    modify fun sp => { sp with lastTimestamp := p.timestamp }
    pure .error

/-- `getPacket` after the test for dropped packets. -/
def sendInState : ProcessorState → Program SharedProcessor Disposition
  | .invalid => pure .error
  | .created => pure .defer
  | .waitingForStreamDisable =>
    orError (switchIfDue ctx p .dryRunning) (sendSilentPacket ctx p)
  | .waitingForStreamEnable => do
    if ← read fun c => decide (c.sp.nextState = .waitingForStreamEnable) then
      orError (switchIfDue ctx p .running) (sendEmptyPacket ctx)
    else sendEmptyPacket ctx
  | .waitingForStream =>
    orError (switchIfDue ctx p .dryRunning) (sendEmptyPacket ctx)
  | .running => sendPacket ctx p
  | _ => sendEmptyPacket ctx

def getPacket : Program SharedProcessor Disposition :=
  if p.pktCtr = 0xFFFFFFFF then pure .ok
  else do
    let state ← readState
    if state = .error then pure .ok
    else
      modify fun sp => if p.dropped > 0 then { sp with inXrun := true } else sp
      if p.dropped > 0 ∧ state = .running then orError (startXrun ctx p) (sendEmptyPacket ctx)
      else sendInState ctx p state

/-- What the handler calls once per cycle. -/
def packetCallback : ProcessorType → Program SharedProcessor Disposition
  | .receive => putPacket ctx p
  | .transmit => getPacket ctx p

end IsoThread

namespace StreamProcessor

variable (sp : StreamProcessor) (ctx : Context) (p : Packet)

def states : ProcessorState × ProcessorState := (sp.state, sp.nextState)

/-- The call leaves the request alone, and the state as it is or at the target. -/
def Lands (target : ProcessorState) (r : Option (StreamProcessor × Bool)) : Prop :=
  Ensures r fun x => x.1.states = sp.states ∨ x.1.states = (target, sp.nextState)

theorem transferSilence_states (nframes : ℕ) :
    Ensures (sp.transferSilence ctx nframes) fun r => r.1.states = sp.states := by
  apply ensures_bind
  intro r
  exact ensures_some.mpr rfl

theorem prefill_states : Ensures (sp.prefill ctx) fun r => r.1.states = sp.states := by
  unfold prefill
  cases sp.processorType with
  | receive => exact ensures_some.mpr rfl
  | transmit => exact sp.transferSilence_states ctx _

theorem muteBuffer_nextState :
    Ensures sp.muteBuffer fun r => r.1.nextState = sp.nextState := by
  apply ensures_bind
  intro r
  exact ensures_some.mpr rfl

theorem enterStopped_states (result : Bool) :
    Ensures (sp.enterStopped ctx result) fun r => r.1.states = (.stopped, sp.nextState) := by
  refine sp.muteBuffer_nextState.bind ?_
  rintro ⟨sp', cleared⟩ hnext
  rw [ensures_some, ← show sp'.nextState = sp.nextState from hnext]
  rfl

theorem doStop_lands : sp.Lands .stopped (sp.doStop ctx) := by
  unfold doStop
  split
  · refine (setupDataBuffer_keeps _ ctx).bind ?_
    rintro ⟨sp', result⟩ ⟨-, hnext, -⟩
    refine (sp'.enterStopped_states ctx result).mono ?_
    intro x hx
    right
    rw [hx, show sp'.nextState = sp.nextState from hnext]
  · apply Ensures.ite
    · intro _
      exact (sp.enterStopped_states ctx true).mono fun _ hx => .inr hx
    · intro _
      exact ensures_some.mpr (.inl rfl)
  · exact ensures_some.mpr (.inl rfl)

theorem doWaitForRunningStream_lands :
    sp.Lands .waitingForStream sp.doWaitForRunningStream := by
  unfold doWaitForRunningStream
  split
  · exact ensures_some.mpr (.inr rfl)
  · exact ensures_some.mpr (.inl rfl)

theorem doDryRunning_lands : sp.Lands .dryRunning sp.doDryRunning := by
  unfold doDryRunning
  split
  · exact ensures_some.mpr (.inr rfl)
  · refine sp.muteBuffer_nextState.bind ?_
    intro r hr
    exact ensures_some.mpr (.inr (congrArg (Prod.mk _) hr))
  · refine sp.muteBuffer_nextState.bind ?_
    intro r hr
    exact ensures_some.mpr (.inr (congrArg (Prod.mk _) hr))
  · exact ensures_some.mpr (.inl rfl)

theorem doWaitForStreamEnable_lands :
    sp.Lands .waitingForStreamEnable (sp.doWaitForStreamEnable ctx) := by
  unfold doWaitForStreamEnable
  split
  · apply ensures_bind
    rintro ⟨tb, resized⟩
    apply Ensures.ite
    · intro _
      refine (prefill_states _ ctx).bind ?_
      rintro ⟨sp', filled⟩ hstates
      apply Ensures.ite
      · intro _
        exact ensures_some.mpr (.inr (congrArg (Prod.mk _) (Prod.mk.inj hstates).2))
      · intro _
        exact ensures_some.mpr (.inl hstates)
    · intro _
      exact ensures_some.mpr (.inl rfl)
  · exact ensures_some.mpr (.inl rfl)

theorem doRunning_lands : sp.Lands .running sp.doRunning := by
  unfold doRunning
  split
  · exact ensures_some.mpr (.inr rfl)
  · exact ensures_some.mpr (.inl rfl)

theorem doWaitForStreamDisable_lands :
    sp.Lands .waitingForStreamDisable sp.doWaitForStreamDisable := by
  unfold doWaitForStreamDisable
  split
  · exact ensures_some.mpr (.inr rfl)
  · exact ensures_some.mpr (.inl rfl)

variable {sp} in
theorem Lands.of_eq {target : ProcessorState} {r : Option (StreamProcessor × Bool)}
    (h : sp.Lands target r) (hnext : sp.nextState = target) : sp.Lands sp.nextState r := by
  rw [hnext]
  exact h

theorem updateState_lands : sp.Lands sp.nextState (sp.updateState ctx) := by
  apply Ensures.ite
  · intro _
    exact ensures_some.mpr (.inl rfl)
  · intro _
    split
    · exact (sp.doStop_lands ctx).of_eq ‹_›
    · exact sp.doWaitForRunningStream_lands.of_eq ‹_›
    · exact sp.doDryRunning_lands.of_eq ‹_›
    · exact (sp.doStop_lands ctx).of_eq ‹_›
    · exact (sp.doWaitForStreamEnable_lands ctx).of_eq ‹_›
    · exact sp.doDryRunning_lands.of_eq ‹_›
    · exact sp.doRunning_lands.of_eq ‹_›
    · exact sp.doWaitForStreamDisable_lands.of_eq ‹_›
    · exact sp.doDryRunning_lands.of_eq ‹_›
    · exact ensures_some.mpr (.inl rfl)

theorem updateState_nextState :
    Ensures (sp.updateState ctx) fun r => r.1.nextState = sp.nextState := by
  refine (sp.updateState_lands ctx).mono ?_
  rintro r (hstates | hstates)
  · exact (Prod.mk.inj hstates).2
  · exact (Prod.mk.inj hstates).2

end StreamProcessor

end Ffado
