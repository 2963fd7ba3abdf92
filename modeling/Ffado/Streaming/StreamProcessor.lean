import Ffado.Ieee1394.CycleTimer
import Ffado.Ieee1394.IsoHandler
import Ffado.Util.FrameAccounting

/-!
# The stream processor

A stream processor stands between the ISO handler, which calls `putPacket` or `getPacket`
once per cycle, and the client, which moves blocks of frames. It owns a timestamped buffer
and a state machine. A request only stores the wanted state; the packet loop carries it out
in `updateState`, which calls one of the `do…` functions.

The settings of the manager, the answers of the services and those of the subclass that
handles the packet format are arguments. The fields of the source that no function here
reads (channel, node id, the limits of the debug messages) are left out. As in the buffer,
`none` means that the process stops in the call, and floating point values are exact.
-/
namespace Ffado

open CycleTimer MachineInt

inductive ProcessorType
  | receive
  | transmit
  deriving DecidableEq, Repr

inductive ProcessorState
  | invalid
  | created
  | stopped
  | waitingForStream
  | dryRunning
  | waitingForStreamEnable
  | running
  | waitingForStreamDisable
  | error
  deriving DecidableEq, Repr

inductive ChildReturnValue
  | ok
  | invalid
  | packet
  | emptyPacket
  | xRun
  | again
  | defer
  | error
  deriving DecidableEq, Repr

def streamprocessorDllFastBwHz : ℚ := 5
def streamprocessorDllBwHz : ℚ := 1 / 10

/-- What a call finds around the processor: the settings of manager and subclass, the clock,
and what the services answer if they are asked. -/
structure Context where
  nbBuffers : ℕ
  periodSize : ℕ
  nominalRate : ℕ
  nominalRate_pos : 0 < nominalRate
  eventSize : ℕ
  eventsPerFrame : ℕ
  nominalFramesPerPacket : ℕ
  /-- The rate of the sync source, in ticks per frame. -/
  syncTicksPerFrame : ℚ
  cycleTimerTicks : ℕ
  /-- Uninitialised memory. -/
  memory : ℕ → UInt8
  /-- What `transmitSilenceBlock` leaves in the area it is given, and its answer. -/
  silenceBlock : (ℕ → UInt8) × Bool
  registered : Bool
  startHandler : Bool
  stopHandler : Bool
  portsSized : Bool
  portsInitialised : Bool
  portsPrepared : Bool
  portsSilenced : Bool
  childPrepared : Bool

/-- The buffer operation in which a subclass handles the payload of a packet. -/
inductive PayloadTransfer
  | nothing
  | write (nevents : ℕ) (data : ℕ → UInt8)
  | read (nevents : ℕ) (data : ℕ → UInt8)

/-- A packet, with the answers of the subclass: for its header, with the value of
`m_last_timestamp` afterwards, for a silent header, and for the payload, which depends on
whether the buffer operation succeeds. -/
structure Packet where
  pktCtr : ℕ
  dropped : ℕ
  header : ChildReturnValue
  timestamp : ℕ
  silentHeader : ChildReturnValue
  payload : PayloadTransfer
  answer : Bool → ChildReturnValue

structure StreamProcessor where
  processorType : ProcessorType
  state : ProcessorState
  nextState : ProcessorState
  cycleToSwitchState : ℕ
  lastTimestamp : ℕ
  lastTimestamp2 : ℕ
  correctLastTimestamp : Bool
  dataBuffer : TimestampedBuffer
  scratchBuffer : Option (ℕ → UInt8)
  scratchBufferSizeBytes : ℕ
  ticksPerFrame : ℚ
  dllBandwidthHz : ℚ
  extraBufferFrames : ℕ
  inXrun : Bool

namespace StreamProcessor

/-- The constructor. -/
def new (processorType : ProcessorType) : StreamProcessor where
  processorType := processorType
  state := .created
  nextState := .invalid
  cycleToSwitchState := 0
  lastTimestamp := 0
  lastTimestamp2 := 0
  correctLastTimestamp := false
  dataBuffer := .new
  scratchBuffer := none
  scratchBufferSizeBytes := 0
  ticksPerFrame := 0
  dllBandwidthHz := streamprocessorDllBwHz
  extraBufferFrames := 0
  inXrun := false

variable (sp : StreamProcessor) (ctx : Context)

/-- The frames that the ring has to hold, before the one that is added for safety. -/
def periodFrames : ℕ := u32 (ctx.nbBuffers * ctx.periodSize + sp.extraBufferFrames)

def configuredBuffer : TimestampedBuffer :=
  let sized := ((sp.dataBuffer.setBufferSize (u32 (sp.periodFrames ctx + 1))).setEventSize
    ctx.eventSize).setEventsPerFrame ctx.eventsPerFrame
  match sp.processorType with
  | .receive => sized.setUpdatePeriod ctx.nominalFramesPerPacket
  | .transmit => sized.setUpdatePeriod ctx.periodSize

def setupDataBuffer : Option (StreamProcessor × Bool) :=
  let sp := { sp with correctLastTimestamp := false, dataBuffer := sp.configuredBuffer ctx }
  if sp.ticksPerFrame > 0 then do
    let rated := (sp.dataBuffer.setNominalRate sp.ticksPerFrame).setWrapValue (128 * ticksPerSecond)
    let widened := rated.setBandwidth (streamprocessorDllFastBwHz / ticksPerSecond)
    let (tb, prepared) ← widened.1.prepare ctx.memory
    some ({ sp with dataBuffer := tb }, widened.2 && prepared)
  else some (sp, true)

/-- The buffer is prefilled with silence; what the subclass answers is not looked at. -/
def transferSilence (nframes : ℕ) : Option (StreamProcessor × Bool) := do
  let (tb, result) ← sp.dataBuffer.preloadFrames nframes ctx.silenceBlock.1 true
  some ({ sp with dataBuffer := tb }, result)

def muteBuffer : Option (StreamProcessor × Bool) := do
  let (tb, result) ← sp.dataBuffer.clearBuffer
  some ({ sp with dataBuffer := tb.setTransparent true }, result)

/-- The common end of both entries into the stopped state. -/
def enterStopped (result : Bool) : Option (StreamProcessor × Bool) := do
  let (sp, cleared) ← sp.muteBuffer
  some ({ sp with state := .stopped }, result && cleared && ctx.portsPrepared)

def doStop : Option (StreamProcessor × Bool) :=
  match sp.state with
  | .created => do
    let rated := { sp with
      ticksPerFrame := (ticksPerSecond : ℚ) / ctx.nominalRate
      correctLastTimestamp := false }
    let (sp, result) ← rated.setupDataBuffer ctx
    sp.enterStopped ctx result
  | .dryRunning => if ctx.stopHandler then sp.enterStopped ctx true else some (sp, false)
  | _ => some (sp, false)

def doWaitForRunningStream : Option (StreamProcessor × Bool) :=
  match sp.state with
  | .stopped => some ({ sp with state := .waitingForStream }, true)
  | _ => some (sp, false)

def doDryRunning : Option (StreamProcessor × Bool) :=
  match sp.state with
  | .waitingForStream =>
    let tb := match sp.processorType with
      | .receive => sp.dataBuffer.setBufferTailTimestamp sp.lastTimestamp
      | .transmit => sp.dataBuffer
    some ({ sp with dataBuffer := tb, state := .dryRunning }, true)
  | .waitingForStreamEnable => do
    let (sp, result) ← sp.muteBuffer
    some ({ sp with state := .dryRunning }, result)
  | .waitingForStreamDisable => do
    let (sp, result) ← sp.muteBuffer
    some ({ sp with lastTimestamp := 0, lastTimestamp2 := 0, state := .dryRunning }, result)
  | _ => some (sp, false)

def prefill : Option (StreamProcessor × Bool) :=
  match sp.processorType with
  | .receive => some (sp, true)
  | .transmit => sp.transferSilence ctx (sp.periodFrames ctx)

def doWaitForStreamEnable : Option (StreamProcessor × Bool) :=
  match sp.state with
  | .dryRunning => do
    let (tb, resized) ← sp.dataBuffer.resizeBuffer (u32 (sp.periodFrames ctx + 1)) ctx.memory
    let sp := { sp with dataBuffer := tb }
    if resized then
      let (sp, filled) ← sp.prefill ctx
      if filled then some ({ sp with state := .waitingForStreamEnable }, true)
      else some (sp, false)
    else some (sp, false)
  | _ => some (sp, false)

def doRunning : Option (StreamProcessor × Bool) :=
  match sp.state with
  | .waitingForStreamEnable =>
    let (tb, result) := sp.dataBuffer.setBandwidth (sp.dllBandwidthHz / ticksPerSecond)
    some ({ sp with
      inXrun := false
      dataBuffer := tb.setTransparent false
      lastTimestamp2 := 0
      state := .running }, result)
  | _ => some (sp, false)

def doWaitForStreamDisable : Option (StreamProcessor × Bool) :=
  match sp.state with
  | .running => some ({ sp with state := .waitingForStreamDisable }, true)
  | _ => some (sp, false)

def updateState : Option (StreamProcessor × Bool) :=
  if sp.state = sp.nextState then some (sp, true)
  else
    match sp.state, sp.nextState with
    | .created, .stopped => sp.doStop ctx
    | .stopped, .waitingForStream => sp.doWaitForRunningStream
    | .waitingForStream, .dryRunning => sp.doDryRunning
    | .dryRunning, .stopped => sp.doStop ctx
    | .dryRunning, .waitingForStreamEnable => sp.doWaitForStreamEnable ctx
    | .waitingForStreamEnable, .dryRunning => sp.doDryRunning
    | .waitingForStreamEnable, .running => sp.doRunning
    | .running, .waitingForStreamDisable => sp.doWaitForStreamDisable
    | .waitingForStreamDisable, .dryRunning => sp.doDryRunning
    | _, _ => some (sp, false)

/-- The packet loop and `prepare` may change the state at once. -/
def switchTo (next : ProcessorState) : Option (StreamProcessor × Bool) :=
  { sp with nextState := next }.updateState ctx

def init : StreamProcessor × Bool :=
  if ctx.registered then ({ sp with nextState := .created }, true) else (sp, false)

def periodSizeChanged (newPeriodsize : ℕ) : Option (StreamProcessor × Bool) :=
  if sp.state ≠ .stopped ∧ sp.state ≠ .created then some (sp, false)
  else
    let sp := { sp with
      scratchBufferSizeBytes := u32 (u32 (newPeriodsize * ctx.eventsPerFrame) * ctx.eventSize)
      scratchBuffer := some ctx.memory }
    if !ctx.portsSized then some (sp, false)
    else do
      let (sp, result) ← sp.setupDataBuffer ctx
      if result then sp.updateState ctx else some (sp, false)

def prepare : Option (StreamProcessor × Bool) := do
  let (sp, result) ← sp.periodSizeChanged ctx ctx.periodSize
  if result && ctx.portsInitialised && ctx.childPrepared then
    sp.switchTo ctx .stopped
  else some (sp, false)

def scheduleStateTransition (state : ProcessorState) (timeInstant : ℕ) : StreamProcessor × Bool :=
  ({ sp with cycleToSwitchState := ticksToCycles timeInstant, nextState := state }, true)

/-- A negative time stands for `lead` cycles from now. -/
def requestTime (lead : ℕ) (t : ℤ) : ℕ :=
  if t < 0 then addTicks ctx.cycleTimerTicks (lead * ticksPerCycle) else t.toNat

def scheduleStartDryRunning (t : ℤ) : StreamProcessor × Bool :=
  let tx := requestTime ctx 200 t
  match sp.state with
  | .stopped =>
    if ctx.startHandler then sp.scheduleStateTransition .waitingForStream tx else (sp, false)
  | .running => sp.scheduleStateTransition .waitingForStreamDisable tx
  | .dryRunning => (sp, true)
  | .waitingForStreamEnable => sp.scheduleStateTransition .dryRunning tx
  | .waitingForStreamDisable => (sp, true)
  | _ => (sp, false)

def scheduleStartRunning (t : ℤ) : StreamProcessor × Bool :=
  sp.scheduleStateTransition .waitingForStreamEnable (requestTime ctx 200 t)

def scheduleStopDryRunning (t : ℤ) : StreamProcessor × Bool :=
  sp.scheduleStateTransition .stopped (requestTime ctx 2000 t)

def scheduleStopRunning (t : ℤ) : StreamProcessor × Bool :=
  sp.scheduleStateTransition .waitingForStreamDisable (requestTime ctx 2000 t)

/-- A request unless its target is reached already. The wait for the target that follows in
the source only reads `m_state`. -/
def unlessIn (target : ProcessorState) (request : StreamProcessor × Bool) :
    StreamProcessor × Bool :=
  if sp.state = target then (sp, true) else request

def startDryRunning (t : ℤ) : StreamProcessor × Bool :=
  sp.unlessIn .dryRunning (sp.scheduleStartDryRunning ctx t)

def startRunning (t : ℤ) : StreamProcessor × Bool :=
  sp.unlessIn .running (sp.scheduleStartRunning ctx t)

def stopDryRunning (t : ℤ) : StreamProcessor × Bool :=
  sp.unlessIn .stopped (sp.scheduleStopDryRunning ctx t)

def stopRunning (t : ℤ) : StreamProcessor × Bool :=
  sp.unlessIn .dryRunning (sp.scheduleStopRunning ctx t)

/-- A state change inside the packet loop: the packet ends with an error if it fails. -/
def orError (change : Option (StreamProcessor × Bool))
    (next : StreamProcessor → Option (StreamProcessor × Disposition)) :
    Option (StreamProcessor × Disposition) := do
  let (sp, result) ← change
  if result then next sp else some (sp, .error)

/-- The cycle of the packet has reached the one that the switch waits for. -/
def switchDue (pktCtr : ℕ) : Bool :=
  decide (diffCycles (cycleTimerGetCycles pktCtr) sp.cycleToSwitchState ≥ 0)

/-- Switch to the given state if its time has come. -/
def switchIfDue (p : Packet) (next : ProcessorState) : Option (StreamProcessor × Bool) :=
  if sp.switchDue p.pktCtr then sp.switchTo ctx next else some (sp, true)

/-- Carry out a request that is still open. -/
def followRequest : Option (StreamProcessor × Bool) :=
  if sp.state ≠ sp.nextState then sp.updateState ctx else some (sp, true)

/-- Leave the running state because of an xrun, to be disabled in the next cycle. -/
def startXrun (p : Packet) : Option (StreamProcessor × Bool) :=
  { sp with inXrun := true, cycleToSwitchState := cycleTimerGetCycles p.pktCtr + 1 }.switchTo ctx
    .waitingForStreamDisable

def transferPayload (p : Packet) : Option (StreamProcessor × ChildReturnValue) :=
  match p.payload with
  | .nothing => some (sp, p.answer true)
  | .write nevents data => do
    let (tb, result) ← sp.dataBuffer.writeFrames nevents data sp.lastTimestamp
    some ({ sp with dataBuffer := tb }, p.answer result)
  | .read nevents data => do
    let (tb, result, _) ← sp.dataBuffer.readFrames nevents data
    some ({ sp with dataBuffer := tb }, p.answer result)

/-- The conversion of a floating point value to an integer. -/
def truncate (x : ℚ) : ℤ := x.num.tdiv x.den

/-- The deviation of a timestamp from the previous one, against the nominal packet length. -/
def packetJitter (timestamp : ℕ) : ℤ :=
  i32 (diffTicks timestamp sp.lastTimestamp2) -
    truncate (sp.dataBuffer.currentRate * ctx.nominalFramesPerPacket)

def fixLastTimestamp : StreamProcessor :=
  let near (timestamp : ℕ) : Bool := decide (|sp.packetJitter ctx timestamp| < 50)
  let later := addTicks sp.lastTimestamp ticksPerSecond
  let earlier := substractTicks sp.lastTimestamp ticksPerSecond
  if sp.lastTimestamp > 0 ∧ sp.lastTimestamp2 > 0 ∧ |sp.packetJitter ctx sp.lastTimestamp| > 50 then
    if near later then { sp with lastTimestamp := later }
    else if near earlier then { sp with lastTimestamp := earlier }
    else sp
  else sp

/-- Restart the buffer's clock after dropped cycles. -/
def correctTimestamp : StreamProcessor :=
  if sp.correctLastTimestamp then
    let packetTicks := truncate (ctx.nominalFramesPerPacket * sp.dataBuffer.currentRate)
    { sp with
      dataBuffer := sp.dataBuffer.setBufferTailTimestamp
        (substractTicks sp.lastTimestamp packetTicks.toNat)
      correctLastTimestamp := false }
  else sp

def receiveData (p : Packet) : Option (StreamProcessor × Disposition) := do
  let (sp, result) ← sp.transferPayload p
  if result = .xRun then orError (sp.startXrun ctx p) fun sp => some (sp, .defer)
  else if result = .ok then some (sp, .ok)
  else some (sp, .error)

def receivePacket (p : Packet) : Option (StreamProcessor × Disposition) :=
  match p.header with
  | .ok =>
    let sp := (sp.fixLastTimestamp ctx).correctTimestamp ctx
    if sp.state = .waitingForStream then
      orError (sp.switchIfDue ctx p .dryRunning) fun sp => some (sp, .ok)
    else if sp.state ≠ sp.nextState then
      orError (sp.updateState ctx) fun sp =>
        if sp.state = .waitingForStream then some (sp, .ok) else sp.receiveData ctx p
    else sp.receiveData ctx p
  | .invalid => some (sp, .ok)
  | _ => some (sp, .error)

def receiveHeader (p : Packet) : Option (StreamProcessor × Disposition) :=
  let sp := { sp with lastTimestamp := p.timestamp }
  if p.dropped ≠ 0 then
    let sp := { sp with correctLastTimestamp := true }
    if sp.state = .running then orError (sp.startXrun ctx p) fun sp => sp.receivePacket ctx p
    else sp.receivePacket ctx p
  else sp.receivePacket ctx p

def putPacket (p : Packet) : Option (StreamProcessor × Disposition) :=
  if sp.state = .invalid then some (sp, .error)
  else if sp.state = .created then some (sp, .defer)
  else if sp.state = .error then some (sp, .ok)
  else
    let sp := { sp with lastTimestamp2 := sp.lastTimestamp }
    if sp.state = .waitingForStreamDisable then
      orError (sp.switchIfDue ctx p .dryRunning) fun sp => some (sp, .ok)
    else if sp.state = .waitingForStreamEnable ∧ sp.nextState = .waitingForStreamEnable then
      orError (sp.switchIfDue ctx p .running) fun sp => sp.receiveHeader ctx p
    else sp.receiveHeader ctx p

def sendEmptyPacket : Option (StreamProcessor × Disposition) :=
  orError (sp.followRequest ctx) fun sp => some (sp, .ok)

def sendSilentPacket (p : Packet) : Option (StreamProcessor × Disposition) :=
  match p.silentHeader with
  | .packet => some (sp, .ok)
  | .emptyPacket => sp.sendEmptyPacket ctx
  | _ => some (sp, .error)

def sendData (p : Packet) : Option (StreamProcessor × Disposition) := do
  let (sp, result) ← sp.transferPayload p
  if result = .xRun then orError (sp.startXrun ctx p) fun sp => sp.sendEmptyPacket ctx
  else some (sp, if result = .defer ∨ p.header = .defer then .defer else .ok)

/-- `getPacket` in the running state. -/
def sendPacket (p : Packet) : Option (StreamProcessor × Disposition) :=
  let prevTimestamp := sp.lastTimestamp
  let sp := { sp with lastTimestamp := p.timestamp }
  match p.header with
  | .packet | .defer =>
    orError ({ sp with lastTimestamp2 := prevTimestamp }.followRequest ctx) fun sp =>
      sp.sendData ctx p
  | .xRun => orError (sp.startXrun ctx p) fun sp => sp.sendEmptyPacket ctx
  | .emptyPacket => orError (sp.followRequest ctx) fun sp => sp.sendEmptyPacket ctx
  | .again => orError (sp.followRequest ctx) fun sp => some (sp, .defer)
  | _ => some (sp, .error)

def getPacket (p : Packet) : Option (StreamProcessor × Disposition) :=
  if p.pktCtr = 0xFFFFFFFF then some (sp, .ok)
  else if sp.state = .error then some (sp, .ok)
  else
    let sp := if p.dropped > 0 then { sp with inXrun := true } else sp
    if p.dropped > 0 ∧ sp.state = .running then
      orError (sp.startXrun ctx p) fun sp => sp.sendEmptyPacket ctx
    else
      match sp.state with
      | .invalid => some (sp, .error)
      | .created => some (sp, .defer)
      | .waitingForStreamDisable =>
        orError (sp.switchIfDue ctx p .dryRunning) fun sp => sp.sendSilentPacket ctx p
      | .waitingForStreamEnable =>
        if sp.nextState = .waitingForStreamEnable then
          orError (sp.switchIfDue ctx p .running) fun sp => sp.sendEmptyPacket ctx
        else sp.sendEmptyPacket ctx
      | .waitingForStream =>
        orError (sp.switchIfDue ctx p .dryRunning) fun sp => sp.sendEmptyPacket ctx
      | .running => sp.sendPacket ctx p
      | _ => sp.sendEmptyPacket ctx

def packetsStopped : StreamProcessor := { sp with state := .stopped, nextState := .stopped }

def handlerDied : StreamProcessor := { sp with state := .stopped, inXrun := true }

def handleBusReset : StreamProcessor × Bool := ({ sp with state := .error, inXrun := true }, true)

def blockOutcome (r : BlockResult) : Option (StreamProcessor × Bool) :=
  match r.exit with
  | .returned result => some ({ sp with dataBuffer := r.buffer }, result)
  | _ => none

/-- The result of the transfer is not used. -/
def getFramesWet (c : Client) (nbframes : ℕ) : Option (StreamProcessor × Bool) :=
  if ctx.syncTicksPerFrame = 0 then none
  else do
    let (sp, _) ← sp.blockOutcome (sp.dataBuffer.blockProcessReadFrames c nbframes)
    some (sp, true)

def getFramesDry : Option (StreamProcessor × Bool) := some (sp, ctx.portsSilenced)

def getFrames (c : Client) (nbframes : ℕ) : Option (StreamProcessor × Bool) :=
  if sp.processorType = .receive then
    if sp.state = .dryRunning then sp.getFramesDry ctx else sp.getFramesWet ctx c nbframes
  else none

/-- The result of the transfer is not used. -/
def putFramesWet (c : Client) (nbframes : ℕ) (ts : ℚ) : Option (StreamProcessor × Bool) := do
  let (sp, _) ← sp.blockOutcome (sp.dataBuffer.blockProcessWriteFrames c nbframes ts)
  some (sp, true)

def putFramesDry : Option (StreamProcessor × Bool) := some (sp, true)

def putFrames (c : Client) (nbframes : ℕ) (ts : ℚ) : Option (StreamProcessor × Bool) :=
  if sp.processorType = .transmit then
    if sp.state = .dryRunning then sp.putFramesDry else sp.putFramesWet c nbframes ts
  else none

def dropFrames (nbframes : ℕ) : Option (StreamProcessor × Bool) := do
  let (tb, result) ← sp.dataBuffer.dropFrames nbframes
  some ({ sp with dataBuffer := tb }, result)

/-- More frames than the scratch buffer holds are only warned about. The number of frames
that it holds is a quotient by the frame size. -/
def putSilenceFrames (nbframes : ℕ) (ts : ℚ) : Option (StreamProcessor × Bool) :=
  if u32 (ctx.eventSize * ctx.eventsPerFrame) = 0 ∨ sp.scratchBuffer.isNone then none
  else
    let sp := { sp with scratchBuffer := some ctx.silenceBlock.1 }
    if !ctx.silenceBlock.2 then some (sp, false)
    else do
      let (tb, result) ← sp.dataBuffer.writeFrames nbframes ctx.silenceBlock.1 ts
      some ({ sp with dataBuffer := tb }, result)

def shiftStream (nbframes : ℤ) : Option (StreamProcessor × Bool) :=
  if nbframes = 0 then some (sp, true)
  else if nbframes > 0 then sp.dropFrames nbframes.toNat
  else some (sp, false)

inductive Request
  | init
  | prepare
  | periodSizeChanged (newPeriodsize : ℕ)
  | scheduleStartDryRunning (t : ℤ)
  | scheduleStartRunning (t : ℤ)
  | scheduleStopDryRunning (t : ℤ)
  | scheduleStopRunning (t : ℤ)
  | startDryRunning (t : ℤ)
  | startRunning (t : ℤ)
  | stopDryRunning (t : ℤ)
  | stopRunning (t : ℤ)
  | putPacket (p : Packet)
  | getPacket (p : Packet)
  | getFrames (c : Client) (nbframes : ℕ)
  | putFrames (c : Client) (nbframes : ℕ) (ts : ℚ)
  | dropFrames (nbframes : ℕ)
  | putSilenceFrames (nbframes : ℕ) (ts : ℚ)
  | shiftStream (nbframes : ℤ)
  | packetsStopped
  | handlerDied
  | handleBusReset

/-- The processor after a call, whatever the call returns; `none` if the process stops. -/
def step : Context × Request → Option StreamProcessor
  | (ctx, .init) => some (sp.init ctx).1
  | (ctx, .prepare) => (sp.prepare ctx).map (·.1)
  | (ctx, .periodSizeChanged n) => (sp.periodSizeChanged ctx n).map (·.1)
  | (ctx, .scheduleStartDryRunning t) => some (sp.scheduleStartDryRunning ctx t).1
  | (ctx, .scheduleStartRunning t) => some (sp.scheduleStartRunning ctx t).1
  | (ctx, .scheduleStopDryRunning t) => some (sp.scheduleStopDryRunning ctx t).1
  | (ctx, .scheduleStopRunning t) => some (sp.scheduleStopRunning ctx t).1
  | (ctx, .startDryRunning t) => some (sp.startDryRunning ctx t).1
  | (ctx, .startRunning t) => some (sp.startRunning ctx t).1
  | (ctx, .stopDryRunning t) => some (sp.stopDryRunning ctx t).1
  | (ctx, .stopRunning t) => some (sp.stopRunning ctx t).1
  | (ctx, .putPacket p) => (sp.putPacket ctx p).map (·.1)
  | (ctx, .getPacket p) => (sp.getPacket ctx p).map (·.1)
  | (ctx, .getFrames c nbframes) => (sp.getFrames ctx c nbframes).map (·.1)
  | (_, .putFrames c nbframes ts) => (sp.putFrames c nbframes ts).map (·.1)
  | (_, .dropFrames nbframes) => (sp.dropFrames nbframes).map (·.1)
  | (ctx, .putSilenceFrames nbframes ts) => (sp.putSilenceFrames ctx nbframes ts).map (·.1)
  | (_, .shiftStream nbframes) => (sp.shiftStream nbframes).map (·.1)
  | (_, .packetsStopped) => some sp.packetsStopped
  | (_, .handlerDied) => some sp.handlerDied
  | (_, .handleBusReset) => some sp.handleBusReset.1

end StreamProcessor
end Ffado
