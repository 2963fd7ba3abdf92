import Ffado.Lib.LabelledRun
import Ffado.Streaming.CallbackInvariant
import Ffado.Streaming.StateChange

/-!
# The manager's requests between packets

The manager starts and stops its processors with requests, and waits for their states in
between. A request is a decision from `m_state` and an assignment of `m_next_state`, and the ISO
thread can change the state between the two. In a session the manager's commands run against the
packet callbacks of all processors, action by action in any order.

Of `syncStartAll` the requests and the wait are modelled. The rest of it sets up buffers and
timestamps and aligns the streams; it touches neither state nor request, and its answer is part
of the surroundings.
-/
namespace Ffado

open CycleTimer LabelledRun Postcondition SharedProgram Program
open StreamProcessor (mode)

/-- What the threads find around them. It can change at any time. -/
structure Surroundings (ι : Type) where
  context : ι → Context
  shutdownNeeded : Bool
  streamsAligned : Bool
  timeToStartXmit : ℕ
  timeToStartRecv : ℕ

structure Memory (ι : Type) where
  processors : ι → SharedProcessor
  surroundings : Surroundings ι

variable {ι : Type}

namespace ClientThread

def hasState (i : ι) (state : ProcessorState) : Program (Memory ι) Bool :=
  read fun m => decide ((m.processors i).sp.state = state)

def requestTime (i : ι) (lead : ℕ) (t : ℤ) : Program (Memory ι) ℕ :=
  read fun m => StreamProcessor.requestTime (m.surroundings.context i) lead t

/-- A request for one processor after the other, until one fails. -/
def forEach (request : ι → Program (Memory ι) Bool) : List ι → Program (Memory ι) Bool
  | [] => pure true
  | i :: is => do
    if ← request i then forEach request is else pure false

/-- The tests are made one by one, and each of them reads the state. -/
def isIn (i : ι) : List ProcessorState → Program (Memory ι) Bool
  | [] => pure false
  | state :: states => do
    if ← hasState i state then pure true else isIn i states

/-- All processors are looked at, whatever the first ones answer. -/
def allIn (states : List ProcessorState) : List ι → Program (Memory ι) Bool
  | [] => pure true
  | i :: is => do
    let ready ← isIn i states
    let rest ← allIn states is
    pure (ready && rest)

/-- A loop with `cnt` rounds. Success in the last round counts as a timeout. -/
def waitUntil (check : Program (Memory ι) Bool) : ℕ → Program (Memory ι) Bool
  | 0 => pure false
  | cnt + 1 => do
    if ← check then pure (decide (cnt ≠ 0)) else waitUntil check cnt

/-- A loop that looks first and counts afterwards. -/
def waitForRunning (i : ι) : ℕ → Program (Memory ι) Bool
  | 0 => do
    let _ ← hasState i .running
    pure false
  | cnt + 1 => do
    if ← hasState i .running then pure true else waitForRunning i cnt

section Requests

variable [DecidableEq ι]

def modify (i : ι) (f : StreamProcessor → StreamProcessor) : Program (Memory ι) Unit :=
  write fun m => { m with
    processors := Function.update m.processors i ((m.processors i).modify f) }

/-- The time is set first. -/
def scheduleStateTransition (i : ι) (state : ProcessorState) (timeInstant : ℕ) :
    Program (Memory ι) Bool := do
  modify i fun sp => { sp with cycleToSwitchState := ticksToCycles timeInstant }
  modify i fun sp => { sp with nextState := state }
  pure true

def scheduleStartDryRunning (i : ι) (t : ℤ) : Program (Memory ι) Bool := do
  let tx ← requestTime i 200 t
  if ← hasState i .stopped then
    if ← read fun m => (m.surroundings.context i).startHandler then
      scheduleStateTransition i .waitingForStream tx
    else pure false
  else if ← hasState i .running then scheduleStateTransition i .waitingForStreamDisable tx
  else if ← hasState i .dryRunning then pure true
  else if ← hasState i .waitingForStreamEnable then scheduleStateTransition i .dryRunning tx
  else if ← hasState i .waitingForStreamDisable then pure true
  else pure false

def scheduleStartRunning (i : ι) (t : ℤ) : Program (Memory ι) Bool := do
  let tx ← requestTime i 200 t
  scheduleStateTransition i .waitingForStreamEnable tx

def scheduleStopDryRunning (i : ι) (t : ℤ) : Program (Memory ι) Bool := do
  let tx ← requestTime i 2000 t
  scheduleStateTransition i .stopped tx

def scheduleStopRunning (i : ι) (t : ℤ) : Program (Memory ι) Bool := do
  let tx ← requestTime i 2000 t
  scheduleStateTransition i .waitingForStreamDisable tx

end Requests
end ClientThread

def streamprocessormanagerCyclesForDryrun : ℕ := 40000
def streamprocessormanagerSyncstartTries : ℕ := 10

structure StreamProcessorManager (ι : Type) where
  receiveProcessors : List ι
  transmitProcessors : List ι
  syncSource : Option ι

namespace StreamProcessorManager

open ClientThread

variable [DecidableEq ι] (manager : StreamProcessorManager ι)

/-- The order of the waits, and of the requests of `stop`. -/
def processors : List ι := manager.receiveProcessors ++ manager.transmitProcessors

def startDryRunningOne (i : ι) : Program (Memory ι) Bool := do
  if ← hasState i .error then pure false
  else if ← hasState i .dryRunning then pure true
  else scheduleStartDryRunning i (-1)

def startDryRunning : Program (Memory ι) Bool := do
  if ← forEach startDryRunningOne (manager.transmitProcessors ++ manager.receiveProcessors) then
    waitUntil (allIn [.dryRunning] manager.processors) streamprocessormanagerCyclesForDryrun
  else pure false

def syncStartAll : Program (Memory ι) Bool :=
  match manager.syncSource with
  | none => pure false
  | some sync => do
    let xmit ← read fun m => m.surroundings.timeToStartXmit
    let recv ← read fun m => m.surroundings.timeToStartRecv
    let syncType ← read fun m => (m.processors sync).sp.processorType
    let others (is : List ι) := is.filter (· ≠ sync)
    if ← scheduleStartRunning sync (if syncType = .receive then recv else xmit) then
      if ← forEach (scheduleStartRunning · recv) (others manager.receiveProcessors) then
        if ← forEach (scheduleStartRunning · xmit) (others manager.transmitProcessors) then
          if ← waitForRunning sync 8000 then read fun m => m.surroundings.streamsAligned
          else pure false
        else pure false
      else pure false
    else pure false

def stopRunningOne (i : ι) : Program (Memory ι) Bool := do
  if ← hasState i .running then scheduleStopRunning i (-1) else pure true

def stopDryRunningOne (i : ι) : Program (Memory ι) Bool := do
  if ← hasState i .error then pure true else scheduleStopDryRunning i (-1)

def stop : Program (Memory ι) Bool := do
  if ← forEach stopRunningOne manager.processors then
    if ← waitUntil (allIn [.dryRunning, .stopped, .waitingForStream, .error] manager.processors)
        8000 then
      if ← forEach stopDryRunningOne manager.processors then
        waitUntil (allIn [.stopped, .error] manager.processors) 8000
      else pure false
    else pure false
  else pure false

def startTries : ℕ → Program (Memory ι) Bool
  | 0 => do
    let _ ← manager.stop
    pure false
  | tries + 1 => do
    if ← manager.startDryRunning then
      if ← manager.syncStartAll then pure true
      else if ← read fun m => m.surroundings.shutdownNeeded then pure false
      else startTries tries
    else startTries tries

def start : Program (Memory ι) Bool := manager.startTries streamprocessormanagerSyncstartTries

def handleXrunTries : ℕ → Program (Memory ι) Bool
  | 0 => pure false
  | tries + 1 => do
    if ← read fun m => m.surroundings.shutdownNeeded then pure true
    else if ← manager.startDryRunning then
      if ← manager.syncStartAll then pure true else handleXrunTries tries
    else handleXrunTries tries

def handleXrun : Program (Memory ι) Bool :=
  manager.handleXrunTries streamprocessormanagerSyncstartTries

inductive Command
  | start
  | handleXrun
  | stop

def command : Command → Program (Memory ι) Bool
  | .start => manager.start
  | .handleXrun => manager.handleXrun
  | .stop => manager.stop

/-- The client gives its commands one after the other. -/
def commands : List Command → Program (Memory ι) Unit
  | [] => pure ()
  | c :: cs => do
    let _ ← manager.command c
    commands cs

end StreamProcessorManager

theorem StreamProcessor.prepare_states {sp sp' : StreamProcessor} {ctx : Context}
    (h : sp.prepare ctx = some (sp', true)) : sp'.states = (.stopped, .stopped) := by
  obtain ⟨⟨sp₁, sized⟩, -, h⟩ := Option.bind_eq_some_iff.mp h
  dsimp only at h
  split_ifs at h
  · have hnext : sp'.nextState = .stopped := updateState_nextState _ ctx (sp', true) h
    have hstate : sp'.state = .stopped := by
      cases updateState_outcome _ ctx (sp', true) h with
      | reached _ hstate => exact hstate
    rw [states, hstate, hnext]
  · cases h

structure PreparedProcessor where
  sp : StreamProcessor
  state_eq : sp.state = .stopped
  nextState_eq : sp.nextState = .stopped
  transparent_eq : sp.dataBuffer.transparent = true

/-- What `prepare` leaves if it succeeds. -/
def PreparedProcessor.ofPrepare {sp sp' : StreamProcessor} {ctx : Context}
    (hagrees : sp.mode.Agrees) (h : sp.prepare ctx = some (sp', true)) : PreparedProcessor :=
  have hstates := Prod.mk.inj (StreamProcessor.prepare_states h)
  { sp := sp'
    state_eq := hstates.1
    nextState_eq := hstates.2
    transparent_eq := by
      have hmode := agrees_of_moves (sp.prepare_moves ctx (sp', true) h) hagrees
      simpa [mode, hstates.1, Mode.Agrees] using hmode }

structure Session (ι : Type) where
  memory : Memory ι
  client : Program (Memory ι) Unit
  /-- What is left of the callback of each processor. -/
  callbacks : ι → Program SharedProcessor Disposition

namespace Session

variable [DecidableEq ι]

inductive Event (ι : Type)
  /-- The next action of the client. -/
  | client
  | surroundings (x : Surroundings ι)
  /-- The handler calls the processor with a packet. -/
  | packet (i : ι) (p : Packet)
  /-- The next action of the callback. -/
  | callback (i : ι)

def step (s : Session ι) : Event ι → Option (Session ι)
  | .client => (s.client.step s.memory).map fun r => { s with memory := r.1, client := r.2 }
  | .surroundings x => some { s with memory := { s.memory with surroundings := x } }
  | .packet i p =>
    if (s.callbacks i).isDone then
      some { s with
        callbacks := Function.update s.callbacks i (IsoThread.packetCallback
          (s.memory.surroundings.context i) p (s.memory.processors i).sp.processorType) }
    else none
  | .callback i =>
    ((s.callbacks i).step (s.memory.processors i)).map fun r => { s with
      memory := { s.memory with processors := Function.update s.memory.processors i r.1 }
      callbacks := Function.update s.callbacks i r.2 }

def initial (manager : StreamProcessorManager ι) (commands : List StreamProcessorManager.Command)
    (processors : ι → PreparedProcessor) (surroundings : Surroundings ι) : Session ι where
  memory := {
    processors := fun i => {
      sp := (processors i).sp
      nextStateCopy := none
      invalidTransition := false }
    surroundings := surroundings }
  client := manager.commands commands
  callbacks := fun _ => pure .ok

/-- A request comes while no state change is in progress, and asks for a state that the present
one can be changed to. -/
def RequestFits (c c' : SharedProcessor) : Prop :=
  c'.sp.nextState = c.sp.nextState ∨
    (c.nextStateCopy = none ∧ c.sp.state.Fits c'.sp.nextState)

instance (c c' : SharedProcessor) : Decidable (RequestFits c c') :=
  inferInstanceAs (Decidable (_ ∨ (_ ∧ (_ ∨ _))))

/-- The client's next action fits the states that it finds, and the subclass reports an xrun of
a packet only if the buffer refuses its frames. -/
def Timely (s : Session ι) : Event ι → Prop
  | .client => ∀ r ∈ s.client.step s.memory, ∀ i,
      RequestFits (s.memory.processors i) (r.1.processors i)
  | .packet _ p => p.answer true ≠ .xRun
  | _ => True

instance [Fintype ι] (s : Session ι) (e : Event ι) : Decidable (s.Timely e) :=
  match e with
  | .client => inferInstanceAs (Decidable (∀ r ∈ s.client.step s.memory, ∀ _, RequestFits _ _))
  | .surroundings _ => .isTrue trivial
  | .packet _ _ => inferInstanceAs (Decidable (_ ≠ _))
  | .callback _ => .isTrue trivial

/-- What no action of the client changes. -/
structure ClientKeeps (m m' : Memory ι) : Prop where
  mode_eq : ∀ i, (m'.processors i).sp.mode = (m.processors i).sp.mode
  copy_eq : ∀ i, (m'.processors i).nextStateCopy = (m.processors i).nextStateCopy
  invalid_eq : ∀ i, (m'.processors i).invalidTransition = (m.processors i).invalidTransition

instance : Std.Refl (@ClientKeeps ι) := ⟨fun _ => ⟨fun _ => rfl, fun _ => rfl, fun _ => rfl⟩⟩

end Session

namespace ClientThread

open Session

theorem forEach_within {request : ι → Program (Memory ι) Bool}
    (h : ∀ i, Within ClientKeeps (request i)) (is : List ι) :
    Within ClientKeeps (forEach request is) := by
  induction is with
  | nil => exact within_pure true
  | cons i is ih => exact (h i).branch ih (within_pure false)

theorem isIn_within (i : ι) (states : List ProcessorState) :
    Within ClientKeeps (isIn i states) := by
  induction states with
  | nil => exact within_pure false
  | cons state states ih => exact (within_read _).branch (within_pure true) ih

theorem allIn_within (states : List ProcessorState) (is : List ι) :
    Within ClientKeeps (allIn states is) := by
  induction is with
  | nil => exact within_pure true
  | cons i is ih =>
    apply (isIn_within i states).bind
    intro ready
    exact ih.bind fun rest => within_pure _

theorem waitUntil_within {check : Program (Memory ι) Bool} (h : Within ClientKeeps check)
    (cnt : ℕ) : Within ClientKeeps (waitUntil check cnt) := by
  induction cnt with
  | zero => exact within_pure false
  | succ cnt ih => exact h.branch (within_pure _) ih

theorem waitForRunning_within (i : ι) (cnt : ℕ) :
    Within ClientKeeps (waitForRunning i cnt) := by
  induction cnt with
  | zero => exact (within_read _).bind fun _ => within_pure false
  | succ cnt ih => exact (within_read _).branch (within_pure true) ih

section Requests

variable [DecidableEq ι]

theorem modify_within (i : ι) {f : StreamProcessor → StreamProcessor}
    (hf : ∀ sp, (f sp).mode = sp.mode) : Within ClientKeeps (modify i f) := by
  apply within_write
  intro m
  have hupdate (j : ι) : Function.update m.processors i ((m.processors i).modify f) j =
      if j = i then (m.processors j).modify f else m.processors j := by
    by_cases hj : j = i
    · subst hj
      simp
    · simp [hj]
  constructor
  all_goals
    intro j
    simp only [hupdate]
    split_ifs
  · exact hf _
  all_goals rfl

theorem scheduleStateTransition_within (i : ι) (state : ProcessorState) (timeInstant : ℕ) :
    Within ClientKeeps (scheduleStateTransition i state timeInstant) := by
  apply Within.bind
  · exact modify_within i fun _ => rfl
  · intro _
    apply Within.bind
    · exact modify_within i fun _ => rfl
    · exact fun _ => within_pure true

theorem scheduleStartDryRunning_within (i : ι) (t : ℤ) :
    Within ClientKeeps (scheduleStartDryRunning i t) := by
  apply (within_read _).bind
  intro tx
  apply (within_read _).branch
  · exact (within_read _).branch (scheduleStateTransition_within i _ _) (within_pure _)
  apply (within_read _).branch (scheduleStateTransition_within i _ _)
  apply (within_read _).branch (within_pure _)
  apply (within_read _).branch (scheduleStateTransition_within i _ _)
  exact (within_read _).branch (within_pure _) (within_pure _)

theorem scheduleStartRunning_within (i : ι) (t : ℤ) :
    Within ClientKeeps (scheduleStartRunning i t) :=
  (within_read _).bind fun _ => scheduleStateTransition_within i _ _

theorem scheduleStopDryRunning_within (i : ι) (t : ℤ) :
    Within ClientKeeps (scheduleStopDryRunning i t) :=
  (within_read _).bind fun _ => scheduleStateTransition_within i _ _

theorem scheduleStopRunning_within (i : ι) (t : ℤ) :
    Within ClientKeeps (scheduleStopRunning i t) :=
  (within_read _).bind fun _ => scheduleStateTransition_within i _ _

end Requests
end ClientThread

namespace StreamProcessorManager

open ClientThread Session

variable [DecidableEq ι] (manager : StreamProcessorManager ι)

theorem startDryRunning_within : Within ClientKeeps manager.startDryRunning := by
  apply (forEach_within _ _).branch
  · exact waitUntil_within (allIn_within _ _) _
  · exact within_pure false
  · intro i
    apply (within_read _).branch (within_pure false)
    exact (within_read _).branch (within_pure true) (scheduleStartDryRunning_within i (-1))

theorem syncStartAll_within : Within ClientKeeps manager.syncStartAll := by
  unfold syncStartAll
  split
  · exact within_pure false
  · apply (within_read _).bind
    intro xmit
    apply (within_read _).bind
    intro recv
    apply (within_read _).bind
    intro syncType
    apply (scheduleStartRunning_within _ _).branch _ (within_pure false)
    apply (forEach_within (fun i => scheduleStartRunning_within i _) _).branch _ (within_pure false)
    apply (forEach_within (fun i => scheduleStartRunning_within i _) _).branch _ (within_pure false)
    exact (waitForRunning_within _ _).branch (within_read _) (within_pure false)

theorem stop_within : Within ClientKeeps manager.stop := by
  have hrunning (i : ι) : Within ClientKeeps (stopRunningOne i) :=
    (within_read _).branch (scheduleStopRunning_within i (-1)) (within_pure true)
  have hdry (i : ι) : Within ClientKeeps (stopDryRunningOne i) :=
    (within_read _).branch (within_pure true) (scheduleStopDryRunning_within i (-1))
  apply (forEach_within hrunning _).branch _ (within_pure false)
  apply (waitUntil_within (allIn_within _ _) _).branch _ (within_pure false)
  apply (forEach_within hdry _).branch _ (within_pure false)
  exact waitUntil_within (allIn_within _ _) _

theorem startTries_within (tries : ℕ) : Within ClientKeeps (manager.startTries tries) := by
  induction tries with
  | zero => exact manager.stop_within.bind fun _ => within_pure false
  | succ tries ih =>
    apply manager.startDryRunning_within.branch _ ih
    apply manager.syncStartAll_within.branch (within_pure true)
    exact (within_read _).branch (within_pure false) ih

theorem handleXrunTries_within (tries : ℕ) :
    Within ClientKeeps (manager.handleXrunTries tries) := by
  induction tries with
  | zero => exact within_pure false
  | succ tries ih =>
    apply (within_read _).branch (within_pure true)
    apply manager.startDryRunning_within.branch _ ih
    exact manager.syncStartAll_within.branch (within_pure true) ih

theorem commands_within (cs : List Command) : Within ClientKeeps (manager.commands cs) := by
  induction cs with
  | nil => exact within_pure ()
  | cons c cs ih =>
    have hcommand : Within ClientKeeps (manager.command c) := by
      cases c with
      | start => exact manager.startTries_within _
      | handleXrun => exact manager.handleXrunTries_within _
      | stop => exact manager.stop_within
    exact hcommand.bind fun _ => ih

end StreamProcessorManager

namespace Session

variable [DecidableEq ι] {s s' : Session ι}

/-- The invariant of a session whose requests fit. -/
structure Inv (s : Session ι) : Prop where
  sound : ∀ i, (s.memory.processors i).Sound
  safe : ∀ i, IsoThread.Safe (s.callbacks i) (s.memory.processors i)
  client : Within ClientKeeps s.client

theorem initial_inv (manager : StreamProcessorManager ι)
    (commands : List StreamProcessorManager.Command) (processors : ι → PreparedProcessor)
    (surroundings : Surroundings ι) : (initial manager commands processors surroundings).Inv where
  sound i := {
    valid := rfl
    agrees := by
      have htransparent := (processors i).transparent_eq
      simpa [initial, mode, (processors i).state_eq, Mode.Agrees] using htransparent
    live := by
      simp [initial, (processors i).state_eq, ProcessorState.Live]
    fits := .inl ((processors i).state_eq.trans (processors i).nextState_eq.symm) }
  safe i := upholds_pure _
  client := manager.commands_within commands

/-- An action of the client that fits leaves alone what the ISO thread relies on. -/
theorem Inv.client_step (h : s.Inv) (htimely : s.Timely .client)
    (hstep : s.step .client = some s') : s'.Inv := by
  obtain ⟨⟨m, client⟩, hr, rfl⟩ := Option.map_eq_some_iff.mp hstep
  obtain ⟨hkeeps, hclient⟩ := h.client.step hr
  have hfits (i : ι) := htimely (m, client) hr i
  constructor
  · intro i
    refine (h.sound i).of_eq (hkeeps.invalid_eq i) (hkeeps.mode_eq i) ?_
    rcases hfits i with hsame | ⟨-, hnext⟩
    · rw [show (m.processors i).sp.nextState = _ from hsame]
      exact (h.sound i).fits
    · exact hnext
  · intro i
    apply (h.safe i).later
    refine ⟨hkeeps.mode_eq i, hkeeps.copy_eq i, fun hcopy => ?_⟩
    rcases hfits i with hsame | ⟨hnone, -⟩
    · exact hsame
    · simp [hnone] at hcopy
  · exact hclient

theorem Inv.callback_step (h : s.Inv) {i : ι} (hstep : s.step (.callback i) = some s') :
    s'.Inv := by
  obtain ⟨⟨c, callback⟩, hr, rfl⟩ := Option.map_eq_some_iff.mp hstep
  obtain ⟨hsound, hsafe⟩ := (h.safe i).step (h.sound i) hr
  constructor
  · intro j
    by_cases hj : j = i
    · subst hj
      simpa using hsound
    · simpa [hj] using h.sound j
  · intro j
    by_cases hj : j = i
    · subst hj
      simpa using hsafe
    · simpa [hj] using h.safe j
  · exact h.client

theorem Inv.packet_step (h : s.Inv) {i : ι} {p : Packet} (hanswer : p.answer true ≠ .xRun)
    (hstep : s.step (.packet i p) = some s') : s'.Inv := by
  simp only [step, Option.ite_none_right_eq_some, Option.some.injEq] at hstep
  obtain ⟨-, rfl⟩ := hstep
  refine ⟨h.sound, fun j => ?_, h.client⟩
  by_cases hj : j = i
  · subst hj
    simpa using IsoThread.packetCallback_safe _ p hanswer _ _
  · simpa [hj] using h.safe j

theorem Inv.timely_step (s : Session ι) (e : Event ι) (s' : Session ι) (h : s.Inv)
    (hstep : Guarded Timely step s e s') : s'.Inv := by
  cases e with
  | client => exact h.client_step hstep.1 hstep.2
  | surroundings x =>
    cases hstep.2
    exact ⟨h.sound, h.safe, h.client⟩
  | packet i p => exact h.packet_step hstep.1 hstep.2
  | callback i => exact h.callback_step hstep.2

/-- In a session whose requests fit, `updateState` never comes to its exit for invalid
transitions. -/
theorem no_invalid_transition {manager : StreamProcessorManager ι}
    {commands : List StreamProcessorManager.Command} {processors : ι → PreparedProcessor}
    {surroundings : Surroundings ι} {es : List (Event ι)}
    (hrun : Run (Guarded Timely step) (initial manager commands processors surroundings) es s)
    (i : ι) : (s.memory.processors i).invalidTransition = false := by
  have hinv : s.Inv := hrun.invariant Inv Inv.timely_step
    (initial_inv manager commands processors surroundings)
  exact (hinv.sound i).valid

end Session

namespace Session

open StreamProcessor (new quadletStream goodPacket)

def receiver : PreparedProcessor :=
  have h : (((new .receive).init quadletStream).1.prepare quadletStream).map (·.2) = some true := by
    decide +kernel
  have hagrees : ((new .receive).init quadletStream).1.mode.Agrees := rfl
  match hprepare : ((new .receive).init quadletStream).1.prepare quadletStream with
  | some (_, true) => .ofPrepare hagrees hprepare
  | some (_, false) => absurd h (by simp [hprepare])
  | none => absurd h (by simp [hprepare])

/-- One receive processor, which is the sync source, and no reason for the manager to wait. -/
def oneReceiver (commands : List StreamProcessorManager.Command) : Session Unit :=
  initial ⟨[()], [], some ()⟩ commands (fun _ => receiver) {
    context := fun _ => quadletStream
    shutdownNeeded := false
    streamsAligned := true
    timeToStartXmit := 0
    timeToStartRecv := 0 }

/-- A packet of the given cycle, handled without a pause in `n` actions. -/
def received (cycle dropped n : ℕ) : List (Event Unit) :=
  .packet () { goodPacket with pktCtr := cycle * 4096, dropped := dropped } ::
    List.replicate n (.callback ())

def acting (n : ℕ) : List (Event Unit) := List.replicate n .client

/-- The start of a stream, up to the running state. -/
def starting : List (Event Unit) :=
  acting 7 ++ received 0 0 10 ++ received 200 0 10 ++ acting 7 ++ received 200 0 11 ++
    received 200 0 12

/-- `stop` finds the processor running. Before it assigns `m_next_state`, a dropped packet takes
the processor to the dry-running state. -/
def stoppingLate : List (Event Unit) :=
  acting 3 ++ received 200 1 14 ++ received 201 0 6 ++ acting 3 ++ received 202 0 9

theorem no_invalid_transition_starting : ∃ s,
    Run (Guarded Timely step) (oneReceiver [.start, .stop]) starting s ∧
      (s.memory.processors ()).sp.state = .running ∧
      (s.memory.processors ()).invalidTransition = false := by
  have heval : (starting.foldlM (checked Timely step) (oneReceiver [.start, .stop])).map
      (fun s => (s.memory.processors ()).sp.state) = some .running := by decide +kernel
  obtain ⟨s, hs, hstate⟩ := Option.map_eq_some_iff.mp heval
  have hrun := run_of_checked hs
  exact ⟨s, hrun, hstate, no_invalid_transition hrun ()⟩

theorem invalid_transition_of_late_stop : ∃ s,
    Run (Guarded Always step) (oneReceiver [.start, .stop]) (starting ++ stoppingLate) s ∧
      (s.memory.processors ()).invalidTransition = true := by
  obtain ⟨s, hrun, hs⟩ := exists_run_of_foldlM
    (fun s : Session Unit => (s.memory.processors ()).invalidTransition)
    (show ((starting ++ stoppingLate).foldlM step (oneReceiver [.start, .stop])).map
      _ = some true by
      decide +kernel)
  exact ⟨s, hrun, hs⟩

end Session
end Ffado
