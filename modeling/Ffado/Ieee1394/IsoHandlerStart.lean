import Ffado.Ieee1394.IsoHandler
import Ffado.Lib.LabelledRun

/-!
# Starting and stopping an ISO handler

`enable` creates a handle and then takes two more steps that can fail; a failure of one of these
leaves the handle behind, in a handler that is still stopped. The next `enable` ends in the
assertion that there is none. `survives_iff` says that nothing else goes wrong over any sequence of
calls.
-/
namespace Ffado.IsoStart

open LabelledRun

inductive HandlerType
  | receive
  | transmit
  deriving DecidableEq

inductive HandlerState
  | stopped
  | running
  deriving DecidableEq

/-- What is asked of the kernel interface and of the client. -/
inductive Call
  | newHandleOnPort
  | setUserdata
  | recvInit
  | recvStart (cycle : ℤ)
  | xmitInit
  | xmitStart (cycle : ℤ)
  | wakeUp
  | isoStop
  | isoShutdown
  | destroyHandle
  | packetsStopped
  deriving DecidableEq

/-- How the kernel interface answers one `enable`, as far as it gets. -/
structure Answers where
  handle : Option ℕ
  init : Bool
  start : Bool
  deriving DecidableEq

structure Handler where
  type : HandlerType
  handle : Option ℕ
  state : HandlerState
  nextState : HandlerState
  switchOnCycle : ℤ
  counters : IsoHandler
  calls : List Call

namespace Handler

def new (type : HandlerType) (bufPackets : ℕ) : Handler where
  type := type
  handle := none
  state := .stopped
  nextState := .stopped
  switchOnCycle := 0
  counters := .new bufPackets
  calls := []

def called (h : Handler) (calls : List Call) : Handler := { h with calls := h.calls ++ calls }

def initCall (h : Handler) : Call :=
  match h.type with
  | .receive => .recvInit
  | .transmit => .xmitInit

def startCall (h : Handler) (cycle : ℤ) : Call :=
  match h.type with
  | .receive => .recvStart cycle
  | .transmit => .xmitStart cycle

/-- What `enable` does between the creation of the handle and the start. -/
def prepare (h : Handler) (handle : ℕ) : Handler :=
  { h with handle := some handle, counters := h.counters.enable }.called
    [.newHandleOnPort, .setUserdata, h.initCall]

/-- `none` is a failed assertion. -/
def enable (h : Handler) (cycle : ℤ) (answers : Answers) : Option (Handler × Bool) :=
  if h.state ≠ .stopped then some (h, false)
  else if h.handle ≠ none then none
  else
    match answers.handle with
    | none => some (h.called [.newHandleOnPort], false)
    | some handle =>
      let prepared := h.prepare handle
      if ¬ answers.init then some (prepared, false)
      else
        let started := prepared.called [h.startCall cycle]
        if ¬ answers.start then some (started, false)
        else some ({ started with state := .running, nextState := .running }, true)

def disable (h : Handler) : Option (Handler × Bool) :=
  if h.state ≠ .running then some (h, false)
  else if h.handle = none then none
  else
    some ({ h with handle := none, state := .stopped, nextState := .stopped }.called
      [.wakeUp, .isoStop, .isoShutdown, .destroyHandle, .packetsStopped], true)

def requestEnable (h : Handler) : Handler × Bool :=
  if h.state = .running then (h, false) else ({ h with nextState := .running }, true)

def requestDisable (h : Handler) : Handler × Bool :=
  if h.state = .stopped then (h, true) else ({ h with nextState := .stopped }, true)

def updateState (h : Handler) (answers : Answers) : Option Handler :=
  if h.state ≠ h.nextState then
    if h.state = .stopped ∧ h.nextState = .running then
      (h.enable h.switchOnCycle answers).map Prod.fst
    else if h.state = .running ∧ h.nextState = .stopped then h.disable.map Prod.fst
    else some h
  else some h

end Handler

inductive Request
  | requestEnable
  | requestDisable
  | updateState (answers : Answers)
  | enable (cycle : ℤ) (answers : Answers)
  | disable
  deriving DecidableEq

def step (h : Handler) : Request → Option Handler
  | .requestEnable => some h.requestEnable.1
  | .requestDisable => some h.requestDisable.1
  | .updateState answers => h.updateState answers
  | .enable cycle answers => (h.enable cycle answers).map Prod.fst
  | .disable => h.disable.map Prod.fst

def attempt (h : Handler) : Request → Option Answers
  | .updateState answers =>
    if h.state = .stopped ∧ h.nextState = .running then some answers else none
  | .enable _ answers => if h.state = .stopped then some answers else none
  | _ => none

/-- A start that fails does so before there is a handle. -/
def Clean (h : Handler) (r : Request) : Prop :=
  ∀ answers ∈ attempt h r, answers.handle ≠ none → answers.init = true ∧ answers.start = true

/-- A request that leads to an `enable` that does not succeed. -/
def FailedEnable (h : Handler) (r : Request) : Prop :=
  ∃ answers ∈ attempt h r, ∃ cycle h', h.enable cycle answers = some (h', false)

def Consistent (h : Handler) : Prop := h.handle ≠ none ↔ h.state = .running

/-- Another `enable` brings the handler to run, if all of its steps succeed. -/
def Startable (h : Handler) : Prop :=
  ∀ cycle answers, answers.handle ≠ none → answers.init = true → answers.start = true →
    ∃ h', step h (.enable cycle answers) = some h' ∧ h'.state = .running

section Steps

variable {h h' : Handler} {cycle : ℤ} {answers : Answers}

def StartedWith (answers : Answers) (h : Handler) : Prop :=
  h.handle = answers.handle ∧
    h.state = if answers.handle ≠ none ∧ answers.init = true ∧ answers.start = true then .running
      else .stopped

theorem enable_stopped (cycle : ℤ) (answers : Answers) (hstate : h.state = .stopped)
    (hhandle : h.handle = none) :
    ∃ h' b, h.enable cycle answers = some (h', b) ∧ StartedWith answers h' := by
  unfold StartedWith
  rw [Handler.enable, if_neg (by simp [hstate]), if_neg (by simp [hhandle])]
  cases hanswer : answers.handle with
  | none => exact ⟨_, _, rfl, hhandle, hstate⟩
  | some handle =>
    dsimp only
    cases hinit : answers.init with
    | false => exact ⟨_, _, rfl, rfl, hstate⟩
    | true =>
      cases hstart : answers.start with
      | false => exact ⟨_, _, rfl, rfl, hstate⟩
      | true => exact ⟨_, _, rfl, rfl, rfl⟩

theorem enable_running (hstate : h.state = .running) :
    h.enable cycle answers = some (h, false) := by
  rw [Handler.enable, if_pos (by simp [hstate])]

theorem disable_running (hstate : h.state = .running) (hhandle : h.handle ≠ none) :
    ∃ h', h.disable = some (h', true) ∧ h'.handle = none ∧ h'.state = .stopped := by
  rw [Handler.disable, if_neg (by simp [hstate]), if_neg hhandle]
  exact ⟨_, rfl, rfl, rfl⟩

theorem disable_stopped (hstate : h.state = .stopped) : h.disable = some (h, false) := by
  rw [Handler.disable, if_pos (by simp [hstate])]

theorem Consistent.handle_eq_none (h : Consistent h') (hstate : h'.state = .stopped) :
    h'.handle = none := by
  by_contra hhandle
  exact absurd (h.mp hhandle) (by simp [hstate])

theorem step_cases (hcons : Consistent h) (r : Request) :
    ∃ h', step h r = some h' ∧ ((∃ answers, attempt h r = some answers ∧ StartedWith answers h') ∨
      (attempt h r = none ∧ Consistent h')) := by
  have hstopped := hcons.handle_eq_none
  have hdisable : ∃ h', h.disable.map Prod.fst = some h' ∧ Consistent h' := by
    cases hstate : h.state with
    | stopped => exact ⟨h, by rw [disable_stopped hstate]; rfl, hcons⟩
    | running =>
      obtain ⟨h', hdis, hhandle, hstate'⟩ := disable_running hstate (hcons.mpr hstate)
      exact ⟨h', by rw [hdis]; rfl, by simp [Consistent, hhandle, hstate']⟩
  cases r with
  | requestEnable =>
    refine ⟨_, rfl, .inr ⟨rfl, ?_⟩⟩
    unfold Handler.requestEnable
    split_ifs <;> exact hcons
  | requestDisable =>
    refine ⟨_, rfl, .inr ⟨rfl, ?_⟩⟩
    unfold Handler.requestDisable
    split_ifs <;> exact hcons
  | disable =>
    obtain ⟨h', hdis, hcons'⟩ := hdisable
    exact ⟨h', hdis, .inr ⟨rfl, hcons'⟩⟩
  | enable cycle answers =>
    cases hstate : h.state with
    | stopped =>
      obtain ⟨h', b, henable, hstarted⟩ := enable_stopped cycle answers hstate (hstopped hstate)
      exact ⟨h', by rw [step, henable]; rfl, .inl ⟨answers, by simp [attempt, hstate], hstarted⟩⟩
    | running =>
      exact ⟨h, by rw [step, enable_running hstate]; rfl, .inr ⟨by simp [attempt, hstate], hcons⟩⟩
  | updateState answers =>
    by_cases hstart : h.state = .stopped ∧ h.nextState = .running
    · obtain ⟨h', b, henable, hstarted⟩ :=
        enable_stopped h.switchOnCycle answers hstart.1 (hstopped hstart.1)
      refine ⟨h', ?_, .inl ⟨answers, if_pos hstart, hstarted⟩⟩
      rw [step, Handler.updateState, if_pos (by simp [hstart]), if_pos hstart, henable]
      rfl
    · obtain ⟨h', hdis, hcons'⟩ := hdisable
      by_cases hstop : h.state = .running ∧ h.nextState = .stopped
      · refine ⟨h', ?_, .inr ⟨if_neg hstart, hcons'⟩⟩
        rw [step, Handler.updateState, if_pos (by simp [hstop]), if_neg hstart, if_pos hstop, hdis]
      · refine ⟨h, ?_, .inr ⟨if_neg hstart, hcons⟩⟩
        rw [step, Handler.updateState, if_neg hstart, if_neg hstop, ite_self]

theorem consistent_startedWith (hstarted : StartedWith answers h) :
    Consistent h ↔ (answers.handle ≠ none → answers.init = true ∧ answers.start = true) := by
  rw [Consistent, hstarted.1, hstarted.2]
  split_ifs with hall
  · simp [hall]
  · simp only [iff_false, not_not]
    constructor
    · exact fun hnone hsome => absurd hnone hsome
    · intro himp
      by_contra hsome
      exact hall ⟨hsome, himp hsome⟩

theorem consistent_step_iff (hcons : Consistent h) {r : Request} (hstep : step h r = some h') :
    Consistent h' ↔ Clean h r := by
  obtain ⟨h₁, hstep₁, hcases⟩ := step_cases hcons r
  obtain rfl := Option.some.inj (hstep.symm.trans hstep₁)
  rcases hcases with ⟨answers, hattempt, hstarted⟩ | ⟨hattempt, hcons'⟩
  · rw [consistent_startedWith hstarted, Clean, hattempt]
    simp
  · rw [Clean, hattempt]
    simp [hcons']

theorem startable_of_consistent (hcons : Consistent h) : Startable h := by
  intro cycle answers hhandle hinit hstart
  cases hstate : h.state with
  | stopped =>
    obtain ⟨h', b, henable, -, hrun⟩ :=
      enable_stopped cycle answers hstate (hcons.handle_eq_none hstate)
    exact ⟨h', by rw [step, henable]; rfl, by rw [hrun, if_pos ⟨hhandle, hinit, hstart⟩]⟩
  | running => exact ⟨h, by rw [step, enable_running hstate]; rfl, hstate⟩

end Steps

/-- Over a sequence of requests no assertion fails, the handle is always there just while the
handler runs, and behind every `enable` that has failed the handler can be started. -/
def Survives (h : Handler) (rs : List Request) : Prop :=
  (∃ h', Run (Guarded Always step) h rs h') ∧
    (∀ rs' h', rs' <+: rs → Run (Guarded Always step) h rs' h' → Consistent h') ∧
    ∀ rs₁ r rs₂ h₁ h₂, rs₁ ++ r :: rs₂ <+: rs → Run (Guarded Always step) h rs₁ h₁ →
      FailedEnable h₁ r → Run (Guarded Always step) h (rs₁ ++ r :: rs₂) h₂ → Startable h₂

theorem consistent_new (type : HandlerType) (bufPackets : ℕ) :
    Consistent (Handler.new type bufPackets) := by
  simp [Consistent, Handler.new]

theorem stays_consistent_iff {h h' : Handler} {rs : List Request} (hcons : Consistent h)
    (hrun : Run (Guarded Always step) h rs h') :
    (∀ rs' h', rs' <+: rs → Run (Guarded Always step) h rs' h' → Consistent h') ↔
      Run (Guarded Clean step) h rs h' :=
  run_stays_iff_guarded (fun _ h => h)
    (fun _ _ _ hinv hguarded => (consistent_step_iff hinv hguarded.2).mpr hguarded.1)
    (fun _ _ _ hinv hstep hclean hgood => hclean ((consistent_step_iff hinv hstep).mp hgood))
    hrun hcons

/-- A handler survives just the sequences in which every start gets no handle or succeeds. -/
theorem survives_iff (type : HandlerType) (bufPackets : ℕ) (rs : List Request) :
    Survives (.new type bufPackets) rs ↔
      ∃ h', Run (Guarded Clean step) (.new type bufPackets) rs h' := by
  have hcons := consistent_new type bufPackets
  constructor
  · rintro ⟨⟨h', hrun⟩, hall, -⟩
    exact ⟨h', (stays_consistent_iff hcons hrun).mp hall⟩
  · rintro ⟨h', hrun⟩
    have hall := (stays_consistent_iff hcons hrun.always).mpr hrun
    refine ⟨⟨h', hrun.always⟩, hall, ?_⟩
    intro rs₁ r rs₂ h₁ h₂ hpre _ _ hrun₂
    exact startable_of_consistent (hall _ h₂ hpre hrun₂)

/-- A start that fails when the receive context is set up: the handle stays behind, and the next
update of the state, which tries again, fails an assertion. -/
theorem failed_start_repeated :
    let failing : Answers := ⟨some 1, false, false⟩
    let fine : Answers := ⟨some 2, true, true⟩
    ((step (.new .receive 400) .requestEnable >>= (step · (.updateState failing))).map
        fun h => (h.handle, h.state, h.nextState)) = some (some 1, .stopped, .running) ∧
      (step (.new .receive 400) .requestEnable >>= (step · (.updateState failing)) >>=
        (step · (.updateState fine))).isNone = true := by
  decide

end Ffado.IsoStart
