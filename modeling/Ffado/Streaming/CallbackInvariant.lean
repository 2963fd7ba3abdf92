import Ffado.Streaming.SharedProcessor

/-!
# What the ISO thread keeps

As long as the request in `m_next_state` is one that the present state can be changed to,
`updateState` finds a transition function for it. The packet callbacks keep it so: they assign
`m_next_state` only where they know the state. This is proved of the programs with arbitrary
requests between their actions, if these keep it as well and stay out of a state change that
has begun.
-/
namespace Ffado

open CycleTimer Postcondition SharedProgram Program
open StreamProcessor (mode)

def ProcessorState.Live : ProcessorState → Prop
  | .invalid | .created | .error => False
  | _ => True

theorem ProcessorState.Fits.live {state next : ProcessorState} (h : state.Fits next)
    (hlive : state.Live) : next.Live := by
  rcases h with rfl | h
  · exact hlive
  · cases state <;> cases next <;> trivial

namespace SharedProcessor

/-- No invalid transition has been tried, and the requested state is one that the present state
can be changed to. -/
structure Sound (c : SharedProcessor) : Prop where
  valid : c.invalidTransition = false
  agrees : c.sp.mode.Agrees
  live : c.sp.state.Live
  fits : c.sp.state.Fits c.sp.nextState

/-- What the client leaves alone: state and mode, and in the middle of a state change also the
request. -/
structure Interferes (c c' : SharedProcessor) : Prop where
  mode_eq : c'.sp.mode = c.sp.mode
  copy_eq : c'.nextStateCopy = c.nextStateCopy
  nextState_eq : c.nextStateCopy.isSome → c'.sp.nextState = c.sp.nextState

instance : Std.Refl Interferes := ⟨fun _ => ⟨rfl, rfl, fun _ => rfl⟩⟩

instance : IsTrans SharedProcessor Interferes where
  trans _ _ _ h h' := {
    mode_eq := h'.mode_eq.trans h.mode_eq
    copy_eq := h'.copy_eq.trans h.copy_eq
    nextState_eq := fun hcopy =>
      (h'.nextState_eq (h.copy_eq.symm ▸ hcopy)).trans (h.nextState_eq hcopy) }

variable {c c' : SharedProcessor}

theorem Interferes.state_eq (h : Interferes c c') : c'.sp.state = c.sp.state :=
  (Prod.mk.inj h.mode_eq).1

theorem Sound.of_eq (h : c.Sound) (hvalid : c'.invalidTransition = c.invalidTransition)
    (hmode : c'.sp.mode = c.sp.mode) (hnext : c.sp.state.Fits c'.sp.nextState) : c'.Sound := by
  have hstate : c'.sp.state = c.sp.state := (Prod.mk.inj hmode).1
  constructor
  · rw [hvalid]
    exact h.valid
  · rw [hmode]
    exact h.agrees
  · rw [hstate]
    exact h.live
  · rw [hstate]
    exact hnext

/-- A processor whose buffer is in use can be told to leave the running state. -/
theorem Sound.fits_disable (h : c.Sound) (hinUse : c.sp.dataBuffer.transparent = false) :
    c.sp.state.Fits .waitingForStreamDisable := by
  have hagrees := h.agrees
  have hlive := h.live
  unfold mode at hagrees
  rw [hinUse] at hagrees
  cases hstate : c.sp.state with
  | running => exact .inr rfl
  | waitingForStreamDisable => exact .inl rfl
  | _ => simp_all [Mode.Agrees, ProcessorState.Live]

theorem changeState_sound {ctx : Context} {r : SharedProcessor × Bool} (h : c.Sound)
    (hr : c.changeState ctx c.sp.nextState = some r) : r.1.Sound := by
  unfold changeState at hr
  have hvalid : ¬ (c.sp.state ≠ c.sp.nextState ∧ c.sp.state.implements c.sp.nextState = false) := by
    rintro ⟨hne, hnot⟩
    rcases h.fits with heq | himp
    · exact hne heq
    · exact Bool.noConfusion (hnot.symm.trans himp)
  rw [if_neg hvalid, Option.bind_eq_bind, Option.bind_eq_some_iff] at hr
  obtain ⟨⟨sp, result⟩, hupdate, hr⟩ := hr
  cases hr
  have hagrees : sp.mode.Agrees :=
    agrees_of_moves (c.sp.updateState_moves ctx (sp, result) hupdate) h.agrees
  rcases c.sp.updateState_lands ctx (sp, result) hupdate with hstates | hstates
  · have hstate : sp.state = c.sp.state := (Prod.mk.inj hstates).1
    exact ⟨h.valid, hagrees, hstate ▸ h.live, hstate ▸ h.fits⟩
  · have hstate : sp.state = c.sp.nextState := (Prod.mk.inj hstates).1
    exact ⟨h.valid, hagrees, hstate ▸ h.fits.live h.live, .inl hstate⟩

end SharedProcessor

namespace TimestampedBuffer

variable {tb : TimestampedBuffer}

theorem writeFrames_of_transparent (h : tb.transparent = true) (n : ℕ) (data : ℕ → UInt8)
    (ts : ℚ) : Ensures (tb.writeFrames n data ts) fun r => r.2 = true := by
  unfold writeFrames
  simp only [h, if_true]
  apply Ensures.ite
  · intro _
    apply ensures_bind
    intro counted
    exact ensures_some.mpr rfl
  · intro _
    exact ensures_some.mpr rfl

end TimestampedBuffer

namespace StreamProcessor

variable (sp : StreamProcessor) (p : Packet)

/-- The payload changes neither state nor request. If the subclass reports an xrun only when the
buffer refuses the frames, there is none as long as the buffer is transparent. -/
theorem transferPayload_spec (hanswer : p.answer true ≠ .xRun) :
    Ensures (sp.transferPayload p) fun r => r.1.mode = sp.mode ∧ r.1.nextState = sp.nextState ∧
      (r.2 = .xRun → sp.dataBuffer.transparent = false) := by
  unfold transferPayload
  cases p.payload with
  | nothing =>
    rw [ensures_some]
    exact ⟨rfl, rfl, fun h => absurd h hanswer⟩
  | write nevents data =>
    refine Ensures.bind (fun r hr => hr) ?_
    rintro ⟨tb, result⟩ hwrite
    have hmode := sp.dataBuffer.writeFrames_transparent nevents data _ (tb, result) hwrite
    rw [ensures_some, mode, mode, hmode]
    refine ⟨rfl, rfl, fun h => ?_⟩
    by_contra hnot
    have htrue : result = true :=
      TimestampedBuffer.writeFrames_of_transparent (by simpa using hnot) _ _ _ (tb, result) hwrite
    rw [htrue] at h
    exact hanswer h
  | read nevents data =>
    refine Ensures.bind (fun r hr => hr) ?_
    rintro ⟨tb, result, area⟩ hread
    have hmode := sp.dataBuffer.readFrames_transparent nevents data (tb, result, area) hread
    rw [ensures_some, mode, mode, hmode]
    refine ⟨rfl, rfl, fun h => ?_⟩
    by_contra hnot
    rw [TimestampedBuffer.readFrames, if_pos (by simpa using hnot)] at hread
    cases hread
    exact hanswer h

end StreamProcessor

namespace IsoThread

open SharedProcessor

variable (ctx : Context) (p : Packet) {c : SharedProcessor} {α : Type}

/-- Between the actions of the client, the program tries no invalid transition. -/
abbrev Safe (program : Program SharedProcessor α) (c : SharedProcessor) : Prop :=
  Upholds Interferes Sound program c

theorem readState_safe {k : ProcessorState → Program SharedProcessor α}
    (hk : ∀ c', c'.sp.state = c.sp.state → Safe (k c.sp.state) c') : Safe (readState >>= k) c := by
  apply upholds_read
  intro c' hc' _
  rw [hc'.state_eq]
  exact hk c' hc'.state_eq

theorem modify_safe {f : StreamProcessor → StreamProcessor} {k : Unit → Program SharedProcessor α}
    (hmode : ∀ sp, (f sp).mode = sp.mode) (hnext : ∀ sp, (f sp).nextState = sp.nextState)
    (hk : ∀ c', c'.sp.state = c.sp.state → Safe (k ()) c') : Safe (modify f >>= k) c := by
  apply upholds_write
  intro c' hc' hsound
  constructor
  · refine hsound.of_eq rfl (hmode c'.sp) ?_
    rw [show (c'.modify f).sp.nextState = c'.sp.nextState from hnext c'.sp]
    exact hsound.fits
  · apply hk
    rw [← hc'.state_eq]
    exact (Prod.mk.inj (hmode c'.sp)).1

theorem updateState_safe (c : SharedProcessor) : Safe (updateState ctx) c := by
  apply upholds_atomic_bind
  intro c₁ r _ hsound hr
  cases hr
  refine ⟨hsound.of_eq rfl rfl hsound.fits, ?_⟩
  apply upholds_atomic
  -- The client may act again before the transition, but it does not touch the request.
  intro c₂ r hc₂ hsound₂ hr
  have hnext : c₂.sp.nextState = c₁.sp.nextState := hc₂.nextState_eq rfl
  rw [← hnext] at hr
  exact changeState_sound hsound₂ hr

theorem switchTo_safe {next : ProcessorState} (h : c.sp.state.Fits next) :
    Safe (switchTo ctx next) c := by
  apply upholds_write
  intro c' hc' hsound
  constructor
  · refine hsound.of_eq rfl rfl ?_
    rw [hc'.state_eq]
    exact h
  · exact updateState_safe ctx _

/-- The callback has just seen the state, and nobody else changes it. -/
theorem switchIfDue_safe {state next : ProcessorState} (hstate : c.sp.state = state)
    (h : state.implements next = true) : Safe (switchIfDue ctx p next) c := by
  apply upholds_read
  intro c' hc' _
  apply Upholds.ite
  · intro _
    apply switchTo_safe
    rw [hc'.state_eq, hstate]
    exact .inr h
  · intro _
    exact upholds_pure true

theorem followRequest_safe (c : SharedProcessor) : Safe (followRequest ctx) c := by
  apply upholds_read
  intro c' _ _
  apply Upholds.ite
  · intro _
    exact updateState_safe ctx c'
  · intro _
    exact upholds_pure true

theorem startXrun_safe (h : c.sp.state.Fits .waitingForStreamDisable) :
    Safe (startXrun ctx p) c := by
  refine modify_safe (fun _ => rfl) (fun _ => rfl) ?_
  intro c' hstate
  apply switchTo_safe
  rw [hstate]
  exact h

theorem startXrun_safe_of_running (h : c.sp.state = .running) : Safe (startXrun ctx p) c := by
  apply startXrun_safe
  rw [h]
  exact .inr rfl

theorem orError_safe {change : Program SharedProcessor Bool}
    {next : Program SharedProcessor Disposition} (hchange : Safe change c)
    (hnext : ∀ c, Safe next c) : Safe (orError change next) c := by
  apply Upholds.bind hchange
  intro result c'
  cases result with
  | false => exact upholds_pure _
  | true => exact hnext c'

/-- The packet's payload, and an xrun if the subclass reports one. -/
theorem transferPayload_safe {k : ChildReturnValue → Program SharedProcessor α}
    (hanswer : p.answer true ≠ .xRun)
    (hk : ∀ result c', (result = .xRun → c'.sp.state.Fits .waitingForStreamDisable) →
      Safe (k result) c') : Safe (transferPayload p >>= k) c := by
  apply upholds_atomic_bind
  intro c' r _ hsound hr
  obtain ⟨⟨sp, result⟩, htransfer, rfl⟩ := Option.map_eq_some_iff.mp hr
  obtain ⟨hmode, hnext, hinUse⟩ := c'.sp.transferPayload_spec p hanswer (sp, result) htransfer
  constructor
  · refine hsound.of_eq rfl hmode ?_
    rw [show sp.nextState = c'.sp.nextState from hnext]
    exact hsound.fits
  · apply hk
    intro hxrun
    rw [show sp.state = c'.sp.state from (Prod.mk.inj hmode).1]
    exact hsound.fits_disable (hinUse hxrun)

theorem receiveData_safe (hanswer : p.answer true ≠ .xRun) (c : SharedProcessor) :
    Safe (receiveData ctx p) c := by
  apply transferPayload_safe p hanswer
  intro result c' hfits
  apply Upholds.ite
  · intro hxrun
    exact orError_safe (startXrun_safe ctx p (hfits hxrun)) fun _ => upholds_pure _
  · intro _
    exact Upholds.ite (fun _ => upholds_pure _) fun _ => upholds_pure _

theorem correctedTimestamp_nextState (sp : StreamProcessor) :
    ((sp.fixLastTimestamp ctx).correctTimestamp ctx).nextState = sp.nextState := by
  have hfix : (sp.fixLastTimestamp ctx).nextState = sp.nextState := by
    unfold StreamProcessor.fixLastTimestamp
    dsimp only
    split_ifs <;> rfl
  rw [← hfix]
  unfold StreamProcessor.correctTimestamp
  split_ifs <;> rfl

theorem receivePacket_safe (hanswer : p.answer true ≠ .xRun) (c : SharedProcessor) :
    Safe (receivePacket ctx p) c := by
  cases hheader : p.header with
  | ok =>
    simp only [receivePacket, hheader]
    refine modify_safe (fun sp => sp.correctedTimestamp_mode ctx)
      (correctedTimestamp_nextState ctx) ?_
    intro c₁ _
    apply readState_safe
    intro c₂ hstate
    apply Upholds.ite
    · intro hwaiting
      apply orError_safe
      · exact switchIfDue_safe ctx p (hstate.trans hwaiting) rfl
      · exact fun _ => upholds_pure _
    · intro _
      apply upholds_read
      intro c₃ _ _
      apply Upholds.ite
      · intro _
        apply orError_safe (updateState_safe ctx c₃)
        intro c₄
        apply readState_safe
        intro c₅ _
        exact Upholds.ite (fun _ => upholds_pure _) fun _ => receiveData_safe ctx p hanswer c₅
      · intro _
        exact receiveData_safe ctx p hanswer c₃
  | _ =>
    simp only [receivePacket, hheader]
    exact upholds_pure _

theorem receiveHeader_safe (hanswer : p.answer true ≠ .xRun) (c : SharedProcessor) :
    Safe (receiveHeader ctx p) c := by
  refine modify_safe (fun _ => rfl) (fun _ => rfl) ?_
  intro c₁ _
  apply Upholds.ite
  · intro _
    refine modify_safe (fun _ => rfl) (fun _ => rfl) ?_
    intro c₂ _
    apply readState_safe
    intro c₃ hstate
    apply Upholds.ite
    · intro hrunning
      apply orError_safe
      · exact startXrun_safe_of_running ctx p (hstate.trans hrunning)
      · exact receivePacket_safe ctx p hanswer
    · intro _
      exact receivePacket_safe ctx p hanswer c₃
  · intro _
    exact receivePacket_safe ctx p hanswer c₁

theorem putPacket_safe (hanswer : p.answer true ≠ .xRun) (c : SharedProcessor) :
    Safe (putPacket ctx p) c := by
  apply readState_safe
  intro c₁ hstate₁
  refine Upholds.ite (fun _ => upholds_pure _) fun _ => ?_
  refine Upholds.ite (fun _ => upholds_pure _) fun _ => ?_
  refine Upholds.ite (fun _ => upholds_pure _) fun _ => ?_
  refine modify_safe (fun _ => rfl) (fun _ => rfl) ?_
  intro c₂ hstate₂
  apply Upholds.ite
  · intro hdisable
    apply orError_safe
    · exact switchIfDue_safe ctx p (hstate₂.trans (hstate₁.trans hdisable)) rfl
    · exact fun _ => upholds_pure _
  · intro _
    apply upholds_read
    intro c₃ _ _
    apply Upholds.ite
    · intro henable
      apply orError_safe
      · exact switchIfDue_safe ctx p (of_decide_eq_true henable).1 rfl
      · exact receiveHeader_safe ctx p hanswer
    · intro _
      exact receiveHeader_safe ctx p hanswer c₃

theorem sendEmptyPacket_safe (c : SharedProcessor) : Safe (sendEmptyPacket ctx) c :=
  orError_safe (followRequest_safe ctx c) fun _ => upholds_pure _

theorem sendSilentPacket_safe (c : SharedProcessor) : Safe (sendSilentPacket ctx p) c := by
  unfold sendSilentPacket
  split
  · exact upholds_pure _
  · exact sendEmptyPacket_safe ctx c
  · exact upholds_pure _

theorem sendData_safe (hanswer : p.answer true ≠ .xRun) (c : SharedProcessor) :
    Safe (sendData ctx p) c := by
  apply transferPayload_safe p hanswer
  intro result c' hfits
  apply Upholds.ite
  · intro hxrun
    exact orError_safe (startXrun_safe ctx p (hfits hxrun)) (sendEmptyPacket_safe ctx)
  · intro _
    exact upholds_pure _

theorem sendPacket_safe (hanswer : p.answer true ≠ .xRun) (hrunning : c.sp.state = .running) :
    Safe (sendPacket ctx p) c := by
  unfold sendPacket
  split
  all_goals
    refine modify_safe (fun _ => rfl) (fun _ => rfl) ?_
    intro c' hstate
  · exact orError_safe (followRequest_safe ctx c') (sendData_safe ctx p hanswer)
  · exact orError_safe (followRequest_safe ctx c') (sendData_safe ctx p hanswer)
  · apply orError_safe
    · exact startXrun_safe_of_running ctx p (hstate.trans hrunning)
    · exact sendEmptyPacket_safe ctx
  · exact orError_safe (followRequest_safe ctx c') (sendEmptyPacket_safe ctx)
  · exact orError_safe (followRequest_safe ctx c') fun _ => upholds_pure _
  · exact upholds_pure _

theorem sendInState_safe (hanswer : p.answer true ≠ .xRun) (c : SharedProcessor) :
    Safe (sendInState ctx p c.sp.state) c := by
  cases hstate : c.sp.state with
  | invalid => exact upholds_pure _
  | created => exact upholds_pure _
  | waitingForStreamDisable =>
    exact orError_safe (switchIfDue_safe ctx p hstate rfl) (sendSilentPacket_safe ctx p)
  | waitingForStreamEnable =>
    apply upholds_read
    intro c' hc' _
    apply Upholds.ite
    · intro _
      apply orError_safe
      · exact switchIfDue_safe ctx p (hc'.state_eq.trans hstate) rfl
      · exact sendEmptyPacket_safe ctx
    · intro _
      exact sendEmptyPacket_safe ctx c'
  | waitingForStream =>
    exact orError_safe (switchIfDue_safe ctx p hstate rfl) (sendEmptyPacket_safe ctx)
  | running => exact sendPacket_safe ctx p hanswer hstate
  | _ => exact sendEmptyPacket_safe ctx c

theorem getPacket_safe (hanswer : p.answer true ≠ .xRun) (c : SharedProcessor) :
    Safe (getPacket ctx p) c := by
  refine Upholds.ite (fun _ => upholds_pure _) fun _ => ?_
  apply readState_safe
  intro c₁ hstate₁
  refine Upholds.ite (fun _ => upholds_pure _) fun _ => ?_
  refine modify_safe ?_ ?_ ?_
  · intro sp
    split_ifs <;> rfl
  · intro sp
    split_ifs <;> rfl
  intro c₂ hstate₂
  rw [← hstate₁, ← hstate₂]
  apply Upholds.ite
  · intro hxrun
    exact orError_safe (startXrun_safe_of_running ctx p hxrun.2) (sendEmptyPacket_safe ctx)
  · intro _
    exact sendInState_safe ctx p hanswer c₂

theorem packetCallback_safe (hanswer : p.answer true ≠ .xRun) (processorType : ProcessorType)
    (c : SharedProcessor) : Safe (packetCallback ctx p processorType) c := by
  cases processorType with
  | receive => exact putPacket_safe ctx p hanswer c
  | transmit => exact getPacket_safe ctx p hanswer c

end IsoThread
end Ffado
