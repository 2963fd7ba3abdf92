import Ffado.Ieee1394.IsoHandler
import Ffado.Lib.LabelledRun

/-!
# Packet times

The handler is given only the cycle of a packet. It rebuilds the rest of the time from the
cycle timer value of the last `iterate`. After `enable` there is no such value yet, only a
marker, and the marker goes through the same arithmetic: its cycle field is not below 8000,
and the result is off by one cycle.
-/
namespace Ffado.IsoHandler

open CycleTimer MachineInt LabelledRun

variable {h : IsoHandler} {cycle : ℕ}

structure CycleTimerValue where
  ctr : ℕ
  cycles_lt : cycleTimerGetCycles ctr < 8000
  offset_lt : cycleTimerGetOffset ctr < 3072

/-- What happens to a handler. -/
inductive Event
  | enable
  | iterate (now : CycleTimerValue)
  | putPacket (missedCyclesOK : Bool) (cycle : ℕ) (client : Option (PacketReceipt → Disposition))
  | getPacket (cycle : ℤ) (skipped : ℕ) (client : Option (PacketRequest → Disposition))

def step (h : IsoHandler) : Event → IsoHandler
  | .enable => h.enable
  | .iterate now => h.iterate now.ctr
  | .putPacket missedCyclesOK cycle client => (h.putPacket missedCyclesOK cycle client).1
  | .getPacket cycle skipped client => (h.getPacket cycle skipped client).1

abbrev Steps : IsoHandler → List Event → IsoHandler → Prop := Run fun h e h' => h.step e = h'

/-- The value that stands for "no `iterate` yet". -/
def noIterate : ℕ := 0xFFFFFFFF

/-- `ctr` is a time in the given cycle, and half a second or less away from `now` on the ring
of 128 seconds. -/
structure TimeOf (now cycle ctr : ℕ) : Prop where
  cycle_eq : cycleTimerGetCycles ctr = cycle
  offset_lt : cycleTimerGetOffset ctr < ticksPerCycle
  near : cyclesAfter (cycleCount now) (cycleCount ctr) ≤ 4000 ∨
    cyclesAfter (cycleCount ctr) (cycleCount now) ≤ 4000

theorem cycleCount_ticksToCycleTimer {t : ℕ} (ht : t < maxTicks) :
    cycleCount (ticksToCycleTimer t) = t / 3072 := by
  rw [cycleCount, cycleTimerGetSecs_ticksToCycleTimer, cycleTimerGetCycles_ticksToCycleTimer]
  simp only [maxTicks, ticksToSecs, ticksToCycles, ticksPerSecond, ticksPerCycle,
    cyclesPerSecond] at *
  omega

/-- The reconstructed time is a converted one, some cycles away from `now`. -/
theorem pktCtrOf_eq (now : CycleTimerValue) (hcycle : cycle < 8000) :
    ∃ t : ℕ, t < maxTicks ∧ pktCtrOf now.ctr cycle = ticksToCycleTimer t ∧
      (t : ℤ) = (cycleCount now.ctr * 3072 + cycleTimerGetOffset now.ctr +
        diffCycles cycle (cycleTimerGetCycles now.ctr) * 3072) % maxTicks := by
  obtain ⟨hd0, hd1, -⟩ := diffCycles_spec hcycle (now.cycles_lt.trans (by norm_num))
  have hoff := now.offset_lt
  have hcount := cycleCount_lt now.cycles_lt
  have hmax : maxTicks = 3145728000 := rfl
  simp only [maxCycles, cyclesPerSecond] at hcount
  generalize hticks : (cycleCount now.ctr * 3072 + cycleTimerGetOffset now.ctr +
    diffCycles cycle (cycleTimerGetCycles now.ctr) * 3072 : ℤ) = x
  have hwrap : wrapAtMinMaxTicks x = x % maxTicks :=
    wrapAtMinMaxTicks_eq (by rw [hmax]; omega) (by rw [hmax]; omega)
  have hmod : 0 ≤ x % maxTicks ∧ x % maxTicks < maxTicks := by
    rw [hmax]
    omega
  refine ⟨(x % maxTicks).toNat, by omega, ?_, by omega⟩
  have htmp : (cycleTimerToTicks now.ctr : ℤ) +
      diffCycles cycle (cycleTimerGetCycles now.ctr) * ticksPerCycle = x := by
    rw [cycleTimerToTicks_eq, ← hticks]
    simp [ticksPerCycle]
  have hsmall : x % maxTicks % 2 ^ 64 = x % maxTicks := by
    rw [hmax] at hmod ⊢
    omega
  rw [pktCtrOf, htmp, hwrap, hsmall, u32_of_lt (ticksToCycleTimer_lt _)]

theorem pktCtrOf_timeOf (now : CycleTimerValue) (hcycle : cycle < 8000) :
    TimeOf now.ctr cycle (pktCtrOf now.ctr cycle) := by
  obtain ⟨t, ht, hctr, hval⟩ := pktCtrOf_eq now hcycle
  obtain ⟨hd0, hd1, hd⟩ := diffCycles_spec hcycle (now.cycles_lt.trans (by norm_num))
  have hoff := now.offset_lt
  have hcount := cycleCount_lt now.cycles_lt
  have hmod : cycleCount now.ctr % 8000 = cycleTimerGetCycles now.ctr := by
    have := now.cycles_lt
    simp only [cycleCount, cyclesPerSecond]
    omega
  generalize diffCycles cycle (cycleTimerGetCycles now.ctr) = d at *
  have hmax : maxTicks = 3145728000 := rfl
  have hcycles : (t / 3072 : ℕ) = (cycleCount now.ctr + d) % 1024000 := by
    rw [hmax] at hval
    omega
  rw [hctr]
  constructor
  · rw [cycleTimerGetCycles_ticksToCycleTimer, ticksToCycles, ticksPerCycle, cyclesPerSecond]
    omega
  · rw [cycleTimerGetOffset_ticksToCycleTimer]
    exact ticksToOffset_lt t
  · rw [cycleCount_ticksToCycleTimer ht]
    simp only [cyclesAfter, maxCycles, cyclesPerSecond] at hcount ⊢
    omega

/-- From the marker the reconstruction ends up in the following cycle. -/
theorem pktCtrOf_noIterate (hcycle : cycle < 8000) :
    cycleTimerGetCycles (pktCtrOf noIterate cycle) = (cycle + 1) % 8000 := by
  have hnow : cycleTimerToTicks noIterate = 3146318847 := by decide
  have hcyc : cycleTimerGetCycles noIterate = 8191 := by decide
  have hmax : maxTicks = 3145728000 := rfl
  have hdiff : diffCycles cycle (8191 : ℕ) = cycle - 191 - (if cycle < 4191 then 0 else 8000) := by
    simp only [diffCycles, cyclesPerSecond]
    split_ifs <;> omega
  have hrange : -191 ≤ diffCycles cycle (8191 : ℕ) + 4000 ∧ diffCycles cycle (8191 : ℕ) ≤ 4000 := by
    rw [hdiff]
    split_ifs <;> omega
  have hring : ∀ d : ℤ, (3146318847 + d * 3072) % 3145728000 =
      (d + 1024192) % 1024000 * 3072 + 1023 := by omega
  rw [pktCtrOf, hnow, hcyc, u32_of_lt (ticksToCycleTimer_lt _),
    cycleTimerGetCycles_ticksToCycleTimer, ticksPerCycle,
    wrapAtMinMaxTicks_eq (by rw [hmax]; omega) (by rw [hmax]; omega), hmax]
  push_cast at hdiff ⊢
  rw [hring, hdiff]
  have hnext : ((cycle - 191 - (if cycle < 4191 then 0 else 8000) + 1024192 : ℤ) % 1024000) % 8000 =
      (cycle + 1) % 8000 := by
    split_ifs <;> omega
  generalize hn : (cycle - 191 - (if cycle < 4191 then 0 else 8000) + 1024192 : ℤ) % 1024000 = n
    at hnext
  have hn0 : 0 ≤ n ∧ n < 1024000 := by omega
  have hquot : ((n * 3072 + 1023) % 18446744073709551616).toNat / 3072 = n.toNat := by omega
  rw [ticksToCycles, ticksPerCycle, cyclesPerSecond, hquot]
  omega

def Timed (h : IsoHandler) : Prop :=
  h.lastNow = noIterate ∨ ∃ now : CycleTimerValue, h.lastNow = now.ctr

theorem getPacket_lastNow (h : IsoHandler) (cycle : ℤ) (skipped : ℕ)
    (client : Option (PacketRequest → Disposition)) :
    (h.getPacket cycle skipped client).1.lastNow = h.lastNow := by
  cases client with
  | _ =>
    simp only [getPacket]
    split_ifs <;> rfl

theorem putPacket_lastNow (h : IsoHandler) (missedCyclesOK : Bool) (cycle : ℕ)
    (client : Option (PacketReceipt → Disposition)) :
    (h.putPacket missedCyclesOK cycle client).1.lastNow = h.lastNow := by
  cases client <;> rfl

theorem Timed.step (ht : h.Timed) (e : Event) : (h.step e).Timed := by
  cases e with
  | enable => exact Or.inl rfl
  | iterate now => exact Or.inr ⟨now, rfl⟩
  | putPacket missedCyclesOK cycle client =>
    simpa only [Timed, IsoHandler.step, putPacket_lastNow] using ht
  | getPacket cycle skipped client =>
    simpa only [Timed, IsoHandler.step, getPacket_lastNow] using ht

theorem Steps.timed {bufPackets : ℕ} {es : List Event} (hrun : Steps (new bufPackets) es h) :
    h.Timed := by
  apply Run.invariant Timed hrun
  · rintro s e s' hs rfl
    exact hs.step e
  · exact Or.inl rfl

theorem Timed.timeOf_iff (ht : h.Timed) (hcycle : cycle < 8000) :
    TimeOf h.lastNow cycle (pktCtrOf h.lastNow cycle) ↔ h.lastNow ≠ noIterate := by
  rcases ht with hmark | ⟨now, hnow⟩
  · rw [hmark]
    refine iff_of_false (fun hto => ?_) (fun hne => hne rfl)
    have hfield := hto.cycle_eq
    rw [pktCtrOf_noIterate hcycle] at hfield
    omega
  · rw [hnow]
    refine iff_of_true (pktCtrOf_timeOf now hcycle) (fun hmark => ?_)
    have hoff := now.offset_lt
    rw [hmark] at hoff
    exact absurd hoff (by decide)

/-- In every state that a handler can reach, the times that it passes on with a received packet
and with a request are those of the packet's cycle exactly if there was an `iterate` after the
last `enable`. -/
theorem packet_time_iff_iterated (bufPackets : ℕ) (es : List Event) (h : IsoHandler)
    (hrun : Steps (new bufPackets) es h) (cycle : ℕ) (hcycle : cycle < 8000) :
    (∀ missedCyclesOK answer, ∃ receipt,
      (h.putPacket missedCyclesOK cycle (some answer)).2.1 = some receipt ∧
        (TimeOf h.lastNow cycle receipt.pktCtr ↔ h.lastNow ≠ noIterate)) ∧
    (∀ skipped answer, ∃ request,
      (h.getPacket cycle skipped (some answer)).2.1 = some request ∧
        (TimeOf h.lastNow cycle request.pktCtr ↔ h.lastNow ≠ noIterate)) := by
  have htime := hrun.timed.timeOf_iff hcycle
  have hpos : ¬ (cycle : ℤ) < 0 := by omega
  constructor
  · intro missedCyclesOK answer
    exact ⟨_, rfl, htime⟩
  · intro skipped answer
    refine ⟨_, rfl, ?_⟩
    simpa only [hpos, if_false] using htime

/-- A packet of cycle 7999 that is handled just after the clock wrapped at 128 seconds. -/
theorem packet_time_iff_iterated_wrap :
    TimeOf 100 7999 (((new 16).enable.iterate 100).putPacket true 7999
      (some fun _ => .ok)).1.lastPacketHandledAt := by
  obtain ⟨hput, -⟩ := packet_time_iff_iterated 16
    [.enable, .iterate ⟨100, by decide, by decide⟩] ((new 16).enable.iterate 100)
    (.cons rfl (.cons rfl (.nil _))) 7999 (by decide)
  obtain ⟨receipt, hreceipt, hiff⟩ := hput true fun _ => .ok
  cases hreceipt
  exact hiff.mpr (by decide)

/-- The first packet after `enable`, in cycle 0, is given a time in cycle 1. -/
theorem first_packet_time_off :
    Steps (new 16) [.enable] (new 16).enable ∧
      ((new 16).enable.getPacket 0 0 (some fun _ => .ok)).2.1 = some ⟨0x000013FF, 0, 0⟩ ∧
      cycleTimerGetCycles 0x000013FF = 1 :=
  ⟨.cons rfl (.nil _), by decide +kernel, by decide⟩

end Ffado.IsoHandler
