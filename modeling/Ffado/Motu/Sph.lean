import Ffado.Streaming.ReceivePackets

/-!
# Timestamps of MOTU packets

Every event of a MOTU packet starts with the cycle and the offset of its time. The receiver takes
the seconds from the cycle timer, and from the second before or behind if the cycles are far apart.
-/
namespace Ffado.Motu

open CycleTimer MotuReceive

def fullTicksToSph (timestamp : ℕ) : ℕ := ticksToCycleTimer timestamp &&& 0x1ffffff

theorem fullTicksToSph_eq (t : ℕ) : fullTicksToSph t =
    ticksToCycles t * 4096 + ticksToOffset t := by
  have hcycles := ticksToCycles_lt t
  have hoffset := ticksToOffset_lt t
  rw [fullTicksToSph, show 0x1ffffff = 2 ^ 25 - 1 from rfl, Nat.and_two_pow_sub_one_eq_mod,
    ticksToCycleTimer_eq]
  omega

theorem fields_fullTicksToSph (t : ℕ) :
    cycleTimerGetCycles (fullTicksToSph t) = ticksToCycles t ∧
      cycleTimerToTicks (fullTicksToSph t &&& 0x1ffffff) =
        ticksToCycles t * 3072 + ticksToOffset t := by
  have hcycles := ticksToCycles_lt t
  have hoffset := ticksToOffset_lt t
  have hmask : fullTicksToSph t &&& 0x1ffffff = fullTicksToSph t := by
    rw [show 0x1ffffff = 2 ^ 25 - 1 from rfl, Nat.and_two_pow_sub_one_eq_mod, fullTicksToSph_eq]
    omega
  rw [hmask, cycleTimerToTicks, cycleTimerGetSecs_eq, cycleTimerGetCycles_eq,
    cycleTimerGetOffset_eq, fullTicksToSph_eq, ticksPerSecond, ticksPerCycle]
  omega

/-- The second of a time, from the cycle timer at most 1000 cycles away. -/
theorem sphSecond_eq {t ctNow : ℕ} (ht : t / ticksPerCycle < maxCycles)
    (hnear : cyclesAfter (t / ticksPerCycle) (cycleCount ctNow % maxCycles) ≤ 1000 ∨
      cyclesAfter (cycleCount ctNow % maxCycles) (t / ticksPerCycle) ≤ 1000) :
    sphSecond (fullTicksToSph t) ctNow = t / ticksPerCycle / 8000 := by
  have hsecs := cycleTimerGetSecs_lt ctNow
  have hcycles := cycleTimerGetCycles_lt ctNow
  simp only [cyclesAfter, cycleCount, maxCycles, cyclesPerSecond] at ht hnear
  rw [sphSecond, (fields_fullTicksToSph t).1, ticksToCycles, cyclesPerSecond]
  dsimp only [previousSecond]
  generalize t / ticksPerCycle = cycle at *
  split_ifs <;> omega

/-- A time that is at most 1000 cycles before or after that of the cycle timer survives being sent,
across the seconds and the wrap of the clock. -/
theorem sphRecvToFullTicks_fullTicksToSph (t ctNow : ℕ) (ht : t < maxTicks)
    (hnear : cyclesAfter (t / ticksPerCycle) (cycleCount ctNow % maxCycles) ≤ 1000 ∨
      cyclesAfter (cycleCount ctNow % maxCycles) (t / ticksPerCycle) ≤ 1000) :
    sphRecvToFullTicks (fullTicksToSph t) ctNow = t := by
  have hlt : t / ticksPerCycle < maxCycles := by
    simp only [maxTicks, maxCycles, ticksPerCycle, ticksPerSecond, cyclesPerSecond] at *
    omega
  rw [sphRecvToFullTicks, (fields_fullTicksToSph t).2, sphSecond_eq hlt hnear, ticksToCycles,
    ticksToOffset]
  simp only [maxTicks, ticksPerSecond, ticksPerCycle, cyclesPerSecond] at *
  rw [MachineInt.u32_of_lt (by omega)]
  omega

/-- Sent in second 0 and received in second 127. -/
theorem sphRecvToFullTicks_fullTicksToSph_wrap :
    sphRecvToFullTicks (fullTicksToSph (500 * 3072 + 7)) ((127 <<< 25) ||| (7600 <<< 12)) =
      500 * 3072 + 7 :=
  sphRecvToFullTicks_fullTicksToSph _ _ (by decide) (by decide)

end Ffado.Motu
