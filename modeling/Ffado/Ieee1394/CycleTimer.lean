import Mathlib.Data.Nat.Bitwise
import Mathlib.Tactic

/-!
# The ISO cycle timer

A cycle timer value (CTR) packs seconds (7 bits), cycles (13 bits) and an offset
(12 bits) into 32 bits. Times are also counted in ticks: 3072 ticks to a cycle,
8000 cycles to a second, and the whole clock wraps at 128 seconds.

The macros keep their masks and shifts; the `_eq` lemmas below them read each one
as a quotient and a remainder, and every later proof goes through these. Values of
the unsigned types are natural numbers. Where the source can leave the range of
its type (`addTicks`, `substractTicks`) the reduction is written out.
-/
namespace Ffado.CycleTimer

variable {x y : ℕ}

def cyclesPerSecond : ℕ := 8000
def ticksPerCycle : ℕ := 3072
def ticksPerSecond : ℕ := 24576000

def maxTicks : ℕ := ticksPerSecond * 128
def maxCycles : ℕ := cyclesPerSecond * 128

def cycleTimerGetSecs (x : ℕ) : ℕ := (x &&& 0xFE000000) >>> 25
def cycleTimerGetCycles (x : ℕ) : ℕ := (x &&& 0x01FFF000) >>> 12
def cycleTimerGetOffset (x : ℕ) : ℕ := x &&& 0x00000FFF

def cycleTimerToTicks (x : ℕ) : ℕ :=
  cycleTimerGetSecs x * ticksPerSecond + cycleTimerGetCycles x * ticksPerCycle +
    cycleTimerGetOffset x

def ticksToSecs (x : ℕ) : ℕ := x / ticksPerSecond
def ticksToCycles (x : ℕ) : ℕ := (x / ticksPerCycle) % cyclesPerSecond
def ticksToOffset (x : ℕ) : ℕ := x % ticksPerCycle

def ticksToCycleTimer (x : ℕ) : ℕ :=
  ((ticksToSecs x &&& 0x7F) <<< 25) ||| ((ticksToCycles x &&& 0x1FFF) <<< 12) |||
    (ticksToOffset x &&& 0xFFF)

def ticksToSyt (x : ℕ) : ℕ :=
  ((ticksToCycles x &&& 0xF) <<< 12) ||| (ticksToOffset x &&& 0xFFF)

/-- A mask of `b` ones above `a` zeros selects the bits `a .. a + b`. -/
theorem shifted_mask (x a b : ℕ) : (x &&& ((2 ^ b - 1) <<< a)) >>> a = x / 2 ^ a % 2 ^ b := by
  rw [Nat.shiftRight_and_distrib, Nat.shiftLeft_shiftRight, Nat.and_two_pow_sub_one_eq_mod,
    Nat.shiftRight_eq_div_pow]

theorem cycleTimerGetSecs_eq (x : ℕ) : cycleTimerGetSecs x = x / 33554432 % 128 :=
  shifted_mask x 25 7

theorem cycleTimerGetCycles_eq (x : ℕ) : cycleTimerGetCycles x = x / 4096 % 8192 :=
  shifted_mask x 12 13

theorem cycleTimerGetOffset_eq (x : ℕ) : cycleTimerGetOffset x = x % 4096 :=
  Nat.and_two_pow_sub_one_eq_mod x 12

theorem cycleTimerGetSecs_lt (x : ℕ) : cycleTimerGetSecs x < 128 := by
  rw [cycleTimerGetSecs_eq]
  exact Nat.mod_lt _ (by norm_num)

theorem cycleTimerGetCycles_lt (x : ℕ) : cycleTimerGetCycles x < 8192 := by
  rw [cycleTimerGetCycles_eq]
  exact Nat.mod_lt _ (by norm_num)

theorem cycleTimerGetOffset_lt (x : ℕ) : cycleTimerGetOffset x < 4096 := by
  rw [cycleTimerGetOffset_eq]
  exact Nat.mod_lt _ (by norm_num)

theorem ticksToOffset_lt (x : ℕ) : ticksToOffset x < 3072 :=
  Nat.mod_lt _ (by norm_num [ticksPerCycle])

theorem ticksToCycles_lt (x : ℕ) : ticksToCycles x < 8000 :=
  Nat.mod_lt _ (by norm_num [cyclesPerSecond])

/-- The SYT field keeps the low four bits of the cycle and the whole offset. -/
theorem ticksToSyt_eq (x : ℕ) : ticksToSyt x = ticksToCycles x % 16 * 4096 + ticksToOffset x := by
  have hoff : ticksToOffset x &&& 0xFFF = ticksToOffset x := by
    rw [show 0xFFF = 2 ^ 12 - 1 from rfl, Nat.and_two_pow_sub_one_eq_mod]
    exact Nat.mod_eq_of_lt ((ticksToOffset_lt x).trans (by norm_num))
  have hlt : ticksToOffset x < 2 ^ 12 := (ticksToOffset_lt x).trans (by norm_num)
  rw [ticksToSyt, hoff, ← Nat.shiftLeft_add_eq_or_of_lt hlt, Nat.shiftLeft_eq,
    show 0xF = 2 ^ 4 - 1 from rfl, Nat.and_two_pow_sub_one_eq_mod]

theorem cycleTimerGetCycles_ticksToSyt (x : ℕ) :
    cycleTimerGetCycles (ticksToSyt x) = ticksToCycles x % 16 := by
  have hoff := ticksToOffset_lt x
  rw [cycleTimerGetCycles_eq, ticksToSyt_eq]
  omega

theorem cycleTimerGetOffset_ticksToSyt (x : ℕ) :
    cycleTimerGetOffset (ticksToSyt x) = ticksToOffset x := by
  have hoff := ticksToOffset_lt x
  rw [cycleTimerGetOffset_eq, ticksToSyt_eq]
  omega

/-- A CTR value packs the seconds modulo `128`, the cycle and the offset. -/
theorem ticksToCycleTimer_eq (x : ℕ) :
    ticksToCycleTimer x =
      (ticksToSecs x % 128 * 8192 + ticksToCycles x) * 4096 + ticksToOffset x := by
  have hoff : ticksToOffset x < 2 ^ 12 := (ticksToOffset_lt x).trans (by norm_num)
  have hcyc : ticksToCycles x < 2 ^ 13 :=
    (ticksToCycles_lt x).trans (by norm_num)
  have hlow : ticksToCycles x <<< 12 < 2 ^ 25 := by
    rw [Nat.shiftLeft_eq]
    omega
  have hand : ∀ n k, n &&& (2 ^ k - 1) = n % 2 ^ k := Nat.and_two_pow_sub_one_eq_mod
  rw [ticksToCycleTimer, show 0x7F = 2 ^ 7 - 1 from rfl, show 0x1FFF = 2 ^ 13 - 1 from rfl,
    show 0xFFF = 2 ^ 12 - 1 from rfl, hand, hand, hand, Nat.mod_eq_of_lt hcyc,
    Nat.mod_eq_of_lt hoff, ← Nat.shiftLeft_add_eq_or_of_lt hlow]
  rw [Nat.shiftLeft_eq, Nat.shiftLeft_eq,
    show ticksToSecs x % 2 ^ 7 * 2 ^ 25 + ticksToCycles x * 2 ^ 12 =
      (ticksToSecs x % 128 * 8192 + ticksToCycles x) <<< 12 by rw [Nat.shiftLeft_eq]; omega,
    ← Nat.shiftLeft_add_eq_or_of_lt hoff, Nat.shiftLeft_eq]

theorem cycleTimerGetSecs_ticksToCycleTimer (x : ℕ) :
    cycleTimerGetSecs (ticksToCycleTimer x) = ticksToSecs x % 128 := by
  have hoff := ticksToOffset_lt x
  have hcyc := ticksToCycles_lt x
  rw [cycleTimerGetSecs_eq, ticksToCycleTimer_eq]
  omega

theorem cycleTimerGetCycles_ticksToCycleTimer (x : ℕ) :
    cycleTimerGetCycles (ticksToCycleTimer x) = ticksToCycles x := by
  have hoff := ticksToOffset_lt x
  have hcyc := ticksToCycles_lt x
  rw [cycleTimerGetCycles_eq, ticksToCycleTimer_eq]
  omega

theorem cycleTimerGetOffset_ticksToCycleTimer (x : ℕ) :
    cycleTimerGetOffset (ticksToCycleTimer x) = ticksToOffset x := by
  have hoff := ticksToOffset_lt x
  rw [cycleTimerGetOffset_eq, ticksToCycleTimer_eq]
  omega

theorem ticksToCycleTimer_lt (x : ℕ) : ticksToCycleTimer x < 2 ^ 32 := by
  have hoff := ticksToOffset_lt x
  have hcyc := ticksToCycles_lt x
  rw [ticksToCycleTimer_eq]
  omega

def wrapAtMaxTicks (x : ℕ) : ℕ := if x ≥ maxTicks then x - maxTicks else x

def wrapAtMinTicks (x : ℤ) : ℤ := if x < 0 then x + maxTicks else x

def wrapAtMinMaxTicks (x : ℤ) : ℤ :=
  if x < 0 then x + maxTicks
  else if x ≥ maxTicks then x - maxTicks
  else x

/-- Signed difference of two cycle numbers, as `int`s; at most one turn is taken out. -/
def diffCycles (x y : ℤ) : ℤ :=
  let diff := x - y
  let max : ℤ := (cyclesPerSecond / 2 : ℕ)
  if diff > max then diff - cyclesPerSecond
  else if diff < -max then diff + cyclesPerSecond
  else diff

def diffTicks (x y : ℤ) : ℤ :=
  let diff := x - y
  let wrapvalue : ℤ := maxTicks
  let max := wrapvalue / 2
  if diff > max then diff - wrapvalue
  else if diff < -max then diff + wrapvalue
  else diff

def addTicks (x y : ℕ) : ℕ := wrapAtMaxTicks ((x + y) % 2 ^ 64)

/-- The difference is formed in `uint64_t` and read back as a signed value. -/
def substractTicks (x y : ℕ) : ℕ :=
  (wrapAtMinTicks (Int.bmod ((x : ℤ) - y) (2 ^ 64)) % 2 ^ 64).toNat

/-- The part shared by the SYT conversions: the full cycle is rebuilt from
the low four bits in the SYT and the cycle of the packet, then placed in the given
second. -/
def sytToFullTicks (sytTimestamp cycle seconds : ℕ) : ℕ :=
  let cycleMasked := cycle &&& 0xF
  let sytField := cycleTimerGetCycles sytTimestamp
  let sytCycle := if sytField < cycleMasked then sytField + 0x10 else sytField
  let deltaCycles := sytCycle - cycleMasked
  let newCycles := cycle + deltaCycles
  let timestamp :=
    if newCycles < 8000 then newCycles * ticksPerCycle
    else (newCycles - 8000) * ticksPerCycle + ticksPerSecond
  addTicks (timestamp + cycleTimerGetOffset sytTimestamp) (seconds * ticksPerSecond)

def previousSecond (ccSeconds : ℕ) : ℕ := if ccSeconds ≠ 0 then ccSeconds - 1 else 127

def sytRecvToFullTicks (sytTimestamp rcvCycle ctrNow : ℕ) : ℕ :=
  let ccCycles := cycleTimerGetCycles ctrNow
  let ccSeconds := cycleTimerGetSecs ctrNow
  let diff := diffCycles ccCycles rcvCycle
  let ccSeconds :=
    if rcvCycle > ccCycles ∧ diff ≥ 0 then previousSecond ccSeconds else ccSeconds
  sytToFullTicks sytTimestamp rcvCycle ccSeconds

def sytRecvToFullTicks2 (sytTimestamp rcvCtr : ℕ) : ℕ :=
  sytToFullTicks sytTimestamp (cycleTimerGetCycles rcvCtr) (cycleTimerGetSecs rcvCtr)

def cycleCount (ctr : ℕ) : ℕ :=
  cycleTimerGetSecs ctr * cyclesPerSecond + cycleTimerGetCycles ctr

/-- How many cycles `b` lies after `a` on the 128 second ring. -/
def cyclesAfter (a b : ℕ) : ℕ := (b + maxCycles - a) % maxCycles

theorem cycleCount_lt {ctr : ℕ} (hc : cycleTimerGetCycles ctr < 8000) :
    cycleCount ctr < maxCycles := by
  have hs := cycleTimerGetSecs_lt ctr
  simp only [cycleCount, maxCycles, cyclesPerSecond]
  omega

theorem cycleTimerToTicks_eq (ctr : ℕ) :
    cycleTimerToTicks ctr = cycleCount ctr * 3072 + cycleTimerGetOffset ctr := by
  simp only [cycleTimerToTicks, cycleCount, ticksPerSecond, cyclesPerSecond, ticksPerCycle]
  omega

/-- `diffCycles` of a cycle number and a cycle field is at most half a second, and right up to
whole seconds. The field has thirteen bits. -/
theorem diffCycles_spec (hx : x < 8000) (hy : y < 8192) :
    -4000 ≤ diffCycles x y ∧ diffCycles x y ≤ 4000 ∧ (y + diffCycles x y) % 8000 = x := by
  simp only [diffCycles, cyclesPerSecond]
  split_ifs <;> omega

/-- Being `d` cycles later means advancing by `d`, with at most one turn. -/
theorem eq_of_cyclesAfter {a b : ℕ} (ha : a < maxCycles) (hb : b < maxCycles) :
    b = (a + cyclesAfter a b) % maxCycles := by
  simp only [cyclesAfter, maxCycles, cyclesPerSecond] at *
  omega

/-- The four bit cycle field recovers any distance below 16: the counter itself
wraps at 8000, which is a multiple of 16. -/
theorem sytCycle_delta (cycle : ℕ) {d : ℕ} (hd : d ≤ 15) :
    (if (cycle + d) % 8000 % 16 < (cycle &&& 0xF) then (cycle + d) % 8000 % 16 + 0x10
      else (cycle + d) % 8000 % 16) - (cycle &&& 0xF) = d := by
  rw [show 0xF = 2 ^ 4 - 1 from rfl, Nat.and_two_pow_sub_one_eq_mod]
  split_ifs <;> omega

theorem wrapAtMaxTicks_eq (h : x < 2 * maxTicks) :
    wrapAtMaxTicks x = x % maxTicks := by
  unfold wrapAtMaxTicks
  split_ifs with hx
  · rw [Nat.mod_eq_sub_mod hx, Nat.mod_eq_of_lt (by omega)]
  · exact (Nat.mod_eq_of_lt (by omega)).symm

/-- Within one turn on either side, the signed wrap is reduction to the ring. -/
theorem wrapAtMinMaxTicks_eq {x : ℤ} (h0 : -maxTicks ≤ x) (h1 : x < 2 * maxTicks) :
    wrapAtMinMaxTicks x = x % maxTicks := by
  have hmax : maxTicks = 3145728000 := rfl
  rw [hmax] at h0 h1
  rw [wrapAtMinMaxTicks, hmax]
  split_ifs <;> omega

/-- Up to two turns of the clock, `addTicks` is addition on the ring. -/
theorem addTicks_eq (h : x + y < 2 * maxTicks) : addTicks x y = (x + y) % maxTicks := by
  have hmax : 2 * maxTicks ≤ 2 ^ 64 := by norm_num [maxTicks, ticksPerSecond]
  rw [addTicks, Nat.mod_eq_of_lt (h.trans_le hmax), wrapAtMaxTicks_eq h]

theorem substractTicks_eq (hx : x < maxTicks) (hy : y ≤ maxTicks) :
    (substractTicks x y : ℤ) = ((x : ℤ) - y) % maxTicks := by
  have hmax : maxTicks = 3145728000 := rfl
  have hbmod : Int.bmod ((x : ℤ) - y) (2 ^ 64) = x - y := by
    rw [Int.bmod_def]
    norm_num
    rw [hmax] at hx hy
    split_ifs <;> omega
  rw [substractTicks, hbmod, wrapAtMinTicks, hmax]
  rw [hmax] at hx hy
  split_ifs <;> omega

theorem sytToFullTicks_ticksToSyt {t cycle seconds d : ℕ} (hc : cycle < 8192)
    (hs : seconds < 128) (hd : d ≤ 15) (ht : ticksToCycles t = (cycle + d) % 8000) :
    sytToFullTicks (ticksToSyt t) cycle seconds =
      ((seconds * 8000 + cycle + d) * 3072 + ticksToOffset t) % maxTicks := by
  have hoff := ticksToOffset_lt t
  have hdelta := sytCycle_delta cycle hd
  have hfield : cycleTimerGetCycles (ticksToSyt t) = (cycle + d) % 8000 % 16 := by
    rw [cycleTimerGetCycles_ticksToSyt, ht]
  have hmax : maxTicks = 3145728000 := rfl
  have hplace : ∀ n, (if n < 8000 then n * ticksPerCycle
      else (n - 8000) * ticksPerCycle + ticksPerSecond) = n * 3072 := by
    intro n
    simp only [ticksPerCycle, ticksPerSecond]
    split_ifs <;> omega
  simp only [sytToFullTicks, cycleTimerGetOffset_ticksToSyt, hfield, hdelta, hplace]
  have hsum : (cycle + d) * 3072 + ticksToOffset t + seconds * ticksPerSecond =
      (seconds * 8000 + cycle + d) * 3072 + ticksToOffset t := by
    simp only [ticksPerSecond]
    omega
  rw [addTicks_eq (by rw [hsum, hmax]; omega), hsum]

/-- A reconstructed time is on the clock, whatever the SYT field and the packet's time are. -/
theorem sytToFullTicks_lt {cycle seconds : ℕ} (syt : ℕ) (hc : cycle < 8192) (hs : seconds < 128) :
    sytToFullTicks syt cycle seconds < maxTicks := by
  have hfield := cycleTimerGetCycles_lt syt
  have hoff := cycleTimerGetOffset_lt syt
  have hmax : maxTicks = 3145728000 := rfl
  unfold sytToFullTicks
  dsimp only
  rw [addTicks_eq]
  · exact Nat.mod_lt _ (by norm_num [hmax])
  · simp only [hmax, ticksPerCycle, ticksPerSecond]
    split_ifs <;> omega

/-- SYT round trip: a time `0` to `15` cycles after the receive cycle survives being
sent as a SYT field, across the wraps of the four bit field, of the cycle counter and
of the seconds. -/
theorem sytRecvToFullTicks2_ticksToSyt (rcvCtr t : ℕ)
    (hc : cycleTimerGetCycles rcvCtr < 8000) (ht : t < maxTicks)
    (hd : cyclesAfter (cycleCount rcvCtr) (t / ticksPerCycle) ≤ 15) :
    sytRecvToFullTicks2 (ticksToSyt t) rcvCtr = t := by
  have hs := cycleTimerGetSecs_lt rcvCtr
  have hcount := cycleCount_lt hc
  have htc : t / ticksPerCycle < maxCycles := by
    simp only [maxTicks, maxCycles, ticksPerCycle, ticksPerSecond, cyclesPerSecond] at *
    omega
  have hpos := eq_of_cyclesAfter hcount htc
  generalize cyclesAfter (cycleCount rcvCtr) (t / ticksPerCycle) = d at hd hpos
  simp only [cycleCount, maxCycles, cyclesPerSecond, ticksPerCycle] at hpos
  have hcyc : ticksToCycles t = (cycleTimerGetCycles rcvCtr + d) % 8000 := by
    simp only [ticksToCycles, ticksPerCycle, cyclesPerSecond]
    omega
  rw [sytRecvToFullTicks2, sytToFullTicks_ticksToSyt (hc.trans (by norm_num)) hs hd hcyc]
  simp only [ticksToOffset, maxTicks, ticksPerSecond, ticksPerCycle] at *
  omega

/-- A receive cycle at the end of second 127, with a timestamp in second 0. -/
theorem sytRecvToFullTicks2_ticksToSyt_wrap :
    sytRecvToFullTicks2 (ticksToSyt (7 * 3072 + 5)) ((127 <<< 25) ||| (7993 <<< 12) ||| 100) =
      7 * 3072 + 5 :=
  sytRecvToFullTicks2_ticksToSyt _ _ (by decide) (by decide) (by decide)

/-- Within half a second, the seconds of `now` are corrected back to those of the
receive instant. -/
theorem recvSeconds_eq {rcvCtr ctrNow : ℕ} (hr : cycleTimerGetCycles rcvCtr < 8000)
    (hn : cycleTimerGetCycles ctrNow < 8000)
    (hd : cyclesAfter (cycleCount rcvCtr) (cycleCount ctrNow) ≤ 3999) :
    (if cycleTimerGetCycles rcvCtr > cycleTimerGetCycles ctrNow ∧
        diffCycles (cycleTimerGetCycles ctrNow) (cycleTimerGetCycles rcvCtr) ≥ 0
      then previousSecond (cycleTimerGetSecs ctrNow) else cycleTimerGetSecs ctrNow) =
      cycleTimerGetSecs rcvCtr := by
  have hsr := cycleTimerGetSecs_lt rcvCtr
  have hsn := cycleTimerGetSecs_lt ctrNow
  have hpos := eq_of_cyclesAfter (cycleCount_lt hr) (cycleCount_lt hn)
  generalize cyclesAfter (cycleCount rcvCtr) (cycleCount ctrNow) = d at hd hpos
  simp only [cycleCount, maxCycles, cyclesPerSecond] at hpos
  generalize cycleTimerGetCycles rcvCtr = cr at *
  generalize cycleTimerGetCycles ctrNow = cn at *
  generalize cycleTimerGetSecs rcvCtr = sr at *
  generalize cycleTimerGetSecs ctrNow = sn at *
  have hdiff : diffCycles cn cr ≥ 0 ↔ ¬ (cn < cr ∧ cr - cn ≤ 4000) := by
    simp only [diffCycles, cyclesPerSecond]
    split_ifs <;> omega
  simp only [hdiff, previousSecond]
  split_ifs <;> omega

/-- The two reconstructions agree: inferring the seconds from a current time up to 3999
cycles after the receive instant gives what the receive CTR itself gives. -/
theorem sytRecvToFullTicks_eq_sytRecvToFullTicks2 (syt rcvCycle rcvCtr ctrNow : ℕ)
    (hcycle : cycleTimerGetCycles rcvCtr = rcvCycle) (hr : rcvCycle < 8000)
    (hn : cycleTimerGetCycles ctrNow < 8000)
    (hd : cyclesAfter (cycleCount rcvCtr) (cycleCount ctrNow) ≤ 3999) :
    sytRecvToFullTicks syt rcvCycle ctrNow = sytRecvToFullTicks2 syt rcvCtr := by
  subst hcycle
  simp only [sytRecvToFullTicks, sytRecvToFullTicks2, recvSeconds_eq hr hn hd]

/-- Received in second 127, looked at in second 0. -/
theorem sytRecvToFullTicks_eq_sytRecvToFullTicks2_wrap :
    sytRecvToFullTicks 0x1234 7000 ((2999 <<< 12) ||| 3000) =
      sytRecvToFullTicks2 0x1234 ((127 <<< 25) ||| (7000 <<< 12)) :=
  sytRecvToFullTicks_eq_sytRecvToFullTicks2 _ _ _ _ (by decide) (by decide) (by decide) (by decide)

end Ffado.CycleTimer
