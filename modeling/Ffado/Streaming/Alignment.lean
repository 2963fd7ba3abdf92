import Ffado.Ieee1394.CycleTimer
import Ffado.Lib.MachineInt

/-!
# Aligning the received streams

`alignReceivedStreams` measures how far each receive stream is from the sync source, averaged over a
number of periods, and shifts the streams until all averages round to zero frames or the tries are
used up. Which of the two has happened is read from the counter of the tries. The counter is zero
when the last try has succeeded, and minus one when it has not, so that the answer is wrong in both
cases (`tellsTruth_iff`).

Measured times, rates and the answers of the other functions are given for every round and every
period. Rates and averages in frames are rationals in place of `float`s.
-/
namespace Ffado.Alignment

open CycleTimer MachineInt

/-- The parameters of the manager; they are `unsigned int`s. -/
structure Manager where
  period : ℕ
  rate : ℕ
  nbBuffers : ℕ
  period_lt : period < 2 ^ 32
  rate_lt : rate < 2 ^ 32

/-- A negative parameter stands for the value that is set. -/
def Manager.streamingParamsOk (m : Manager) (period rate nBuffers : ℤ) : Bool :=
  let period := if period < 0 then i32 m.period else period
  let rate := if rate < 0 then i32 m.rate else rate
  let nBuffers := if nBuffers < 0 then i32 m.nbBuffers else nBuffers
  let minPeriod := if rate < 56000 then 8 else if rate < 112000 then 16 else 32
  if nBuffers < 2 then false else if period < minPeriod then false else true

structure Settings where
  manager : Manager
  accepted : manager.streamingParamsOk (-1) (-1) (-1) = true
  /-- `streaming.spm.align_tries`. -/
  tries : ℕ
  tries_pos : 1 ≤ tries
  /-- `streaming.spm.align_average_time_msec`, an `int`. -/
  averageTimeMsec : ℤ
  /-- The number of receive processors. -/
  receivers : ℕ

/-- The product is formed in `unsigned int`. -/
def Settings.periodsPerAlignTry (s : Settings) : ℕ :=
  (s.averageTimeMsec * s.manager.rate % 2 ^ 32).toNat / 1000 / s.manager.period

structure Measurements where
  waitForPeriod : ℕ → ℕ → Bool
  transferSilence : ℕ → ℕ → Bool
  syncTime : ℕ → ℕ → ℕ
  time : ℕ → ℕ → ℕ → ℕ
  syncTime_lt : ∀ round k, syncTime round k < maxTicks
  time_lt : ∀ round k i, time round k i < maxTicks
  /-- The rate of a stream at the end of a round. -/
  ticksPerFrame : ℕ → ℕ → ℚ
  ticksPerFrame_pos : ∀ round i, 0 < ticksPerFrame round i
  shiftStream : ℕ → ℕ → ℤ → Bool

variable (s : Settings) (m : Measurements)

/-- `roundf`: halves go away from zero. -/
def roundf (q : ℚ) : ℤ := if 0 ≤ q then ⌊q + 1 / 2⌋ else -⌊-q + 1 / 2⌋

def offset (round k i : ℕ) : ℤ := diffTicks (m.syncTime round k) (m.time round k i)

/-- The offsets of a period are taken over in the first period of a round and added in the
others. -/
def collectOffsets (round nbSyncRuns : ℕ) (diffs : ℕ → ℤ) : ℕ → ℤ := fun i =>
  let diff := offset m round (s.periodsPerAlignTry - nbSyncRuns) i
  if nbSyncRuns = s.periodsPerAlignTry then diff else diffs i + diff

/-- The inner loop; `none` is an xrun or a failed transfer. -/
def syncRuns (round : ℕ) : ℕ → (ℕ → ℤ) → Option (ℕ → ℤ)
  | 0, diffs => some diffs
  | nbSyncRuns + 1, diffs =>
    let k := s.periodsPerAlignTry - (nbSyncRuns + 1)
    if ¬ m.waitForPeriod round k then none
    else if ¬ m.transferSilence round k then none
    else syncRuns round nbSyncRuns (collectOffsets s m round (nbSyncRuns + 1) diffs)

inductive RoundResult
  /-- A division by zero. -/
  | undefined
  | failed
  | aligned
  | shifted
  deriving DecidableEq

def averageFrames (round : ℕ) (diffs : ℕ → ℤ) (i : ℕ) : ℤ :=
  roundf (((diffs i).tdiv s.periodsPerAlignTry : ℤ) / m.ticksPerFrame round i)

/-- The streams are only shifted towards the earliest one. -/
def minShift (frames : List ℤ) : ℤ := frames.foldl (fun min f => if f < min then f else min) 9999

def alignRound (memory : ℕ → ℤ) (round : ℕ) : RoundResult :=
  match syncRuns s m round s.periodsPerAlignTry memory with
  | none => .failed
  | some diffs =>
    if s.periodsPerAlignTry = 0 ∧ s.receivers ≠ 0 then .undefined
    else
      let frames := (List.range s.receivers).map (averageFrames s m round diffs)
      if frames.all (· = 0) then .aligned
      else if (List.range s.receivers).all fun i =>
          m.shiftStream round i (averageFrames s m round diffs i - minShift frames) then .shifted
      else .failed

inductive Outcome
  | undefined
  | failed
  /-- The loop is left with a value of the counter, behind a number of rounds. -/
  | left (cnt : ℤ) (rounds : ℕ)
  deriving DecidableEq

/-- The outer loop. The counter is taken down also by the test that ends the loop. -/
def alignLoop (memory : ℕ → ℤ) : ℕ → ℕ → Outcome
  | 0, round => .left (-1) round
  | cnt + 1, round =>
    match alignRound s m memory round with
    | .undefined => .undefined
    | .failed => .failed
    | .aligned => .left cnt (round + 1)
    | .shifted => alignLoop memory cnt (round + 1)

def Outcome.returned : Outcome → Option Bool
  | .undefined => none
  | .failed => some false
  | .left cnt _ => some (cnt ≠ 0)

def alignReceivedStreams (memory : ℕ → ℤ) : Option Bool :=
  (alignLoop s m memory s.tries 0).returned

def exactAverage (round i : ℕ) : ℚ :=
  (∑ k ∈ Finset.range s.periodsPerAlignTry, offset m round k i : ℤ) / s.periodsPerAlignTry

/-- All averages of a round are zero frames. -/
def ExactlyAligned (round : ℕ) : Prop :=
  ∀ i < s.receivers, roundf (exactAverage s m round i / m.ticksPerFrame round i) = 0

/-- The answer is that of the last round, and there was something to average. -/
def TellsTruth (memory : ℕ → ℤ) : Prop :=
  (alignReceivedStreams s m memory = some true ↔
    ∃ cnt round, alignLoop s m memory s.tries 0 = .left cnt (round + 1) ∧
      ExactlyAligned s m round) ∧
    1 ≤ s.periodsPerAlignTry

theorem roundf_eq_zero_iff (q : ℚ) : roundf q = 0 ↔ |q| < 1 / 2 := by
  unfold roundf
  split_ifs with hq
  · rw [Int.floor_eq_zero_iff, Set.mem_Ico, abs_of_nonneg hq]
    constructor
    · rintro ⟨-, hlt⟩
      linarith
    · intro hlt
      constructor <;> linarith
  · rw [neg_eq_zero, Int.floor_eq_zero_iff, Set.mem_Ico, abs_of_neg (not_le.mp hq)]
    constructor
    · rintro ⟨-, hlt⟩
      linarith
    · intro hlt
      constructor <;> linarith

def partialSum (round periods : ℕ) : ℕ → ℤ := fun i =>
  ∑ k ∈ Finset.range periods, offset m round k i

variable {s m}

theorem collectOffsets_eq {round nbSyncRuns : ℕ} {diffs : ℕ → ℤ}
    (hle : nbSyncRuns + 1 ≤ s.periodsPerAlignTry)
    (hdiffs : nbSyncRuns + 1 < s.periodsPerAlignTry →
      diffs = partialSum m round (s.periodsPerAlignTry - (nbSyncRuns + 1))) :
    collectOffsets s m round (nbSyncRuns + 1) diffs =
      partialSum m round (s.periodsPerAlignTry - nbSyncRuns) := by
  have hsucc : s.periodsPerAlignTry - nbSyncRuns = s.periodsPerAlignTry - (nbSyncRuns + 1) + 1 := by
    omega
  funext i
  rw [collectOffsets, hsucc, partialSum, Finset.sum_range_succ]
  split_ifs with hfirst
  · rw [hfirst, Nat.sub_self, Finset.sum_range_zero, zero_add]
  · rw [hdiffs (by omega)]
    rfl

/-- A round that gets through has summed up the offsets of all its periods. -/
theorem syncRuns_eq_some {round nbSyncRuns : ℕ} {diffs sums : ℕ → ℤ}
    (hpos : 0 < s.periodsPerAlignTry) (hle : nbSyncRuns ≤ s.periodsPerAlignTry)
    (hdiffs : nbSyncRuns < s.periodsPerAlignTry →
      diffs = partialSum m round (s.periodsPerAlignTry - nbSyncRuns))
    (h : syncRuns s m round nbSyncRuns diffs = some sums) :
    sums = partialSum m round s.periodsPerAlignTry := by
  induction nbSyncRuns generalizing diffs with
  | zero =>
    rw [← Option.some.inj h]
    exact hdiffs hpos
  | succ n ih =>
    rw [syncRuns] at h
    split_ifs at h
    exact ih (by omega) (fun _ => collectOffsets_eq hle hdiffs) h

theorem abs_tdiv_le (sum : ℤ) {periods : ℕ} (hpos : 0 < periods) :
    |((sum.tdiv periods : ℤ) : ℚ)| ≤ |(sum : ℚ) / periods| := by
  have hperiods : (0 : ℚ) < periods := by exact_mod_cast hpos
  rw [abs_div, abs_of_pos hperiods, le_div_iff₀ hperiods]
  have hle : |sum.tdiv periods| * periods ≤ |sum| := by
    rw [← Int.natCast_natAbs, ← Int.natCast_natAbs, Int.natAbs_tdiv, Int.natAbs_natCast]
    exact_mod_cast Nat.div_mul_le_self _ _
  exact_mod_cast hle

theorem averageFrames_eq_zero {round i : ℕ} (hpos : 0 < s.periodsPerAlignTry)
    (h : roundf (exactAverage s m round i / m.ticksPerFrame round i) = 0) :
    averageFrames s m round (partialSum m round s.periodsPerAlignTry) i = 0 := by
  have hrate := m.ticksPerFrame_pos round i
  rw [roundf_eq_zero_iff, abs_div, abs_of_pos hrate, div_lt_iff₀ hrate] at h
  rw [averageFrames, roundf_eq_zero_iff, abs_div, abs_of_pos hrate, div_lt_iff₀ hrate]
  exact (abs_tdiv_le _ hpos).trans_lt h

variable {memory : ℕ → ℤ}

/-- No shift follows on a round whose averages are all zero frames. -/
theorem not_exactlyAligned_of_shifted {round : ℕ} (hpos : 0 < s.periodsPerAlignTry)
    (h : alignRound s m memory round = .shifted) : ¬ ExactlyAligned s m round := by
  intro hexact
  rw [alignRound] at h
  cases hruns : syncRuns s m round s.periodsPerAlignTry memory with
  | none => simp [hruns] at h
  | some sums =>
    have hsums := syncRuns_eq_some hpos le_rfl (fun hlt => absurd hlt (lt_irrefl _)) hruns
    have hall : ((List.range s.receivers).map (averageFrames s m round sums)).all
      (· = 0) = true := by
      rw [hsums, List.all_map, List.all_eq_true]
      intro i hi
      simpa using averageFrames_eq_zero hpos (hexact i (List.mem_range.mp hi))
    rw [hruns] at h
    dsimp only at h
    rw [if_neg (by omega), if_pos hall] at h
    cases h

theorem alignRound_ne_undefined {round : ℕ} (hpos : 0 < s.periodsPerAlignTry) :
    alignRound s m memory round ≠ .undefined := by
  rw [alignRound]
  cases syncRuns s m round s.periodsPerAlignTry memory with
  | none => simp
  | some sums =>
    dsimp only
    rw [if_neg (by omega)]
    split_ifs <;> simp

theorem alignLoop_of_shifted {cnt round : ℕ}
    (h : ∀ r < cnt, alignRound s m memory (round + r) = .shifted) :
    alignLoop s m memory cnt round = .left (-1) (round + cnt) := by
  induction cnt generalizing round with
  | zero => rfl
  | succ cnt ih =>
    rw [alignLoop, show alignRound s m memory round = .shifted from h 0 (Nat.succ_pos cnt)]
    dsimp only
    rw [ih fun r hr => by rw [Nat.add_assoc, Nat.add_comm 1]; exact h (r + 1) (by omega)]
    congr 1
    omega

theorem alignLoop_of_first {cnt round r : ℕ} (hr : r < cnt)
    (hbefore : ∀ r' < r, alignRound s m memory (round + r') = .shifted) :
    alignLoop s m memory cnt round = alignLoop s m memory (cnt - r) (round + r) := by
  induction r generalizing cnt round with
  | zero => rfl
  | succ r ih =>
    obtain ⟨cnt, rfl⟩ := Nat.exists_eq_succ_of_ne_zero (show cnt ≠ 0 by omega)
    rw [alignLoop, show alignRound s m memory round = .shifted from hbefore 0 (Nat.succ_pos r)]
    dsimp only
    rw [ih (by omega) fun r' hr' => by
      rw [Nat.add_assoc, Nat.add_comm 1]; exact hbefore (r' + 1) (by omega)]
    congr 1 <;> omega

/-- The round at which the loop ends decides about the answer. -/
theorem tellsTruth_iff_of_first {r : ℕ} (hpos : 0 < s.periodsPerAlignTry) (hr : r < s.tries)
    (hbefore : ∀ r' < r, alignRound s m memory r' = .shifted)
    (hlast : alignRound s m memory r ≠ .shifted) :
    TellsTruth s m memory ↔
      alignRound s m memory r = .failed ∨
        alignRound s m memory r = .aligned ∧ (r + 1 < s.tries ↔ ExactlyAligned s m r) := by
  have hloop : alignLoop s m memory s.tries 0 = alignLoop s m memory (s.tries - r - 1 + 1) r := by
    rw [alignLoop_of_first hr fun r' hr' => by rw [Nat.zero_add]; exact hbefore r' hr',
      Nat.zero_add]
    congr 1
    omega
  rw [TellsTruth, alignReceivedStreams, hloop, alignLoop]
  cases hround : alignRound s m memory r with
  | undefined => exact absurd hround (alignRound_ne_undefined hpos)
  | shifted => exact absurd hround hlast
  | failed => simp [Outcome.returned, Nat.one_le_iff_ne_zero, hpos.ne']
  | aligned =>
    have hcnt : ((s.tries - r - 1 : ℕ) : ℤ) ≠ 0 ↔ r + 1 < s.tries := by omega
    simp [Outcome.returned, hcnt, Nat.one_le_iff_ne_zero, hpos.ne']

/-- The answer is right just if there is a period to average over, and of the rounds up to the last
try the first one that does not end in a shift fails, or it ends the loop before the last try and is
aligned exactly, or at the last try and is aligned by the cut off fractions only. -/
theorem tellsTruth_iff (s : Settings) (m : Measurements) (memory : ℕ → ℤ) :
    TellsTruth s m memory ↔
      1 ≤ s.periodsPerAlignTry ∧ ∃ r < s.tries,
        (∀ r' < r, alignRound s m memory r' = .shifted) ∧
          (alignRound s m memory r = .failed ∨
            alignRound s m memory r = .aligned ∧ (r + 1 < s.tries ↔ ExactlyAligned s m r)) := by
  constructor
  · intro h
    have hpos := h.2
    refine ⟨hpos, ?_⟩
    by_cases hall : ∀ r < s.tries, alignRound s m memory r = .shifted
    · -- All tries are used up: the answer is yes, behind a round that was not aligned.
      obtain ⟨last, hlast⟩ := Nat.exists_eq_succ_of_ne_zero (Nat.one_le_iff_ne_zero.mp s.tries_pos)
      have hloop := @alignLoop_of_shifted s m memory s.tries 0 fun r hr => by
        rw [Nat.zero_add]; exact hall r hr
      rw [Nat.zero_add] at hloop
      have htrue : alignReceivedStreams s m memory = some true := by
        rw [alignReceivedStreams, hloop]
        rfl
      obtain ⟨cnt, round, hleft, hexact⟩ := h.1.mp htrue
      rw [hloop, hlast] at hleft
      injection hleft with _ hround
      obtain rfl : last = round := by omega
      exact absurd hexact (not_exactlyAligned_of_shifted hpos (hall last (by omega)))
    · push Not at hall
      have hfirst := Nat.find_spec hall
      refine ⟨Nat.find hall, hfirst.1, fun r' hr' => ?_, ?_⟩
      · have hnot := Nat.find_min hall hr'
        push Not at hnot
        exact hnot (hr'.trans hfirst.1)
      · refine (tellsTruth_iff_of_first hpos hfirst.1 (fun r' hr' => ?_) hfirst.2).mp h
        have hnot := Nat.find_min hall hr'
        push Not at hnot
        exact hnot (hr'.trans hfirst.1)
  · rintro ⟨hpos, r, hr, hbefore, hlast⟩
    refine (tellsTruth_iff_of_first hpos hr hbefore ?_).mpr hlast
    rcases hlast with hlast | ⟨hlast, -⟩ <;> simp [hlast]

/-- At 48 kHz, with the default averaging time, a single try and a single stream. -/
def singleTry (period : ℕ) (hperiod : 32 ≤ period ∧ period < 2 ^ 31) : Settings where
  manager := ⟨period, 48000, 2, by omega, by norm_num⟩
  accepted := by
    have hcast : i32 period = period := i32_of_range (by omega) (by omega)
    have hrate : i32 48000 = 48000 := by decide
    have hbuffers : i32 2 = 2 := by decide
    simp [Manager.streamingParamsOk, hcast, hrate, hbuffers]
    omega
  tries := 1
  tries_pos := le_rfl
  averageTimeMsec := 400
  receivers := 1

/-- A stream that is always the same number of ticks behind the sync source. -/
def constantOffset (ticks : ℕ) (hticks : ticks < maxTicks) : Measurements where
  waitForPeriod _ _ := true
  transferSilence _ _ := true
  syncTime _ _ := ticks
  time _ _ _ := 0
  syncTime_lt _ _ := hticks
  time_lt _ _ _ := by decide
  ticksPerFrame _ _ := 512
  ticksPerFrame_pos _ _ := by norm_num
  shiftStream _ _ _ := true

/-- An aligned stream is refused at the last try, one that is two frames off is accepted, and with a
period longer than the averaging time there is a division by zero. -/
theorem answers_wrong :
    (alignReceivedStreams (singleTry 8192 (by decide))
      (constantOffset 0 (by decide)) 0 = some false ∧ ExactlyAligned (singleTry 8192 (by decide))
        (constantOffset 0 (by decide)) 0) ∧
    (alignReceivedStreams (singleTry 8192 (by decide)) (constantOffset 1024 (by decide)) 0 =
        some true ∧
      ¬ ExactlyAligned (singleTry 8192 (by decide)) (constantOffset 1024 (by decide)) 0) ∧
    (alignReceivedStreams (singleTry 32768 (by decide))
      (constantOffset 0 (by decide)) 0 = none) := by
  refine ⟨⟨by decide +kernel, ?_⟩, ⟨by decide +kernel, ?_⟩, by decide +kernel⟩
  · unfold ExactlyAligned
    decide +kernel
  · unfold ExactlyAligned
    decide +kernel

end Ffado.Alignment
