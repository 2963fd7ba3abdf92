import Ffado.Lib.LabelledRun
import Ffado.Lib.WrappedTime
import Ffado.Util.TimestampedBuffer

/-!
# Timestamps on the ring

The buffer's clock wraps at `m_wrap_at`. Every timestamp that is stored or handed out is meant
to be a point of `[0, m_wrap_at)`, and the error that drives the delay-locked loop is meant to
be the signed difference of two such points. The corrections that the source applies are one
turn each, written out at every place, and some are missing or have the wrong sign. This module
says which inputs come out right.
-/
namespace Ffado.TimestampedBuffer

open WrappedTime LabelledRun MachineInt

variable (tb : TimestampedBuffer)

/-- A time that the buffer's clock shows. -/
def OnRing (ts : ℚ) : Prop := 0 ≤ ts ∧ ts < tb.wrapAt

instance (ts : ℚ) : Decidable (tb.OnRing ts) := inferInstanceAs (Decidable (_ ∧ _))

/-- The end of `calculateRate`: a rate that is more than a tenth off counts as the nominal one. -/
def plausibleRate (rate : ℚ) : ℚ :=
  if |tb.nominalRate - rate| > tb.nominalRate * (1 / 10) then tb.nominalRate else rate

/-- The correction in `calculateRate`. -/
def shorterWay (diff : ℚ) : ℚ :=
  if diff > tb.wrapAt / 2 then diff - tb.wrapAt
  else if diff < -(tb.wrapAt / 2) then diff + tb.wrapAt
  else diff

def periodEstimate (newTimestamp : ℚ) : Option (ℚ × ℚ) :=
  (tb.incrementFrameCounter tb.updatePeriod newTimestamp).map fun tb' =>
    (tb'.dllE2, tb'.currentRate)

/-- The next tail after an advance by `d`: it is wrapped at the upper end only. -/
def nextTail (d : ℚ) : ℚ :=
  if tb.bufferNextTailTimestamp + d ≥ tb.wrapAt then tb.bufferNextTailTimestamp + d - tb.wrapAt
  else tb.bufferNextTailTimestamp + d

/-- The advance of the prediction in an update with the given error. -/
def advance (err : ℚ) : ℚ := tb.dllB * err + tb.dllE2

theorem incrementFrameCounter_eq {nbframes : ℕ} {ts : ℚ}
    (h : ts < tb.wrapAt ∧ ts ≥ 0 ∧ nbframes = tb.updatePeriod) :
    tb.incrementFrameCounter nbframes ts = some { tb with
      framecounter := i32 (tb.framecounter + nbframes)
      bufferTailTimestamp := tb.bufferNextTailTimestamp
      bufferNextTailTimestamp := tb.nextTail (tb.advance (tb.dllError ts))
      dllE2 := tb.dllE2 + tb.dllC * tb.dllError ts
      currentRate := tb.plausibleRate (tb.shorterWay
        (tb.nextTail (tb.advance (tb.dllError ts)) - tb.bufferNextTailTimestamp) /
          tb.updatePeriod) } := by
  simp only [incrementFrameCounter, if_pos h]
  rfl

theorem periodEstimate_eq {ts : ℚ} (h : tb.OnRing ts) :
    tb.periodEstimate ts = some (tb.dllE2 + tb.dllC * tb.dllError ts,
      tb.plausibleRate (tb.shorterWay (tb.nextTail (tb.advance (tb.dllError ts)) -
        tb.bufferNextTailTimestamp) / tb.updatePeriod)) := by
  rw [periodEstimate, tb.incrementFrameCounter_eq ⟨h.2, h.1, rfl⟩]
  rfl

section Ring

variable {tb} (hW : 0 < tb.wrapAt) (hnext : tb.OnRing tb.bufferNextTailTimestamp) {new : ℚ}
include hnext

/-- The period that comes out of an advance does not depend on where the prediction stands, but
for an advance of exactly half a turn. -/
theorem shorterWay_nextTail {d : ℚ} (hd : d ≠ tb.wrapAt / 2) :
    tb.shorterWay (tb.nextTail d - tb.bufferNextTailTimestamp) =
      if d ≥ tb.wrapAt then tb.shorterWay (d - tb.wrapAt) else tb.shorterWay d := by
  obtain ⟨h0, h1⟩ := hnext
  have hne := lt_or_gt_of_ne hd
  simp only [shorterWay, nextTail]
  split_ifs <;> first | linarith | (rcases hne with hlt | hgt <;> linarith)

/-- Half a turn is taken forwards or backwards, depending on where the prediction stands. -/
theorem shorterWay_nextTail_half :
    tb.shorterWay (tb.nextTail (tb.wrapAt / 2) - tb.bufferNextTailTimestamp) =
      if tb.bufferNextTailTimestamp ≥ tb.wrapAt / 2 then -(tb.wrapAt / 2) else tb.wrapAt / 2 := by
  obtain ⟨h0, h1⟩ := hnext
  simp only [shorterWay, nextTail]
  split_ifs <;> linarith

/-- The error of the loop: a difference above half a turn gets the wrong sign, and exactly half
a turn backwards is not turned around. -/
theorem dllError_eq (hnew : tb.OnRing new) : tb.dllError new =
    if new - tb.bufferNextTailTimestamp > tb.wrapAt / 2 then
      -signedDiff hW new tb.bufferNextTailTimestamp
    else if new - tb.bufferNextTailTimestamp = -(tb.wrapAt / 2) then -(tb.wrapAt / 2)
    else signedDiff hW new tb.bufferNextTailTimestamp := by
  obtain ⟨hlow, hhigh⟩ := signedDiff_mem hW new tb.bufferNextTailTimestamp
  have hcases := sub_eq_signedDiff_or hW hnew hnext
  generalize signedDiff hW new tb.bufferNextTailTimestamp = r at *
  simp only [dllError]
  rcases hcases with h | ⟨h, hr⟩ | ⟨h, hr⟩
  · split_ifs <;> linarith
  · rw [h]
    split_ifs with h1 h2 h3 h3
    · linarith
    · linarith
    · ring
    · exact h3
    · exact absurd (by linarith : r - tb.wrapAt = -(tb.wrapAt / 2)) h3
  · split_ifs <;> linarith

end Ring

noncomputable def movedBy (hW : 0 < tb.wrapAt) (s : ℚ) : TimestampedBuffer :=
  { tb with
    bufferTailTimestamp := wrap hW (tb.bufferTailTimestamp + s)
    bufferNextTailTimestamp := wrap hW (tb.bufferNextTailTimestamp + s) }

/-- The new timestamp is the predicted one, or less than half a turn after it. -/
def Ahead (new : ℚ) : Prop :=
  (0 ≤ new - tb.bufferNextTailTimestamp ∧
      new - tb.bufferNextTailTimestamp < tb.wrapAt / 2) ∨
    new - tb.bufferNextTailTimestamp < -(tb.wrapAt / 2)

section Moved

variable {tb} (hW : 0 < tb.wrapAt) (hnext : tb.OnRing tb.bufferNextTailTimestamp) {new : ℚ}

theorem movedBy_onRing (s : ℚ) :
    (tb.movedBy hW s).OnRing (tb.movedBy hW s).bufferNextTailTimestamp := wrap_mem hW _

theorem signedDiff_movedBy (s : ℚ) :
    signedDiff hW (wrap hW (new + s)) (tb.movedBy hW s).bufferNextTailTimestamp =
      signedDiff hW new tb.bufferNextTailTimestamp :=
  signedDiff_wrap_add hW _ _ _

include hnext

theorem ahead_iff (hnew : tb.OnRing new) :
    tb.Ahead new ↔ 0 ≤ signedDiff hW new tb.bufferNextTailTimestamp ∧
      signedDiff hW new tb.bufferNextTailTimestamp < tb.wrapAt / 2 := by
  obtain ⟨hlow, hhigh⟩ := signedDiff_mem hW new tb.bufferNextTailTimestamp
  have hcases := sub_eq_signedDiff_or hW hnew hnext
  constructor
  · rintro (⟨h0, h1⟩ | h0) <;> rcases hcases with h | ⟨h, hr⟩ | ⟨h, hr⟩ <;>
      constructor <;> linarith
  · rintro ⟨h0, h1⟩
    rcases hcases with h | ⟨h, hr⟩ | ⟨h, hr⟩
    · exact .inl ⟨by linarith, by linarith⟩
    · exact .inr (by linarith)
    · linarith

theorem dllError_of_ahead (hnew : tb.OnRing new) (h : tb.Ahead new) :
    tb.dllError new = signedDiff hW new tb.bufferNextTailTimestamp := by
  rw [dllError_eq hW hnext hnew]
  rcases h with ⟨h0, h1⟩ | h0
  · rw [if_neg (by linarith), if_neg (by linarith)]
  · rw [if_neg (by linarith), if_neg (by linarith)]

theorem dllError_movedBy_of_ahead (hnew : tb.OnRing new) (h : tb.Ahead new) (s : ℚ) :
    (tb.movedBy hW s).dllError (wrap hW (new + s)) =
      signedDiff hW new tb.bufferNextTailTimestamp := by
  have hring := movedBy_onRing hW s
  have hmem : (tb.movedBy hW s).OnRing (wrap hW (new + s)) := wrap_mem hW _
  rw [ahead_iff hW hnext hnew, ← signedDiff_movedBy hW s] at h
  have hW' : 0 < (tb.movedBy hW s).wrapAt := hW
  have hahead := (ahead_iff hW' hring hmem).mpr h
  rw [dllError_of_ahead hW' hring hmem hahead]
  exact signedDiff_movedBy hW s

/-- Any other timestamp has a move that changes the error: the one that puts the earlier of the
two times at the seam. -/
theorem exists_dllError_movedBy_ne (hnew : tb.OnRing new) (h : ¬ tb.Ahead new) :
    ∃ s, (tb.movedBy hW s).dllError (wrap hW (new + s)) ≠ tb.dllError new := by
  have hzero : ∀ t, wrap hW (t + -t) = 0 := fun t => by
    rw [add_neg_cancel]
    exact wrap_of_mem hW le_rfl hW
  obtain ⟨hlow, hhigh⟩ := signedDiff_mem hW new tb.bufferNextTailTimestamp
  have hcases := sub_eq_signedDiff_or hW hnew hnext
  rw [ahead_iff hW hnext hnew, not_and_or, not_le, not_lt] at h
  have hself : ∀ s, (tb.movedBy hW s).dllError (wrap hW (new + s)) =
      { tb with bufferNextTailTimestamp := wrap hW (tb.bufferNextTailTimestamp + s) }.dllError
        (wrap hW (new + s)) := fun s => rfl
  by_cases hlate : new < tb.bufferNextTailTimestamp
  · refine ⟨-tb.bufferNextTailTimestamp, ?_⟩
    rw [hself, hzero, wrap_of_neg hW (by linarith [hnew.1, hnext.2]) (by linarith)]
    simp only [dllError]
    rcases hcases with hd | ⟨hd, hr⟩ | ⟨hd, hr⟩ <;> split_ifs <;> intro heq <;>
      rcases h with h | h <;> linarith
  · refine ⟨-new, ?_⟩
    have hne : new ≠ tb.bufferNextTailTimestamp := by
      rcases hcases with hd | ⟨hd, hr⟩ | ⟨hd, hr⟩ <;> rcases h with h | h <;> linarith
    have hlt : tb.bufferNextTailTimestamp < new := lt_of_le_of_ne (not_lt.mp hlate) hne.symm
    rw [hself, hzero, wrap_of_neg hW (by linarith [hnew.2, hnext.1]) (by linarith)]
    simp only [dllError]
    rcases hcases with hd | ⟨hd, hr⟩ | ⟨hd, hr⟩ <;> split_ifs <;> intro heq <;>
      rcases h with h | h <;> linarith

theorem periodEstimate_movedBy (hnew : tb.OnRing new) (h : tb.Ahead new) (s : ℚ) :
    (tb.movedBy hW s).periodEstimate (wrap hW (new + s)) =
      some (tb.dllE2 + tb.dllC * signedDiff hW new tb.bufferNextTailTimestamp,
        tb.plausibleRate ((tb.movedBy hW s).shorterWay ((tb.movedBy hW s).nextTail
          (tb.advance (signedDiff hW new tb.bufferNextTailTimestamp)) -
            (tb.movedBy hW s).bufferNextTailTimestamp) / tb.updatePeriod)) := by
  have hmem : (tb.movedBy hW s).OnRing (wrap hW (new + s)) := wrap_mem hW _
  rw [periodEstimate_eq _ hmem, dllError_movedBy_of_ahead hW hnext hnew h]
  rfl

/-- An advance of exactly half a turn counts forwards or backwards, depending on the seam. This
makes no difference if both readings give the same rate. -/
def HalfTurnSafe (tb : TimestampedBuffer) (advance : ℚ) : Prop :=
  advance = tb.wrapAt / 2 →
    tb.plausibleRate (tb.wrapAt / 2 / tb.updatePeriod) =
      tb.plausibleRate (-(tb.wrapAt / 2) / tb.updatePeriod)

theorem periodEstimate_movedBy_iff (hnew : tb.OnRing new) (h : tb.Ahead new) :
    (∀ s, (tb.movedBy hW s).periodEstimate (wrap hW (new + s)) = tb.periodEstimate new) ↔
      tb.HalfTurnSafe (tb.advance (signedDiff hW new tb.bufferNextTailTimestamp)) := by
  have hmoved := periodEstimate_movedBy hW hnext hnew h
  rw [periodEstimate_eq _ hnew, dllError_of_ahead hW hnext hnew h]
  simp only [hmoved, Option.some.injEq, Prod.mk.injEq, true_and]
  generalize tb.advance (signedDiff hW new tb.bufferNextTailTimestamp) = d
  have hring := movedBy_onRing hW
  by_cases hd : d = tb.wrapAt / 2
  · subst hd
    have hhalf : ∀ s, (tb.movedBy hW s).shorterWay ((tb.movedBy hW s).nextTail (tb.wrapAt / 2) -
        (tb.movedBy hW s).bufferNextTailTimestamp) =
        if (tb.movedBy hW s).bufferNextTailTimestamp ≥ tb.wrapAt / 2 then -(tb.wrapAt / 2)
        else tb.wrapAt / 2 := fun s => shorterWay_nextTail_half (hring s)
    have hself := shorterWay_nextTail_half hnext
    simp only [hhalf, hself, HalfTurnSafe, forall_const]
    constructor
    · intro hall
      have hlow := hall (-tb.bufferNextTailTimestamp)
      have hhigh := hall (tb.wrapAt / 2 - tb.bufferNextTailTimestamp)
      have hzero : (tb.movedBy hW (-tb.bufferNextTailTimestamp)).bufferNextTailTimestamp = 0 := by
        rw [movedBy, add_neg_cancel]
        exact wrap_of_mem hW le_rfl hW
      have hmid :
        (tb.movedBy hW (tb.wrapAt / 2 - tb.bufferNextTailTimestamp)).bufferNextTailTimestamp
          = tb.wrapAt / 2 := by
        rw [movedBy, add_sub_cancel]
        exact wrap_of_mem hW (by linarith) (by linarith)
      rw [hzero, if_neg (by linarith)] at hlow
      rw [hmid, if_pos le_rfl] at hhigh
      rw [hlow, hhigh]
    · intro hsafe s
      split_ifs <;> simp only [hsafe]
  · have hany : ∀ s, (tb.movedBy hW s).shorterWay ((tb.movedBy hW s).nextTail d -
        (tb.movedBy hW s).bufferNextTailTimestamp) =
        tb.shorterWay (tb.nextTail d - tb.bufferNextTailTimestamp) := by
      intro s
      rw [shorterWay_nextTail hnext hd]
      exact shorterWay_nextTail (hring s) hd
    simp [hany, HalfTurnSafe, hd]

end Moved

/-- The error of the loop is the signed difference unless the new timestamp is numerically more
than half a turn above the prediction or exactly half a turn below it. Error and estimate
survive every move of the clock just if the new timestamp is at the prediction or less than
half a turn after it on the ring, and no update advances by half a turn. -/
theorem dllError_eq_signedDiff_iff (tb : TimestampedBuffer) (new : ℚ) (hW : 0 < tb.wrapAt)
    (hnext : tb.OnRing tb.bufferNextTailTimestamp) (hnew : tb.OnRing new) :
    (tb.dllError new = signedDiff hW new tb.bufferNextTailTimestamp ↔
      new - tb.bufferNextTailTimestamp ≤ tb.wrapAt / 2 ∧
        new - tb.bufferNextTailTimestamp ≠ -(tb.wrapAt / 2)) ∧
    ((∀ s, (tb.movedBy hW s).dllError (wrap hW (new + s)) = tb.dllError new ∧
        (tb.movedBy hW s).periodEstimate (wrap hW (new + s)) = tb.periodEstimate new) ↔
      tb.Ahead new ∧
        tb.HalfTurnSafe (tb.advance (signedDiff hW new tb.bufferNextTailTimestamp))) := by
  constructor
  · obtain ⟨hlow, hhigh⟩ := signedDiff_mem hW new tb.bufferNextTailTimestamp
    have hcases := sub_eq_signedDiff_or hW hnew hnext
    rw [dllError_eq hW hnext hnew]
    split_ifs with habove hbelow
    · constructor
      · intro heq
        rcases hcases with h | ⟨h, hr⟩ | ⟨h, hr⟩ <;> linarith
      · rintro ⟨hle, -⟩
        linarith
    · constructor
      · intro heq
        linarith
      · rintro ⟨-, hne⟩
        exact absurd hbelow hne
    · exact ⟨fun _ => ⟨not_lt.mp habove, hbelow⟩, fun _ => rfl⟩
  · constructor
    · intro hall
      have hahead : tb.Ahead new := by
        by_contra hnot
        obtain ⟨s, hs⟩ := exists_dllError_movedBy_ne hW hnext hnew hnot
        exact hs (hall s).1
      exact ⟨hahead, (periodEstimate_movedBy_iff hW hnext hnew hahead).mp fun s => (hall s).2⟩
    · rintro ⟨hahead, hsafe⟩ s
      constructor
      · rw [dllError_movedBy_of_ahead hW hnext hnew hahead, dllError_of_ahead hW hnext hnew hahead]
      · exact (periodEstimate_movedBy_iff hW hnext hnew hahead).mpr hsafe s

/-- A buffer that has just passed the seam: frames of 512 ticks, eight of them to an update. -/
def seamBuffer : TimestampedBuffer :=
  { new with
    wrapAt := timestampMax
    bufferTailTimestamp := 3145724904
    bufferNextTailTimestamp := 1000
    nominalRate := 512
    currentRate := 512
    dllE2 := 4096
    updatePeriod := 8 }

theorem dllError_eq_signedDiff_iff_seamBuffer :
    ∃ hW : 0 < seamBuffer.wrapAt, seamBuffer.dllError 1500 = signedDiff hW 1500 1000 := by
  have hW : 0 < seamBuffer.wrapAt := by decide +kernel
  have hiff := (dllError_eq_signedDiff_iff seamBuffer 1500 hW (by decide +kernel)
    (by decide +kernel)).1
  exact ⟨hW, hiff.mpr (by decide +kernel)⟩

/-- A timestamp 100 ticks before the seam where 1000 ticks after it was predicted: the loop is
told to be 1100 ticks late instead of early. Away from the seam the same distance is counted
right. -/
theorem dllError_wrong_sign :
    ∃ hW : 0 < seamBuffer.wrapAt,
      seamBuffer.OnRing 1000 ∧ seamBuffer.OnRing 3145727900 ∧
      seamBuffer.dllError 3145727900 = 1100 ∧ signedDiff hW 3145727900 1000 = -1100 ∧
      (seamBuffer.movedBy hW 2000).dllError (wrap hW (3145727900 + 2000)) = -1100 := by
  have hW : 0 < seamBuffer.wrapAt := by decide +kernel
  have hmax : seamBuffer.wrapAt = 3145728000 := rfl
  have hnew : wrap hW (3145727900 + 2000) = 1900 :=
    (wrap_eq_iff hW).mpr ⟨by rw [hmax]; norm_num, 1, by rw [hmax]; norm_num⟩
  have hnext : wrap hW (1000 + 2000) = 3000 :=
    (wrap_eq_iff hW).mpr ⟨by rw [hmax]; norm_num, 0, by norm_num⟩
  refine ⟨hW, by decide +kernel, by decide +kernel, by decide +kernel, ?_, ?_⟩
  · exact (signedDiff_eq_iff hW).mpr ⟨by rw [hmax]; norm_num, 1, by rw [hmax]; norm_num⟩
  · have hmoved : (seamBuffer.movedBy hW 2000).bufferNextTailTimestamp = 3000 := hnext
    have hwrap : (seamBuffer.movedBy hW 2000).wrapAt = 3145728000 := rfl
    rw [hnew, dllError, hmoved, hwrap]
    norm_num

/-- The operations that set, move or count against the timestamps. -/
inductive TimingOp
  | setBufferTailTimestamp (newTimestamp : ℚ)
  | setBufferHeadTimestamp (newTimestamp : ℚ)
  | setRate (rate : ℚ)
  | writeFrames (nframes : ℕ) (data : ℕ → UInt8) (ts : ℚ)
  | preloadFrames (nframes : ℕ) (data : ℕ → UInt8) (keepHeadTs : Bool)
  | readFrames (nframes : ℕ) (data : ℕ → UInt8)
  | dropFrames (nframes : ℕ)

/-- The buffer after an operation, whatever the operation returns; `none` if it aborts. -/
def timingStep : TimingOp → Option TimestampedBuffer
  | .setBufferTailTimestamp ts => some (tb.setBufferTailTimestamp ts)
  | .setBufferHeadTimestamp ts => some (tb.setBufferHeadTimestamp ts)
  | .setRate rate => some (tb.setRate rate)
  | .writeFrames nframes data ts => (tb.writeFrames nframes data ts).map (·.1)
  | .preloadFrames nframes data keep => (tb.preloadFrames nframes data keep).map (·.1)
  | .readFrames nframes data => (tb.readFrames nframes data).map (·.1)
  | .dropFrames nframes => (tb.dropFrames nframes).map (·.1)

/-- The buffer spans less than a turn of the clock, and so does an update period. -/
def WithinTurn : Prop :=
  tb.currentRate * tb.framecounter < tb.wrapAt ∧ tb.currentRate * tb.updatePeriod < tb.wrapAt

instance : Decidable tb.WithinTurn := inferInstanceAs (Decidable (_ ∧ _))

/-- The tail that `preloadFrames` restarts the loop from. -/
def preloadTail (nframes : ℕ) (keepHeadTs : Bool) : ℚ :=
  if keepHeadTs then
    tb.wrapTimestamp (tb.getBufferHeadTimestamp.1 +
      tb.currentRate * (tb.framecounter + nframes : ℤ))
  else tb.bufferTailTimestamp

/-- An operation that keeps the timestamps on the ring. The setters and `preloadFrames` predict
the next tail as the tail plus one period, without wrapping it: the period must not cross the
seam. In a transparent write the rate may go up to a tenth above the nominal one. The loop wraps
its prediction at the upper end only. Rates and counters are not negative. -/
def KeepsTime : TimingOp → Prop
  | .setBufferTailTimestamp ts => tb.OnRing ts ∧ ts + tb.updatePeriod * tb.currentRate < tb.wrapAt
  | .setBufferHeadTimestamp ts => tb.OnRing ts ∧
    tb.wrapTimestamp (ts + tb.currentRate * tb.framecounter) + tb.updatePeriod * tb.currentRate <
      tb.wrapAt
  | .setRate rate => 0 ≤ rate ∧ tb.bufferTailTimestamp + tb.updatePeriod * rate < tb.wrapAt
  | .writeFrames nframes _ ts => tb.framecounter + nframes < 2 ^ 31 ∧
    if tb.transparent then
      tb.OnRing ts ∧ ts + tb.updatePeriod * tb.currentRate < tb.wrapAt ∧
        ts + tb.updatePeriod * (tb.nominalRate * (11 / 10)) < tb.wrapAt
    else
      0 ≤ tb.bufferNextTailTimestamp + tb.advance (tb.dllError ts) ∧
        tb.bufferNextTailTimestamp + tb.advance (tb.dllError ts) < 2 * tb.wrapAt
  | .preloadFrames nframes _ keep => tb.framecounter + nframes < 2 ^ 31 ∧
    tb.preloadTail nframes keep + tb.updatePeriod * tb.currentRate < tb.wrapAt
  | .readFrames nframes _ => nframes ≤ tb.framecounter
  | .dropFrames nframes => nframes ≤ tb.framecounter

/-- The counter is an `int` and, with the rates, not negative. -/
structure Metered : Prop where
  wrapAt_pos : 0 < tb.wrapAt
  framecounter_nonneg : 0 ≤ tb.framecounter
  framecounter_lt : tb.framecounter < 2 ^ 31
  currentRate_nonneg : 0 ≤ tb.currentRate
  nominalRate_nonneg : 0 ≤ tb.nominalRate

structure Timed : Prop extends tb.Metered where
  tail_onRing : tb.OnRing tb.bufferTailTimestamp
  next_onRing : tb.OnRing tb.bufferNextTailTimestamp

/-- All timestamps that the buffer stores or hands out are on the ring. -/
structure ReportsOnRing : Prop where
  stored_tail : tb.OnRing tb.bufferTailTimestamp
  stored_next : tb.OnRing tb.bufferNextTailTimestamp
  head : tb.OnRing tb.getBufferHeadTimestamp.1
  tail : tb.OnRing tb.getBufferTailTimestamp.1

section Run

variable {tb} {tb' : TimestampedBuffer}

variable {nframes : ℕ} {ts : ℚ}

/-- One correction is enough within a turn on either side. -/
theorem wrapTimestamp_onRing (h0 : -tb.wrapAt ≤ ts) (h1 : ts < 2 * tb.wrapAt) :
    tb.OnRing (tb.wrapTimestamp ts) := by
  unfold OnRing wrapTimestamp
  split_ifs <;> constructor <;> linarith

theorem wrapTimestamp_of_onRing (h : tb.OnRing ts) : tb.wrapTimestamp ts = ts := by
  rw [wrapTimestamp, if_neg (not_le.mpr h.2), if_neg (not_lt.mpr h.1)]

theorem plausibleRate_mem (h : 0 ≤ tb.nominalRate) (rate : ℚ) :
    0 ≤ tb.plausibleRate rate ∧ tb.plausibleRate rate ≤ tb.nominalRate * (11 / 10) := by
  unfold plausibleRate
  split_ifs with hfar
  · constructor <;> linarith
  · obtain ⟨hlow, hhigh⟩ := abs_le.mp (not_lt.mp hfar)
    constructor <;> linarith

theorem Metered.span_nonneg (h : tb.Metered) : 0 ≤ tb.currentRate * tb.framecounter :=
  mul_nonneg h.currentRate_nonneg (by exact_mod_cast h.framecounter_nonneg)

theorem Metered.period_nonneg (h : tb.Metered) : 0 ≤ tb.updatePeriod * tb.currentRate :=
  mul_nonneg (Nat.cast_nonneg _) h.currentRate_nonneg

theorem Metered.restartAt (h : tb.Metered) {tail : ℚ} (htail : tb.OnRing tail)
    (hperiod : tail + tb.updatePeriod * tb.currentRate < tb.wrapAt) : (tb.restartAt tail).Timed :=
  { h with
    tail_onRing := htail
    next_onRing := ⟨add_nonneg htail.1 h.period_nonneg, hperiod⟩ }

theorem Metered.setBufferTailTimestamp (h : tb.Metered) (hts : tb.OnRing ts)
    (hperiod : ts + tb.updatePeriod * tb.currentRate < tb.wrapAt) :
    (tb.setBufferTailTimestamp ts).Timed := by
  rw [TimestampedBuffer.setBufferTailTimestamp, wrapTimestamp_of_onRing hts]
  exact h.restartAt hts hperiod

theorem Metered.setBufferHeadTimestamp (h : tb.Metered) (hts : tb.OnRing ts)
    (hturn : tb.currentRate * tb.framecounter < tb.wrapAt)
    (hperiod : tb.wrapTimestamp (ts + tb.currentRate * tb.framecounter) +
      tb.updatePeriod * tb.currentRate < tb.wrapAt)
    : (tb.setBufferHeadTimestamp ts).Timed := by
  have hspan := h.span_nonneg
  apply h.restartAt _ hperiod
  apply wrapTimestamp_onRing
  · linarith [hts.1, h.wrapAt_pos]
  · linarith [hts.2]

theorem Timed.count (h : tb.Timed) (eventBuffer : Option Ringbuffer) {count : ℤ} (h0 : 0 ≤ count)
    (h1 : count < 2 ^ 31) :
    { tb with eventBuffer := eventBuffer, framecounter := count }.Timed :=
  { h with framecounter_nonneg := h0, framecounter_lt := h1 }

theorem Timed.eventBuffer (h : tb.Timed) (eventBuffer : Option Ringbuffer) :
    { tb with eventBuffer := eventBuffer }.Timed :=
  h.count eventBuffer h.framecounter_nonneg h.framecounter_lt

theorem Timed.taken (h : tb.Timed) (eventBuffer : Option Ringbuffer)
    (hn : nframes ≤ tb.framecounter) : ({ tb with eventBuffer := eventBuffer }.decrementFrameCounter
      nframes).Timed := by
  have hlt := h.framecounter_lt
  have hleft : i32 (tb.framecounter - nframes) = tb.framecounter - nframes :=
    i32_of_range (by omega) (by omega)
  have hnonneg : 0 ≤ i32 (tb.framecounter - nframes) := by omega
  exact h.count eventBuffer hnonneg (by omega : i32 (tb.framecounter - nframes) < 2 ^ 31)

theorem Metered.incrementFrameCounter (h : tb.Metered) {nbframes : ℕ}
    (hcount : tb.framecounter + nbframes < 2 ^ 31)
    (hinc : tb.incrementFrameCounter nbframes ts = some tb') :
    tb'.Metered ∧ tb'.framecounter = tb.framecounter + nbframes ∧
      tb'.currentRate ≤ tb.nominalRate * (11 / 10) ∧
      tb'.bufferTailTimestamp = tb.bufferNextTailTimestamp ∧
      tb'.bufferNextTailTimestamp = tb.nextTail (tb.advance (tb.dllError ts)) ∧
      tb'.wrapAt = tb.wrapAt ∧ tb'.updatePeriod = tb.updatePeriod := by
  obtain ⟨hassert, -⟩ := incrementFrameCounter_spec hinc
  rw [tb.incrementFrameCounter_eq hassert] at hinc
  cases hinc
  have hrate := plausibleRate_mem h.nominalRate_nonneg (tb.shorterWay
    (tb.nextTail (tb.advance (tb.dllError ts)) - tb.bufferNextTailTimestamp) / tb.updatePeriod)
  have hlow := h.framecounter_nonneg
  have hexact := i32_of_range (by omega) hcount
  have hnonneg : 0 ≤ i32 (tb.framecounter + nbframes) := by omega
  have hlt : i32 (tb.framecounter + nbframes) < 2 ^ 31 := by omega
  exact ⟨⟨h.wrapAt_pos, hnonneg, hlt, hrate.1, h.nominalRate_nonneg⟩, hexact, hrate.2, rfl, rfl,
    rfl, rfl⟩

theorem Timed.writeFrames (h : tb.Timed) {data : ℕ → UInt8} {result : Bool}
    (hkeeps : tb.KeepsTime (.writeFrames nframes data ts))
    (hwrite : tb.writeFrames nframes data ts = some (tb', result)) : tb'.Timed := by
  obtain ⟨hcount, hkeeps⟩ := hkeeps
  unfold TimestampedBuffer.writeFrames at hwrite
  dsimp only at hwrite
  by_cases hmode : tb.transparent
  · rw [if_pos hmode] at hkeeps hwrite
    obtain ⟨hts, hperiod, hnominal⟩ := hkeeps
    split_ifs at hwrite with hset
    · obtain ⟨counted, hinc, hrest⟩ := Option.bind_eq_some_iff.mp hwrite
      cases hrest
      obtain ⟨hmetered, hfc, hrate, -, -, hwrap, hupdate⟩ :=
        h.toMetered.incrementFrameCounter hcount hinc
      have hback : (counted.decrementFrameCounter nframes).framecounter = tb.framecounter := by
        rw [decrementFrameCounter, hfc, add_sub_cancel_right]
        have := h.framecounter_nonneg
        exact i32_of_range (by omega) h.framecounter_lt
      have hdecremented : (counted.decrementFrameCounter nframes).Metered :=
        { hmetered with
          framecounter_nonneg := hback ▸ h.framecounter_nonneg
          framecounter_lt := hback ▸ h.framecounter_lt }
      have hts' : (counted.decrementFrameCounter nframes).OnRing ts := by
        rw [OnRing, show (counted.decrementFrameCounter nframes).wrapAt = tb.wrapAt from hwrap]
        exact hts
      apply hdecremented.setBufferTailTimestamp hts'
      have hstretch : (tb.updatePeriod : ℚ) * counted.currentRate ≤
          tb.updatePeriod * (tb.nominalRate * (11 / 10)) :=
        mul_le_mul_of_nonneg_left hrate (Nat.cast_nonneg _)
      change ts + counted.updatePeriod * counted.currentRate < counted.wrapAt
      rw [hupdate, hwrap]
      linarith
    · cases hwrite
      exact h.toMetered.setBufferTailTimestamp hts hperiod
  · rw [if_neg hmode] at hkeeps hwrite
    obtain ⟨rb, -, hwrite⟩ := Option.bind_eq_some_iff.mp hwrite
    split_ifs at hwrite with hshort
    · cases hwrite
      exact h.eventBuffer _
    · obtain ⟨counted, hinc, hrest⟩ := Option.bind_eq_some_iff.mp hwrite
      cases hrest
      obtain ⟨hmetered, -, -, htail, hnext, hwrap, -⟩ :=
        (h.eventBuffer (some (rb.write data (tb.transferSize
          nframes)).1)).toMetered.incrementFrameCounter hcount hinc
      refine { hmetered with tail_onRing := ?_, next_onRing := ?_ }
      · rw [htail, OnRing, hwrap]
        exact h.next_onRing
      · have hring : tb.OnRing (tb.nextTail (tb.advance (tb.dllError ts))) := by
          unfold OnRing nextTail
          split_ifs <;> constructor <;> linarith [hkeeps.1, hkeeps.2]
        rw [hnext, OnRing, hwrap]
        exact hring

theorem Timed.getBufferTailTimestamp_eq (h : tb.Timed) :
    tb.getBufferTailTimestamp.1 = tb.bufferTailTimestamp := by
  simp [getBufferTailTimestamp, getTimestampFromTail, wrapTimestamp_of_onRing h.tail_onRing]

/-- The timestamps handed out stay on the ring with the stored ones. -/
theorem Timed.reportsOnRing (h : tb.Timed) (hturn : tb.WithinTurn) : tb.ReportsOnRing := by
  have hspan := h.span_nonneg
  have hturn := hturn.1
  have htail := h.tail_onRing
  refine ⟨h.tail_onRing, h.next_onRing, ?_, ?_⟩
  · apply wrapTimestamp_onRing
    · linarith [htail.1]
    · linarith [htail.2]
  · rw [h.getBufferTailTimestamp_eq]
    exact htail

theorem Timed.preloadFrames (h : tb.Timed) (hturn : tb.WithinTurn) {data : ℕ → UInt8}
    {keep result : Bool} (hkeeps : tb.KeepsTime (.preloadFrames nframes data keep))
    (hpreload : tb.preloadFrames nframes data keep = some (tb', result)) (hturn' : tb'.WithinTurn) :
    tb'.Timed := by
  obtain ⟨hcount, hkeeps⟩ := hkeeps
  have hreports := h.reportsOnRing hturn
  obtain ⟨rb, -, hrest⟩ := Option.bind_eq_some_iff.mp hpreload
  dsimp only at hrest
  split_ifs at hrest with hshort hkeep
  · cases hrest
    exact h.eventBuffer _
  all_goals
    have hlow := h.framecounter_nonneg
    have hexact := i32_of_range (by omega) hcount
    have hcounted := (h.count (some (rb.write data (tb.transferSize nframes)).1)
      (by omega : 0 ≤ i32 (tb.framecounter + nframes)) (by omega)).toMetered
    cases hrest
  · rw [preloadTail, if_pos hkeep, ← hexact] at hkeeps
    exact hcounted.setBufferHeadTimestamp hreports.head hturn'.1 hkeeps
  · rw [preloadTail, if_neg hkeep, ← h.getBufferTailTimestamp_eq] at hkeeps
    exact hcounted.setBufferTailTimestamp hreports.tail hkeeps

/-- Every operation that meets its condition keeps the timestamps on the ring. -/
theorem Timed.step (h : tb.Timed) (hturn : tb.WithinTurn) {op : TimingOp}
    (hstep : Guarded KeepsTime timingStep tb op tb') (hturn' : tb'.WithinTurn) : tb'.Timed := by
  obtain ⟨hkeeps, hstep⟩ := hstep
  cases op with
  | setBufferTailTimestamp ts =>
    cases hstep
    exact h.toMetered.setBufferTailTimestamp hkeeps.1 hkeeps.2
  | setBufferHeadTimestamp ts =>
    cases hstep
    exact h.toMetered.setBufferHeadTimestamp hkeeps.1 hturn.1 hkeeps.2
  | setRate rate =>
    cases hstep
    have hperiod : 0 ≤ (tb.updatePeriod : ℚ) * rate := mul_nonneg (Nat.cast_nonneg _) hkeeps.1
    exact
      { h with
        currentRate_nonneg := hkeeps.1
        next_onRing := ⟨add_nonneg h.tail_onRing.1 hperiod, hkeeps.2⟩ }
  | writeFrames nframes data ts =>
    obtain ⟨⟨_, _⟩, hwrite, rfl⟩ := Option.map_eq_some_iff.mp hstep
    exact h.writeFrames hkeeps hwrite
  | preloadFrames nframes data keep =>
    obtain ⟨⟨_, _⟩, hpreload, rfl⟩ := Option.map_eq_some_iff.mp hstep
    exact h.preloadFrames hturn hkeeps hpreload hturn'
  | readFrames nframes data =>
    obtain ⟨⟨_, _⟩, hread, rfl⟩ := Option.map_eq_some_iff.mp hstep
    unfold TimestampedBuffer.readFrames at hread
    dsimp only at hread
    split_ifs at hread with hmode
    · cases hread
      exact h
    · obtain ⟨rb, -, hrest⟩ := Option.bind_eq_some_iff.mp hread
      split_ifs at hrest with hshort
      · cases hrest
        exact h.eventBuffer _
      · cases hrest
        exact h.taken _ hkeeps
  | dropFrames nframes =>
    obtain ⟨⟨_, _⟩, hdrop, rfl⟩ := Option.map_eq_some_iff.mp hstep
    obtain ⟨rb, -, hrest⟩ := Option.bind_eq_some_iff.mp hdrop
    cases hrest
    exact h.taken _ hkeeps

/-- Along every run of operations that meet their conditions, on a buffer that spans less than a
turn, all timestamps that are stored or handed out are on the ring. -/
theorem timestamps_stay_on_ring (tb tb' : TimestampedBuffer) (ops : List TimingOp) (h : tb.Timed)
    (hturn : tb.WithinTurn)
    (hrun : Run (fun s op s' => Guarded KeepsTime timingStep s op s' ∧ s'.WithinTurn) tb ops tb') :
    tb'.ReportsOnRing := by
  have hinv : tb'.Timed ∧ tb'.WithinTurn := by
    apply hrun.invariant (fun s => s.Timed ∧ s.WithinTurn) _ ⟨h, hturn⟩
    intro s op s' hs hstep
    exact ⟨hs.1.step hs.2 hstep.1 hstep.2, hstep.2⟩
  exact hinv.1.reportsOnRing hinv.2

end Run

def idleBuffer : TimestampedBuffer :=
  { seamBuffer with
    eventBuffer := Ringbuffer.create 16 fun _ => 0
    bufferTailTimestamp := 0
    bufferNextTailTimestamp := 4096
    eventSize := 1
    eventsPerFrame := 1
    bufferSize := 16
    transparent := false }

theorem idleBuffer_timed : idleBuffer.Timed where
  wrapAt_pos := by decide +kernel
  framecounter_nonneg := by decide
  framecounter_lt := by decide
  currentRate_nonneg := by decide +kernel
  nominalRate_nonneg := by decide +kernel
  tail_onRing := by decide +kernel
  next_onRing := by decide +kernel

theorem timestamps_stay_on_ring_idleBuffer :
    ∃ tb', Run (fun s op s' => Guarded KeepsTime timingStep s op s' ∧ s'.WithinTurn) idleBuffer
        [.setBufferTailTimestamp 1000, .setRate 500, .writeFrames 8 (fun _ => 0) 5000] tb' ∧
      tb'.ReportsOnRing := by
  have hwrite : (timingStep ((idleBuffer.setBufferTailTimestamp 1000).setRate 500)
      (.writeFrames 8 (fun _ => 0) 5000)).map (fun tb' => decide tb'.WithinTurn) = some true := by
    decide +kernel
  obtain ⟨tb', hstep, hturn⟩ := Option.map_eq_some_iff.mp hwrite
  have hrun : Run (fun s op s' => Guarded KeepsTime timingStep s op s' ∧ s'.WithinTurn) idleBuffer
      [.setBufferTailTimestamp 1000, .setRate 500, .writeFrames 8 (fun _ => 0) 5000] tb' := by
    refine .cons ⟨⟨⟨by decide +kernel, by decide +kernel⟩, rfl⟩, by decide +kernel⟩ ?_
    refine .cons ⟨⟨⟨by decide +kernel, by decide +kernel⟩, rfl⟩, by decide +kernel⟩ ?_
    refine .cons ⟨⟨⟨by decide +kernel, ?_⟩, hstep⟩, of_decide_eq_true hturn⟩ (.nil _)
    exact (if_neg (by decide)).mpr ⟨by decide +kernel, by decide +kernel⟩
  exact ⟨tb', hrun, timestamps_stay_on_ring idleBuffer tb' _ idleBuffer_timed
    (by decide +kernel) hrun⟩

/-- The prediction of a tail 96 ticks before the seam is not wrapped, and the next write makes
it the tail. -/
theorem tail_leaves_ring :
    idleBuffer.ReportsOnRing ∧ ∃ tb',
      Run (Guarded (fun tb _ => tb.WithinTurn) timingStep) idleBuffer
        [.setBufferTailTimestamp (timestampMax - 96), .writeFrames 8 (fun _ => 0) 4000] tb' ∧
      tb'.WithinTurn ∧ tb'.bufferTailTimestamp = tb'.wrapAt + 4000 := by
  refine ⟨idleBuffer_timed.reportsOnRing (by decide +kernel), ?_⟩
  have hend : ([.setBufferTailTimestamp (timestampMax - 96),
    .writeFrames 8 (fun _ => 0) 4000].foldlM
      (checked (fun tb (_ : TimingOp) => tb.WithinTurn) timingStep) idleBuffer).map (fun tb' =>
        decide (tb'.WithinTurn ∧ tb'.bufferTailTimestamp = tb'.wrapAt + 4000)) = some true := by
    decide +kernel
  obtain ⟨tb', hfold, hgood⟩ := Option.map_eq_some_iff.mp hend
  exact ⟨tb', run_of_checked hfold, of_decide_eq_true hgood⟩

section Head

variable {tb} {tb' : TimestampedBuffer}

end Head

end Ffado.TimestampedBuffer
