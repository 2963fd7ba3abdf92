import Ffado.Ieee1394.CycleTimer
import Ffado.Lib.MachineInt

/-!
# The packet interface of an ISO handler

`putPacket` passes a received packet on to the client, with the time of the packet and the
cycles that were dropped before it. `getPacket` is called by the kernel interface for each cycle
that needs a packet and passes the request on to the client, with the time of the packet and the
number of cycles that were dropped since the last accepted one. A client may defer a cycle; then
`lastCycle` stays and `deferredCycles` counts the cycle.

The second half follows sequences of calls. `Phase` tells how the two counters stand to the
cycle of the previous call, and `Steady` which sequences keep the reported numbers right.
The counter of the deferred cycles is not cleared when a cycle is accepted at last, so a real
drop after a deferral is reported too small.
-/
namespace Ffado

open CycleTimer MachineInt

/-- `raw1394_iso_disposition`. -/
inductive Disposition
  | ok
  | defer
  | error
  | stop
  | stopNosync
  | again
  deriving DecidableEq, Repr

/-- The client has not taken the cycle. -/
def Disposition.Defers (d : Disposition) : Prop := d = .defer ∨ d = .again

instance (d : Disposition) : Decidable d.Defers := inferInstanceAs (Decidable (_ ∨ _))

structure IsoHandler where
  lastCycle : ℤ
  lastNow : ℕ
  packets : ℕ
  bufPackets : ℕ
  lastPacketHandledAt : ℕ
  deferredCycles : ℕ

/-- What the client is given. The source passes `droppedCycles` as an `unsigned int`. -/
structure PacketRequest where
  pktCtr : ℕ
  droppedCycles : ℤ
  skipped : ℕ
  deriving DecidableEq, Repr

/-- What the client of a receive handler is given with a packet. -/
structure PacketReceipt where
  pktCtr : ℕ
  droppedCycles : ℤ
  deriving DecidableEq, Repr

namespace IsoHandler

/-- A transmit handler as constructed. -/
def new (bufPackets : ℕ) : IsoHandler where
  lastCycle := -1
  lastNow := 0xFFFFFFFF
  packets := 0
  bufPackets := bufPackets
  lastPacketHandledAt := 0xFFFFFFFF
  deferredCycles := 0

/-- The values that `enable` resets before the handler is started. -/
def enable (h : IsoHandler) : IsoHandler :=
  { h with
    packets := 0
    lastCycle := -1
    lastNow := 0xFFFFFFFF
    lastPacketHandledAt := 0xFFFFFFFF }

/-- `iterate` stores the time at which it was called. -/
def iterate (h : IsoHandler) (cycleTimerNow : ℕ) : IsoHandler := { h with lastNow := cycleTimerNow }

/-- The time of a packet, reconstructed from the last `iterate`. -/
def pktCtrOf (lastNow : ℕ) (cycle : ℤ) : ℕ :=
  let diff := diffCycles cycle (cycleTimerGetCycles lastNow)
  let tmp := (cycleTimerToTicks lastNow : ℤ) + diff * ticksPerCycle
  u32 (ticksToCycleTimer (wrapAtMinMaxTicks tmp % 2 ^ 64).toNat)

def droppedCycles (h : IsoHandler) (cycle : ℤ) (skipped : ℕ) : ℤ × ℕ :=
  let deferred := if h.lastCycle = -1 then 0 else h.deferredCycles
  if h.lastCycle ≠ cycle ∧ h.lastCycle ≠ -1 then
    let dropped := i32 (diffCycles cycle h.lastCycle - 1 - skipped)
    if dropped = 0 then (dropped, 0) else (i32 (dropped - deferred), deferred)
  else (0, deferred)

def getPacket (h : IsoHandler) (cycle : ℤ) (skipped : ℕ)
    (client : Option (PacketRequest → Disposition)) :
    IsoHandler × Option PacketRequest × Disposition :=
  let pktCtr := if cycle < 0 then 0xFFFFFFFF else pktCtrOf h.lastNow cycle
  let (dropped, deferred) := h.droppedCycles cycle skipped
  let seen : IsoHandler :=
    { h with
      lastPacketHandledAt := if h.packets < h.bufPackets then 0xFFFFFFFF else pktCtr
      packets := u32 (h.packets + 1)
      deferredCycles := deferred }
  match client with
  | some answer =>
    let request : PacketRequest := ⟨pktCtr, dropped, skipped⟩
    let retval := answer request
    let after :=
      if cycle ≥ 0 then
        if ¬ retval.Defers then { seen with lastCycle := cycle }
        else { seen with deferredCycles := u32 (deferred + 1) }
      else seen
    (after, some request, retval)
  | none => (if cycle ≥ 0 then { seen with lastCycle := cycle } else seen, none, .ok)

/-- One received packet. `missedCyclesOK` is the manager's flag that gaps are normal. -/
def putPacket (h : IsoHandler) (missedCyclesOK : Bool) (cycle : ℕ)
    (client : Option (PacketReceipt → Disposition)) :
    IsoHandler × Option PacketReceipt × Disposition :=
  let dropped :=
    if h.lastCycle ≠ cycle ∧ h.lastCycle ≠ -1 ∧ missedCyclesOK = false then
      i32 (diffCycles cycle h.lastCycle - 1)
    else 0
  let pktCtr := pktCtrOf h.lastNow cycle
  let seen : IsoHandler :=
    { h with
      lastCycle := cycle
      lastPacketHandledAt := pktCtr
      packets := u32 (h.packets + 1) }
  match client with
  | some answer =>
    let receipt : PacketReceipt := ⟨pktCtr, dropped⟩
    (seen, some receipt, answer receipt)
  | none => (seen, none, .ok)

/-- A call that comes `gap` cycles after the previous one, and the client's answer to it. -/
structure Call where
  gap : ℕ
  answer : Disposition
  deriving DecidableEq, Repr

def Call.cycle (call : Call) (prev : ℕ) : ℕ := (prev + call.gap) % cyclesPerSecond

/-- The dropped cycles that the client is told in a call, none if it is not called. -/
def told (h : IsoHandler) (cycle : ℕ) (answer : Disposition) : Option ℤ :=
  (h.getPacket cycle 0 (some fun _ => answer)).2.1.map (·.droppedCycles)

def reported (h : IsoHandler) (prev : ℕ) : List Call → List (Option ℤ)
  | [] => []
  | call :: calls =>
    h.told (call.cycle prev) call.answer ::
      reported (h.getPacket (call.cycle prev) 0 (some fun _ => call.answer)).1 (call.cycle prev)
        calls

/-- The cycles between two calls that were never presented to the handler. -/
def missed (call : Call) : Option ℤ := some (call.gap - 1)

/-- How the counters stand after a call at cycle `prev`. -/
inductive Phase
  /-- No cycle has been accepted yet. -/
  | idle
  /-- The last call was accepted and no deferral is on the books. -/
  | fresh
  /-- The last call was accepted, after deferrals that are still on the books. -/
  | stale
  /-- Since the accepted cycle `last` there were `n` calls, one each cycle, all deferred. -/
  | pending (last n : ℕ)
  /-- A call that came after a drop was deferred. -/
  | lost
  deriving DecidableEq, Repr

namespace Phase

/-- The next call is reported correctly if it comes after this gap. For pending cycles the
distance to `last` has to be one that `diffCycles` still sees as positive. -/
def Allows : Phase → ℕ → Prop
  | idle, gap => gap = 1
  | fresh, _ => True
  | stale, gap => gap = 1
  | pending last n, gap => n + gap < 4000 ∨ n + gap = 4000 ∧ last < 4000
  | lost, _ => False

instance : (ph : Phase) → (gap : ℕ) → Decidable (ph.Allows gap)
  | idle, gap | stale, gap => inferInstanceAs (Decidable (gap = 1))
  | fresh, _ => inferInstanceAs (Decidable True)
  | pending _ _, _ => inferInstanceAs (Decidable (_ ∨ _))
  | lost, _ => inferInstanceAs (Decidable False)

def next (ph : Phase) (prev gap : ℕ) (d : Disposition) : Phase :=
  if ¬ d.Defers then
    match ph with
    | idle | fresh | stale => fresh
    | pending _ _ => stale
    | lost => lost
  else
    match ph with
    | idle => idle
    | fresh | stale => if gap = 1 then pending prev 1 else lost
    | pending last n => if gap = 1 then pending last (n + 1) else lost
    | lost => lost

def Describes (ph : Phase) (prev : ℕ) (h : IsoHandler) : Prop :=
  match ph with
  | idle => h.lastCycle = -1
  | fresh => h.lastCycle = prev ∧ h.deferredCycles = 0
  | stale => h.lastCycle = prev ∧ 0 < h.deferredCycles ∧ h.deferredCycles ≤ 4000
  | pending last n => h.lastCycle = last ∧ last < 8000 ∧ prev = (last + n) % 8000 ∧
      h.deferredCycles = n ∧ 0 < n ∧ n ≤ 4000
  | lost => ∃ last n : ℕ, h.lastCycle = last ∧ last < 8000 ∧ prev = (last + n) % 8000 ∧
      h.deferredCycles < n ∧ n ≤ 4000

end Phase

/-- Every call of the sequence comes after a gap that the phase before it allows. -/
def Steady (ph : Phase) (prev : ℕ) : List Call → Prop
  | [] => True
  | call :: calls =>
    ph.Allows call.gap ∧ Steady (ph.next prev call.gap call.answer) (call.cycle prev) calls

instance Steady.decidable : (ph : Phase) → (prev : ℕ) → (calls : List Call) →
    Decidable (Steady ph prev calls)
  | _, _, [] => inferInstanceAs (Decidable True)
  | ph, prev, call :: calls =>
    have := Steady.decidable (ph.next prev call.gap call.answer) (call.cycle prev) calls
    inferInstanceAs (Decidable (_ ∧ _))

theorem diffCycles_forward {last x : ℕ} (hl : last < 8000) (hx : x < 8000) :
    diffCycles ((last + x) % 8000 : ℕ) last =
      if x < 4000 ∨ x = 4000 ∧ last < 4000 then (x : ℤ) else x - 8000 := by
  simp only [diffCycles, cyclesPerSecond]
  split_ifs <;> omega

/-- The value and the counter for a cycle that lies `x` after the last accepted one. -/
theorem droppedCycles_forward {h : IsoHandler} {last x : ℕ} (hlast : h.lastCycle = last)
    (hl : last < 8000) (hx0 : 0 < x) (hx : x < 8000) (hd : h.deferredCycles ≤ 4000) :
    h.droppedCycles ((last + x) % 8000 : ℕ) 0 =
      if x = 1 then (0, 0)
      else if x < 4000 ∨ x = 4000 ∧ last < 4000 then
        ((x : ℤ) - 1 - h.deferredCycles, h.deferredCycles)
      else ((x : ℤ) - 8001 - h.deferredCycles, h.deferredCycles) := by
  have hdiff := diffCycles_forward hl hx
  have hne : (last : ℤ) ≠ ((last + x) % 8000 : ℕ) := by omega
  have hpos : ¬ (last : ℤ) = -1 := by omega
  simp only [droppedCycles, hlast, hdiff, ne_eq, hne, not_false_eq_true, hpos, and_self, if_true,
    if_false]
  have hi : ∀ y : ℤ, -8000 ≤ y → y ≤ 8000 → i32 y = y := fun y h0 h1 =>
    i32_of_range (by omega) (by omega)
  by_cases h1 : x = 1
  · subst h1
    simp [i32]
  · rw [if_neg h1]
    by_cases hfwd : x < 4000 ∨ x = 4000 ∧ last < 4000
    · rw [if_pos hfwd, if_pos hfwd, hi _ (by omega) (by omega), if_neg (by omega),
        hi _ (by omega) (by omega)]
      simp
    · rw [if_neg hfwd, if_neg hfwd, hi _ (by omega) (by omega), if_neg (by omega),
        i32_of_range (by omega) (by omega)]
      simp only [Prod.mk.injEq, and_true]
      omega

theorem getPacket_counters (h : IsoHandler) (cycle : ℕ) (skipped : ℕ) (d : Disposition) :
    (h.getPacket cycle skipped (some fun _ => d)).1.lastCycle =
        (if d.Defers then h.lastCycle else cycle) ∧
      (h.getPacket cycle skipped (some fun _ => d)).1.deferredCycles =
        (if d.Defers then u32 ((h.droppedCycles cycle skipped).2 + 1)
          else (h.droppedCycles cycle skipped).2) := by
  have hpos : (cycle : ℤ) ≥ 0 := Int.natCast_nonneg cycle
  by_cases hd : d.Defers <;> simp [getPacket, hpos, hd]

theorem told_eq (h : IsoHandler) (cycle : ℕ) (d : Disposition) :
    h.told cycle d = some (h.droppedCycles cycle 0).1 := rfl

def Phase.Tracks (ph : Phase) (prev : ℕ) (h : IsoHandler) (call : Call) : Prop :=
  (h.told (call.cycle prev) call.answer = missed call ↔ ph.Allows call.gap) ∧
    (ph.Allows call.gap → (ph.next prev call.gap call.answer).Describes (call.cycle prev)
      (h.getPacket (call.cycle prev) 0 (some fun _ => call.answer)).1)

section Step

variable {prev : ℕ} {h : IsoHandler} {call : Call}

theorem idle_tracks (hph : Phase.idle.Describes prev h) : Phase.idle.Tracks prev h call := by
  obtain ⟨hlast, hdef⟩ := h.getPacket_counters (call.cycle prev) 0 call.answer
  have hdrop : h.droppedCycles (call.cycle prev) 0 = (0, 0) := by
    simp [droppedCycles, show h.lastCycle = -1 from hph]
  rw [hdrop] at hdef
  constructor
  · rw [told_eq, hdrop]
    simp only [missed, Option.some.injEq, Phase.Allows]
    omega
  · intro _
    by_cases hd : call.answer.Defers
    · simpa [Phase.next, Phase.Describes, hd, hlast] using hph
    · simpa [Phase.next, Phase.Describes, hd, hdef] using hlast

variable (hpos : 0 < call.gap) (hgap : call.gap < 4000)
include hpos hgap

theorem pending_tracks {last n : ℕ} (hph : (Phase.pending last n).Describes prev h) :
    (Phase.pending last n).Tracks prev h call := by
  obtain ⟨hl, hlt, hp, hdn, hn0, hn1⟩ := hph
  obtain ⟨hlast, hdef⟩ := h.getPacket_counters (call.cycle prev) 0 call.answer
  have hcycle : call.cycle prev = (last + (n + call.gap)) % 8000 := by
    simp only [Call.cycle, cyclesPerSecond]
    omega
  have hdrop := droppedCycles_forward (x := n + call.gap) hl hlt (by omega) (by omega) (by omega)
  rw [← hcycle, if_neg (by omega), hdn] at hdrop
  constructor
  · rw [told_eq, hdrop]
    simp only [missed, Option.some.injEq, Phase.Allows]
    split_ifs with hfwd <;> simp [hfwd] <;> omega
  · intro hallow
    have hfwd : n + call.gap < 4000 ∨ n + call.gap = 4000 ∧ last < 4000 := hallow
    have hu : u32 (n + 1) = n + 1 := u32_of_lt (by omega)
    rw [hdrop, if_pos hfwd] at hdef
    by_cases hd : call.answer.Defers
    · simp only [hd, if_true, hu] at hlast hdef
      by_cases h1 : call.gap = 1
      · simp only [Phase.next, hd, h1, not_true_eq_false, if_false, if_true]
        exact ⟨hlast.trans hl, hlt, by rw [hcycle, h1], hdef, by omega, by omega⟩
      · simp only [Phase.next, hd, h1, not_true_eq_false, if_false]
        exact ⟨last, n + call.gap, hlast.trans hl, hlt, hcycle, by omega, by omega⟩
    · simp only [hd, if_false] at hlast hdef
      simp only [Phase.next, hd, not_false_eq_true, if_true]
      exact ⟨hlast, by omega, by omega⟩

theorem lost_tracks (hph : Phase.lost.Describes prev h) : Phase.lost.Tracks prev h call := by
  obtain ⟨last, n, hl, hlt, hp, hdn, hn1⟩ := hph
  have hcycle : call.cycle prev = (last + (n + call.gap)) % 8000 := by
    simp only [Call.cycle, cyclesPerSecond]
    omega
  have hdrop := droppedCycles_forward (x := n + call.gap) hl hlt (by omega) (by omega) (by omega)
  rw [← hcycle, if_neg (by omega)] at hdrop
  refine ⟨?_, False.elim⟩
  rw [told_eq, hdrop]
  simp only [missed, Option.some.injEq, Phase.Allows, iff_false]
  split_ifs <;> simp <;> omega

variable (hprev : prev < 8000)
include hprev

theorem fresh_tracks (hph : Phase.fresh.Describes prev h) : Phase.fresh.Tracks prev h call := by
  obtain ⟨hl, hz⟩ := hph
  obtain ⟨hlast, hdef⟩ := h.getPacket_counters (call.cycle prev) 0 call.answer
  have hdrop := droppedCycles_forward hl hprev hpos (by omega) (by omega)
  rw [if_pos (Or.inl hgap), hz] at hdrop
  have hzero : (h.droppedCycles (call.cycle prev) 0).2 = 0 := by
    rw [Call.cycle, cyclesPerSecond, hdrop]
    split_ifs <;> rfl
  rw [hzero] at hdef
  constructor
  · rw [told_eq, Call.cycle, cyclesPerSecond, hdrop]
    simp only [missed, Option.some.injEq, Phase.Allows, iff_true]
    split_ifs with h1
    · simp [h1]
    · simp
  · intro _
    by_cases hd : call.answer.Defers
    · simp only [hd, if_true] at hlast hdef
      by_cases h1 : call.gap = 1
      · simp only [Phase.next, hd, h1, not_true_eq_false, if_false, if_true]
        exact ⟨hlast.trans hl, hprev, by rw [Call.cycle, h1]; rfl, hdef, by omega, by omega⟩
      · simp only [Phase.next, hd, h1, not_true_eq_false, if_false]
        exact ⟨prev, call.gap, hlast.trans hl, hprev, rfl, by rw [hdef]; simp [u32]; omega,
          by omega⟩
    · simp [Phase.next, Phase.Describes, hd, hlast, hdef]

theorem stale_tracks (hph : Phase.stale.Describes prev h) : Phase.stale.Tracks prev h call := by
  obtain ⟨hl, hd0, hd1⟩ := hph
  obtain ⟨hlast, hdef⟩ := h.getPacket_counters (call.cycle prev) 0 call.answer
  have hdrop := droppedCycles_forward hl hprev hpos (by omega) hd1
  rw [if_pos (Or.inl hgap)] at hdrop
  constructor
  · rw [told_eq, Call.cycle, cyclesPerSecond, hdrop]
    simp only [missed, Option.some.injEq, Phase.Allows]
    split_ifs with h1
    · simp [h1]
    · simp only [h1, iff_false]
      omega
  · intro hallow
    have h1 : call.gap = 1 := hallow
    have hzero : (h.droppedCycles (call.cycle prev) 0).2 = 0 := by
      rw [Call.cycle, cyclesPerSecond, hdrop, if_pos h1]
    rw [hzero] at hdef
    by_cases hd : call.answer.Defers
    · simp only [hd, if_true] at hlast hdef
      simp only [Phase.next, hd, h1, not_true_eq_false, if_false, if_true]
      exact ⟨hlast.trans hl, hprev, by rw [Call.cycle, h1]; rfl, hdef, by omega, by omega⟩
    · simp [Phase.next, Phase.Describes, hd, hlast, hdef]

theorem Phase.Describes.tracks {ph : Phase} (hph : ph.Describes prev h) :
    ph.Tracks prev h call := by
  cases ph with
  | idle => exact idle_tracks hph
  | fresh => exact fresh_tracks hpos hgap hprev hph
  | stale => exact stale_tracks hpos hgap hprev hph
  | pending last n => exact pending_tracks hpos hgap hph
  | lost => exact lost_tracks hpos hgap hph

end Step

theorem Phase.Describes.reported_iff {ph : Phase} {prev : ℕ} {h : IsoHandler}
    (hph : ph.Describes prev h) (hprev : prev < 8000) {calls : List Call}
    (hgaps : ∀ call ∈ calls, 0 < call.gap ∧ call.gap < 4000) :
    h.reported prev calls = calls.map missed ↔ Steady ph prev calls := by
  induction calls generalizing ph prev h with
  | nil => simp [reported, Steady]
  | cons call calls ih =>
    obtain ⟨⟨hpos, hgap⟩, hrest⟩ := List.forall_mem_cons.mp hgaps
    obtain ⟨hvalue, hnext⟩ := hph.tracks hpos hgap hprev
    have hcycle : call.cycle prev < 8000 := Nat.mod_lt _ (by decide)
    simp only [reported, Steady, List.map_cons, List.cons.injEq, hvalue]
    exact and_congr_right fun hallow => ih (hnext hallow) hcycle hrest

/-- A sequence of requests to an enabled handler, the first one at cycle `first`. The first
request is always told that nothing was dropped. Each later one is told the cycles since the
previous request that the handler was never asked for, exactly if the sequence is steady: a
deferred request comes directly after the previous one, unless nothing follows it; the request
after an accepted one that ended a row of deferrals comes directly after it; a row of deferrals
spans less than half a second; and before the first accepted request there are no gaps. -/
theorem reported_dropped_iff_steady (h : IsoHandler) (first : ℕ) (answer : Disposition)
    (calls : List Call) (hfirst : first < 8000)
    (hgaps : ∀ call ∈ calls, 0 < call.gap ∧ call.gap < 4000) :
    h.enable.told first answer = some 0 ∧
      ((h.enable.getPacket first 0 (some fun _ => answer)).1.reported first calls =
          calls.map missed ↔
        Steady (if answer.Defers then .idle else .fresh) first calls) := by
  have hdrop : h.enable.droppedCycles first 0 = (0, 0) := by simp [droppedCycles, enable]
  obtain ⟨hlast, hdef⟩ := h.enable.getPacket_counters first 0 answer
  rw [hdrop] at hdef
  refine ⟨by rw [told_eq, hdrop], Phase.Describes.reported_iff ?_ hfirst hgaps⟩
  by_cases hd : answer.Defers
  · simpa [hd, Phase.Describes, enable] using hlast
  · simpa [hd, Phase.Describes, hdef] using hlast

/-- Deferrals in a row, then an accepted request and one directly after it, then a drop. -/
theorem reported_dropped_iff_steady_deferrals :
    ((new 16).enable.getPacket 10 0 (some fun _ => .ok)).1.reported 10
        [⟨1, .defer⟩, ⟨1, .again⟩, ⟨3, .ok⟩, ⟨1, .ok⟩, ⟨5, .ok⟩] =
      [⟨1, .defer⟩, ⟨1, .again⟩, ⟨3, .ok⟩, ⟨1, .ok⟩, ⟨5, .ok⟩].map missed :=
  (reported_dropped_iff_steady (new 16) 10 .ok _ (by decide) (by decide)).2.mpr (by decide)

/-- Cycle 11 is deferred, 12 accepted, and 13 and 14 are never asked for: the request for 15 is
told that one cycle was dropped. -/
theorem reported_too_small_after_deferral :
    ((new 16).enable.getPacket 10 0 (some fun _ => .ok)).1.reported 10
        [⟨1, .defer⟩, ⟨1, .ok⟩, ⟨3, .ok⟩] = [some 0, some 0, some 1] ∧
      [⟨1, .defer⟩, ⟨1, .ok⟩, ⟨3, .ok⟩].map missed = [some 0, some 0, some 2] := by
  decide +kernel

end IsoHandler
end Ffado
