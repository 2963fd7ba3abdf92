import Ffado.Streaming.StreamProcessor

/-!
# Waiting for the processors to change state

The loops of `startDryRunning`, `stop` and `waitForState` poll the states that other threads
change. What the polls find is a parameter; each loop returns it with what it reports.
-/

namespace Ffado

/-- `while (!ready && cnt) { ready = check; sleep; cnt--; }`, the next check being number `k`:
what the last check found, the counter and the number of checks. -/
def pollLoop (found : ℕ → Bool) : ℕ → Bool → ℕ → Bool × ℕ × ℕ
  | 0, ready, k => (ready, 0, k)
  | cnt + 1, ready, k =>
    if ready then (ready, cnt + 1, k) else pollLoop found cnt (found k) (k + 1)

/-- `STREAMPROCESSORMANAGER_CYCLES_FOR_DRYRUN`. -/
def cyclesForDryRun : ℕ := 40000

def stopPolls : ℕ := 8000

def ProcessorState.isDryRunning (s : ProcessorState) : Bool :=
  s = .dryRunning

def ProcessorState.halting (s : ProcessorState) : Bool :=
  s = .dryRunning || s = .stopped || s = .waitingForStream || s = .error

/-- What `stop` awaits at its end. -/
def ProcessorState.halted (s : ProcessorState) : Bool :=
  s = .stopped || s = .error

open ProcessorState (isDryRunning halting halted)

/-- Check number `k` sees the states `obs k` of the receive and transmit processors. -/
def allIn (awaited : ProcessorState → Bool) (obs : ℕ → List ProcessorState) (k : ℕ) : Bool :=
  (obs k).all awaited

namespace StateWaits

/-- `StreamProcessorManager::startDryRunning` behind its scheduling phase: the result and what
the last check found. -/
def startDryRunning (obs : ℕ → List ProcessorState) : Bool × Bool :=
  let (allDryRunning, cnt, _) :=
    pollLoop (allIn isDryRunning obs) cyclesForDryRun false 0
  (cnt ≠ 0, allDryRunning)

/-- `StreamProcessorManager::stop`. The transitions it schedules before each wait are always
accepted. -/
def stop (obs : ℕ → List ProcessorState) : Bool × Bool :=
  let (ready, cnt, k) := pollLoop (allIn halting obs) stopPolls false 0
  if cnt = 0 then (false, ready)
  else
    let (ready, cnt, _) := pollLoop (allIn halted obs) stopPolls false k
    (cnt ≠ 0, ready)

/-- `StreamProcessor::waitForState`: its condition reads the state before the counter, so there
is one more check than `timeoutMs`. -/
def waitForState (found : ℕ → Bool) : ℕ → ℕ → Bool × Bool
  | 0, k => (false, found k)
  | cnt + 1, k => if found k then (true, true) else waitForState found cnt (k + 1)

end StateWaits

/-- Check number `i` is the first one from number `k` on that sees the awaited state. -/
def FirstSeen (found : ℕ → Bool) (k i : ℕ) : Prop :=
  k ≤ i ∧ found i = true ∧ ∀ j, k ≤ j → j < i → found j = false

variable {found : ℕ → Bool} {k i j : ℕ}

theorem FirstSeen.unique (hi : FirstSeen found k i) (hj : FirstSeen found k j) : i = j := by
  rcases lt_trichotomy i j with h | h | h
  · exact absurd hi.2.1 (by simp [hj.2.2 i hi.1 h])
  · exact h
  · exact absurd hj.2.1 (by simp [hi.2.2 j hj.1 h])

theorem firstSeen_self (h : found k = true) : FirstSeen found k k :=
  ⟨le_rfl, h, fun _ h1 h2 => absurd h1 (by omega)⟩

theorem firstSeen_succ_iff (h : found k = false) :
    FirstSeen found (k + 1) i ↔ FirstSeen found k i := by
  constructor
  · rintro ⟨hi, hf, hj⟩
    refine ⟨by omega, hf, fun j h1 h2 => ?_⟩
    rcases Nat.eq_or_lt_of_le h1 with rfl | h1
    · exact h
    · exact hj j h1 h2
  · rintro ⟨hi, hf, hj⟩
    refine ⟨Nat.lt_of_le_of_ne hi ?_, hf, fun j h1 h2 => hj j (by omega) h2⟩
    rintro rfl
    simp [h] at hf

/-- The counter is decremented in the turn that sees the state as well. -/
theorem pollLoop_cases (found : ℕ → Bool) (n k : ℕ) :
    (∃ i < k + n, FirstSeen found k i ∧
      pollLoop found n false k = (true, k + n - (i + 1), i + 1)) ∨
    ((∀ i < k + n, ¬ FirstSeen found k i) ∧ pollLoop found n false k = (false, 0, k + n)) := by
  induction n generalizing k with
  | zero => exact .inr ⟨fun i hi h => absurd h.1 (by omega), rfl⟩
  | succ n ih =>
    cases h0 : found k with
    | true =>
      refine .inl ⟨k, by omega, firstSeen_self h0, ?_⟩
      have hcnt : k + (n + 1) - (k + 1) = n := by omega
      cases n <;> simp [pollLoop, h0, hcnt]
    | false =>
      have hk : k + 1 + n = k + (n + 1) := by omega
      have hp : pollLoop found (n + 1) false k = pollLoop found n false (k + 1) := by
        simp [pollLoop, h0]
      simpa only [firstSeen_succ_iff h0, hp, hk] using ih (k + 1)

theorem pollLoop_reports_iff (found : ℕ → Bool) (n k : ℕ) (hn : 0 < n) :
    decide ((pollLoop found n false k).2.1 ≠ 0) = (pollLoop found n false k).1 ↔
      ¬ FirstSeen found k (k + n - 1) := by
  rcases pollLoop_cases found n k with ⟨i, hi, h, hp⟩ | ⟨h, hp⟩
  · have hlast : FirstSeen found k (k + n - 1) ↔ i = k + n - 1 :=
      ⟨fun h' => h.unique h', fun h' => h' ▸ h⟩
    rw [hp, hlast]
    simp only [decide_eq_true_eq]
    omega
  · simp [hp, h (k + n - 1) (by omega)]

theorem waitForState_reports_iff (found : ℕ → Bool) (timeoutMs k : ℕ) :
    (StateWaits.waitForState found timeoutMs k).1 =
        (StateWaits.waitForState found timeoutMs k).2 ↔
      ¬ FirstSeen found k (k + timeoutMs) := by
  induction timeoutMs generalizing k with
  | zero =>
    cases h0 : found k with
    | true => simp [StateWaits.waitForState, h0, firstSeen_self h0]
    | false => simp [StateWaits.waitForState, h0, FirstSeen]
  | succ n ih =>
    cases h0 : found k with
    | true =>
      have hk : ¬ FirstSeen found k (k + (n + 1)) := fun h => by
        have := (firstSeen_self h0).unique h
        omega
      simp [StateWaits.waitForState, h0, hk]
    | false =>
      have hk : k + 1 + n = k + (n + 1) := by omega
      simpa [StateWaits.waitForState, h0, firstSeen_succ_iff h0, hk] using ih (k + 1)

theorem stop_reports_iff (obs : ℕ → List ProcessorState) :
    (StateWaits.stop obs).1 = (StateWaits.stop obs).2 ↔
      ¬ FirstSeen (allIn halting obs) 0 (stopPolls - 1) ∧
      ∀ i < stopPolls - 1, FirstSeen (allIn halting obs) 0 i →
        ¬ FirstSeen (allIn halted obs) (i + 1) (i + stopPolls) := by
  rcases pollLoop_cases (allIn halting obs) stopPolls 0 with ⟨i, hi, h, hp⟩ | ⟨h, hp⟩
  · have hfirst : ∀ j, FirstSeen (allIn halting obs) 0 j ↔ i = j := fun j =>
      ⟨fun h' => h.unique h', fun h' => h' ▸ h⟩
    have hi' : i < stopPolls := by omega
    have second := pollLoop_reports_iff (allIn halted obs) stopPolls (i + 1) (by decide)
    rw [show i + 1 + stopPolls - 1 = i + stopPolls by omega] at second
    by_cases hlast : i = stopPolls - 1
    · have hcnt : stopPolls - (i + 1) = 0 := by omega
      have hr : StateWaits.stop obs = (false, true) := by
        simp only [StateWaits.stop, hp, Nat.zero_add, if_pos hcnt]
      simp [hr, hfirst, hlast]
    · have hcnt : stopPolls - (i + 1) ≠ 0 := by omega
      have hone : (StateWaits.stop obs).1 = (StateWaits.stop obs).2 ↔
          ¬ FirstSeen (allIn halted obs) (i + 1) (i + stopPolls) := by
        simpa only [StateWaits.stop, hp, Nat.zero_add, if_neg hcnt] using second
      rw [hone]
      constructor
      · intro h'
        refine ⟨fun h'' => hlast ((hfirst _).1 h''), fun j _ hj => ?_⟩
        rw [← (hfirst j).1 hj]
        exact h'
      · exact fun h' => h'.2 i (by omega) h
  · have hnone : ∀ i < stopPolls, ¬ FirstSeen (allIn halting obs) 0 i :=
      fun i hi => h i (by omega)
    have hr : StateWaits.stop obs = (false, false) := by
      simp [StateWaits.stop, hp]
    simp only [hr, true_iff]
    exact ⟨hnone _ (by decide), fun i hi h' => absurd h' (hnone i (by omega))⟩

/-- Each wait reports what its last check found just if the awaited state is not first seen by
the last check the counter permits. -/
theorem waits_report_iff (obs : ℕ → List ProcessorState) (state : ProcessorState)
    (seen : ℕ → ProcessorState) (timeoutMs : ℕ) :
    ((StateWaits.startDryRunning obs).1 = (StateWaits.startDryRunning obs).2 ↔
      ¬ FirstSeen (allIn isDryRunning obs) 0 (cyclesForDryRun - 1)) ∧
    ((StateWaits.stop obs).1 = (StateWaits.stop obs).2 ↔
      ¬ FirstSeen (allIn halting obs) 0 (stopPolls - 1) ∧
      ∀ i < stopPolls - 1, FirstSeen (allIn halting obs) 0 i →
        ¬ FirstSeen (allIn halted obs) (i + 1) (i + stopPolls)) ∧
    ((StateWaits.waitForState (fun k => seen k = state) timeoutMs 0).1 =
        (StateWaits.waitForState (fun k => seen k = state) timeoutMs 0).2 ↔
      ¬ FirstSeen (fun k => seen k = state) 0 timeoutMs) := by
  refine ⟨?_, stop_reports_iff obs, ?_⟩
  · have h := pollLoop_reports_iff (allIn isDryRunning obs) cyclesForDryRun 0 (by decide)
    rwa [Nat.zero_add] at h
  · have h := waitForState_reports_iff (fun k => seen k = state) timeoutMs 0
    rwa [Nat.zero_add] at h

def lateStart (k : ℕ) : List ProcessorState :=
  if k < cyclesForDryRun - 1 then [.stopped] else [.dryRunning]

theorem lateStart_reports_timeout : StateWaits.startDryRunning lateStart = (false, true) := by
  have h : FirstSeen (allIn isDryRunning lateStart) 0 (cyclesForDryRun - 1) := by
    refine ⟨Nat.zero_le _, by simp [allIn, isDryRunning, lateStart], fun j _ hj => ?_⟩
    simp [allIn, isDryRunning, lateStart, hj]
  rcases pollLoop_cases (allIn isDryRunning lateStart) cyclesForDryRun 0 with
    ⟨i, hi, hseen, hp⟩ | ⟨hnone, hp⟩
  · rw [hseen.unique h] at hp
    simp only [StateWaits.startDryRunning, hp]
    rfl
  · exact absurd h (hnone _ (by simp [cyclesForDryRun]))

end Ffado
