import Ffado.Lib.CallLog

/-!
# Starting and stopping all devices

The device manager starts the streams of one device after the other, enables streaming on each and
then starts the stream processors. If something fails it stops what has been started: the streams of
the failing device in one function, the devices before it in another.
-/
namespace Ffado.Devices

open CallLog

variable {δ : Type*}

inductive Call (δ : Type*)
  | resetForStreaming (device : δ)
  | startStreamByIndex (device : δ) (j : ℕ)
  | stopStreamByIndex (device : δ) (j : ℕ)
  | enableStreaming (device : δ)
  | disableStreaming (device : δ)
  | startProcessors
  | stopProcessors
  deriving DecidableEq

namespace Call

def device : Call δ → Option δ
  | resetForStreaming d => some d
  | startStreamByIndex d _ => some d
  | stopStreamByIndex d _ => some d
  | enableStreaming d => some d
  | disableStreaming d => some d
  | startProcessors => none
  | stopProcessors => none

/-- `u` takes back what `c` has done to a device. -/
inductive Undoes : Call δ → Call δ → Prop
  | stop (d : δ) (j : ℕ) : Undoes (stopStreamByIndex d j) (startStreamByIndex d j)
  | disable (d : δ) : Undoes (disableStreaming d) (enableStreaming d)

end Call

abbrev Log (δ : Type*) := List (Call δ × Bool)

/-- Every device is in the vector once. -/
structure DeviceManager (δ : Type*) where
  avDevices : List δ
  nodup : avDevices.Nodup
  getStreamCount : δ → ℕ

namespace DeviceManager

variable (m : DeviceManager δ) (answer : Call δ → Bool)

variable {e : Call δ × Bool} {ds post : List δ}

def entry (c : Call δ) : Call δ × Bool := (c, answer c)

/-- The loop that starts the streams from `j` on, of which there are `n`. The index it ends with and
whether all were started. -/
def startStreams (d : δ) : ℕ → ℕ → Log δ × ℕ × Bool
  | 0, j => ([], j, true)
  | n + 1, j =>
    if answer (.startStreamByIndex d j) then
      let rest := startStreams d n (j + 1)
      (entry answer (.startStreamByIndex d j) :: rest.1, rest.2)
    else ([entry answer (.startStreamByIndex d j)], j, false)

def stopStreamsBelow (d : δ) : ℕ → Log δ
  | 0 => []
  | j + 1 => entry answer (.stopStreamByIndex d j) :: stopStreamsBelow d j

def startStreamingOnDevice (d : δ) : Log δ × Bool :=
  if answer (.resetForStreaming d) then
    let started := startStreams answer d (m.getStreamCount d) 0
    if started.2.2 then
      (entry answer (.resetForStreaming d) :: (started.1 ++ [entry answer (.enableStreaming d)]),
        answer (.enableStreaming d))
    else
      (entry answer (.resetForStreaming d) :: (started.1 ++ stopStreamsBelow answer d started.2.1),
        false)
  else ([entry answer (.resetForStreaming d)], false)

def stopStreams (d : δ) : ℕ → ℕ → Log δ × Bool
  | 0, _ => ([], true)
  | n + 1, j =>
    let rest := stopStreams d n (j + 1)
    (entry answer (.stopStreamByIndex d j) :: rest.1, answer (.stopStreamByIndex d j) && rest.2)

def stopStreamingOnDevice (d : δ) : Log δ × Bool :=
  let stopped := stopStreams answer d (m.getStreamCount d) 0
  (entry answer (.disableStreaming d) :: stopped.1, stopped.2)

/-- The loop over the devices: the position of the iterator behind it and whether all were
started. -/
def startDevices : List δ → Log δ × ℕ × Bool
  | [] => ([], 0, true)
  | d :: ds =>
    let started := m.startStreamingOnDevice answer d
    if started.2 then
      let rest := startDevices ds
      (started.1 ++ rest.1, rest.2.1 + 1, rest.2.2)
    else (started.1, 0, false)

def stopDevices (ds : List δ) : Log δ := ds.flatMap fun d => (m.stopStreamingOnDevice answer d).1

def startStreaming : Log δ × Bool :=
  let started := m.startDevices answer m.avDevices
  if started.2.2 then
    if answer .startProcessors then (started.1 ++ [entry answer .startProcessors], true)
    else
      (started.1 ++ entry answer .startProcessors :: m.stopDevices answer m.avDevices, false)
  else (started.1 ++ m.stopDevices answer (m.avDevices.take started.2.1), false)

def stopStreaming : Log δ × Bool :=
  (entry answer .stopProcessors :: m.stopDevices answer m.avDevices, true)

variable {m answer} {d : δ}

theorem mem_stopStreamsBelow {n : ℕ} :
    e ∈ stopStreamsBelow answer d n ↔ ∃ j < n, e = entry answer (.stopStreamByIndex d j) := by
  induction n with
  | zero => simp [stopStreamsBelow]
  | succ n ih =>
    rw [stopStreamsBelow, List.mem_cons, ih]
    constructor
    · rintro (rfl | ⟨j, hj, rfl⟩)
      · exact ⟨n, Nat.lt_succ_self n, rfl⟩
      · exact ⟨j, by omega, rfl⟩
    · rintro ⟨j, hj, rfl⟩
      rcases Nat.lt_succ_iff_lt_or_eq.mp hj with hlt | rfl
      · exact .inr ⟨j, hlt, rfl⟩
      · exact .inl rfl

theorem mem_stopStreams {n j : ℕ} :
    e ∈ (stopStreams answer d n j).1 ↔ ∃ i < n,
      e = entry answer (.stopStreamByIndex d (j + i)) := by
  induction n generalizing j with
  | zero => simp [stopStreams]
  | succ n ih =>
    rw [stopStreams, List.mem_cons, ih]
    constructor
    · rintro (rfl | ⟨i, hi, rfl⟩)
      · exact ⟨0, Nat.succ_pos n, rfl⟩
      · exact ⟨i + 1, by omega, by rw [Nat.add_right_comm, Nat.add_assoc]⟩
    · rintro ⟨i, hi, rfl⟩
      cases i with
      | zero => exact .inl rfl
      | succ i => exact .inr ⟨i, by omega, by rw [Nat.add_right_comm, Nat.add_assoc]⟩

theorem mem_stopStreamingOnDevice :
    e ∈ (m.stopStreamingOnDevice answer d).1 ↔ e = entry answer (.disableStreaming d) ∨
      ∃ j < m.getStreamCount d, e = entry answer (.stopStreamByIndex d j) := by
  rw [stopStreamingOnDevice, List.mem_cons, mem_stopStreams]
  simp only [Nat.zero_add]

/-- What the loop over the streams does: the first `k` of them start, and the next one does not
unless there is none. -/
structure StartedUpTo (answer : Call δ → Bool) (d : δ) (n j : ℕ) (log : Log δ) (k : ℕ)
    (all : Bool) : Prop where
  le : k ≤ n
  ok : ∀ i < k, answer (.startStreamByIndex d (j + i)) = true
  all_iff : all = true ↔ k = n
  failed : k < n → answer (.startStreamByIndex d (j + k)) = false
  mem : ∀ e, e ∈ log ↔ ∃ i, i ≤ k ∧ i < n ∧ e = entry answer (.startStreamByIndex d (j + i))

theorem startStreams_spec (n j : ℕ) :
    ∃ k, (startStreams answer d n j).2.1 = j + k ∧
      StartedUpTo answer d n j (startStreams answer d n j).1 k (startStreams answer d n j).2.2 := by
  induction n generalizing j with
  | zero =>
    refine ⟨0, rfl, le_rfl, by simp, by simp [startStreams], by simp, fun e => ?_⟩
    simp [startStreams]
  | succ n ih =>
    rw [startStreams]
    by_cases hj : answer (.startStreamByIndex d j) = true
    · rw [if_pos hj]
      obtain ⟨k, hk, hrest⟩ := ih (j + 1)
      refine ⟨k + 1, by rw [hk]; omega, by have := hrest.le; omega, ?_, ?_, ?_, fun e => ?_⟩
      · intro i hi
        cases i with
        | zero => exact hj
        | succ i =>
          rw [← Nat.add_assoc, Nat.add_right_comm]
          exact hrest.ok i (by omega)
      · rw [hrest.all_iff]
        omega
      · intro hlt
        rw [← Nat.add_assoc, Nat.add_right_comm]
        exact hrest.failed (by omega)
      · rw [List.mem_cons, hrest.mem]
        constructor
        · rintro (rfl | ⟨i, hik, hin, rfl⟩)
          · exact ⟨0, by omega, by omega, rfl⟩
          · exact ⟨i + 1, by omega, by omega, by rw [Nat.add_right_comm, Nat.add_assoc]⟩
        · rintro ⟨i, hik, hin, rfl⟩
          cases i with
          | zero => exact .inl rfl
          | succ i =>
            exact .inr ⟨i, by omega, by omega, by rw [Nat.add_right_comm, Nat.add_assoc]⟩
    · rw [if_neg hj]
      have hfalse : answer (.startStreamByIndex d j) = false := Bool.eq_false_iff.mpr hj
      refine ⟨0, rfl, Nat.zero_le _, by simp, by simp, fun _ => hfalse, fun e => ?_⟩
      rw [List.mem_singleton]
      constructor
      · rintro rfl
        exact ⟨0, le_rfl, Nat.succ_pos n, rfl⟩
      · rintro ⟨i, hi, -, rfl⟩
        rw [Nat.le_zero.mp hi, Nat.add_zero]

variable (m answer)

def streamsStart (d : δ) : Bool :=
  answer (.resetForStreaming d) &&
    (List.range (m.getStreamCount d)).all fun j => answer (.startStreamByIndex d j)

def startsUp (d : δ) : Bool := m.streamsStart answer d && answer (.enableStreaming d)

/-- The device has streams, which start, but cannot be enabled. -/
def LeftStarted (d : δ) : Prop :=
  0 < m.getStreamCount d ∧ m.streamsStart answer d = true ∧ answer (.enableStreaming d) = false

instance (d : δ) : Decidable (m.LeftStarted answer d) :=
  inferInstanceAs (Decidable (_ ∧ _ ∧ _))

theorem startStreamingOnDevice_cases (d : δ) :
    (m.streamsStart answer d = true ∧
      (m.startStreamingOnDevice answer d).2 = answer (.enableStreaming d) ∧
      ∀ e, e ∈ (m.startStreamingOnDevice answer d).1 ↔ e = (.resetForStreaming d, true) ∨
        e = entry answer (.enableStreaming d) ∨
        ∃ j < m.getStreamCount d, e = (.startStreamByIndex d j, true)) ∨
    (m.streamsStart answer d = false ∧ (m.startStreamingOnDevice answer d).2 = false ∧
      ∃ started k, k ≤ m.getStreamCount d ∧
        (m.startStreamingOnDevice answer d).1 = started ++ stopStreamsBelow answer d k ∧
        ∀ e ∈ started, e = entry answer (.resetForStreaming d) ∨
          (∃ j < k, e = (.startStreamByIndex d j, true)) ∨
            e = (.startStreamByIndex d k, false)) := by
  rw [startStreamingOnDevice, streamsStart]
  by_cases hreset : answer (.resetForStreaming d) = true
  · obtain ⟨k, hk, hstarted⟩ := @startStreams_spec _ answer d (m.getStreamCount d) 0
    rw [Nat.zero_add] at hk
    have hok := hstarted.ok
    have hfailed := hstarted.failed
    have hmem := hstarted.mem
    simp only [Nat.zero_add] at hok hfailed hmem
    simp only [if_pos hreset]
    rcases Nat.lt_or_ge k (m.getStreamCount d) with hlt | hge
    · right
      have hall : (startStreams answer d (m.getStreamCount d) 0).2.2 = false := by
        rw [Bool.eq_false_iff, ne_eq, hstarted.all_iff]
        omega
      simp only [hall, Bool.false_eq_true, if_false, hk]
      refine ⟨?_, trivial, entry answer (.resetForStreaming d) ::
        (startStreams answer d (m.getStreamCount d) 0).1, k, hstarted.le, rfl, fun e he => ?_⟩
      · rw [hreset, Bool.true_and, List.all_eq_false]
        exact ⟨k, List.mem_range.mpr hlt, by simp [hfailed hlt]⟩
      · rcases List.mem_cons.mp he with rfl | he
        · exact .inl rfl
        · obtain ⟨i, hik, -, rfl⟩ := (hmem e).mp he
          rcases Nat.lt_or_eq_of_le hik with hik | rfl
          · exact .inr (.inl ⟨i, hik, by rw [entry, hok i hik]⟩)
          · exact .inr (.inr (by rw [entry, hfailed hlt]))
    · left
      have heq : k = m.getStreamCount d := Nat.le_antisymm hstarted.le hge
      have hall := hstarted.all_iff.mpr heq
      simp only [hall, if_true]
      refine ⟨?_, trivial, fun e => ?_⟩
      · rw [hreset, Bool.true_and, List.all_eq_true]
        intro j hj
        exact hok j (by rw [heq]; exact List.mem_range.mp hj)
      · rw [List.mem_cons, List.mem_append, List.mem_singleton, hmem, entry, hreset]
        constructor
        · rintro (rfl | ⟨i, -, hi, rfl⟩ | rfl)
          · exact .inl rfl
          · exact .inr (.inr ⟨i, hi, by rw [entry, hok i (by omega)]⟩)
          · exact .inr (.inl rfl)
        · rintro (rfl | rfl | ⟨j, hj, rfl⟩)
          · exact .inl rfl
          · exact .inr (.inr rfl)
          · exact .inr (.inl ⟨j, by omega, hj, by rw [entry, hok j (by omega)]⟩)
  · right
    simp only [if_neg hreset]
    refine ⟨?_, trivial, [entry answer (.resetForStreaming d)], 0, Nat.zero_le _, rfl,
      fun e he => ?_⟩
    · rw [Bool.eq_false_iff.mpr hreset, Bool.false_and]
    · exact .inl (List.mem_singleton.mp he)

theorem startStreamingOnDevice_result (d : δ) :
    (m.startStreamingOnDevice answer d).2 = m.startsUp answer d := by
  rw [startsUp]
  rcases m.startStreamingOnDevice_cases answer d with ⟨hs, hres, -⟩ | ⟨hs, hres, -⟩
  · rw [hs, hres, Bool.true_and]
  · rw [hs, hres, Bool.false_and]

variable {m answer}

theorem device_of_mem_start (he : e ∈ (m.startStreamingOnDevice answer d).1) :
    e.1.device = some d := by
  rcases m.startStreamingOnDevice_cases answer d
    with ⟨-, -, hmem⟩ | ⟨-, -, started, k, -, hlog, hmem⟩
  · rcases (hmem e).mp he with rfl | rfl | ⟨j, -, rfl⟩
    · rfl
    · rfl
    · rfl
  · rw [hlog, List.mem_append] at he
    rcases he with he | he
    · rcases hmem e he with rfl | ⟨j, -, rfl⟩ | rfl
      · rfl
      · rfl
      · rfl
    · obtain ⟨j, -, rfl⟩ := mem_stopStreamsBelow.mp he
      rfl

theorem device_of_mem_stop (he : e ∈ (m.stopStreamingOnDevice answer d).1) :
    e.1.device = some d := by
  rcases mem_stopStreamingOnDevice.mp he with rfl | ⟨j, -, rfl⟩
  · rfl
  · rfl

theorem mem_stopDevices :
    e ∈ m.stopDevices answer ds ↔ ∃ d ∈ ds, e ∈ (m.stopStreamingOnDevice answer d).1 :=
  List.mem_flatMap

/-- Every stream that was started has been stopped, and every device that was enabled disabled. -/
def Clean (log : Log δ) : Prop := ∀ u c, Call.Undoes u c → Undone c u log

theorem clean_of_forall {log : Log δ} (h : ∀ u c, Call.Undoes u c → (c, true) ∉ log) : Clean log :=
  fun u c hu => undone_of_notMem (h u c hu)

theorem notMem_stopDevices {u c : Call δ} (hu : Call.Undoes u c) (ds : List δ) (b : Bool) :
    (c, b) ∉ m.stopDevices answer ds := by
  intro hc
  obtain ⟨d, -, hc⟩ := mem_stopDevices.mp hc
  cases hu with
  | _ =>
    rcases mem_stopStreamingOnDevice.mp hc with h | ⟨i, -, h⟩
    · cases h
    · cases h

theorem notMem_stopStreamsBelow {u c : Call δ} (hu : Call.Undoes u c) (k : ℕ) (b : Bool) :
    (c, b) ∉ stopStreamsBelow answer d k := by
  intro h
  obtain ⟨j, -, h⟩ := mem_stopStreamsBelow.mp h
  cases hu with
  | _ => cases h

theorem undo_of_mem_started {u c : Call δ} (hu : Call.Undoes u c) {k : ℕ}
    (h : (c, true) = entry answer (.resetForStreaming d) ∨
      (∃ j < k, (c, true) = (.startStreamByIndex d j, true)) ∨
      (c, true) = (.startStreamByIndex d k, false)) :
    ∃ j < k, u = .stopStreamByIndex d j := by
  cases hu with
  | stop d' i =>
    rcases h with h | ⟨j, hj, h⟩ | h
    · cases h
    · cases h
      exact ⟨i, hj, rfl⟩
    · cases h
  | disable d' =>
    rcases h with h | ⟨j, -, h⟩ | h
    · cases h
    · cases h
    · cases h

def StopsSucceed (answer : Call δ → Bool) : Prop := ∀ u c, Call.Undoes u c → answer u = true

theorem undo_mem_stop (hstop : StopsSucceed answer) {u c : Call δ} (hu : Call.Undoes u c)
    (hc : (c, true) ∈ (m.startStreamingOnDevice answer d).1) :
    (u, true) ∈ (m.stopStreamingOnDevice answer d).1 := by
  have hanswer := hstop u c hu
  rw [mem_stopStreamingOnDevice]
  rcases m.startStreamingOnDevice_cases answer d with
    ⟨-, -, hmem⟩ | ⟨-, -, started, k, hk, hlog, hmem⟩
  · cases hu with
    | stop d' j =>
      rcases (hmem _).mp hc with h | h | ⟨i, hi, h⟩
      · cases h
      · cases h
      · cases h
        exact .inr ⟨j, hi, by rw [entry, hanswer]⟩
    | disable d' =>
      rcases (hmem _).mp hc with h | h | ⟨i, -, h⟩
      · cases h
      · obtain rfl := Call.enableStreaming.inj (congrArg Prod.fst h)
        exact .inl (by rw [entry, hanswer])
      · cases h
  · rw [hlog, List.mem_append, or_iff_left (notMem_stopStreamsBelow hu k true)] at hc
    obtain ⟨i, hi, rfl⟩ := undo_of_mem_started hu (hmem _ hc)
    exact .inr ⟨i, by omega, by rw [entry, hanswer]⟩

theorem undo_notMem_start {u c : Call δ} (hu : Call.Undoes u c) (b : Bool)
    (hs : m.streamsStart answer d = true) : (u, b) ∉ (m.startStreamingOnDevice answer d).1 := by
  intro hmem
  rcases m.startStreamingOnDevice_cases answer d with ⟨-, -, hlog⟩ | ⟨hfalse, -⟩
  · cases hu with
    | _ =>
      rcases (hlog _).mp hmem with h | h | ⟨i, -, h⟩
      · cases h
      · cases h
      · cases h
  · rw [hs] at hfalse
    cases hfalse

theorem clean_of_streams_fail (hstop : StopsSucceed answer) (hs : m.streamsStart answer d = false) :
    Clean (m.startStreamingOnDevice answer d).1 := by
  rcases m.startStreamingOnDevice_cases answer d with ⟨htrue, -⟩ | ⟨-, -, started, k, -, hlog, hmem⟩
  · rw [hs] at htrue
    cases htrue
  · rw [hlog]
    intro u c hu
    have hnot := @notMem_stopStreamsBelow _ answer d _ _ hu k true
    by_cases hc : (c, true) ∈ started
    · apply undone_append_of_mem hnot
      have hanswer := hstop u c hu
      obtain ⟨i, hi, rfl⟩ := undo_of_mem_started hu (hmem _ hc)
      exact mem_stopStreamsBelow.mpr ⟨i, hi, by rw [entry, hanswer]⟩
    · exact (undone_of_notMem hc).append (undone_of_notMem hnot)

/-- A device that does not start leaves nothing behind unless it only failed to be enabled. -/
theorem clean_startStreamingOnDevice_iff (hstop : StopsSucceed answer)
    (hfail : m.startsUp answer d = false) :
    Clean (m.startStreamingOnDevice answer d).1 ↔ ¬ m.LeftStarted answer d := by
  cases hs : m.streamsStart answer d with
  | false =>
    apply iff_of_true (clean_of_streams_fail hstop hs)
    rintro ⟨-, htrue, -⟩
    rw [hs] at htrue
    cases htrue
  | true =>
    have henable : answer (.enableStreaming d) = false := by
      rwa [startsUp, hs, Bool.true_and] at hfail
    rcases m.startStreamingOnDevice_cases answer d with ⟨-, -, hmem⟩ | ⟨hfalse, -⟩
    · constructor
      · rintro hclean ⟨hpos, -, -⟩
        -- the first stream has been started and not been stopped
        refine not_undone ((hmem _).mpr (.inr (.inr ⟨0, hpos, rfl⟩)))
          (undo_notMem_start (Call.Undoes.stop d 0) true hs) (hclean _ _ (Call.Undoes.stop d 0))
      · intro hleft
        have hzero : m.getStreamCount d = 0 := by
          by_contra hne
          exact hleft ⟨Nat.pos_of_ne_zero hne, hs, henable⟩
        apply clean_of_forall
        intro u c hu hc
        rcases (hmem _).mp hc with h | h | ⟨j, hj, -⟩
        · cases hu with
          | _ => cases h
        · rw [entry, henable] at h
          cases h
        · omega
    · rw [hs] at hfalse
      cases hfalse

def startLog (m : DeviceManager δ) (answer : Call δ → Bool) (ds : List δ) : Log δ :=
  ds.flatMap fun d => (m.startStreamingOnDevice answer d).1

theorem startLog_cons (d : δ) (ds : List δ) :
    m.startLog answer (d :: ds) = (m.startStreamingOnDevice answer d).1 ++ m.startLog answer ds :=
  List.flatMap_cons

theorem startDevices_of_startsUp (h : ∀ d ∈ ds, m.startsUp answer d = true) :
    m.startDevices answer ds = (m.startLog answer ds, ds.length, true) := by
  induction ds with
  | nil => rfl
  | cons d ds ih =>
    rw [List.forall_mem_cons] at h
    simp only [startDevices, startStreamingOnDevice_result, h.1, if_true, ih h.2]
    rfl

theorem startDevices_of_fails (h : ∀ d ∈ ds, m.startsUp answer d = true)
    (hfail : m.startsUp answer d = false) :
    m.startDevices answer (ds ++ d :: post) =
      (m.startLog answer ds ++ (m.startStreamingOnDevice answer d).1, ds.length, false) := by
  induction ds with
  | nil => simp [startDevices, startStreamingOnDevice_result, hfail, startLog]
  | cons e ds ih =>
    rw [List.forall_mem_cons] at h
    simp only [List.cons_append, startDevices, startStreamingOnDevice_result, h.1, if_true, ih h.2]
    rw [startLog_cons, List.append_assoc]
    rfl

theorem streamsStart_of_startsUp (h : m.startsUp answer d = true) :
    m.streamsStart answer d = true := by
  rw [startsUp, Bool.and_eq_true] at h
  exact h.1

/-- Devices that were started and are then stopped leave nothing behind, whatever happens to other
devices in between. -/
theorem clean_start_stop (hstop : StopsSucceed answer) (ds : List δ) {between : Log δ}
    (hbetween : Clean between) :
    Clean (m.startLog answer ds ++ between ++ m.stopDevices answer ds) := by
  intro u c hu
  have hnot := @notMem_stopDevices _ m answer _ _ hu ds true
  by_cases hc : (c, true) ∈ m.startLog answer ds
  · apply undone_append_of_mem hnot
    obtain ⟨d, hd, hc⟩ := List.mem_flatMap.mp hc
    exact mem_stopDevices.mpr ⟨d, hd, undo_mem_stop hstop hu hc⟩
  · exact ((undone_of_notMem hc).append (hbetween u c hu)).append (undone_of_notMem hnot)

theorem startStreaming_of_fails (hm : m.avDevices = ds ++ d :: post)
    (h : ∀ d ∈ ds, m.startsUp answer d = true) (hfail : m.startsUp answer d = false) :
    m.startStreaming answer = (m.startLog answer ds ++ (m.startStreamingOnDevice answer d).1 ++
      m.stopDevices answer ds, false) := by
  simp [startStreaming, hm, startDevices_of_fails h hfail]

theorem clean_of_fails_iff (hstop : StopsSucceed answer) (hm : m.avDevices = ds ++ d :: post)
    (h : ∀ d ∈ ds, m.startsUp answer d = true) (hfail : m.startsUp answer d = false) :
    Clean (m.startStreaming answer).1 ↔ ¬ m.LeftStarted answer d := by
  rw [startStreaming_of_fails hm h hfail]
  have hd : d ∉ ds := by
    have hnodup := m.nodup
    rw [hm, List.nodup_append] at hnodup
    intro hmem
    exact hnodup.2.2 d hmem d List.mem_cons_self rfl
  constructor
  · rintro hclean ⟨hpos, hs, -⟩
    have hu := Call.Undoes.stop d 0
    refine not_undone ?_ ?_ (hclean _ _ hu)
    · rcases m.startStreamingOnDevice_cases answer d with ⟨-, -, hmem⟩ | ⟨hfalse, -⟩
      · have hstarted := (hmem _).mpr (.inr (.inr ⟨0, hpos, rfl⟩))
        exact List.mem_append_left _ (List.mem_append_right _ hstarted)
      · rw [hs] at hfalse
        cases hfalse
    · intro hmem
      rcases List.mem_append.mp hmem with hmem | hmem
      · rcases List.mem_append.mp hmem with hmem | hmem
        · obtain ⟨e, he, hmem⟩ := List.mem_flatMap.mp hmem
          have hdev := device_of_mem_start hmem
          rw [Option.some.inj hdev] at hd
          exact hd he
        · exact undo_notMem_start hu true hs hmem
      · obtain ⟨e, he, hmem⟩ := mem_stopDevices.mp hmem
        have hdev := device_of_mem_stop hmem
        rw [Option.some.inj hdev] at hd
        exact hd he
  · intro hleft
    exact clean_start_stop hstop ds ((clean_startStreamingOnDevice_iff hstop hfail).mpr hleft)

structure AllStarted (m : DeviceManager δ) (log : Log δ) : Prop where
  started : ∀ d ∈ m.avDevices, ∀ j < m.getStreamCount d, (.startStreamByIndex d j, true) ∈ log
  enabled : ∀ d ∈ m.avDevices, (.enableStreaming d, true) ∈ log
  kept : ∀ u c b, Call.Undoes u c → (u, b) ∉ log

theorem allStarted_startLog (h : ∀ d ∈ m.avDevices, m.startsUp answer d = true) :
    m.AllStarted (m.startLog answer m.avDevices ++ [(.startProcessors, true)]) := by
  have hmem : ∀ d ∈ m.avDevices, ∀ e ∈ (m.startStreamingOnDevice answer d).1,
      e ∈ m.startLog answer m.avDevices ++ [(.startProcessors, true)] := by
    intro d hd e he
    exact List.mem_append_left _ (List.mem_flatMap.mpr ⟨d, hd, he⟩)
  have hcases : ∀ d ∈ m.avDevices, answer (.enableStreaming d) = true ∧
      ∀ e, e ∈ (m.startStreamingOnDevice answer d).1 ↔ e = (.resetForStreaming d, true) ∨
        e = entry answer (.enableStreaming d) ∨
        ∃ j < m.getStreamCount d, e = (.startStreamByIndex d j, true) := by
    intro d hd
    have hup := h d hd
    rw [startsUp, Bool.and_eq_true] at hup
    rcases m.startStreamingOnDevice_cases answer d with ⟨-, -, hlog⟩ | ⟨hfalse, -⟩
    · exact ⟨hup.2, hlog⟩
    · rw [hup.1] at hfalse
      cases hfalse
  constructor
  · intro d hd j hj
    exact hmem d hd _ (((hcases d hd).2 _).mpr (.inr (.inr ⟨j, hj, rfl⟩)))
  · intro d hd
    exact hmem d hd _ (((hcases d hd).2 _).mpr (.inr (.inl (by rw [entry, (hcases d hd).1]))))
  · intro u c b hu hmem
    rcases List.mem_append.mp hmem with hmem | hmem
    · obtain ⟨d, hd, hmem⟩ := List.mem_flatMap.mp hmem
      exact undo_notMem_start hu b (streamsStart_of_startsUp (h d hd)) hmem
    · rw [List.mem_singleton] at hmem
      cases hu with
      | _ => cases hmem

def AllOrNothing (m : DeviceManager δ) (answer : Call δ → Bool) : Prop :=
  if (m.startStreaming answer).2 then m.AllStarted (m.startStreaming answer).1
  else Clean (m.startStreaming answer).1

theorem allOrNothing_of_startsUp (hstop : StopsSucceed answer)
    (h : ∀ d ∈ m.avDevices, m.startsUp answer d = true) : m.AllOrNothing answer := by
  rw [AllOrNothing, startStreaming, startDevices_of_startsUp h]
  simp only [if_true, entry]
  cases hstart : answer .startProcessors with
  | true => exact allStarted_startLog h
  | false =>
    have hclean : Clean [((.startProcessors : Call δ), false)] := by
      apply clean_of_forall
      intro u c hu hmem
      cases hu with
      | _ => simp at hmem
    have hall := @clean_start_stop _ m answer hstop m.avDevices _ hclean
    rwa [List.append_assoc] at hall

/-- All or nothing just if the first device that does not start has not only failed to be
enabled. -/
theorem allOrNothing_iff (m : DeviceManager δ) (answer : Call δ → Bool)
    (hstop : StopsSucceed answer) : m.AllOrNothing answer ↔
      ∀ d, m.avDevices.find? (fun d => !m.startsUp answer d) = some d →
        ¬ m.LeftStarted answer d := by
  cases hfind : m.avDevices.find? (fun d => !m.startsUp answer d) with
  | none =>
    apply iff_of_true
    · apply allOrNothing_of_startsUp hstop
      intro d hd
      have hnone := List.find?_eq_none.mp hfind d hd
      simpa using hnone
    · intro d hd
      cases hd
  | some d =>
    obtain ⟨hfail, ds, post, hm, hds⟩ := List.find?_eq_some_iff_append.mp hfind
    have hfail' : m.startsUp answer d = false := by simpa using hfail
    have hds' : ∀ e ∈ ds, m.startsUp answer e = true := by
      intro e he
      simpa using hds e he
    have hresult : (m.startStreaming answer).2 = false := by
      rw [startStreaming_of_fails hm hds' hfail']
    rw [AllOrNothing, hresult, if_neg Bool.false_ne_true, clean_of_fails_iff hstop hm hds' hfail']
    constructor
    · intro hleft e he
      rwa [← Option.some.inj he]
    · intro hleft
      exact hleft d rfl

theorem mem_startDevices (h : e ∈ (m.startDevices answer ds).1) :
    ∃ d ∈ ds, e ∈ (m.startStreamingOnDevice answer d).1 := by
  induction ds with
  | nil => cases h
  | cons d ds ih =>
    simp only [startDevices] at h
    split_ifs at h
    · rcases List.mem_append.mp h with h | h
      · exact ⟨d, List.mem_cons_self, h⟩
      · obtain ⟨d', hd', he⟩ := ih h
        exact ⟨d', List.mem_cons_of_mem d hd', he⟩
    · exact ⟨d, List.mem_cons_self, h⟩

theorem mem_startStreaming {u c : Call δ} (hu : Call.Undoes u c)
    (h : (c, true) ∈ (m.startStreaming answer).1) :
    ∃ d ∈ m.avDevices, (c, true) ∈ (m.startStreamingOnDevice answer d).1 := by
  have hne : c ≠ .startProcessors := by
    rintro rfl
    cases hu
  apply mem_startDevices
  simp only [startStreaming] at h
  split_ifs at h
  · simpa [entry, hne] using h
  · simpa [entry, hne, notMem_stopDevices hu] using h
  · simpa [notMem_stopDevices hu] using h

def single : DeviceManager Unit where
  avDevices := [()]
  nodup := List.nodup_singleton ()
  getStreamCount _ := 1

/-- Everything succeeds except for `enableStreaming`. -/
def notEnabled : Call Unit → Bool
  | .enableStreaming _ => false
  | _ => true

theorem stopsSucceed_notEnabled : StopsSucceed notEnabled := by
  intro u c hu
  cases hu with
  | _ => rfl

theorem allOrNothing_iff_notEnabled : StopsSucceed notEnabled ∧ (single.AllOrNothing notEnabled ↔
    ∀ d, single.avDevices.find? (fun d => !single.startsUp notEnabled d) = some d →
      ¬ single.LeftStarted notEnabled d) :=
  ⟨stopsSucceed_notEnabled, allOrNothing_iff single notEnabled stopsSucceed_notEnabled⟩

/-- The stream is started and never stopped, though the start has failed. -/
theorem stream_left_started : StopsSucceed notEnabled ∧ single.startStreaming notEnabled =
    ([(.resetForStreaming (), true), (.startStreamByIndex () 0, true),
      (.enableStreaming (), false)], false) :=
  ⟨stopsSucceed_notEnabled, rfl⟩

end DeviceManager

end Ffado.Devices
