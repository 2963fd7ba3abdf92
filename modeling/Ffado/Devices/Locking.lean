import Ffado.Devices.StartStreaming

/-!
# Locking the devices

The devices are locked before streaming is started and unlocked when it is over. A device that
cannot be locked is skipped only while the devices are prepared: its streams are started and it is
unlocked like the others, and a device that does not take the sampling rate stays locked with those
before it.
-/
namespace Ffado.Devices.DeviceManager

open CallLog

variable {δ : Type*} (m : DeviceManager δ) (lock : δ → Bool) (setSamplingFrequency : δ → ℕ → Bool)
  (unlock : δ → Bool)

def initDevices : List δ → List δ × Bool
  | [] => ([], true)
  | d :: ds =>
    if lock d then
      if setSamplingFrequency d 0 || setSamplingFrequency d 1 then
        let rest := initDevices ds
        (d :: rest.1, rest.2)
      else ([d], false)
    else initDevices ds

def initStreaming : List δ × Bool := initDevices lock setSamplingFrequency m.avDevices

def finishStreaming : Bool :=
  m.avDevices.foldl (fun result d => if unlock d then result else false) true

/-- Streams are started on locked devices only, the result of `finishStreaming` depends on these,
and a failed `initStreaming` leaves none. The later functions are called if it succeeds. -/
structure UsesLocked : Prop where
  started : (m.initStreaming lock setSamplingFrequency).2 = true → ∀ answer, ∀ d ∈ m.avDevices,
    lock d = false → ∀ j, (.startStreamByIndex d j, true) ∉
      (m.startStreaming answer).1 ++ (m.stopStreaming answer).1
  finished : (m.initStreaming lock setSamplingFrequency).2 = true →
    (∀ d ∈ m.avDevices, lock d = true → unlock d = true) → m.finishStreaming unlock = true
  released : (m.initStreaming lock setSamplingFrequency).2 = false →
    (m.initStreaming lock setSamplingFrequency).1 = []

variable {m lock setSamplingFrequency unlock}

theorem initDevices_result (ds : List δ) : (initDevices lock setSamplingFrequency ds).2 = true ↔
    ∀ d ∈ ds, lock d = true → (setSamplingFrequency d 0 || setSamplingFrequency d 1) = true := by
  induction ds with
  | nil => simp [initDevices]
  | cons d ds ih =>
    rw [initDevices, List.forall_mem_cons]
    split_ifs with hlock hrate
    · simp only [ih, hrate, implies_true, true_and]
    · exact iff_of_false (by simp) fun h => hrate (h.1 hlock)
    · rw [ih, and_iff_right fun h => absurd h hlock]

theorem initDevices_ne_nil {ds : List δ}
    (h : (initDevices lock setSamplingFrequency ds).2 = false) :
    (initDevices lock setSamplingFrequency ds).1 ≠ [] := by
  induction ds with
  | nil => cases h
  | cons d ds ih =>
    rw [initDevices] at h ⊢
    split_ifs at h ⊢
    · exact List.cons_ne_nil _ _
    · exact List.cons_ne_nil _ _
    · exact ih h

theorem finishStreaming_iff : m.finishStreaming unlock = true ↔ ∀ d ∈ m.avDevices,
    unlock d = true := by
  have hfold : ∀ (ds : List δ) (result : Bool),
      ds.foldl (fun result d => if unlock d then result else false) result = true ↔
        result = true ∧ ∀ d ∈ ds, unlock d = true := by
    intro ds
    induction ds with
    | nil => simp
    | cons d ds ih =>
      intro result
      rw [List.foldl_cons, ih, List.forall_mem_cons]
      cases unlock d <;> simp
  rw [finishStreaming, hfold, and_iff_right rfl]

theorem lt_of_mem_start {answer : Call δ → Bool} {d d' : δ} {j : ℕ}
    (h : (.startStreamByIndex d j, true) ∈ (m.startStreamingOnDevice answer d').1) :
    j < m.getStreamCount d := by
  obtain rfl : d = d' := Option.some.inj (device_of_mem_start h)
  rcases m.startStreamingOnDevice_cases answer d
    with ⟨-, -, hmem⟩ | ⟨-, -, started, k, hk, hlog, hmem⟩
  · rcases (hmem _).mp h with h | h | ⟨i, hi, h⟩
    · cases h
    · cases h
    · cases h
      exact hi
  · have hu := Call.Undoes.stop d j
    rw [hlog, List.mem_append, or_iff_left (notMem_stopStreamsBelow hu k true)] at h
    obtain ⟨i, hi, heq⟩ := undo_of_mem_started hu (hmem _ h)
    cases heq
    exact hi.trans_le hk

theorem mem_startStreaming_of_lt {d : δ} (hd : d ∈ m.avDevices)
    {j : ℕ} (hj : j < m.getStreamCount d) :
    (.startStreamByIndex d j, true) ∈ (m.startStreaming fun _ => true).1 := by
  have hup : ∀ d ∈ m.avDevices, m.startsUp (fun _ => true) d = true := by
    intro d _
    simp [startsUp, streamsStart]
  have hstarted := (allStarted_startLog hup).started d hd j hj
  rwa [startStreaming, startDevices_of_startsUp hup]

/-- Everything that the locks are for is kept, just if every locked device takes the rate, the
devices that cannot be locked have no streams, and these can be unlocked if the others can. -/
theorem usesLocked_iff (m : DeviceManager δ) (lock : δ → Bool) (setSamplingFrequency : δ → ℕ → Bool)
    (unlock : δ → Bool) :
    m.UsesLocked lock setSamplingFrequency unlock ↔
    (∀ d ∈ m.avDevices, lock d = true →
      (setSamplingFrequency d 0 || setSamplingFrequency d 1) = true) ∧
    (∀ d ∈ m.avDevices, lock d = false → m.getStreamCount d = 0) ∧
    ((∀ d ∈ m.avDevices, lock d = true → unlock d = true) →
      ∀ d ∈ m.avDevices, lock d = false → unlock d = true) := by
  rw [← initDevices_result]
  constructor
  · intro h
    have hinit : (m.initStreaming lock setSamplingFrequency).2 = true := by
      by_contra hfalse
      rw [Bool.not_eq_true] at hfalse
      exact initDevices_ne_nil hfalse (h.released hfalse)
    refine ⟨hinit, ?_, ?_⟩
    · intro d hd hlock
      by_contra hstreams
      exact h.started hinit (fun _ => true) d hd hlock 0
        (List.mem_append_left _ (mem_startStreaming_of_lt hd (Nat.pos_of_ne_zero hstreams)))
    · intro hunlock d hd _
      exact finishStreaming_iff.mp (h.finished hinit hunlock) d hd
  · rintro ⟨hinit, hstreams, hunlock⟩
    constructor
    · intro _ answer d hd hlock j hmem
      rcases List.mem_append.mp hmem with hmem | hmem
      · obtain ⟨d', -, hmem⟩ := mem_startStreaming (.stop d j) hmem
        have hlt := lt_of_mem_start hmem
        rw [hstreams d hd hlock] at hlt
        exact Nat.not_lt_zero j hlt
      · rcases List.mem_cons.mp hmem with h | h
        · cases h
        · exact notMem_stopDevices (.stop d j) _ true h
    · intro _ hlocked
      rw [finishStreaming_iff]
      intro d hd
      cases hlock : lock d with
      | true => exact hlocked d hd hlock
      | false => exact hunlock hlocked d hd hlock
    · intro hfalse
      exact absurd (hfalse.symm.trans hinit) Bool.false_ne_true

/-- The device cannot be locked, but its stream is started. A device that does not take the rate is
left locked. -/
theorem unlocked_device_used :
    ((single.initStreaming (fun _ => false) (fun _ _ => true)).2 = true ∧
      (.startStreamByIndex () 0, true) ∈ (single.startStreaming fun _ => true).1 ∧
      ∀ unlock, ¬ single.UsesLocked (fun _ => false) (fun _ _ => true) unlock) ∧
    single.initStreaming (fun _ => true) (fun _ _ => false) = ([()], false) ∧
      ∀ unlock, ¬ single.UsesLocked (fun _ => true) (fun _ _ => false) unlock := by
  have hstarted : (.startStreamByIndex () 0, true) ∈ (single.startStreaming fun _ => true).1 := by
    decide
  refine ⟨⟨rfl, hstarted, fun unlock h => ?_⟩, rfl, fun unlock h => ?_⟩
  · exact h.started rfl (fun _ => true) () (by decide) rfl 0 (List.mem_append_left _ hstarted)
  · exact List.cons_ne_nil _ _ (h.released rfl)

end Ffado.Devices.DeviceManager
