import Mathlib.Tactic

/-!
# Loops with a counter that wraps

The loop `for (a = first; a < stop; a += stride)` with a counter modulo `modulus`, whose body may
fail. If the last round does not take the counter around, the loop is a finite sequence of rounds;
otherwise the counter never gets behind `stop`, and the loop ends with a failure or not at all.
-/
namespace WrappingLoop

variable {σ : Type*}

variable {s : σ} {a : ℕ}

def loop (modulus stride stop : ℕ) (body : ℕ → σ → σ × Bool) : ℕ → ℕ → σ → Option (σ × Bool)
  | 0, _, _ => none
  | fuel + 1, a, s =>
    if a < stop then
      match body a s with
      | (s', true) => loop modulus stride stop body fuel ((a + stride) % modulus) s'
      | (s', false) => some (s', false)
    else some (s, true)

def rounds (stride first stop : ℕ) : ℕ := (stop - first + (stride - 1)) / stride

variable {modulus stride stop first : ℕ} {body : ℕ → σ → σ × Bool}

theorem first_add_lt_stop {i : ℕ} (hstride : 0 < stride) (hi : i < rounds stride first stop) :
    first + stride * i < stop := by
  have h := Nat.mul_le_of_le_div stride (i + 1) _ hi
  rw [Nat.add_mul, Nat.one_mul, Nat.mul_comm] at h
  omega

theorem stop_le_first_add (hstride : 0 < stride) :
    stop ≤ first + stride * rounds stride first stop := by
  have h := Nat.lt_mul_div_succ (stop - first + (stride - 1)) hstride
  rw [Nat.mul_add, Nat.mul_one] at h
  rw [rounds]
  omega

section Returns

variable (inv : ℕ → σ → Prop)

/-- An invariant of the rounds holds when the loop is through, or up to the round that failed. -/
theorem loop_spec (hstride : 0 < stride)
    (hfit : first + stride * rounds stride first stop < modulus)
    (hstep : ∀ i < rounds stride first stop, ∀ s s', inv i s →
      body (first + stride * i) s = (s', true) → inv (i + 1) s')
    {fuel i : ℕ} {s : σ} (hi : i ≤ rounds stride first stop)
    (hfuel : rounds stride first stop < fuel + i) (h : inv i s) :
    ∃ s' ok, loop modulus stride stop body fuel (first + stride * i) s = some (s', ok) ∧
      (ok = true → inv (rounds stride first stop) s') ∧
      (ok = false → ∃ j < rounds stride first stop, ∃ t, inv j t ∧
        body (first + stride * j) t = (s', false)) := by
  induction fuel generalizing i s with
  | zero => omega
  | succ fuel ih =>
    rw [loop]
    rcases Nat.lt_or_ge i (rounds stride first stop) with hlt | hge
    · rw [if_pos (first_add_lt_stop hstride hlt)]
      cases hbody : body (first + stride * i) s with
      | mk s' ok =>
        cases ok with
        | true =>
          have hnext : (first + stride * i + stride) % modulus = first + stride * (i + 1) := by
            have hle := Nat.mul_le_mul_left stride hlt
            rw [Nat.mul_succ] at hle ⊢
            rw [Nat.mod_eq_of_lt (by omega)]
            omega
          simp only [hnext]
          exact ih hlt (by omega) (hstep i hlt s s' h hbody)
        | false => exact ⟨s', false, rfl, by simp, fun _ => ⟨i, hlt, s, h, hbody⟩⟩
    · have heq : i = rounds stride first stop := by omega
      have hstop : stop ≤ first + stride * rounds stride first stop := stop_le_first_add hstride
      rw [if_neg (by rw [heq]; omega)]
      exact ⟨s, true, rfl, fun _ => heq ▸ h, by simp⟩

theorem loop_returns (hstride : 0 < stride)
    (hfit : first + stride * rounds stride first stop < modulus) {s : σ} (h : inv 0 s)
    (hstep : ∀ i < rounds stride first stop, ∀ s s', inv i s →
      body (first + stride * i) s = (s', true) → inv (i + 1) s')
    {fuel : ℕ} (hfuel : rounds stride first stop < fuel) :
    ∃ s' ok, loop modulus stride stop body fuel first s = some (s', ok) ∧
      (ok = true → inv (rounds stride first stop) s') ∧
      (ok = false → ∃ j < rounds stride first stop, ∃ t, inv j t ∧
        body (first + stride * j) t = (s', false)) := by
  have hspec := loop_spec inv hstride hfit hstep (Nat.zero_le _) hfuel h
  rwa [Nat.mul_zero, Nat.add_zero] at hspec

end Returns

/-- If the last round takes the counter around, all counters of its class lie in front of `stop`. -/
theorem lt_stop_of_wrap (hstride : 0 < stride)
    (hwrap : modulus ≤ first + stride * rounds stride first stop) (hfirst : first < modulus) {b : ℕ}
    (hb : b < modulus) (hmod : b % stride = first % stride) : b < stop := by
  obtain ⟨i, hi⟩ : ∃ i, rounds stride first stop = i + 1 := by
    apply Nat.exists_eq_succ_of_ne_zero
    intro hzero
    rw [hzero] at hwrap
    omega
  have hlt : first + stride * i < stop := first_add_lt_stop hstride (by omega)
  rw [hi, Nat.mul_succ] at hwrap
  by_contra hge
  have hsame : b % stride = (first + stride * i) % stride := by
    rw [Nat.add_mul_mod_self_left, hmod]
  have hle := Nat.le_of_dvd (by omega) (Nat.dvd_of_mod_eq_zero
    (Nat.sub_mod_eq_zero_of_mod_eq hsame))
  omega

theorem loop_ne_true (hstride : 0 < stride) (hdvd : stride ∣ modulus)
    (hwrap : modulus ≤ first + stride * rounds stride first stop)
    (hfirst : first < modulus) (fuel : ℕ) {s' : σ} (ha : a < modulus)
    (hmod : a % stride = first % stride) : loop modulus stride stop body fuel a s ≠
      some (s', true) := by
  induction fuel generalizing a s with
  | zero => exact fun h => by cases h
  | succ fuel ih =>
    rw [loop, if_pos (lt_stop_of_wrap hstride hwrap hfirst ha hmod)]
    cases body a s with
    | mk t ok =>
      cases ok with
      | false => exact fun h => by cases h
      | true =>
        apply ih
        · exact Nat.mod_lt _ (by omega)
        · rw [Nat.mod_mod_of_dvd _ hdvd, Nat.add_mod_right, hmod]

/-- A loop whose body does not fail does not fail. -/
theorem result_of_loop (hbody : ∀ a s, (body a s).2 = true) {fuel : ℕ} {s' : σ} {ok : Bool}
    (h : loop modulus stride stop body fuel a s = some (s', ok)) : ok = true := by
  induction fuel generalizing a s with
  | zero => cases h
  | succ fuel ih =>
    rw [loop] at h
    have hok := hbody a s
    split_ifs at h
    · cases hcase : body a s with
      | mk t ok' =>
        rw [hcase] at hok h
        obtain rfl : ok' = true := hok
        exact ih h
    · exact (congrArg Prod.snd (Option.some.inj h)).symm

/-- If the body does not fail either, the loop does not end. -/
theorem loop_eq_none (hstride : 0 < stride) (hdvd : stride ∣ modulus)
    (hwrap : modulus ≤ first + stride * rounds stride first stop) (hfirst : first < modulus)
    (hbody : ∀ a s, (body a s).2 = true) (fuel : ℕ) (s : σ) (ha : a < modulus)
    (hmod : a % stride = first % stride) : loop modulus stride stop body fuel a s = none := by
  cases h : loop modulus stride stop body fuel a s with
  | none => rfl
  | some result =>
    obtain ⟨s', ok⟩ := result
    obtain rfl := result_of_loop hbody h
    exact absurd h (loop_ne_true hstride hdvd hwrap hfirst fuel ha hmod)

/-- Runs that end agree. -/
theorem loop_agrees {fuel fuel' : ℕ} {r r' : σ × Bool}
    (h : loop modulus stride stop body fuel a s = some r)
    (h' : loop modulus stride stop body fuel' a s = some r') : r = r' := by
  induction fuel generalizing fuel' a s with
  | zero => cases h
  | succ fuel ih =>
    cases fuel' with
    | zero => cases h'
    | succ fuel' =>
      rw [loop] at h h'
      by_cases hlt : a < stop
      · rw [if_pos hlt] at h h'
        cases hbody : body a s with
        | mk s' ok =>
          rw [hbody] at h h'
          cases ok with
          | true => exact ih h h'
          | false => exact Option.some.inj (h.symm.trans h')
      · rw [if_neg hlt] at h h'
        exact Option.some.inj (h.symm.trans h')

end WrappingLoop
