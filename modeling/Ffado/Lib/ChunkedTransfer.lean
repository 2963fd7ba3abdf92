import Mathlib.Tactic

/-!
# Transfers in chunks

A loop that moves a number of cells, at most `chunk` of them at a time. Each chunk may be refused,
which ends the loop, and the counter of the loop overflows at `limit`. The rule `transfer_spec` is
an invariant rule: what holds of the first `done` cells is kept by one more chunk.
-/
namespace ChunkedTransfer

variable {σ : Type*}

variable {fuel done : ℕ}

def loop (chunk limit total : ℕ) (move : ℕ → ℕ → σ → σ) (granted : ℕ → Bool) :
    ℕ → ℕ → σ → Option (σ × Bool)
  | 0, _, _ => none
  | fuel + 1, done, s =>
    if done < total then
      if limit ≤ done then none
      else
        let todo := if chunk < total - done then chunk else total - done
        if granted done then loop chunk limit total move granted fuel (done + todo)
          (move done todo s)
        else some (s, false)
    else some (s, true)

/-- Every round moves something. -/
def transfer (chunk limit total : ℕ) (move : ℕ → ℕ → σ → σ) (granted : ℕ → Bool) (s : σ) :
    Option (σ × Bool) :=
  loop chunk limit total move granted (total + 1) 0 s

variable {chunk limit total : ℕ} {move : ℕ → ℕ → σ → σ} {granted : ℕ → Bool} {s s' : σ}

theorem loop_spec (inv : ℕ → σ → Prop) (hchunk : 0 < chunk) (hlimit : total ≤ limit)
    (hstep : ∀ done s, done < total → inv done s → inv (done + min chunk (total - done))
      (move done (min chunk (total - done)) s))
    (hfuel : total < fuel + done) (hdone : done ≤ total) (h : inv done s) :
    ∃ s', loop chunk limit total move (fun _ => true) fuel done s = some (s', true) ∧
      inv total s' := by
  induction fuel generalizing done s with
  | zero => omega
  | succ fuel ih =>
    rw [loop]
    by_cases hlt : done < total
    · have htodo : (if chunk < total - done then chunk else total - done) =
          min chunk (total - done) := by
        split_ifs <;> omega
      simp only [if_pos hlt, if_neg (by omega : ¬ limit ≤ done), if_true, htodo]
      exact ih (by omega) (by omega) (hstep done s hlt h)
    · have heq : done = total := by omega
      rw [if_neg hlt]
      exact ⟨s, rfl, heq ▸ h⟩

theorem transfer_spec (inv : ℕ → σ → Prop) (hchunk : 0 < chunk) (hlimit : total ≤ limit)
    (hstep : ∀ done s, done < total → inv done s →
      inv (done + min chunk (total - done)) (move done (min chunk (total - done)) s))
    (h : inv 0 s) :
    ∃ s', transfer chunk limit total move (fun _ => true) s = some (s', true) ∧ inv total s' :=
  loop_spec inv hchunk hlimit hstep (by omega) (Nat.zero_le _) h

theorem loop_granted (h : loop chunk limit total move granted fuel done s = some (s', true)) :
    loop chunk limit total move (fun _ => true) fuel done s = some (s', true) := by
  induction fuel generalizing done s with
  | zero => cases h
  | succ fuel ih =>
    rw [loop] at h ⊢
    by_cases hlt : done < total
    · by_cases hlimit : limit ≤ done
      · rw [if_pos hlt, if_pos hlimit] at h
        cases h
      · rw [if_pos hlt, if_neg hlimit] at h ⊢
        cases hgranted : granted done with
        | true =>
          simp only [hgranted, if_true] at h
          exact ih h
        | false => simp [hgranted] at h
    · rwa [if_neg hlt] at h ⊢

theorem transfer_granted (h : transfer chunk limit total move granted s = some (s', true)) :
    transfer chunk limit total move (fun _ => true) s = some (s', true) :=
  loop_granted h

theorem loop_overflow (hlimit : limit < total) (hdvd : chunk ∣ limit) (hdone : chunk ∣ done)
    (hle : done ≤ limit) :
    loop chunk limit total move (fun _ => true) fuel done s = none := by
  induction fuel generalizing done s with
  | zero => rfl
  | succ fuel ih =>
    rw [loop, if_pos (by omega)]
    by_cases hover : limit ≤ done
    · rw [if_pos hover]
    · -- another chunk fits below the limit
      have hnext : done + chunk ≤ limit := by
        obtain ⟨a, rfl⟩ := hdvd
        obtain ⟨b, rfl⟩ := hdone
        have hlt : b < a := by
          by_contra hge
          exact hover (Nat.mul_le_mul_left chunk (by omega))
        calc chunk * b + chunk = chunk * (b + 1) := by ring
          _ ≤ chunk * a := Nat.mul_le_mul_left chunk hlt
      simp only [if_neg hover, if_true, if_pos (by omega : chunk < total - done)]
      exact ih (dvd_add hdone (dvd_refl chunk)) hnext

theorem transfer_overflow (hlimit : limit < total) (hdvd : chunk ∣ limit) :
    transfer chunk limit total move (fun _ => true) s = none :=
  loop_overflow hlimit hdvd (dvd_zero chunk) (Nat.zero_le limit)

/-- The loop counts what is left, and its body tells whether it has succeeded. -/
def doLoop (chunk : ℕ) (body : ℕ → σ → σ × Bool) : ℕ → ℕ → σ → Option (σ × Bool)
  | 0, _, _ => none
  | fuel + 1, left, s =>
    let todo := if chunk < left then chunk else left
    match body todo s with
    | (s, false) => some (s, false)
    | (s, true) => if 0 < left - todo then doLoop chunk body fuel (left - todo) s
        else some (s, true)

def doTransfer (chunk total : ℕ) (body : ℕ → σ → σ × Bool) (s : σ) : Option (σ × Bool) :=
  doLoop chunk body (total + 1) total s

/-- The number of rounds that it takes. -/
def rounds (chunk total : ℕ) : ℕ := max 1 ((total + (chunk - 1)) / chunk)

theorem lt_rounds_iff (hchunk : 0 < chunk) {m : ℕ} :
    m < rounds chunk total ↔ m = 0 ∨ chunk * m < total := by
  have hdiv : m < (total + (chunk - 1)) / chunk ↔ chunk * m < total := by
    rw [← Nat.succ_le_iff, Nat.le_div_iff_mul_le hchunk, Nat.succ_mul, Nat.mul_comm m]
    omega
  rw [rounds, lt_max_iff, hdiv, Nat.lt_one_iff]

theorem total_le_rounds (hchunk : 0 < chunk) : total ≤ chunk * rounds chunk total := by
  have h := mt (lt_rounds_iff hchunk).mpr (lt_irrefl (rounds chunk total))
  rw [not_or, not_lt] at h
  exact h.2

section Rounds

variable {body : ℕ → σ → σ × Bool} {after : ℕ → σ} {good : ℕ → Prop} (hchunk : 0 < chunk)
  (hgood : ∀ m < rounds chunk total, good m →
    body (min chunk (total - chunk * m)) (after m) = (after (m + 1), true))
  (hbad : ∀ m < rounds chunk total, ¬ good m →
    (body (min chunk (total - chunk * m)) (after m)).2 = false)

include hchunk hgood hbad

theorem doLoop_spec {fuel m : ℕ} (hm : m < rounds chunk total) (hfuel : total - chunk * m < fuel) :
    ∃ s ok, doLoop chunk body fuel (total - chunk * m) (after m) = some (s, ok) ∧
      (ok = true ↔ ∀ i, m ≤ i → i < rounds chunk total → good i) ∧
      (ok = true → s = after (rounds chunk total)) := by
  induction fuel generalizing m with
  | zero => omega
  | succ fuel ih =>
    rw [doLoop]
    have htodo : (if chunk < total - chunk * m then chunk else total - chunk * m) =
        min chunk (total - chunk * m) := by
      split_ifs <;> omega
    simp only [htodo]
    by_cases h : good m
    · have hleft : total - chunk * m - min chunk (total - chunk * m) = total - chunk * (m + 1) := by
        rw [Nat.mul_succ]
        omega
      rw [hgood m hm h]
      dsimp only
      rw [hleft]
      by_cases hmore : 0 < total - chunk * (m + 1)
      · have hfuel' : total - chunk * (m + 1) < fuel := by
          rw [Nat.mul_succ] at hmore ⊢
          omega
        obtain ⟨s, ok, hrun, hok, hs⟩ := ih ((lt_rounds_iff hchunk).mpr (.inr (by omega))) hfuel'
        rw [if_pos hmore]
        refine ⟨s, ok, hrun, hok.trans ⟨fun hrest i hi hlt => ?_,
          fun hall i hi => hall i (by omega)⟩, hs⟩
        rcases eq_or_lt_of_le hi with rfl | hi
        · exact h
        · exact hrest i hi hlt
      · have hlast : ¬ m + 1 < rounds chunk total := by
          rw [lt_rounds_iff hchunk]
          omega
        have heq : m + 1 = rounds chunk total := by omega
        rw [if_neg hmore, heq]
        refine ⟨_, true, rfl, iff_of_true rfl fun i hi hlt => ?_, fun _ => rfl⟩
        obtain rfl : i = m := by omega
        exact h
    · cases hbody : body (min chunk (total - chunk * m)) (after m) with
      | mk s ok =>
        obtain rfl : ok = false := (congrArg Prod.snd hbody).symm.trans (hbad m hm h)
        exact ⟨s, false, rfl, iff_of_false nofun fun hall => h (hall m le_rfl hm), nofun⟩

theorem doTransfer_spec :
    ∃ s ok, doTransfer chunk total body (after 0) = some (s, ok) ∧
      (ok = true ↔ ∀ m < rounds chunk total, good m) ∧
      (ok = true → s = after (rounds chunk total)) := by
  have hspec := @doLoop_spec _ chunk total body after good hchunk hgood hbad (total + 1) 0
    ((lt_rounds_iff hchunk).mpr (.inl rfl)) (by omega)
  simpa only [doTransfer, Nat.mul_zero, Nat.sub_zero, Nat.zero_le, forall_const] using hspec

end Rounds

end ChunkedTransfer
