import Mathlib.Algebra.Order.ToIntervalMod
import Mathlib.Tactic

/-!
# Times on a ring

A clock that wraps at `W` shows the points of `[0, W)`. The signed difference of two such
points is the shorter way from one to the other, taken in `(-W/2, W/2]`. It is the plain
difference but for at most one turn.
-/
namespace WrappedTime

variable {K : Type*} [Field K] [LinearOrder K] [IsStrictOrderedRing K] [Archimedean K]
  {W : K} (hW : 0 < W)

/-- The point of the ring that a time is shown as. -/
noncomputable def wrap (x : K) : K := toIcoMod hW 0 x

noncomputable def signedDiff (x y : K) : K := toIocMod hW (-(W / 2)) (x - y)

variable {x y d s : K}

theorem wrap_eq_iff : wrap hW x = y ↔ (0 ≤ y ∧ y < W) ∧ ∃ k : ℤ, x = y + k * W := by
  simp only [wrap, toIcoMod_eq_iff, Set.mem_Ico, zero_add, zsmul_eq_mul]

theorem signedDiff_eq_iff :
    signedDiff hW x y = d ↔ (-(W / 2) < d ∧ d ≤ W / 2) ∧ ∃ k : ℤ, x - y = d + k * W := by
  have hend : -(W / 2) + W = W / 2 := by ring
  simp only [signedDiff, toIocMod_eq_iff, Set.mem_Ioc, hend, zsmul_eq_mul]

theorem signedDiff_mem (x y : K) :
    -(W / 2) < signedDiff hW x y ∧ signedDiff hW x y ≤ W / 2 :=
  ((signedDiff_eq_iff hW).mp rfl).1

theorem wrap_mem (x : K) : 0 ≤ wrap hW x ∧ wrap hW x < W := ((wrap_eq_iff hW).mp rfl).1

theorem wrap_of_mem (h0 : 0 ≤ x) (h1 : x < W) : wrap hW x = x :=
  (wrap_eq_iff hW).mpr ⟨⟨h0, h1⟩, 0, by simp⟩

theorem wrap_of_neg (h0 : -W ≤ x) (h1 : x < 0) : wrap hW x = x + W := by
  refine (wrap_eq_iff hW).mpr ⟨⟨by linarith, by linarith⟩, -1, ?_⟩
  push_cast
  ring

/-- Moving both times leaves their signed difference. -/
theorem signedDiff_wrap_add (x y s : K) :
    signedDiff hW (wrap hW (x + s)) (wrap hW (y + s)) = signedDiff hW x y := by
  obtain ⟨-, i, hi⟩ := (wrap_eq_iff hW).mp (rfl : wrap hW (x + s) = _)
  obtain ⟨-, j, hj⟩ := (wrap_eq_iff hW).mp (rfl : wrap hW (y + s) = _)
  obtain ⟨hmem, k, hk⟩ := (signedDiff_eq_iff hW).mp (rfl : signedDiff hW x y = _)
  refine (signedDiff_eq_iff hW).mpr ⟨hmem, k - i + j, ?_⟩
  push_cast
  linear_combination hk - hi + hj

/-- Between two points of the ring the plain difference is off by at most one turn, and the
direction of the turn tells the sign. -/
theorem sub_eq_signedDiff_or (hx : 0 ≤ x ∧ x < W) (hy : 0 ≤ y ∧ y < W) :
    x - y = signedDiff hW x y ∨
      (x - y = signedDiff hW x y - W ∧ 0 < signedDiff hW x y) ∨
      (x - y = signedDiff hW x y + W ∧ signedDiff hW x y < 0) := by
  obtain ⟨⟨hlow, hhigh⟩, k, hk⟩ := (signedDiff_eq_iff hW).mp (rfl : signedDiff hW x y = _)
  generalize signedDiff hW x y = d at *
  have hk1 : -2 < k := by
    by_contra hle
    have hle' : (k : K) ≤ -2 := by exact_mod_cast not_lt.mp hle
    nlinarith [mul_le_mul_of_nonneg_right hle' hW.le]
  have hk2 : k < 2 := by
    by_contra hle
    have hle' : (2 : K) ≤ k := by exact_mod_cast not_lt.mp hle
    nlinarith [mul_le_mul_of_nonneg_right hle' hW.le]
  have hcases : k = -1 ∨ k = 0 ∨ k = 1 := by omega
  rcases hcases with rfl | rfl | rfl
  · push_cast at hk
    exact .inr (.inl ⟨by linarith, by linarith⟩)
  · push_cast at hk
    exact .inl (by linarith)
  · push_cast at hk
    exact .inr (.inr ⟨by linarith, by linarith⟩)

end WrappedTime
