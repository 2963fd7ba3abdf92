import Mathlib.Algebra.Field.ZMod
import Mathlib.Algebra.Polynomial.Div
import Mathlib.Tactic

/-!
# Cyclic redundancy checks

The check value of a sequence of bits is a remainder of polynomials over the field with two
elements. A shift register computes it bit by bit. The mirrored register, which shifts to the right,
is linear in the register together with its input, so that several bits can be taken at once.
-/
namespace Crc

open Polynomial

variable {n : ℕ}

def bit (b : Bool) : ZMod 2 := if b then 1 else 0

theorem bit_xor (a b : Bool) : bit (a ^^ b) = bit a + bit b := by
  cases a <;> cases b <;> decide

theorem bit_and (a b : Bool) : bit (a && b) = bit a * bit b := by
  cases a <;> cases b <;> decide

theorem bit_add_self (b : Bool) : bit b + bit b = 0 := by
  cases b <;> decide

theorem bit_injective : Function.Injective bit := by
  intro a b h
  cases a <;> cases b <;> first | rfl | exact absurd h (by decide)

/-- The polynomial whose coefficients are the bits. -/
noncomputable def toPoly (v : BitVec n) : (ZMod 2)[X] :=
  ∑ i ∈ Finset.range n, C (bit (v.getLsbD i)) * X ^ i

theorem coeff_toPoly (v : BitVec n) (i : ℕ) : (toPoly v).coeff i = bit (v.getLsbD i) := by
  simp only [toPoly, finsetSum_coeff, coeff_C_mul, coeff_X_pow, mul_ite, mul_one, mul_zero,
    Finset.sum_ite_eq, Finset.mem_range]
  split_ifs with h
  · rfl
  · rw [BitVec.getLsbD_of_ge v i (Nat.le_of_not_lt h)]
    rfl

theorem toPoly_injective : Function.Injective (toPoly (n := n)) := by
  intro v v' h
  apply BitVec.eq_of_getLsbD_eq
  intro i _
  apply bit_injective
  rw [← coeff_toPoly, ← coeff_toPoly, h]

theorem degree_toPoly_lt (v : BitVec n) : (toPoly v).degree < n := by
  rw [degree_lt_iff_coeff_zero]
  intro i hi
  rw [coeff_toPoly, BitVec.getLsbD_of_ge v i hi]
  rfl

/-- The leading coefficient is not among the bits. -/
noncomputable def generator (g : BitVec n) : (ZMod 2)[X] := X ^ n + toPoly g

theorem generator_monic (g : BitVec n) : (generator g).Monic := monic_X_pow_add (degree_toPoly_lt g)

theorem degree_generator (g : BitVec n) : (generator g).degree = n := by
  rw [generator, degree_add_eq_left_of_degree_lt]
  · exact degree_X_pow n
  · rw [degree_X_pow]
    exact degree_toPoly_lt g

/-- The polynomial of a sequence of bits, the first of which has the highest power. -/
noncomputable def message (bits : List Bool) : (ZMod 2)[X] :=
  bits.foldl (fun p b => X * p + C (bit b)) 0

/-- The remainder of the bits with so many zeros behind them as the check value has, after the
register has been set to `init`. -/
noncomputable def remainder (g init : BitVec n) (bits : List Bool) : (ZMod 2)[X] :=
  (X ^ bits.length * toPoly init + X ^ n * message bits) %ₘ generator g

def shift (g r : BitVec n) (b : Bool) : BitVec n := (r <<< 1) ^^^ (if r.msb ^^ b then g else 0)

/-- The bit that is shifted out is the coefficient of the highest power. -/
theorem coeff_X_mul_toPoly (r : BitVec n) (i : ℕ) : (X * toPoly r).coeff i =
    bit ((r <<< 1).getLsbD i) + (if i = n then 1 else 0) * bit r.msb := by
  cases i with
  | zero =>
    rw [coeff_X_mul_zero]
    by_cases hn : 0 = n
    · subst hn
      rw [BitVec.eq_nil r]
      decide
    · simp [hn, bit]
  | succ i =>
    rw [coeff_X_mul, coeff_toPoly, BitVec.getLsbD_shiftLeft]
    rcases Nat.lt_trichotomy (i + 1) n with hlt | rfl | hgt
    · have hne : i + 1 ≠ n := by omega
      simp only [hlt, hne, decide_true, Nat.add_sub_cancel, if_false, zero_mul, add_zero]
      simp
    · simp [BitVec.msb_eq_getLsbD_last, bit]
    · have hne : i + 1 ≠ n := by omega
      have hnot : ¬ i + 1 < n := by omega
      simp [hne, hnot, BitVec.getLsbD_of_ge r i (by omega), bit]

/-- One step of the long division. -/
theorem toPoly_shift_add (g r : BitVec n) (b : Bool) :
    toPoly (shift g r b) + generator g * C (bit (r.msb ^^ b)) =
      X * toPoly r + X ^ n * C (bit b) := by
  ext i
  have hgate : (if r.msb ^^ b then g else 0).getLsbD i = (g.getLsbD i && (r.msb ^^ b)) := by
    cases (r.msb ^^ b) <;> simp
  have htwice := bit_add_self (g.getLsbD i && (r.msb ^^ b))
  rw [bit_and] at htwice
  rw [coeff_add, coeff_add, coeff_mul_C, coeff_mul_C, generator, coeff_add,
    coeff_X_pow, coeff_toPoly, coeff_toPoly, coeff_X_mul_toPoly, shift, BitVec.getLsbD_xor, hgate,
    bit_xor, bit_and, add_mul]
  have hout := bit_xor r.msb b
  linear_combination htwice + (if i = n then 1 else 0) * hout

theorem toPoly_shift (g r : BitVec n) (b : Bool) :
    toPoly (shift g r b) = (X * toPoly r + X ^ n * C (bit b)) %ₘ generator g := by
  have hdegree : (toPoly (shift g r b)).degree < (generator g).degree := by
    rw [degree_generator]
    exact degree_toPoly_lt _
  exact (div_modByMonic_unique _ _ (generator_monic g) ⟨toPoly_shift_add g r b, hdegree⟩).2.symm

/-- The register holds the remainder of the bits so far. -/
theorem toPoly_foldl_shift (g init : BitVec n) (bits : List Bool) :
    toPoly (bits.foldl (shift g) init) = remainder g init bits := by
  induction bits using List.reverseRecOn with
  | nil =>
    have hdegree : (toPoly init).degree < (generator g).degree := by
      rw [degree_generator]
      exact degree_toPoly_lt _
    simp [remainder, message, (modByMonic_eq_self_iff (generator_monic g)).mpr hdegree]
  | append_singleton bits b ih =>
    rw [List.foldl_append, List.foldl_cons, List.foldl_nil, toPoly_shift, ih, remainder, remainder,
      message, message, List.foldl_append, List.foldl_cons, List.foldl_nil, List.length_append,
      List.length_singleton]
    apply modByMonic_eq_of_dvd_sub (generator_monic g)
    rw [modByMonic_eq_sub_mul_div]
    refine ⟨-(X * ((X ^ bits.length * toPoly init + X ^ n * message bits) /ₘ generator g)), ?_⟩
    rw [message]
    ring

/-- The register shifts to the right, and its generator is mirrored, too. -/
def shiftDown (e r : BitVec n) (b : Bool) : BitVec n :=
  (r >>> 1) ^^^ (if r.getLsbD 0 ^^ b then e else 0)

theorem reverse_zero : (0#n).reverse = 0#n := by
  apply BitVec.eq_of_getLsbD_eq
  intro i _
  simp [BitVec.getLsbD_reverse]

theorem reverse_xor (v w : BitVec n) : (v ^^^ w).reverse = v.reverse ^^^ w.reverse := by
  apply BitVec.eq_of_getLsbD_eq
  intro i _
  rw [BitVec.getLsbD_xor, BitVec.getLsbD_reverse, BitVec.getLsbD_reverse, BitVec.getLsbD_reverse,
    BitVec.getMsbD_xor]

theorem reverse_shiftLeft_one (v : BitVec n) : (v <<< 1).reverse = v.reverse >>> 1 := by
  apply BitVec.eq_of_getLsbD_eq
  intro i _
  rw [BitVec.getLsbD_reverse, BitVec.getMsbD_shiftLeft, BitVec.getLsbD_ushiftRight,
    BitVec.getLsbD_reverse, Nat.add_comm]

theorem reverse_shift (g r : BitVec n) (b : Bool) :
    (shift g r b).reverse = shiftDown g.reverse r.reverse b := by
  have hmsb : r.reverse.getLsbD 0 = r.msb := by
    rw [BitVec.getLsbD_reverse]
    rfl
  rw [shift, shiftDown, reverse_xor, reverse_shiftLeft_one, hmsb]
  cases (r.msb ^^ b) with
  | true => rfl
  | false => simp [reverse_zero]

theorem reverse_foldl_shift (g : BitVec n) (bits : List Bool) (r : BitVec n) :
    (bits.foldl (shift g) r).reverse = bits.foldl (shiftDown g.reverse) r.reverse := by
  induction bits generalizing r with
  | nil => rfl
  | cons b bits ih => rw [List.foldl_cons, List.foldl_cons, ih, reverse_shift]

section Linear

variable (e : BitVec n)

variable {k : ℕ}

theorem gate_xor (a b : Bool) :
    (if a ^^ b then e else 0) = (if a then e else 0) ^^^ (if b then e else 0) := by
  cases a <;> cases b <;> simp

theorem shiftDown_xor (r r' : BitVec n) :
    shiftDown e (r ^^^ r') false = shiftDown e r false ^^^ shiftDown e r' false := by
  simp only [shiftDown, Bool.xor_false, BitVec.ushiftRight_xor_distrib,
    BitVec.getLsbD_xor, gate_xor]
  ac_rfl

theorem iterate_shiftDown_xor (k : ℕ) (r r' : BitVec n) :
    (shiftDown e · false)^[k] (r ^^^ r') =
      (shiftDown e · false)^[k] r ^^^ (shiftDown e · false)^[k] r' := by
  induction k generalizing r r' with
  | zero => rfl
  | succ k ih => rw [Function.iterate_succ_apply, shiftDown_xor, ih, ← Function.iterate_succ_apply,
      ← Function.iterate_succ_apply]

theorem iterate_shiftDown_of_low {r : BitVec n} (h : ∀ i < k, r.getLsbD i = false) :
    (shiftDown e · false)^[k] r = r >>> k := by
  induction k with
  | zero => rfl
  | succ k ih =>
    have hbit : (r >>> k).getLsbD 0 = false := by
      rw [BitVec.getLsbD_ushiftRight]
      exact h k (Nat.lt_add_one k)
    rw [Function.iterate_succ_apply', ih fun i hi => h i (by omega), shiftDown, hbit,
      BitVec.shiftRight_add]
    simp

/-- The register after the low bits of `v`, which has no others: they can be put into the register
first. -/
theorem foldl_shiftDown {v : BitVec n} (hv : v >>> k = 0#n) (r : BitVec n) :
    ((List.range k).map v.getLsbD).foldl (shiftDown e) r = (shiftDown e · false)^[k] (r ^^^ v) := by
  induction k generalizing v r with
  | zero =>
    rw [BitVec.ushiftRight_zero] at hv
    simp [hv]
  | succ k ih =>
    have hbits : (List.range (k + 1)).map v.getLsbD =
        v.getLsbD 0 :: (List.range k).map (v >>> 1).getLsbD := by
      rw [List.range_succ_eq_map, List.map_cons, List.map_map]
      congr 1
      apply List.map_congr_left
      intro i _
      rw [BitVec.getLsbD_ushiftRight, Nat.add_comm]
      rfl
    have hstep : shiftDown e r (v.getLsbD 0) ^^^ (v >>> 1) = shiftDown e (r ^^^ v) false := by
      simp only [shiftDown, Bool.xor_false, BitVec.ushiftRight_xor_distrib, BitVec.getLsbD_xor]
      ac_rfl
    rw [hbits, List.foldl_cons, ih, hstep, Function.iterate_succ_apply]
    rw [← BitVec.shiftRight_add, Nat.add_comm]
    exact hv

/-- The bits of the register that do not get as far as the end are only moved. -/
theorem iterate_shiftDown_split (r low : BitVec n) (h : ∀ i < k, r.getLsbD i = low.getLsbD i)
    (hlow : low >>> k = 0#n) :
    (shiftDown e · false)^[k] r = (r >>> k) ^^^ (shiftDown e · false)^[k] low := by
  have hhigh : ∀ i < k, (r ^^^ low).getLsbD i = false := by
    intro i hi
    rw [BitVec.getLsbD_xor, h i hi, Bool.xor_self]
  have hsplit : r = (r ^^^ low) ^^^ low := by
    rw [BitVec.xor_assoc, BitVec.xor_self, BitVec.xor_zero]
  calc (shiftDown e · false)^[k] r
      = (shiftDown e · false)^[k] ((r ^^^ low) ^^^ low) := by rw [← hsplit]
    _ = ((r ^^^ low) >>> k) ^^^ (shiftDown e · false)^[k] low := by
      rw [iterate_shiftDown_xor, iterate_shiftDown_of_low e hhigh]
    _ = (r >>> k) ^^^ (shiftDown e · false)^[k] low := by
      rw [BitVec.ushiftRight_xor_distrib, hlow, BitVec.xor_zero]

end Linear

end Crc
