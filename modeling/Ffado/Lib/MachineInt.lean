import Mathlib.Tactic

/-!
# Conversions of machine integers

Values are unbounded; `u32` and `i32` are what a conversion to an unsigned or a signed 32 bit
integer makes of them, `u64` a conversion to an unsigned 64 bit one. Arithmetic on such integers
is the unbounded operation followed by the conversion.
-/
namespace MachineInt

/-- Arithmetic of `unsigned int`. -/
def u32 (x : ℕ) : ℕ := x % 2 ^ 32

def i32 (x : ℤ) : ℤ := Int.bmod x (2 ^ 32)

theorem u32_of_lt {x : ℕ} (h : x < 2 ^ 32) : u32 x = x := Nat.mod_eq_of_lt h

theorem u32_le (x : ℕ) : u32 x ≤ x := Nat.mod_le _ _

theorem u32_lt (x : ℕ) : u32 x < 2 ^ 32 := Nat.mod_lt _ (by norm_num)

@[simp] theorem u32_u32_mul (x y : ℕ) : u32 (u32 x * y) = u32 (x * y) := by simp [u32]

theorem i32_of_range {x : ℤ} (h0 : -2 ^ 31 ≤ x) (h1 : x < 2 ^ 31) : i32 x = x := by
  unfold i32
  rw [Int.bmod_def]
  norm_num at *
  split_ifs <;> omega

/-- Wrapping at each step or at the end is the same. -/
theorem i32_i32_add (x y : ℤ) : i32 (i32 x + y) = i32 (x + y) := by
  simp [i32]

theorem i32_add_i32_sub_i32 (x y z : ℤ) : i32 (x + i32 y - i32 z) = i32 (x + y - z) := by
  simp only [i32]
  rw [Int.sub_bmod_bmod, Int.sub_eq_add_neg, Int.add_right_comm, Int.add_bmod_bmod]
  congr 1
  ring

/-- Arithmetic of `size_t` and of pointers. -/
@[irreducible] def u64 (x : ℕ) : ℕ := x % 2 ^ 64

/-- The `size_t` that adds as `-1`. -/
@[irreducible] def sizeMax : ℕ := 2 ^ 64 - 1

theorem sizeMax_add_one : sizeMax + 1 = 2 ^ 64 := by
  rw [sizeMax]
  norm_num

theorem u64_of_lt {x : ℕ} (h : x < 2 ^ 64) : u64 x = x := by
  rw [u64, Nat.mod_eq_of_lt h]

theorem u64_lt (x : ℕ) : u64 x < 2 ^ 64 := by
  rw [u64]
  exact Nat.mod_lt _ (by norm_num)

@[irreducible] def sizeOfInt (x : ℤ) : ℕ := (x % 2 ^ 64).toNat

theorem sizeOfInt_natCast {n : ℕ} (h : n < 2 ^ 64) : sizeOfInt n = n := by
  rw [sizeOfInt]
  omega

/-- An `int` that counts with the low bits of a 64 bit counter goes down just if it overflows. -/
theorem i32_le_i32_u64_add (x n : ℕ) :
    i32 x ≤ i32 (u64 (x + n) : ℕ) ↔ i32 x + (n % 2 ^ 32 : ℕ) < 2 ^ 31 := by
  unfold i32 u64
  rw [Int.bmod_def, Int.bmod_def]
  norm_num
  split_ifs <;> omega

end MachineInt
