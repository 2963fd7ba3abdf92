import Mathlib.Algebra.BigOperators.Group.Finset.Basic
import Mathlib.Data.Fintype.BigOperators

/-!
# Ledgers

A table whose entries stand for values of a commutative monoid, for example resources that are
held elsewhere. When one entry is replaced the total changes by the two values.
-/
namespace Ledger

open Function

variable {ι α M : Type*} [Fintype ι] [DecidableEq ι] [AddCommMonoid M] (value : α → M)

/-- What all entries together stand for. -/
def total (table : ι → α) : M := ∑ i, value (table i)

variable {value} {table : ι → α} {i : ι} {x : α}

theorem total_update (table : ι → α) (i : ι) (x : α) :
    total value (update table i x) + value (table i) = total value table + value x := by
  have hrest : ∑ j ∈ Finset.univ.erase i, value (update table i x j) =
      ∑ j ∈ Finset.univ.erase i, value (table j) := by
    apply Finset.sum_congr rfl
    intro j hj
    rw [update_of_ne (Finset.ne_of_mem_erase hj)]
  rw [total, total, ← Finset.sum_erase_add _ _ (Finset.mem_univ i), hrest, update_self,
    ← Finset.sum_erase_add Finset.univ (fun j => value (table j)) (Finset.mem_univ i)]
  exact add_right_comm _ _ _

theorem total_record (h : value (table i) = 0) :
    total value (update table i x) = total value table + value x := by
  have hupdate := @total_update _ _ _ _ _ _ value table i x
  rwa [h, add_zero] at hupdate

theorem total_strike (h : value x = 0) :
    total value (update table i x) + value (table i) = total value table := by
  rw [total_update, h, add_zero]

omit [DecidableEq ι] in
theorem total_eq_zero (h : ∀ i, value (table i) = 0) : total value table = 0 :=
  Finset.sum_eq_zero fun i _ => h i

theorem exists_total_eq (table : ι → α) (i : ι) : ∃ rest,
    total value table = rest + value (table i) :=
  ⟨_, (Finset.sum_erase_add Finset.univ (fun j => value (table j)) (Finset.mem_univ i)).symm⟩

end Ledger
