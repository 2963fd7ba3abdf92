import Mathlib.Data.List.Nodup
import Mathlib.Logic.Function.Basic
import Mathlib.Tactic

/-!
# Sequences of stores

A loop that only writes is a list of stores, an address and a value each. `stores` performs
them in order. A list is `Consistent` if no address gets two values: then its order does not
matter, and two loops leave the same memory as soon as they perform the same stores. A cell
is independent of the memory before exactly if some store goes to it.
-/
namespace Stores

universe u

variable {A α ι : Type*} [DecidableEq A]

variable {a : A} {l : List (A × α)} {is : List ι} {start bound step stride n : ℕ}
    {value : ℕ → ℕ → α}

def stores (m : A → α) : List (A × α) → A → α
  | [] => m
  | (a, v) :: l => stores (Function.update m a v) l

@[simp] theorem stores_cons (m : A → α) (a : A) (v : α) (l : List (A × α)) :
    stores m ((a, v) :: l) = stores (Function.update m a v) l := rfl

theorem stores_append (m : A → α) (l l' : List (A × α)) :
    stores m (l ++ l') = stores (stores m l) l' := by
  induction l generalizing m with
  | nil => rfl
  | cons w l ih => exact ih _

theorem stores_of_notMem {m : A → α} (h : a ∉ l.map Prod.fst) :
    stores m l a = m a := by
  induction l generalizing m with
  | nil => rfl
  | cons w l ih =>
    rw [List.map_cons, List.mem_cons, not_or] at h
    rw [stores, ih h.2, Function.update_of_ne h.1]

theorem exists_stored (h : a ∈ l.map Prod.fst) :
    ∃ v, (a, v) ∈ l ∧ ∀ m : A → α, stores m l a = v := by
  induction l with
  | nil => simp at h
  | cons w l ih =>
    by_cases hlater : a ∈ l.map Prod.fst
    · obtain ⟨v, hv, hstored⟩ := ih hlater
      exact ⟨v, List.mem_cons_of_mem w hv, fun m => hstored _⟩
    · have hfirst : a = w.1 := by
        rw [List.map_cons, List.mem_cons] at h
        exact h.resolve_right hlater
      refine ⟨w.2, by rw [hfirst]; exact List.mem_cons_self, ?_⟩
      intro m
      rw [stores, stores_of_notMem hlater, hfirst, Function.update_self]

/-- No address gets two values. -/
def Consistent (l : List (A × α)) : Prop :=
  ∀ a v v', (a, v) ∈ l → (a, v') ∈ l → v = v'

omit [DecidableEq A] in
theorem Consistent.congr {l' : List (A × α)} (hl : Consistent l) (h : ∀ w, w ∈ l' ↔ w ∈ l) :
    Consistent l' := by
  intro a v v' hv hv'
  exact hl a v v' ((h _).mp hv) ((h _).mp hv')

theorem stores_of_mem (hl : Consistent l) {v : α} (h : (a, v) ∈ l)
    (m : A → α) : stores m l a = v := by
  obtain ⟨v', hv', hstored⟩ := exists_stored (List.mem_map_of_mem (f := Prod.fst) h)
  rw [hstored m]
  exact hl a v' v hv' h

theorem stores_congr {l' : List (A × α)} (hl : Consistent l) (h : ∀ w, w ∈ l' ↔ w ∈ l) (m : A → α) :
    stores m l' = stores m l := by
  funext a
  by_cases ha : a ∈ l.map Prod.fst
  · obtain ⟨⟨_, v⟩, hv, rfl⟩ := List.mem_map.mp ha
    rw [stores_of_mem hl hv, stores_of_mem (hl.congr h) ((h _).mpr hv)]
  · have ha' : a ∉ l'.map Prod.fst := by
      intro hmem
      obtain ⟨w, hw, rfl⟩ := List.mem_map.mp hmem
      exact ha (List.mem_map_of_mem (f := Prod.fst) ((h w).mp hw))
    rw [stores_of_notMem ha, stores_of_notMem ha']

/-- What a cell holds does not depend on the memory before, exactly if it is stored to. -/
theorem stores_independent_iff [Nontrivial α] :
    (∀ m m' : A → α, stores m l a = stores m' l a) ↔ a ∈ l.map Prod.fst := by
  constructor
  · intro h
    by_contra ha
    obtain ⟨x, y, hne⟩ := exists_pair_ne α
    have hsame := h (fun _ => x) (fun _ => y)
    rw [stores_of_notMem ha, stores_of_notMem ha] at hsame
    exact hne hsame
  · intro ha m m'
    obtain ⟨v, -, hstored⟩ := exists_stored ha
    rw [hstored m, hstored m']

/-- The values of `i` in `for (i = start; i < bound; i += step)`. -/
def forIndices (start bound step : ℕ) : List ℕ :=
  (List.range ((bound - start + (step - 1)) / step)).map fun k => start + k * step

/-- The value of `i` after the loop. -/
def forEnd (start bound step : ℕ) : ℕ := start + (bound - start + (step - 1)) / step * step

theorem mem_forIndices {i : ℕ} (hstep : 0 < step) :
    i ∈ forIndices start bound step ↔ start ≤ i ∧ i < bound ∧ (i - start) % step = 0 := by
  unfold forIndices
  rw [List.mem_map]
  constructor
  · rintro ⟨k, hk, rfl⟩
    rw [List.mem_range, Nat.lt_div_iff_mul_lt hstep] at hk
    exact ⟨by omega, by omega, by simp⟩
  · rintro ⟨hstart, hbound, hstride⟩
    obtain ⟨k, hk⟩ := Nat.dvd_of_mod_eq_zero hstride
    refine ⟨k, ?_, by rw [Nat.mul_comm, ← hk]; omega⟩
    rw [List.mem_range, Nat.lt_div_iff_mul_lt hstep, Nat.mul_comm, ← hk]
    omega

/-- The loop stops at the first value that is not below the bound. -/
theorem forEnd_spec (hstep : 0 < step) (h : start ≤ bound) :
    bound ≤ forEnd start bound step ∧ forEnd start bound step < bound + step := by
  unfold forEnd
  have hdiv := Nat.div_add_mod (bound - start + (step - 1)) step
  have hmod := Nat.mod_lt (bound - start + (step - 1)) hstep
  rw [Nat.mul_comm] at hdiv
  omega

theorem foldl_stores {f : (A → α) → ι → A → α} {passes : ι → List (A × α)}
    (h : ∀ i ∈ is, ∀ m, f m i = stores m (passes i)) (m : A → α) :
    is.foldl f m = stores m (is.flatMap passes) := by
  induction is generalizing m with
  | nil => rfl
  | cons i is ih =>
    rw [List.foldl_cons, h i List.mem_cons_self, List.flatMap_cons, stores_append]
    exact ih (fun j hj => h j (List.mem_cons_of_mem i hj)) _

/-- The same for passes that can fail. -/
theorem foldlM_stores {f : (A → α) → ι → Option (A → α)} {passes : ι → List (A × α)}
    (h : ∀ i ∈ is, ∀ m, f m i = some (stores m (passes i))) (m : A → α) :
    is.foldlM f m = some (stores m (is.flatMap passes)) := by
  induction is generalizing m with
  | nil => rfl
  | cons i is ih =>
    rw [List.foldlM_cons, h i List.mem_cons_self, List.flatMap_cons, stores_append]
    exact ih (fun j hj => h j (List.mem_cons_of_mem i hj)) _

/-- A loop over the indices of a list is a loop over the list. -/
theorem foldlM_range {β σ : Type u} (f : σ → β → Option σ) (l : List β) (s : σ) :
    (List.range l.length).foldlM (fun s i => do
      let b ← l[i]?
      f s b) s = l.foldlM f s := by
  induction l generalizing s with
  | nil => rfl
  | cons b l ih =>
    rw [List.length_cons, List.range_succ_eq_map, List.foldlM_cons, List.foldlM_cons]
    apply bind_congr
    intro s
    rw [List.foldlM_map]
    exact ih s

/-- A loop whose passes change one cell each, and no cell twice. -/
theorem foldlM_update {f : (A → α) → ι → Option (A → α)} {key : ι → A} {g : ι → α → Option α}
    {m : A → α} (hkeys : (is.map key).Nodup)
    (hpass : ∀ i ∈ is, ∀ m, f m i = (g i (m (key i))).map (Function.update m (key i)))
    (h : ∀ i ∈ is, (g i (m (key i))).isSome) :
    ∃ m', is.foldlM f m = some m' ∧
      (∀ i ∈ is, g i (m (key i)) = some (m' (key i))) ∧ ∀ a ∉ is.map key, m' a = m a := by
  induction is generalizing m with
  | nil => exact ⟨m, rfl, by simp, fun _ _ => rfl⟩
  | cons i is ih =>
    rw [List.map_cons, List.nodup_cons] at hkeys
    obtain ⟨v, hv⟩ := Option.isSome_iff_exists.mp (h i List.mem_cons_self)
    have hother : ∀ j ∈ is, Function.update m (key i) v (key j) = m (key j) := by
      intro j hj
      have hne : key j ≠ key i := by
        intro heq
        exact hkeys.1 (heq ▸ List.mem_map_of_mem hj)
      exact Function.update_of_ne hne _ _
    have hrest : ∀ j ∈ is, (g j (Function.update m (key i) v (key j))).isSome := by
      intro j hj
      rw [hother j hj]
      exact h j (List.mem_cons_of_mem i hj)
    obtain ⟨m', hrun, hchanged, hkept⟩ :=
      ih hkeys.2 (fun j hj => hpass j (List.mem_cons_of_mem i hj)) hrest
    refine ⟨m', ?_, ?_, ?_⟩
    · rw [List.foldlM_cons, hpass i List.mem_cons_self, hv]
      exact hrun
    · intro j hj
      rcases List.mem_cons.mp hj with rfl | hj
      · rw [hkept _ hkeys.1, Function.update_self, hv]
      · rw [← hother j hj]
        exact hchanged j hj
    · intro a ha
      rw [List.map_cons, List.mem_cons, not_or] at ha
      rw [hkept a ha.2, Function.update_of_ne ha.1]

def fill (m : ℕ → α) (target stride : ℕ) (value : ℕ → α) : ℕ → ℕ → α
  | 0 => m
  | n + 1 => fill (Function.update m target (value 0)) (target + stride) stride
      (fun j => value (j + 1)) n

/-- The stores of one column of a matrix with rows of `stride` cells. -/
def column (target stride : ℕ) (value : ℕ → α) (n : ℕ) : List (ℕ × α) :=
  (List.range n).map fun j => (target + j * stride, value j)

theorem fill_eq (m : ℕ → α) (target stride : ℕ) (value : ℕ → α) (n : ℕ) :
    fill m target stride value n = stores m (column target stride value n) := by
  unfold column
  induction n generalizing m target value with
  | zero => rfl
  | succ n ih =>
    rw [fill, ih, List.range_succ_eq_map, List.map_cons, stores_cons, List.map_map]
    congr 1
    · simp
    · apply List.map_congr_left
      intro j _
      simp only [Function.comp_apply, Nat.succ_eq_add_one, Prod.mk.injEq, and_true]
      ring

def FillsColumns (l : List (ℕ × α)) (stride n : ℕ) (value : ℕ → ℕ → α) (first last : ℕ) : Prop :=
  ∀ w, w ∈ l ↔ ∃ i j, first ≤ i ∧ i < last ∧ j < n ∧ w = (i + j * stride, value i j)

/-- The cell of a row and a column determines both. -/
theorem cell_inj {i j i' j' : ℕ} (hi : i < stride) (hi' : i' < stride)
    (h : i + j * stride = i' + j' * stride) : i = i' ∧ j = j' := by
  have hcol : i = i' := by
    have hmod := congrArg (· % stride) h
    simpa [Nat.mod_eq_of_lt hi, Nat.mod_eq_of_lt hi'] using hmod
  subst hcol
  exact ⟨rfl, Nat.eq_of_mul_eq_mul_right (by omega) (Nat.add_left_cancel h)⟩

theorem fillsColumns_columns (stride n : ℕ) (value : ℕ → ℕ → α) (last : ℕ) :
    FillsColumns ((List.range last).flatMap fun i => column i stride (value i) n) stride n value
      0 last := by
  intro w
  simp only [column, List.mem_flatMap, List.mem_range, List.mem_map]
  constructor
  · rintro ⟨i, hi, j, hj, rfl⟩
    exact ⟨i, j, Nat.zero_le i, hi, hj, rfl⟩
  · rintro ⟨i, j, -, hi, hj, rfl⟩
    exact ⟨i, hi, j, hj, rfl⟩

/-- Columns of one matrix do not meet. -/
theorem FillsColumns.consistent {l : List (ℕ × α)} {first last : ℕ}
    (h : FillsColumns l stride n value first last) (hlast : last ≤ stride) :
    Consistent l := by
  intro a v v' hv hv'
  obtain ⟨i, j, -, hi, -, hw⟩ := (h _).mp hv
  obtain ⟨i', j', -, hi', -, hw'⟩ := (h _).mp hv'
  rw [Prod.mk.injEq] at hw hw'
  obtain ⟨rfl, rfl⟩ := cell_inj (by omega) (by omega) (hw.1.symm.trans hw'.1)
  rw [hw.2, hw'.2]

theorem FillsColumns.append {l l' : List (ℕ × α)} {first middle last : ℕ}
    (h : FillsColumns l stride n value first middle)
    (h' : FillsColumns l' stride n value middle last) (hle : first ≤ middle)
    (hle' : middle ≤ last) : FillsColumns (l ++ l') stride n value first last := by
  intro w
  rw [List.mem_append, h w, h' w]
  constructor
  · rintro (⟨i, j, hi, hi', hj, rfl⟩ | ⟨i, j, hi, hi', hj, rfl⟩)
    · exact ⟨i, j, hi, by omega, hj, rfl⟩
    · exact ⟨i, j, by omega, hi', hj, rfl⟩
  · rintro ⟨i, j, hi, hi', hj, rfl⟩
    rcases Nat.lt_or_ge i middle with hlt | hge
    · exact .inl ⟨i, j, hi, hlt, hj, rfl⟩
    · exact .inr ⟨i, j, hge, hi', hj, rfl⟩

theorem fillsColumns_nil (stride n : ℕ) (value : ℕ → ℕ → α) (first : ℕ) :
    FillsColumns [] stride n value first first := by
  intro w
  constructor
  · intro hw
    cases hw
  · rintro ⟨i, j, hi, hi', -, -⟩
    omega

theorem fillsColumns_column (i stride n : ℕ) (value : ℕ → ℕ → α) :
    FillsColumns (column i stride (value i) n) stride n value i (i + 1) := by
  intro w
  simp only [column, List.mem_map, List.mem_range]
  constructor
  · rintro ⟨j, hj, rfl⟩
    exact ⟨i, j, Nat.le_refl i, Nat.lt_succ_self i, hj, rfl⟩
  · rintro ⟨i', j, hi, hi', hj, rfl⟩
    obtain rfl : i' = i := by omega
    exact ⟨j, hj, rfl⟩

theorem fillsColumns_forIndices {passes : ℕ → List (ℕ × α)}
    (h : ∀ i ∈ forIndices start bound step, FillsColumns (passes i) stride n value i (i + step)) :
    FillsColumns ((forIndices start bound step).flatMap passes) stride n value start
      (forEnd start bound step) := by
  unfold forIndices forEnd at *
  generalize (bound - start + (step - 1)) / step = k at *
  induction k with
  | zero => simpa using fillsColumns_nil stride n value start
  | succ k ih =>
    have hbefore := ih fun i hi => by
      obtain ⟨m, hm, rfl⟩ := List.mem_map.mp hi
      rw [List.mem_range] at hm
      exact h _ (List.mem_map.mpr ⟨m, List.mem_range.mpr (by omega), rfl⟩)
    have hlast := h (start + k * step)
      (List.mem_map.mpr ⟨k, List.mem_range.mpr (Nat.lt_succ_self k), rfl⟩)
    rw [List.range_succ, List.map_append, List.flatMap_append, Nat.succ_mul, ← Nat.add_assoc]
    apply hbefore.append _ (Nat.le_add_right _ _) (Nat.le_add_right _ _)
    simpa using hlast

end Stores
