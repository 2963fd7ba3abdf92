import Mathlib.Tactic

/-!
# Circular memory

A memory is a function from addresses to cells. `slice` reads a straight area and
`window` an area that wraps around at `N`. `Stored` says what a write of `n` cells
at position `w` of the ring does, whichever way it was split into straight copies,
and `Stored.window_append` is the queue view of such a write: it appends.
-/
namespace CircularMemory

variable {α : Type*}

variable {cells : List α} {n start len N a w p : ℕ} {src m m' : ℕ → α}

def memcpy (m : ℕ → α) (dst : ℕ) (src : ℕ → α) (n : ℕ) : ℕ → α :=
  fun i => if dst ≤ i ∧ i < dst + n then src (i - dst) else m i

/-- The memory as seen through a pointer to address `a`. -/
def pointer (m : ℕ → α) (a : ℕ) : ℕ → α := fun i => m (a + i)

theorem memcpy_congr (m : ℕ → α) (dst : ℕ) {src' : ℕ → α} (h : ∀ i < n, src i = src' i) :
    memcpy m dst src n = memcpy m dst src' n := by
  funext i
  exact if_ctx_congr Iff.rfl (fun hi => h _ (by omega)) fun _ => rfl

theorem memcpy_self (m : ℕ → α) (dst n : ℕ) : memcpy m dst (pointer m dst) n = m := by
  funext i
  rw [memcpy]
  split_ifs with hi
  · rw [pointer, Nat.add_sub_cancel' hi.1]
  · rfl

/-- What has been filled up to `lo` is filled on from there. -/
theorem memcpy_extend (m content : ℕ → α) (lo n : ℕ) :
    memcpy (fun i => if i < lo then content i else m i) lo (pointer content lo) n =
      fun i => if i < lo + n then content i else m i := by
  funext i
  simp only [memcpy, pointer]
  rcases Nat.lt_or_ge i lo with hlow | hlow
  · rw [if_neg (by omega), if_pos hlow, if_pos (by omega)]
  · rw [if_neg hlow.not_gt, Nat.add_sub_cancel' hlow]
    exact if_congr (and_iff_right hlow) rfl rfl

def slice (m : ℕ → α) (start len : ℕ) : List α := (List.range len).map fun i => m (start + i)

@[simp] theorem slice_zero (m : ℕ → α) (start : ℕ) : slice m start 0 = [] := rfl

def window (N : ℕ) (m : ℕ → α) (start len : ℕ) : List α :=
  (List.range len).map fun i => m ((start + i) % N)

@[simp] theorem window_zero (N : ℕ) (m : ℕ → α) (start : ℕ) : window N m start 0 = [] := rfl

@[simp] theorem length_slice (m : ℕ → α) (start len : ℕ) : (slice m start len).length = len := by
  simp [slice]

@[simp] theorem length_window (N : ℕ) (m : ℕ → α) (start len : ℕ) :
    (window N m start len).length = len := by
  simp [window]

theorem slice_append (m : ℕ → α) (start a b : ℕ) :
    slice m start (a + b) = slice m start a ++ slice m (start + a) b := by
  simp [slice, List.range_add, Function.comp_def, Nat.add_assoc]

theorem window_append (N : ℕ) (m : ℕ → α) (start a b : ℕ) :
    window N m start (a + b) = window N m start a ++ window N m (start + a) b := by
  simp [window, List.range_add, Function.comp_def, Nat.add_assoc]

theorem slice_succ_left (m : ℕ → α) (start len : ℕ) :
    slice m start (len + 1) = m start :: slice m (start + 1) len := by
  rw [Nat.add_comm, slice_append]
  rfl

theorem slice_congr {start' : ℕ} (h : ∀ i < len, m (start + i) = m' (start' + i)) :
    slice m start len = slice m' start' len := by
  apply List.map_congr_left
  intro i hi
  exact h i (List.mem_range.mp hi)

theorem window_congr (h : ∀ i < len, m ((start + i) % N) = m' ((start + i) % N)) :
    window N m start len = window N m' start len := by
  apply List.map_congr_left
  intro i hi
  exact h i (List.mem_range.mp hi)

@[simp] theorem window_mod (N : ℕ) (m : ℕ → α) (start len : ℕ) :
    window N m (start % N) len = window N m start len := by
  simp [window]

@[simp] theorem slice_pointer (m : ℕ → α) (a start len : ℕ) :
    slice (pointer m a) start len = slice m (a + start) len := by
  simp [slice, pointer, Nat.add_assoc]

/-- A window that does not reach the end of the ring is a straight area. -/
theorem window_eq_slice (m : ℕ → α) (h : start + len ≤ N) :
    window N m start len = slice m start len := by
  apply List.map_congr_left
  intro i hi
  have hi' := List.mem_range.mp hi
  rw [Nat.mod_eq_of_lt (by omega)]

theorem window_take (m : ℕ → α) (start : ℕ) (h : a ≤ len) :
    (window N m start len).take a = window N m start a := by
  obtain ⟨b, rfl⟩ := Nat.exists_eq_add_of_le h
  rw [window_append]
  simp

theorem window_drop (m : ℕ → α) (start : ℕ) (h : a ≤ len) :
    (window N m start len).drop a = window N m (start + a) (len - a) := by
  obtain ⟨b, rfl⟩ := Nat.exists_eq_add_of_le h
  rw [window_append, Nat.add_sub_cancel_left]
  simp

theorem memcpy_zero (m : ℕ → α) (dst : ℕ) (src : ℕ → α) : memcpy m dst src 0 = m := by
  funext i
  rw [memcpy, if_neg (by omega)]

/-- Two copies in a row are one. -/
theorem memcpy_memcpy (m : ℕ → α) (dst : ℕ) {src' : ℕ → α} {b : ℕ}
    (h : ∀ i < b, src' i = src (a + i)) :
    memcpy (memcpy m dst src a) (dst + a) src' b = memcpy m dst src (a + b) := by
  funext i
  simp only [memcpy]
  by_cases hb : dst + a ≤ i ∧ i < dst + a + b
  · rw [if_pos hb, if_pos (by omega), h _ (by omega)]
    congr 1
    omega
  · rw [if_neg hb]
    by_cases ha : dst ≤ i ∧ i < dst + a
    · rw [if_pos ha, if_pos (by omega)]
    · rw [if_neg ha, if_neg (by omega)]

theorem slice_memcpy (m : ℕ → α) (dst : ℕ) (src : ℕ → α) (n : ℕ) :
    slice (memcpy m dst src n) dst n = slice src 0 n := by
  apply slice_congr
  intro i hi
  simp [memcpy, hi]

/-- The `n` cells from ring position `w` on are those of `src`, and the rest of the
ring is as it was. -/
structure Stored (N : ℕ) (m : ℕ → α) (w : ℕ) (src : ℕ → α) (n : ℕ) (m' : ℕ → α) : Prop where
  written : ∀ k < n, m' ((w + k) % N) = src k
  kept : ∀ k, n ≤ k → k < N → m' ((w + k) % N) = m ((w + k) % N)

/-- A copy that ends before the ring does. -/
theorem stored_memcpy (m src : ℕ → α) (h : w + n ≤ N) :
    Stored N m w src n (memcpy m w src n) where
  written k hk := by
    rw [Nat.mod_eq_of_lt (by omega)]
    simp [memcpy, hk]
  kept k hk hN := by
    rcases Nat.lt_or_ge (w + k) N with hlt | hge
    · rw [Nat.mod_eq_of_lt hlt]
      simp only [memcpy]
      rw [if_neg (by omega)]
    · rw [Nat.mod_eq_sub_mod hge, Nat.mod_eq_of_lt (by omega)]
      simp only [memcpy]
      rw [if_neg (by omega)]

/-- A copy that wraps, made of one up to the end and one from the start. -/
theorem stored_memcpy_wrap (m src : ℕ → α) (hw : w < N) (hn : n ≤ N) (h : N < w + n) :
    Stored N m w src n
      (memcpy (memcpy m w src (N - w)) 0 (pointer src (N - w)) (w + n - N)) where
  written k hk := by
    rcases Nat.lt_or_ge (w + k) N with hlt | hge
    · rw [Nat.mod_eq_of_lt hlt]
      simp only [memcpy]
      rw [if_neg (by omega), if_pos (by omega)]
      congr 1
      omega
    · rw [Nat.mod_eq_sub_mod hge, Nat.mod_eq_of_lt (by omega)]
      simp only [memcpy, pointer]
      rw [if_pos (by omega)]
      congr 1
      omega
  kept k hk hN := by
    have hge : N ≤ w + k := by omega
    rw [Nat.mod_eq_sub_mod hge, Nat.mod_eq_of_lt (by omega)]
    simp only [memcpy]
    rw [if_neg (by omega), if_neg (by omega)]

theorem Stored.window_written (h : Stored N m w src n m') :
    window N m' w n = slice src 0 n := by
  apply List.map_congr_left
  intro i hi
  rw [h.written i (List.mem_range.mp hi), Nat.zero_add]

/-- A write behind the `a` cells in use, within the ring, appends to them. -/
theorem Stored.window_append {r : ℕ} (hN : a + n ≤ N) (h : Stored N m (r + a) src n m') :
    window N m' r (a + n) = window N m r a ++ slice src 0 n := by
  rw [CircularMemory.window_append, h.window_written]
  congr 1
  apply window_congr
  intro i hi
  rcases Nat.eq_zero_or_pos N with rfl | hpos
  · omega
  · have hk := h.kept (N - a + i) (by omega) (by omega)
    have he : r + a + (N - a + i) = r + i + N := by omega
    rwa [he, Nat.add_mod_right] at hk

/-- The memory from `p` on begins with the given cells. -/
def Contains (m : ℕ → α) (p : ℕ) (cells : List α) : Prop := slice m p cells.length = cells

instance [DecidableEq α] (m : ℕ → α) (p : ℕ) (cells : List α) : Decidable (Contains m p cells) :=
  inferInstanceAs (Decidable (_ = _))

theorem contains_nil (m : ℕ → α) (p : ℕ) : Contains m p [] := rfl

theorem contains_append {cells' : List α} :
    Contains m p (cells ++ cells') ↔
      Contains m p cells ∧ Contains m (p + cells.length) cells' := by
  rw [Contains, Contains, Contains, List.length_append, slice_append]
  constructor
  · intro h
    exact List.append_inj h (length_slice _ _ _)
  · rintro ⟨h, h'⟩
    rw [h, h']

theorem contains_cons {cell : α} :
    Contains m p (cell :: cells) ↔ m p = cell ∧ Contains m (p + 1) cells := by
  rw [← List.singleton_append, contains_append]
  simp [Contains, slice]

def storeAt (m : ℕ → α) (p : ℕ) (cells : List α) : ℕ → α :=
  fun i => if p ≤ i then (cells[i - p]?).getD (m i) else m i

theorem storeAt_behind (m : ℕ → α) {i : ℕ} (h : p + cells.length ≤ i) :
    storeAt m p cells i = m i := by
  rw [storeAt, if_pos (by omega), List.getElem?_eq_none (by omega)]
  rfl

theorem storeAt_nil (m : ℕ → α) (p : ℕ) : storeAt m p [] = m := by
  funext i
  simp [storeAt]

theorem contains_storeAt (m : ℕ → α) (p : ℕ) (cells : List α) :
    Contains (storeAt m p cells) p cells := by
  apply List.ext_getElem
  · simp
  · intro i h h'
    simp [slice, storeAt, h']

theorem storeAt_append (m : ℕ → α) (p : ℕ) (cells cells' : List α) :
    storeAt (storeAt m p cells) (p + cells.length) cells' = storeAt m p (cells ++ cells') := by
  funext i
  simp only [storeAt]
  rcases Nat.lt_or_ge i p with hlt | hge
  · rw [if_neg (by omega), if_neg (by omega), if_neg (by omega)]
  · rcases Nat.lt_or_ge i (p + cells.length) with hin | hout
    · rw [if_neg (by omega), if_pos hge, if_pos hge, List.getElem?_append_left (by omega)]
    · rw [if_pos hout, if_pos hge, if_pos hge, List.getElem?_append_right (by omega),
        List.getElem?_eq_none (by omega : cells.length ≤ i - p), Nat.sub_add_eq]
      rfl

end CircularMemory
