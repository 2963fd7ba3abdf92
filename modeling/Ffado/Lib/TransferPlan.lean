import Mathlib.Tactic

/-!
# Plans of block-aligned ring transfers

A transfer of `left` cells to or from a ring of `N` cells is made in chunks. Each chunk
is a whole number of blocks of `blk` cells taken from the straight part of the available
`space` that begins at position `p`, or, when the end of the ring leaves less than a block
of straight space there, one block that is moved across the end. The counter of the cells
that are left lives modulo `M`.

`plan` is that chunk arithmetic alone: which chunks are made, and how the transfer ends.
-/
namespace TransferPlan

variable {p space left fuel : ℕ}

/-- How a transfer ends: all cells moved, less than a block available, or a counter that
is no multiple of the block size. An `unfinished` plan has run out of fuel. -/
inductive Ending
  | complete
  | short
  | misaligned
  | unfinished
  deriving DecidableEq, Repr

def straight (N p space : ℕ) : ℕ := min space (N - p)

def chunk (N blk p space left : ℕ) : ℕ :=
  if straight N p space < blk then blk
  else if left > straight N p space then straight N p space - straight N p space % blk
  else left

/-- The counter after a chunk. -/
def remaining (M left k : ℕ) : ℕ := (left + M - k) % M

/-- With a block size of zero the transfer stops at the first division by it. Every chunk
uses up space, so `space + 1` is enough fuel. -/
def plan (M N blk : ℕ) : ℕ → ℕ → ℕ → ℕ → List ℕ × Ending
  | 0, _, _, _ => ([], .unfinished)
  | fuel + 1, p, space, left =>
    if left = 0 then ([], .complete)
    else if space < blk then ([], .short)
    else if blk = 0 ∧ left > straight N p space then ([], .misaligned)
    else
      let k := chunk N blk p space left
      let left' := remaining M left k
      if blk = 0 ∨ left' % blk ≠ 0 then ([k], .misaligned)
      else
        let rest := plan M N blk fuel ((p + k) % N) (space - k) left'
        (k :: rest.1, rest.2)

section Chunk

theorem straight_le (N p space : ℕ) : straight N p space ≤ space := Nat.min_le_left _ _

variable {M N blk p space left : ℕ}

theorem chunk_le (N p left : ℕ) (hb : blk ≤ space) : chunk N blk p space left ≤ space := by
  have := straight_le N p space
  unfold chunk
  split_ifs <;> omega

theorem chunk_pos (N p space : ℕ) (hb : 0 < blk) (hl : left ≠ 0) :
    0 < chunk N blk p space left := by
  unfold chunk
  split_ifs with h1 h2
  · exact hb
  · have := Nat.mod_lt (straight N p space) hb
    omega
  · omega

theorem chunk_le_straight (left : ℕ) (h : blk ≤ straight N p space) :
    chunk N blk p space left ≤ straight N p space := by
  unfold chunk
  split_ifs <;> omega

theorem dvd_chunk (N p space : ℕ) (h : blk ∣ left) : blk ∣ chunk N blk p space left := by
  unfold chunk
  split_ifs
  · exact dvd_rfl
  · exact Nat.dvd_sub_mod _
  · exact h

theorem chunk_le_left (N p space : ℕ) (h : blk ∣ left) (hl : left ≠ 0) :
    chunk N blk p space left ≤ left := by
  have := Nat.le_of_dvd (Nat.pos_of_ne_zero hl) h
  unfold chunk
  split_ifs <;> omega

theorem remaining_of_le {k : ℕ} (hk : k ≤ left) (hM : left - k < M) :
    remaining M left k = left - k := by
  have he : left + M - k = left - k + M := by omega
  rw [remaining, he, Nat.add_mod_right, Nat.mod_eq_of_lt hM]

/-- The counter keeps track of what was moved, modulo `M`. -/
theorem remaining_add_modEq {k : ℕ} (hk : k ≤ M) : (remaining M left k + k) % M = left % M := by
  have he : left + M - k + k = left + M := by omega
  rw [remaining, Nat.mod_add_mod, he, Nat.add_mod_right]

end Chunk

variable (M N blk : ℕ)

/-- The fuel is enough, because every chunk uses up space. -/
theorem plan_finishes : ∀ (fuel p space left : ℕ), space < fuel →
    (plan M N blk fuel p space left).2 ≠ .unfinished := by
  intro fuel
  induction fuel with
  | zero =>
    intro p space left hf
    omega
  | succ fuel ih =>
    intro p space left hf
    unfold plan
    split_ifs with h1 h2 h3
    · simp
    · simp
    · simp
    · simp only []
      split_ifs with h4
      · simp
      · have hpos := chunk_pos N p space (by omega : 0 < blk) h1
        exact ih _ _ _ (by omega)

theorem sum_plan_le :
    ∀ (fuel p space left : ℕ), (plan M N blk fuel p space left).1.sum ≤ space := by
  intro fuel
  induction fuel with
  | zero =>
    intro p space left
    simp [plan]
  | succ fuel ih =>
    intro p space left
    unfold plan
    split_ifs with h1 h2 h3
    · simp
    · simp
    · simp
    · have hk := chunk_le N p left (Nat.le_of_not_lt h2)
      simp only []
      split_ifs with h4
      · simpa using hk
      · have := ih ((p + chunk N blk p space left) % N)
          (space - chunk N blk p space left) (remaining M left (chunk N blk p space left))
        simp only [List.sum_cons]
        omega

/-- A complete transfer has moved the amount asked for, modulo `M`. -/
theorem sum_plan_modEq : ∀ (fuel p space left : ℕ), space ≤ M → left < M →
    (plan M N blk fuel p space left).2 = .complete →
    (plan M N blk fuel p space left).1.sum % M = left := by
  intro fuel
  induction fuel with
  | zero =>
    intro p space left
    simp [plan]
  | succ fuel ih =>
    intro p space left hs hl
    unfold plan
    split_ifs with h1 h2 h3
    · simp [h1]
    · simp
    · simp
    · have hk := chunk_le N p left (Nat.le_of_not_lt h2)
      simp only []
      split_ifs with h4
      · simp
      · intro hc
        have hlt : remaining M left (chunk N blk p space left) < M := Nat.mod_lt _ (by omega)
        have hrest := ih _ _ _ (by omega) hlt hc
        rw [List.sum_cons, Nat.add_comm, ← Nat.mod_add_mod, hrest,
          remaining_add_modEq (hk.trans hs), Nat.mod_eq_of_lt hl]

variable {M N blk}

/-- A whole number of blocks for which there is space is transferred. -/
theorem plan_complete (hb : 0 < blk) : ∀ (fuel p space left : ℕ), space < fuel → blk ∣ left →
    left ≤ space → left < M →
    (plan M N blk fuel p space left).2 = .complete ∧
      (plan M N blk fuel p space left).1.sum = left ∧
      ∀ k ∈ (plan M N blk fuel p space left).1, blk ∣ k := by
  intro fuel
  induction fuel with
  | zero =>
    intro p space left hf
    omega
  | succ fuel ih =>
    intro p space left hf hd hle hM
    unfold plan
    rcases Nat.eq_zero_or_pos left with rfl | hpos
    · simp
    · have hbl := Nat.le_of_dvd hpos hd
      have hk0 := chunk_pos N p space hb hpos.ne'
      have hkl := chunk_le_left N p space hd hpos.ne'
      have hkd := dvd_chunk N p space hd
      rw [if_neg hpos.ne', if_neg (by omega), if_neg (by omega)]
      generalize chunk N blk p space left = k at *
      have hrem : remaining M left k = left - k := remaining_of_le hkl (by omega)
      have hdr : blk ∣ left - k := Nat.dvd_sub hd hkd
      simp only [hrem]
      rw [if_neg (by rw [Nat.mod_eq_zero_of_dvd hdr]; omega)]
      obtain ⟨ih1, ih2, ih3⟩ :=
        ih ((p + k) % N) (space - k) (left - k) (by omega) hdr (by omega) (by omega)
      refine ⟨ih1, by rw [List.sum_cons, ih2]; omega, ?_⟩
      intro c hc
      rcases List.mem_cons.mp hc with rfl | hc
      · exact hkd
      · exact ih3 c hc

/-- A chunk that does not finish a transfer of broken blocks leaves it broken. Where the
counter wraps below zero that depends on `M`. -/
theorem remaining_chunk (hle : left ≤ space) (hM : space < M) (hblk : blk < M) (hd : ¬ blk ∣ left)
    (hwrap : ¬ blk ∣ M + left) :
    remaining M left (chunk N blk p space left) % blk ≠ 0 ∨
      remaining M left (chunk N blk p space left) = 0 := by
  have hsub : ∀ k, blk ∣ k → k ≤ left → remaining M left k % blk ≠ 0 := by
    intro k hk hkl hz
    rw [remaining_of_le hkl (by omega)] at hz
    exact hd ((Nat.dvd_sub_iff_left hkl hk).mp (Nat.dvd_of_mod_eq_zero hz))
  unfold chunk
  split_ifs with hs hseg
  · left
    rcases Nat.lt_or_ge left blk with hlt | hge
    · intro hz
      rw [remaining, Nat.mod_eq_of_lt (by omega : left + M - blk < M)] at hz
      apply hwrap
      have he : M + left = left + M - blk + blk := by omega
      rw [he]
      exact Nat.dvd_add (Nat.dvd_of_mod_eq_zero hz) dvd_rfl
    · exact hsub blk dvd_rfl hge
  · exact Or.inl (hsub _ (Nat.dvd_sub_mod _) (by omega))
  · right
    rw [remaining_of_le le_rfl (by omega), Nat.sub_self]

/-- A transfer that is cut short although its cells are there did not even begin. -/
theorem plan_short_of_le (hb : 0 < blk) (hf : space < fuel) (hle : left ≤ space) (hM : space < M)
    (hblk : blk < M) (hwrap : blk ∣ left ∨ ¬ blk ∣ M + left)
    (hshort : (plan M N blk fuel p space left).2 = .short) : space < blk ∧ left ≠ 0 := by
  by_cases hd : blk ∣ left
  · rw [(plan_complete hb fuel p space left hf hd hle (by omega)).1] at hshort
    cases hshort
  have hl : left ≠ 0 := fun h => hd (h ▸ dvd_zero blk)
  refine ⟨?_, hl⟩
  by_contra hs
  cases fuel with
  | zero => omega
  | succ fuel =>
    have hmis := remaining_chunk (N := N) (p := p) hle hM hblk hd (hwrap.resolve_left hd)
    unfold plan at hshort
    rw [if_neg hl, if_neg hs, if_neg (by omega)] at hshort
    simp only [] at hshort
    rcases hmis with hm | hz
    · rw [if_pos (Or.inr hm)] at hshort
      cases hshort
    · rw [hz] at hshort
      split_ifs at hshort
      cases fuel <;> simp [plan] at hshort

/-- A transfer that finds less than a block at the start moves nothing. -/
theorem plan_short_of_lt (fuel p : ℕ) (hl : left ≠ 0) (hs : space < blk) :
    plan M N blk (fuel + 1) p space left = ([], .short) := by
  unfold plan
  rw [if_neg hl, if_pos hs]

/-- A transfer of what is there moves all of it, does not begin, or ends on a bad boundary. -/
theorem plan_of_le (hb : 0 < blk) (hf : space < fuel) (hle : left ≤ space) (hM : space < M)
    (hblk : blk < M) (hwrap : blk ∣ left ∨ ¬ blk ∣ M + left) :
    ((plan M N blk fuel p space left).2 = .complete ∧
        (plan M N blk fuel p space left).1.sum = left) ∨
      plan M N blk fuel p space left = ([], .short) ∨
      (plan M N blk fuel p space left).2 = .misaligned := by
  cases hend : (plan M N blk fuel p space left).2 with
  | complete =>
    have hsum := sum_plan_modEq M N blk fuel p space left hM.le (by omega) hend
    have hmoved := sum_plan_le M N blk fuel p space left
    rw [Nat.mod_eq_of_lt (by omega)] at hsum
    exact .inl ⟨rfl, hsum⟩
  | short =>
    obtain ⟨hlt, hne⟩ := plan_short_of_le hb hf hle hM hblk hwrap hend
    obtain ⟨fuel, rfl⟩ := Nat.exists_eq_add_of_lt (Nat.zero_lt_of_lt hf)
    rw [Nat.zero_add]
    exact .inr (.inl (plan_short_of_lt fuel p hne hlt))
  | misaligned => exact .inr (.inr rfl)
  | unfinished => exact absurd hend (plan_finishes M N blk fuel p space left hf)

/-- A transfer of broken blocks that does not lie in the straight part ends on a bad boundary
after its first chunk. -/
theorem plan_misaligned (hb : 0 < blk) (hle : left ≤ space) (hM : space < M) (hbl : blk ≤ left)
    (hd : ¬ blk ∣ left) (hlt : straight N p space < left) :
    (plan M N blk (fuel + 1) p space left).2 = .misaligned := by
  have hk : blk ∣ chunk N blk p space left ∧ chunk N blk p space left ≤ left := by
    unfold chunk
    split_ifs
    · exact ⟨dvd_rfl, hbl⟩
    · exact ⟨Nat.dvd_sub_mod _, by omega⟩
  have hrem : remaining M left (chunk N blk p space left) % blk ≠ 0 := by
    rw [remaining_of_le hk.2 (by omega)]
    intro hz
    exact hd ((Nat.dvd_sub_iff_left hk.2 hk.1).mp (Nat.dvd_of_mod_eq_zero hz))
  unfold plan
  rw [if_neg (by omega), if_neg (by omega), if_neg (by omega)]
  simp only []
  rw [if_pos (.inr hrem)]

end TransferPlan
