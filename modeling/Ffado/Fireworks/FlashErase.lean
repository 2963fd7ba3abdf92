import Ffado.Fireworks.FlashRead

/-!
# Erasing the flash

The blocks are erased one after the other from the one that holds the start address, and as many
quadlets are verified as were requested. An attempt that failed is repeated, but the flag that
records the failure is never set back, so that it stands for all attempts to come.
-/
namespace Ffado.Fireworks.FlashDevice

open MachineInt

def blockStart (address : ℕ) : ℕ := address / blocksizeBytes address * blocksizeBytes address

theorem and_two_pow_sub_two_pow {x m k : ℕ} (hx : x < 2 ^ m) (hk : k ≤ m) :
    x &&& (2 ^ m - 2 ^ k) = x / 2 ^ k * 2 ^ k := by
  rw [← Nat.shiftRight_eq_div_pow, ← Nat.shiftLeft_eq]
  apply Nat.eq_of_testBit_eq
  intro i
  have hpos : 0 < 2 ^ k := Nat.two_pow_pos k
  have hle : 2 ^ k ≤ 2 ^ m := Nat.pow_le_pow_right (by decide) hk
  have hmask : (2 ^ m - 2 ^ k).testBit i = (decide (i < m) && !decide (i < k)) := by
    have h := Nat.testBit_two_pow_sub_succ (by omega : 2 ^ k - 1 < 2 ^ m) i
    rwa [Nat.sub_add_cancel hpos, Nat.testBit_two_pow_sub_one] at h
  rw [Nat.testBit_and, hmask, Nat.testBit_shiftLeft, Nat.testBit_shiftRight]
  by_cases hki : k ≤ i
  · rw [Nat.add_sub_cancel' hki]
    by_cases him : i < m
    · simp [hki, him]
    · have hbit : x.testBit i = false :=
        Nat.testBit_lt_two_pow (hx.trans_le (Nat.pow_le_pow_right (by decide) (by omega)))
      simp [hbit]
  · simp [hki, Nat.lt_of_not_le hki]

theorem blocksizeBytes_cases (address : ℕ) :
    (address < 0x10000 ∧ blocksizeBytes address = 0x2000) ∨
      (0x10000 ≤ address ∧ blocksizeBytes address = 0x10000) := by
  rw [blocksizeBytes, mainBlocksBaseOffsetBytes, programBlockSizeBytes, mainBlockSizeBytes]
  split_ifs with h
  · exact Or.inl ⟨h, rfl⟩
  · exact Or.inr ⟨by omega, rfl⟩

theorem and_eq_blockStart {address : ℕ} (h : address < 2 ^ 32) :
    address &&& (2 ^ 32 - blocksizeBytes address) = blockStart address := by
  rw [blockStart]
  rcases blocksizeBytes_cases address with ⟨-, hsize⟩ | ⟨-, hsize⟩
  · rw [hsize]
    exact and_two_pow_sub_two_pow h (by decide : 13 ≤ 32)
  · rw [hsize]
    exact and_two_pow_sub_two_pow h (by decide : 16 ≤ 32)

theorem blockStart_le (address : ℕ) : blockStart address ≤ address := Nat.div_mul_le_self _ _

theorem blockStart_mod_four (address : ℕ) : blockStart address % 4 = 0 := by
  rw [blockStart]
  rcases blocksizeBytes_cases address with ⟨-, hsize⟩ | ⟨-, hsize⟩ <;> rw [hsize] <;> omega

theorem blockStart_add_blocksizeBytes (address : ℕ) :
    blockStart (blockStart address + blocksizeBytes address) =
      blockStart address + blocksizeBytes address := by
  rw [blockStart, blockStart]
  rcases blocksizeBytes_cases address with ⟨hlt, hsize⟩ | ⟨hge, hsize⟩ <;>
    rcases blocksizeBytes_cases (address / blocksizeBytes address * blocksizeBytes address +
      blocksizeBytes address) with ⟨hlt', hsize'⟩ | ⟨hge', hsize'⟩ <;>
    rw [hsize'] <;> rw [hsize] at * <;> omega

/-- An attempt at a block that succeeds: the erase command is accepted, the flash is ready in time,
and so many quadlets are read back and are blank. -/
structure Blank (d : FlashDevice) (readFuel : ℕ) (verify : ℕ → Quadlet)
    (address quads erases statuses reads : ℕ) (r : ReadState) : Prop where
  erased : d.eraseFlash erases address = true
  ready : (d.waitForFlash echoFlashEraseTimeoutMillisecs statuses).2 = true
  read : d.readFlash readFuel address quads reads verify = some (r, true)
  blank : ∀ i < quads, r.buffer i = 0xFFFFFFFF

/-- With the answers after so many commands of each kind, the first attempt at each of the blocks of
`left` quadlets from `address` on succeeds. -/
inductive Clears (d : FlashDevice) (readFuel : ℕ) (verify : ℕ → Quadlet) :
    (address left erases statuses reads : ℕ) → Prop
  | last {address left erases statuses reads r} : left ≤ blocksizeBytes address / 4 →
      d.Blank readFuel verify address left erases statuses reads r →
      Clears d readFuel verify address left erases statuses reads
  | more {address left erases statuses reads r} : blocksizeBytes address / 4 < left →
      d.Blank readFuel verify address (blocksizeBytes address / 4) erases statuses reads r →
      Clears d readFuel verify (address + blocksizeBytes address)
        (left - blocksizeBytes address / 4) (erases + 1)
        (d.waitForFlash echoFlashEraseTimeoutMillisecs statuses).1 r.commands →
      Clears d readFuel verify address left erases statuses reads

variable {d : FlashDevice} {verify : ℕ → Quadlet} {readFuel fuel : ℕ} {s s' t : EraseState}
  {r : ReadState}

section Attempt

/-- How many quadlets of the block are verified. -/
def quadsToVerify (s : EraseState) : ℕ := min s.quadsLeft (blocksizeBytes s.startAddress / 4)

def Succeeds (d : FlashDevice) (readFuel : ℕ) (verify : ℕ → Quadlet) (s : EraseState)
    (r : ReadState) : Prop :=
  d.Blank readFuel verify (blockStart s.startAddress)
    (quadsToVerify s) s.erases s.statuses s.reads r

/-- The state behind an attempt that succeeded. -/
def advanced (d : FlashDevice) (s : EraseState) (r : ReadState) : EraseState where
  startAddress := u32 (blockStart s.startAddress + blocksizeBytes s.startAddress)
  quadsLeft := s.quadsLeft - quadsToVerify s
  success := true
  nbTries := 0
  erases := s.erases + 1
  statuses := (d.waitForFlash echoFlashEraseTimeoutMillisecs s.statuses).1
  reads := r.commands
  log := s.log ++ [.erase (blockStart s.startAddress) true,
    .verified (blockStart s.startAddress) (quadsToVerify s)]

structure Failed (s t : EraseState) : Prop where
  startAddress : t.startAddress = blockStart s.startAddress
  quadsLeft : t.quadsLeft = s.quadsLeft
  success : t.success = false
  log : t.log ≠ []

theorem Failed.goes_on {t : EraseState} (h : Failed s t) (hs : s.startAddress < 2 ^ 32)
    (hleft : 0 < s.quadsLeft) : t.startAddress < 2 ^ 32 ∧ 0 < t.quadsLeft := by
  rw [h.startAddress, h.quadsLeft]
  exact ⟨(blockStart_le _).trans_lt hs, hleft⟩

theorem eraseTurn_eq (hs : s.startAddress < 2 ^ 32) :
    d.eraseTurn readFuel verify s =
      (d.eraseBlock readFuel verify (quadsToVerify s)
        { s with startAddress := blockStart s.startAddress }).map fun x =>
          if x.2 then countTry (blocksizeBytes s.startAddress) (quadsToVerify s) x.1 else x := by
  have hquads : (if s.quadsLeft < blocksizeBytes s.startAddress / 4 then s.quadsLeft
      else blocksizeBytes s.startAddress / 4) = quadsToVerify s := by
    rw [quadsToVerify]
    split_ifs <;> omega
  rw [eraseTurn, and_eq_blockStart hs, hquads]
  cases d.eraseBlock readFuel verify (quadsToVerify s)
      { s with startAddress := blockStart s.startAddress } with
  | none => rfl
  | some x =>
    obtain ⟨t, ok⟩ := x
    cases ok <;> rfl

theorem Succeeds.eraseTurn (h : d.Succeeds readFuel verify s r) (hs : s.startAddress < 2 ^ 32)
    (hsuccess : s.success = true) :
    d.eraseTurn readFuel verify s = some (d.advanced s r, true) := by
  rw [eraseTurn_eq hs, eraseBlock]
  simp only [h.erased, if_true, h.ready, h.read, if_pos h.blank, Option.map_some, countTry,
    hsuccess, advanced, List.append_assoc, List.cons_append, List.nil_append]

theorem eraseBlock_cases {quads : ℕ} (h : d.eraseBlock readFuel verify quads s = some (t, true)) :
    t.startAddress = s.startAddress ∧ t.quadsLeft = s.quadsLeft ∧ t.log ≠ [] ∧
      (t.success = false ∨ t.success = s.success ∧ ∃ r,
        d.Blank readFuel verify s.startAddress quads s.erases s.statuses s.reads r) := by
  rw [eraseBlock] at h
  dsimp only at h
  split_ifs at h with herase hready
  · cases hread : d.readFlash readFuel s.startAddress quads s.reads verify with
    | none =>
      rw [hread] at h
      cases h
    | some result =>
      obtain ⟨r, ok⟩ := result
      rw [hread] at h
      cases ok with
      | false => cases h
      | true =>
        dsimp only at h
        split_ifs at h with hblank <;> cases h
        · exact ⟨rfl, rfl, by simp, .inr ⟨rfl, r, herase, hready, hread, hblank⟩⟩
        · exact ⟨rfl, rfl, by simp, .inl rfl⟩
  · cases h
  · cases h
    exact ⟨rfl, rfl, by simp, .inl rfl⟩

/-- A turn after which the loop goes on is a success without a failure before it, or it leaves as
much to do as there was. -/
theorem eraseTurn_cases (hs : s.startAddress < 2 ^ 32)
    (hturn : d.eraseTurn readFuel verify s = some (t, true)) :
    (∃ r, d.Succeeds readFuel verify s r ∧ s.success = true ∧ t = d.advanced s r) ∨ Failed s t := by
  have heq := hturn
  rw [eraseTurn_eq hs] at heq
  obtain ⟨⟨u, ok⟩, hblock, heq⟩ := Option.map_eq_some_iff.mp heq
  cases ok with
  | false => cases heq
  | true =>
    dsimp only [countTry, if_true] at heq
    obtain ⟨hstart, hleft, hlog, hcases⟩ := eraseBlock_cases hblock
    cases hsuccess : u.success with
    | false =>
      rw [hsuccess, if_neg Bool.false_ne_true, Prod.mk.injEq] at heq
      obtain ⟨rfl, -⟩ := heq
      exact .inr ⟨hstart, hleft, rfl, hlog⟩
    | true =>
      rw [hsuccess] at hcases
      obtain ⟨hkept, r, hblank⟩ := hcases.resolve_left nofun
      have hblank : d.Succeeds readFuel verify s r := hblank
      refine .inl ⟨r, hblank, hkept.symm, ?_⟩
      rw [hblank.eraseTurn hs hkept.symm] at hturn
      cases hturn
      rfl

end Attempt

/-- The quadlet is in a block that was erased, and was found blank. -/
def Erased (log : List EraseEvent) (address : ℕ) : Prop :=
  ∃ block quads, .erase block true ∈ log ∧ .verified block quads ∈ log ∧
    block ≤ address ∧ address + 4 ≤ block + 4 * quads

section Blocks

variable {address left : ℕ}

theorem not_refused_of_readFlash {a quads commands : ℕ}
    (h : d.readFlash readFuel a quads commands verify = some (r, true)) : ¬ Refused a quads := by
  intro hrefused
  rw [readFlash, ite_of_refused _ _ hrefused] at h
  cases h

theorem quadsToVerify_le (s : EraseState) : quadsToVerify s ≤ 0x4000 := by
  rw [quadsToVerify]
  rcases blocksizeBytes_cases s.startAddress with ⟨-, hsize⟩ | ⟨-, hsize⟩ <;> rw [hsize] <;> omega

/-- A block that is not the last one is verified as a whole, and the next one starts behind it. -/
theorem Succeeds.next (h : d.Succeeds readFuel verify s r)
    (hmore : 0 < (d.advanced s r).quadsLeft) : 4 * quadsToVerify s = blocksizeBytes s.startAddress ∧
      (d.advanced s r).quadsLeft + quadsToVerify s = s.quadsLeft ∧
      (d.advanced s r).startAddress < 2 ^ 32 ∧
      (d.advanced s r).startAddress = blockStart s.startAddress + blocksizeBytes s.startAddress ∧
      blockStart (d.advanced s r).startAddress = (d.advanced s r).startAddress := by
  have hquads : quadsToVerify s = min s.quadsLeft (blocksizeBytes s.startAddress / 4) := rfl
  have hleft : (d.advanced s r).quadsLeft = s.quadsLeft - quadsToVerify s := rfl
  have hsize : 4 * quadsToVerify s = blocksizeBytes s.startAddress := by
    rcases blocksizeBytes_cases s.startAddress with ⟨-, hsize⟩ | ⟨-, hsize⟩ <;> omega
  -- what is read back is not refused, so that the block ends before the address space does
  have hrefused := not_refused_of_readFlash h.read
  have hsmall := quadsToVerify_le s
  rw [Refused, u32_of_lt (by omega)] at hrefused
  have hnext : (d.advanced s r).startAddress =
      blockStart s.startAddress + blocksizeBytes s.startAddress := by
    dsimp only [advanced]
    rw [u32_of_lt (by omega)]
  rw [hnext]
  exact ⟨hsize, by omega, by omega, rfl, blockStart_add_blocksizeBytes _⟩

theorem Erased.mono {log log' : List EraseEvent} (h : Erased log address) (hsub : log ⊆ log') :
    Erased log' address := by
  obtain ⟨block, quads, herase, hverified, hrange⟩ := h
  exact ⟨block, quads, hsub herase, hsub hverified, hrange⟩

/-- A block that was done with success. -/
theorem erased_advanced {i : ℕ} (hi : i < quadsToVerify s) :
    Erased (d.advanced s r).log (blockStart s.startAddress + 4 * i) :=
  ⟨blockStart s.startAddress, quadsToVerify s, by simp [advanced], by simp [advanced], by omega,
    by omega⟩

theorem log_subset_advanced : s.log ⊆ (d.advanced s r).log := List.subset_append_left _ _

theorem mem_log_advanced {block quads : ℕ} (hmem : .verified block quads ∈ (d.advanced s r).log) :
    .verified block quads ∈ s.log ∨ block = blockStart s.startAddress ∧
      quads = quadsToVerify s := by
  simpa [advanced] using hmem

theorem eraseLoop_cases (hrun : d.eraseLoop readFuel verify (fuel + 1) s = some (s', true)) :
    ∃ t, d.eraseTurn readFuel verify s = some (t, true) ∧
      ((0 < t.quadsLeft ∧ d.eraseLoop readFuel verify fuel t = some (s', true)) ∨
        (t.quadsLeft = 0 ∧ s' = t)) := by
  rw [eraseLoop] at hrun
  cases hturn : d.eraseTurn readFuel verify s with
  | none =>
    rw [hturn] at hrun
    cases hrun
  | some result =>
    obtain ⟨t, ok⟩ := result
    rw [hturn] at hrun
    cases ok with
    | false => cases hrun
    | true =>
      refine ⟨t, rfl, ?_⟩
      dsimp only at hrun
      split_ifs at hrun with hmore
      · exact .inl ⟨hmore, hrun⟩
      · cases hrun
        exact .inr ⟨Nat.eq_zero_of_not_pos hmore, rfl⟩

theorem eraseLoop_failed (hs : s.startAddress < 2 ^ 32) (hsuccess : s.success = false)
    (hleft : 0 < s.quadsLeft) : d.eraseLoop readFuel verify fuel s ≠ some (s', true) := by
  induction fuel generalizing s with
  | zero => exact nofun
  | succ fuel ih =>
    intro hrun
    obtain ⟨t, hturn, hcases⟩ := eraseLoop_cases hrun
    rcases eraseTurn_cases hs hturn with ⟨r, -, htrue, -⟩ | hfailed
    · rw [hsuccess] at htrue
      cases htrue
    · obtain ⟨hlt, hmore⟩ := hfailed.goes_on hs hleft
      obtain ⟨-, hrun⟩ := hcases.resolve_right fun h => hmore.ne' h.1
      exact ih hlt hfailed.success hmore hrun

/-- So a loop that returns true has begun with a success. -/
theorem succeeds_of_eraseLoop (hs : s.startAddress < 2 ^ 32) (hleft : 0 < s.quadsLeft)
    (hrun : d.eraseLoop readFuel verify (fuel + 1) s = some (s', true)) :
    ∃ r, d.Succeeds readFuel verify s r ∧
      ((0 < (d.advanced s r).quadsLeft ∧
          d.eraseLoop readFuel verify fuel (d.advanced s r) = some (s', true)) ∨
        ((d.advanced s r).quadsLeft = 0 ∧ s' = d.advanced s r)) := by
  obtain ⟨t, hturn, hcases⟩ := eraseLoop_cases hrun
  rcases eraseTurn_cases hs hturn with ⟨r, hsucceeds, -, rfl⟩ | hfailed
  · exact ⟨r, hsucceeds, hcases⟩
  · obtain ⟨hlt, hmore⟩ := hfailed.goes_on hs hleft
    obtain ⟨-, hrun⟩ := hcases.resolve_right fun h => hmore.ne' h.1
    exact absurd hrun (eraseLoop_failed hlt hfailed.success hmore)

/-- On any device: if the loop returns true, the blocks have been erased and verified one by one,
from the start of the first one, and no more than was asked for has been verified. -/
theorem eraseLoop_true (hs : s.startAddress < 2 ^ 32) (hleft : 0 < s.quadsLeft)
    (hrun : d.eraseLoop readFuel verify fuel s = some (s', true)) :
    s.log ⊆ s'.log ∧ (∀ i < s.quadsLeft, Erased s'.log (blockStart s.startAddress + 4 * i)) ∧
      ∀ block quads, .verified block quads ∈ s'.log → .verified block quads ∈ s.log ∨
        block + 4 * quads ≤ blockStart s.startAddress + 4 * s.quadsLeft := by
  induction fuel generalizing s with
  | zero => cases hrun
  | succ fuel ih =>
    have hle : quadsToVerify s ≤ s.quadsLeft := Nat.min_le_left _ _
    obtain ⟨r, hsucceeds, ⟨hmore, hrun⟩ | ⟨hdone, rfl⟩⟩ := succeeds_of_eraseLoop hs hleft hrun
    · obtain ⟨hsize, hrest, ht, hnext, hblock⟩ := hsucceeds.next hmore
      obtain ⟨hsub, herased, hverified⟩ := ih ht hmore hrun
      refine ⟨List.Subset.trans log_subset_advanced hsub, ?_, ?_⟩
      · intro i hi
        rcases Nat.lt_or_ge i (quadsToVerify s) with hin | hout
        · exact (erased_advanced hin).mono hsub
        · have hlater := herased (i - quadsToVerify s) (by omega)
          have heq : blockStart (d.advanced s r).startAddress + 4 * (i - quadsToVerify s) =
              blockStart s.startAddress + 4 * i := by omega
          rwa [heq] at hlater
      · intro block quads hmem
        rcases hverified block quads hmem with hold | hend
        · exact (mem_log_advanced hold).imp_right fun h => by omega
        · exact .inr (by omega)
    · have hrest : s.quadsLeft - quadsToVerify s = 0 := hdone
      refine ⟨log_subset_advanced, fun i hi => erased_advanced (by omega), ?_⟩
      exact fun block quads hmem => (mem_log_advanced hmem).imp_right fun h => by omega

theorem Blank.left_pos {a quads erases statuses reads : ℕ}
    (h : d.Blank readFuel verify a quads erases statuses reads r) : 0 < quads :=
  Nat.pos_of_ne_zero fun hzero => not_refused_of_readFlash h.read (.inl hzero)

theorem Clears.eraseLoop {erases statuses reads : ℕ}
    (h : d.Clears readFuel verify address left erases statuses reads) (ha : address < 2 ^ 32)
    (hblock : blockStart address = address) (hfuel : left ≤ fuel) (nbTries : ℕ)
    (log : List EraseEvent) :
    ∃ s', d.eraseLoop readFuel verify fuel
      ⟨address, left, true, nbTries, erases, statuses, reads, log⟩ = some (s', true) := by
  induction h generalizing fuel nbTries log with
  | @last address left erases statuses reads r hle hblank =>
    obtain ⟨fuel, rfl⟩ : ∃ f, fuel = f + 1 := ⟨fuel - 1, by have := hblank.left_pos; omega⟩
    have hsucceeds : d.Succeeds readFuel verify
        ⟨address, left, true, nbTries, erases, statuses, reads, log⟩ r := by
      rwa [Succeeds, quadsToVerify, hblock, Nat.min_eq_left hle]
    have hdone : ¬ 0 < left - min left (blocksizeBytes address / 4) := by omega
    rw [FlashDevice.eraseLoop, hsucceeds.eraseTurn ha rfl]
    exact ⟨_, if_neg hdone⟩
  | @more address left erases statuses reads r hlt hblank hrest ih =>
    obtain ⟨fuel, rfl⟩ : ∃ f, fuel = f + 1 := ⟨fuel - 1, by omega⟩
    have hsucceeds : d.Succeeds readFuel verify
        ⟨address, left, true, nbTries, erases, statuses, reads, log⟩ r := by
      rwa [Succeeds, quadsToVerify, hblock, Nat.min_eq_right hlt.le]
    have hmore : 0 < left - min left (blocksizeBytes address / 4) := by omega
    obtain ⟨-, -, ht, hnext, hblock'⟩ := hsucceeds.next hmore
    rw [hnext, hblock] at ht hblock'
    have hpos := hblank.left_pos
    obtain ⟨s', hrun⟩ := @ih fuel ht hblock' (by omega) 0 (log ++ [.erase address true,
      .verified address (blocksizeBytes address / 4)])
    refine ⟨s', ?_⟩
    rw [FlashDevice.eraseLoop, hsucceeds.eraseTurn ha rfl]
    refine (if_pos hmore).trans ?_
    rwa [advanced, quadsToVerify, hblock, u32_of_lt ht, Nat.min_eq_right hlt.le]

end Blocks

def empty : FlashDevice := delivering fun _ => 0xFFFFFFFF

end Ffado.Fireworks.FlashDevice
