import Ffado.Fireworks.Flash

/-!
# Reading the flash

The inner loop collects the quadlets of a block from as many answers as it takes. It counts on
answers that are not longer than what was asked for, and it does not notice when it has run out of
tries, as its counter is below zero then.
-/
namespace Ffado.Fireworks.FlashDevice

open CircularMemory MachineInt WrappingLoop

def accepts (d : FlashDevice) (k address nbQuadlets : ℕ) : Bool :=
  doEfcOverAVC (d.read k address nbQuadlets).deserialized

/-- The same answers with other data: what is ok carries the contents of `flash` from the requested
address on, and what is busy carries anything. -/
def carrying (d : FlashDevice) (flash : ℕ → Quadlet) (busy : ℕ → ℕ → Quadlet) : FlashDevice :=
  { d with
    read := fun k address nbQuadlets =>
      { d.read k address nbQuadlets with
        data := fun i =>
          if (d.read k address nbQuadlets).retval = .ok then flash (address + 4 * i)
          else busy k i } }

structure Answers (d : FlashDevice) (k address ask nb : ℕ) : Prop where
  accepts : d.accepts k address ask = true
  nbQuadlets : (d.read k address ask).nbQuadlets = nb
  ok : 0 < nb → (d.read k address ask).retval = .ok

/-- The commands from the `k`-th up to the `k'`-th ask for the quadlets from `address` on until they
have got `ask` of them, and get `n`. -/
inductive Fetched (d : FlashDevice) (k' : ℕ) : (k address ask n : ℕ) → Prop
  | last {k address ask n} : d.Answers k address ask n → ask ≤ n → k' = k + 1 →
      Fetched d k' k address ask n
  | more {k address ask n nb} : d.Answers k address ask nb → nb < ask →
      Fetched d k' (k + 1) (address + 4 * nb) (ask - nb) n → Fetched d k' k address ask (nb + n)

/-- The answers from the `k`-th on supply the blocks of `n` quadlets from `address` on: in each
block none is too long, a busy one is empty, and 10000 suffice. Quadlets too many do no harm in one
case: if they are those of the last block, and all the answers for that one are empty. -/
inductive Supplies (d : FlashDevice) : (k address n : ℕ) → Prop
  | last {k k' address n} : n ≤ 64 → d.Fetched k' k address n n → k' ≤ k + 10000 →
      Supplies d k address n
  | more {k k' address n} : 64 < n → d.Fetched k' k address 64 64 → k' ≤ k + 10000 →
      Supplies d k' (address + 256) (n - 64) → Supplies d k address n
  | ahead {k k' address n} : 64 < n → n ≤ 128 → d.Fetched k' k address 64 n → k' ≤ k + 10000 →
      (∀ i ≤ 10000, d.Answers (k' + i) (address + 256) (n - 64) 0) → Supplies d k address n

variable {d : FlashDevice} {flash buffer : ℕ → Quadlet} {start k k' address ask n nb : ℕ}

theorem nbQuadlets_le (h : d.accepts k address ask = true) :
    (d.read k address ask).nbQuadlets ≤ 64 := by
  have hquads : efcFlashSizeQuads = 64 := rfl
  by_contra hlong
  simp [accepts, FlashReadReply.deserialized, doEfcOverAVC, hquads, hlong] at h

theorem Fetched.le (h : d.Fetched k' k address ask n) : ask ≤ n := by
  induction h with
  | last _ hle _ => exact hle
  | more _ _ _ ih => omega

theorem Fetched.lt (h : d.Fetched k' k address ask n) (hask : 0 < ask) : n < ask + 64 := by
  induction h with
  | last hanswer hle _ =>
    have := nbQuadlets_le hanswer.accepts
    have := hanswer.nbQuadlets
    omega
  | more _ _ _ ih => have := ih (by omega); omega

theorem Fetched.lt_commands (h : d.Fetched k' k address ask n) : k < k' := by
  induction h with
  | last _ _ hk' => omega
  | more _ _ _ ih => omega

/-- The first `m` quadlets of the request are in the buffer, and nothing else has changed. -/
structure Filled (flash buffer : ℕ → Quadlet) (start m : ℕ) (s : ReadState) : Prop where
  target : s.target = m
  buffer : s.buffer = memcpy buffer 0 (fun i => flash (start + 4 * i)) m

section Block

/-- `read` of the quadlets of a block are there, and all of its addresses are below 2^32. -/
structure InBlock (startAddr quads read : ℕ) : Prop where
  read_lt : read < quads
  quads_le : quads ≤ 64
  end_lt : startAddr + 4 * quads < 2 ^ 32

variable {startAddr quads read m tries quadletsRead : ℕ} {s s' t u : ReadState} {v : ℤ}

theorem readTurn_eq (hb : InBlock startAddr quads read) :
    d.readTurn startAddr quads read s =
      let r := d.read s.commands (startAddr + 4 * read) (quads - read)
      if d.accepts s.commands (startAddr + 4 * read) (quads - read) then
        (⟨s.commands + 1, s.target + r.nbQuadlets, memcpy s.buffer s.target r.data r.nbQuadlets⟩,
          some (read + r.nbQuadlets))
      else (⟨s.commands + 1, s.target, s.buffer⟩, none) := by
  obtain ⟨hread, hquads, hlt⟩ := hb
  have hask : u32 (2 ^ 32 + quads - read) = quads - read := by
    rw [u32]
    omega
  have haddress : u32 (startAddr + u32 (read * 4)) = startAddr + 4 * read := by
    rw [u32_of_lt (by omega : read * 4 < 2 ^ 32), u32_of_lt (by omega)]
    omega
  rw [readTurn, hask, haddress]
  by_cases haccepts : d.accepts s.commands (startAddr + 4 * read) (quads - read) = true
  · have hle := nbQuadlets_le haccepts
    have hdone := haccepts
    rw [accepts] at hdone
    simp only [if_pos haccepts, if_pos hdone]
    rw [u32_of_lt (by omega)]
  · have hdone := haccepts
    rw [accepts] at hdone
    simp only [if_neg haccepts, if_neg hdone]

/-- How the inner loop goes on after a turn. -/
theorem readBlock_of_some (h : d.readTurn startAddr quads read s = (s', some quadletsRead))
    (tries : ℕ) :
    (quadletsRead < quads → d.readBlock startAddr quads (tries + 1) read s =
      d.readBlock startAddr quads tries quadletsRead s') ∧
    (¬ quadletsRead < quads →
      d.readBlock startAddr quads tries read s = (s', some (tries : ℤ))) := by
  constructor
  · intro hlt
    rw [readBlock.eq_def, h]
    exact if_pos hlt
  · intro hge
    rw [readBlock.eq_def, h]
    exact if_neg hge

theorem Answers.readTurn (h : d.Answers s.commands (startAddr + 4 * read) (quads - read) nb)
    (hb : InBlock startAddr quads read) (haddr : startAddr + 4 * read = start + 4 * m)
    (hs : Filled flash buffer start m s) (busy : ℕ → ℕ → Quadlet) :
    ∃ t, (d.carrying flash busy).readTurn startAddr quads read s = (t, some (read + nb)) ∧
      Filled flash buffer start (m + nb) t ∧ t.commands = s.commands + 1 := by
  rw [readTurn_eq hb]
  obtain ⟨haccepts, hnb, hok⟩ := h
  have hcarries : (d.carrying flash busy).accepts s.commands (startAddr + 4 * read)
    (quads - read) = true := haccepts
  rw [if_pos hcarries]
  dsimp only [carrying]
  rw [hnb]
  refine ⟨_, rfl, ⟨congrArg (· + nb) hs.target, ?_⟩, rfl⟩
  have hcopy := @memcpy_memcpy _ m (fun i => flash (start + 4 * i)) buffer 0
  rw [hs.buffer, hs.target]
  rw [← hcopy, Nat.zero_add]
  intro i hi
  rw [if_pos (hok (by omega)), haddr]
  congr 1
  omega

/-- With tries enough the loop gets what is fetched. -/
theorem Fetched.readBlock (h : d.Fetched k' k address ask n) (hask : 0 < ask)
    (hread : read + ask = quads) (hquads : quads ≤ 64) (hlt : startAddr + 4 * quads < 2 ^ 32)
    (haddress : address = startAddr + 4 * read) (haddr : address = start + 4 * m)
    (hs : Filled flash buffer start m s) (hk : s.commands = k) (htries : k' ≤ k + tries)
    (busy : ℕ → ℕ → Quadlet) :
    ∃ t left, (d.carrying flash busy).readBlock startAddr quads tries read s =
        (t, some ((left + 1 : ℕ) : ℤ)) ∧
      Filled flash buffer start (m + n) t ∧ t.commands = k' := by
  induction h generalizing read m tries s with
  | @last k address ask n hanswer hle hk' =>
    obtain rfl : ask = quads - read := by omega
    subst hk haddress
    obtain ⟨t, hturn, hfilled, hcommands⟩ :=
      hanswer.readTurn ⟨by omega, hquads, hlt⟩ haddr hs busy
    obtain ⟨left, rfl⟩ : ∃ left, tries = left + 1 := ⟨tries - 1, by omega⟩
    exact ⟨t, left, (readBlock_of_some hturn (left + 1)).2 (by omega), hfilled, by omega⟩
  | @more k address ask n nb hanswer hnb hrest ih =>
    obtain rfl : ask = quads - read := by omega
    subst hk haddress
    obtain ⟨t, hturn, hfilled, hcommands⟩ :=
      hanswer.readTurn ⟨by omega, hquads, hlt⟩ haddr hs busy
    have hlater := hrest.lt_commands
    obtain ⟨tries, rfl⟩ : ∃ left, tries = left + 1 := ⟨tries - 1, by omega⟩
    rw [(readBlock_of_some hturn tries).1 (by omega), ← Nat.add_assoc]
    exact ih (by omega) (by omega) (by omega) (by omega) hfilled hcommands (by omega)

theorem Answers.readTurn_of_empty (h : d.Answers s.commands startAddr quads 0)
    (hb : InBlock startAddr quads 0) :
    d.readTurn startAddr quads 0 s = (⟨s.commands + 1, s.target, s.buffer⟩, some 0) := by
  rw [readTurn_eq hb, Nat.mul_zero, Nat.add_zero, Nat.sub_zero]
  simp only [if_pos h.accepts, h.nbQuadlets, memcpy_zero, Nat.add_zero]

/-- The tries run out over answers without any quadlets. -/
theorem readBlock_of_empty (hb : InBlock startAddr quads 0)
    (h : ∀ i ≤ tries, d.Answers (s.commands + i) startAddr quads 0) :
    d.readBlock startAddr quads tries 0 s =
      (⟨s.commands + (tries + 1), s.target, s.buffer⟩, some (-1)) := by
  induction tries generalizing s with
  | zero =>
    rw [readBlock.eq_def, (h 0 le_rfl).readTurn_of_empty hb]
    exact if_pos hb.read_lt
  | succ tries ih =>
    have hrest : ∀ i ≤ tries, d.Answers (s.commands + 1 + i) startAddr quads 0 := by
      intro i hi
      rw [Nat.add_assoc, Nat.add_comm 1]
      exact h (i + 1) (by omega)
    have hturn := (h 0 (Nat.zero_le _)).readTurn_of_empty hb
    rw [(readBlock_of_some hturn tries).1 hb.read_lt, ih hrest]
    simp only [Nat.add_assoc, Nat.add_comm 1]

end Block

section Blocks

variable {fuel a : ℕ} {s t : ReadState}

theorem quadsInBlock_add (a n : ℕ) : quadsInBlock a (a + 4 * n) = min 64 n := by
  have hquads : efcFlashSizeQuads = 64 := rfl
  rw [quadsInBlock, hquads]
  split_ifs <;> omega

def readBlocks (d : FlashDevice) (fuel a n : ℕ) (s : ReadState) : Option (ReadState × Bool) :=
  loop (2 ^ 32) efcFlashSizeBytes (a + 4 * n) (d.readWholeBlock (a + 4 * n)) fuel a s

theorem readBlocks_step (hn : 0 < n) (hfit : Fits a n) {v : ℤ} (hv : v ≠ 0)
    (h : d.readBlock a (min 64 n) maxTries 0 s = (t, some v)) (fuel : ℕ) :
    d.readBlocks (fuel + 2) a n s =
      if n ≤ 64 then some (t, true) else d.readBlocks (fuel + 1) (a + 256) (n - 64) t := by
  rw [Fits] at hfit
  have hround : d.readWholeBlock (a + 4 * n) a s = (t, true) := by
    rw [readWholeBlock, quadsInBlock_add, h]
    simp [hv]
  have hnext : (a + efcFlashSizeBytes) % 2 ^ 32 = a + 256 := by
    rw [efcFlashSizeBytes, Nat.mod_eq_of_lt (by omega)]
  rw [readBlocks, readBlocks, loop, if_pos (by omega), hround]
  dsimp only
  rw [hnext]
  split_ifs with hlast
  · rw [loop, if_neg (by omega)]
  · rw [show a + 256 + 4 * (n - 64) = a + 4 * n by omega]

theorem Supplies.readBlocks (h : d.Supplies k a n) (hn : 0 < n) (hfit : Fits a n)
    {m : ℕ} (haddr : a = start + 4 * m) (hs : Filled flash buffer start m s) (hk : s.commands = k)
    (hfuel : (n + 63) / 64 < fuel) (busy : ℕ → ℕ → Quadlet) :
    ∃ t, (d.carrying flash busy).readBlocks fuel a n s = some (t, true) ∧
      Filled flash buffer start (m + n) t := by
  have hfits := hfit
  rw [Fits] at hfits
  obtain ⟨fuel, rfl⟩ : ∃ f, fuel = f + 2 := ⟨fuel - 2, by omega⟩
  induction h generalizing s m fuel with
  | @last k k' a n hle hfetched htries =>
    obtain ⟨t, left, hblock, hfilled, -⟩ := hfetched.readBlock hn (Nat.zero_add n) hle
      (by omega) rfl haddr hs hk htries busy
    rw [← Nat.min_eq_right hle] at hblock
    exact ⟨t, by rw [readBlocks_step hn hfit (by omega) hblock, if_pos hle], hfilled⟩
  | @more k k' a n hlt hfetched htries hrest ih =>
    obtain ⟨t, left, hblock, hfilled, hcommands⟩ := hfetched.readBlock (by decide) (Nat.zero_add 64)
      le_rfl (by omega) rfl haddr hs hk htries busy
    rw [← Nat.min_eq_left hlt.le] at hblock
    obtain ⟨fuel, rfl⟩ : ∃ f, fuel = f + 1 := ⟨fuel - 1, by omega⟩
    obtain ⟨t', hrun, hfilled'⟩ := @ih t (by omega) (by rw [Fits]; omega) (m + 64) (by omega)
      hfilled hcommands (by omega) fuel (by omega)
    refine ⟨t', ?_, ?_⟩
    · rw [readBlocks_step hn hfit (by omega) hblock, if_neg (by omega), hrun]
    · rwa [Nat.add_assoc, Nat.add_sub_cancel' hlt.le] at hfilled'
  | @ahead k k' a n hlt hle hfetched htries hempty =>
    obtain ⟨t, left, hblock, hfilled, rfl⟩ := hfetched.readBlock (by decide) (Nat.zero_add 64)
      le_rfl (by omega) rfl haddr hs hk htries busy
    rw [← Nat.min_eq_left hlt.le] at hblock
    have hempty' : ∀ i ≤ maxTries, (d.carrying flash busy).Answers (t.commands + i) (a + 256)
        (min 64 (n - 64)) 0 := by
      intro i hi
      rw [Nat.min_eq_right (by omega)]
      exact ⟨(hempty i hi).accepts, (hempty i hi).nbQuadlets, nofun⟩
    obtain ⟨fuel, rfl⟩ : ∃ f, fuel = f + 1 := ⟨fuel - 1, by omega⟩
    refine ⟨⟨t.commands + (maxTries + 1), t.target, t.buffer⟩, ?_, hfilled.target, hfilled.buffer⟩
    rw [readBlocks_step hn hfit (by omega) hblock, if_neg (by omega),
      readBlocks_step (by omega) (by rw [Fits]; omega) (by decide)
        (readBlock_of_empty ⟨by omega, by omega, by omega⟩ hempty'), if_pos (by omega)]

end Blocks

section Tagged

def tag (address : ℕ) : Quadlet :=
  if address < 2 ^ 33 then BitVec.ofNat 32 (address / 4) else 0xFFFFFFFD

structure Extends (s t : ReadState) : Prop where
  le : s.target ≤ t.target
  kept : ∀ i < s.target, t.buffer i = s.buffer i
  written : ∀ i < t.target, s.target ≤ i → t.buffer i ≠ 0xFFFFFFFF
  behind : ∀ i, t.target ≤ i → t.buffer i = s.buffer i

variable {startAddr quads read tries quadletsRead fuel a F : ℕ} {s t u final : ReadState} {v : ℤ}

theorem Extends.refl (s : ReadState) : Extends s s :=
  ⟨le_rfl, fun _ _ => rfl, fun _ hlt hle => absurd hlt hle.not_gt, fun _ _ => rfl⟩

theorem Extends.trans (h : Extends s t) (h' : Extends t u) : Extends s u where
  le := h.le.trans h'.le
  kept i hi := (h'.kept i (hi.trans_le h.le)).trans (h.kept i hi)
  written i hi hle := by
    rcases Nat.lt_or_ge i t.target with hlt | hge
    · rw [h'.kept i hlt]
      exact h.written i hlt hle
    · exact h'.written i hi hge
  behind i hi := (h'.behind i hi).trans (h.behind i (h'.le.trans hi))

variable (hfinal : Filled tag (fun _ => 0xFFFFFFFF) start F final)
include hfinal

end Tagged

section Carrying

variable {busy : ℕ → ℕ → Quadlet} {startAddr quads tries read : ℕ} {s t : ReadState}

def Agrees {α : Type} (x y : ReadState × α) : Prop := x.1.commands = y.1.commands ∧ x.2 = y.2

end Carrying

theorem readFlash_eq {len : ℕ} (h : ¬ Refused start len) (fuel commands : ℕ) :
    d.readFlash fuel start len commands buffer =
      d.readBlocks fuel start (u32 (len * 4) / 4) ⟨commands, 0, buffer⟩ := by
  rw [readFlash, ite_of_not_refused _ _ h, stopAddr_eq h, readBlocks]

theorem Supplies.readFlash {fuel commands len : ℕ} (h : d.Supplies commands start len)
    (hrefused : ¬ Refused start len) (hlt : len * 4 < 2 ^ 32) (hfit : Fits start len)
    (hfuel : (len + 63) / 64 < fuel) (busy : ℕ → ℕ → Quadlet) :
    ∃ t, (d.carrying flash busy).readFlash fuel start len commands buffer = some (t, true) ∧
      Filled flash buffer start len t := by
  have hfirst : Filled flash buffer start 0 ⟨commands, 0, buffer⟩ :=
    ⟨rfl, (memcpy_zero _ _ _).symm⟩
  have hpos : 0 < len := Nat.pos_of_ne_zero fun hzero => hrefused (.inl hzero)
  obtain ⟨t, hrun, hfilled⟩ := h.readBlocks hpos hfit rfl hfirst rfl hfuel busy
  rw [Nat.zero_add] at hfilled
  refine ⟨t, ?_, hfilled⟩
  rw [readFlash_eq hrefused, u32_div_four_eq_iff.mpr hlt, hrun]

theorem Filled.read {m : ℕ} {s : ReadState} (h : Filled flash buffer start m s) :
    (∀ i < m, s.buffer i = flash (start + 4 * i)) ∧ ∀ i, m ≤ i → s.buffer i = buffer i := by
  rw [h.buffer]
  constructor
  · intro i hi
    rw [memcpy, if_pos (by omega), Nat.sub_zero]
  · intro i hi
    rw [memcpy, if_neg (by omega)]

def delivering (flash : ℕ → Quadlet) : FlashDevice where
  write _ _ := ⟨true, true, .ok⟩
  read _ address nbQuadlets := ⟨⟨true, true, .ok⟩, min 64 nbQuadlets,
    fun i => flash (address + 4 * i)⟩
  erase _ _ := ⟨true, true, .ok⟩
  getStatus _ := ⟨true, true, .ok⟩

theorem carrying_delivering (busy : ℕ → ℕ → Quadlet) :
    (delivering flash).carrying flash busy = delivering flash := rfl

theorem delivering_supplies (k address : ℕ) (hn : 0 < n) :
    (delivering flash).Supplies k address n := by
  have hfetched : ∀ k address ask, ask ≤ 64 →
      (delivering flash).Fetched (k + 1) k address ask ask := by
    intro k address ask hask
    refine .last ⟨?_, Nat.min_eq_right hask, fun _ => rfl⟩ le_rfl rfl
    simp [accepts, delivering, FlashReadReply.deserialized, doEfcOverAVC, efcFlashSizeQuads,
      efcFlashSizeBytes]
  induction n using Nat.strong_induction_on generalizing k address with
  | _ n ih =>
    rcases Nat.lt_or_ge 64 n with hmore | hlast
    · exact .more hmore (hfetched k address 64 le_rfl) (by omega)
        (ih (n - 64) (by omega) _ _ (by omega))
    · exact .last hlast (hfetched k address n hlast) (by omega)

/-- A device whose answers have so many quadlets, whatever it is asked for. -/
def answering (nb : ℕ) : FlashDevice where
  write _ _ := ⟨true, true, .ok⟩
  read _ _ _ := ⟨⟨true, true, .ok⟩, nb, fun _ => 1⟩
  erase _ _ := ⟨true, true, .ok⟩
  getStatus _ := ⟨true, true, .ok⟩

end Ffado.Fireworks.FlashDevice
