import Ffado.Lib.ChunkedTransfer
import Ffado.Lib.CircularMemory
import Ffado.Lib.MachineInt
import Ffado.Util.ByteSwap

/-!
# Registers of a DICE device

The registers are a memory addressed by quadlets, each in the byte order of the bus. Blocks are
moved in transactions of at most 512 bytes. The loop that reads goes on through the registers, the
loop that writes puts every transaction to the start of the block.
-/
namespace Ffado.Dice

open ChunkedTransfer CircularMemory MachineInt

variable {b n : ℕ} {m src : ℕ → Quadlet}

def invalidOffset : ℕ := 0xFFFFF00000000000

def registerBase : ℕ := 0x0000FFFFE0000000

def registerIndex (offset : ℕ) : ℕ := (registerBase + offset) / 4

def readReg (order : ByteOrder) (ok : Bool) (m : ℕ → Quadlet) (offset : ℕ) : Option Quadlet :=
  if invalidOffset ≤ offset then none
  else if ok then some (condSwapFromBus32 order (m (registerIndex offset)))
  else none

def writeReg (order : ByteOrder) (ok : Bool) (m : ℕ → Quadlet) (offset : ℕ) (data : Quadlet) :
    (ℕ → Quadlet) × Bool :=
  if invalidOffset ≤ offset then (m, false)
  else if ok then (Function.update m (registerIndex offset) (condSwapToBus32 order data), true)
  else (m, false)

def byteSwapToBus (order : ByteOrder) (data : ℕ → Quadlet) (nbElements : ℕ) : ℕ → Quadlet :=
  fun i => if i < nbElements then condSwapToBus32 order (data i) else data i

def byteSwapFromBus (order : ByteOrder) (data : ℕ → Quadlet) (nbElements : ℕ) : ℕ → Quadlet :=
  fun i => if i < nbElements then condSwapFromBus32 order (data i) else data i

def blocksizeQuads : ℕ := 512 / 4

/-- From here on `quads_done*4` is no `int`. -/
def quadsLimit : ℕ := 2 ^ 29

/-- Round to next full quadlet; the result is an `int`, and the loops end at once if it is
negative. -/
def lengthQuads (length : ℕ) : ℕ := (i32 (u64 (length + 3) / 4 : ℕ)).toNat

def readTransaction (m : ℕ → Quadlet) (offset quadsDone quadsTodo : ℕ) (data : ℕ → Quadlet) :
    ℕ → Quadlet :=
  memcpy data quadsDone (pointer m (registerIndex (offset + quadsDone * 4))) quadsTodo

/-- `none` stands for an overflow. -/
def readRegBlock (order : ByteOrder) (ok : ℕ → Bool) (m : ℕ → Quadlet) (offset : ℕ)
    (data : ℕ → Quadlet) (length : ℕ) : Option ((ℕ → Quadlet) × Bool) :=
  if invalidOffset ≤ offset then some (data, false)
  else do
    let (data, result) ← transfer blocksizeQuads quadsLimit (lengthQuads length)
      (readTransaction m offset) ok data
    return (if result then byteSwapFromBus order data (length / 4) else data, result)

/-- The address is that of the block, not that of the quadlets to be written. -/
def writeTransaction (dataOut : ℕ → Quadlet) (offset quadsDone quadsTodo : ℕ) (m : ℕ → Quadlet) :
    ℕ → Quadlet :=
  memcpy m (registerIndex offset) (pointer dataOut quadsDone) quadsTodo

/-- The copy of the data has room for whole quadlets only. -/
def writeRegBlock (order : ByteOrder) (ok : ℕ → Bool) (m : ℕ → Quadlet) (offset : ℕ)
    (data : ℕ → Quadlet) (length : ℕ) : Option ((ℕ → Quadlet) × Bool) :=
  if invalidOffset ≤ offset then some (m, false)
  else if length % 4 ≠ 0 then none
  else
    let dataOut := byteSwapToBus order data (length / 4)
    transfer blocksizeQuads quadsLimit (lengthQuads length) (writeTransaction dataOut offset) ok m

theorem registerIndex_add (offset quads : ℕ) :
    registerIndex (offset + quads * 4) = registerIndex offset + quads := by
  rw [registerIndex, registerIndex]
  omega

theorem lengthQuads_of_lt {length : ℕ} (hdvd : 4 ∣ length) (hlt : length / 4 < 2 ^ 31) :
    lengthQuads length = length / 4 := by
  have hsum : u64 (length + 3) = length + 3 := u64_of_lt (by omega)
  have hquads : (length + 3) / 4 = length / 4 := by omega
  rw [lengthQuads, hsum, hquads, i32_of_range (by omega) (by omega), Int.toNat_natCast]

def lastWritten (n j : ℕ) : ℕ := 128 * ((n - 1 - j) / 128) + j

def overlay (m : ℕ → Quadlet) (b : ℕ) (src : ℕ → Quadlet) (n : ℕ) : ℕ → Quadlet :=
  fun i => if b ≤ i ∧ i < b + min 128 n then src (lastWritten n (i - b)) else m i

/-- The invariant of the loop that writes. -/
structure Overlaid (m : ℕ → Quadlet) (b : ℕ) (src : ℕ → Quadlet) (total quadsDone : ℕ)
    (m' : ℕ → Quadlet) : Prop where
  aligned : quadsDone < total → 128 ∣ quadsDone
  eq : m' = overlay m b src quadsDone

theorem overlaid_zero (m : ℕ → Quadlet) (b : ℕ) (src : ℕ → Quadlet) (total : ℕ) :
    Overlaid m b src total 0 m := by
  constructor
  · intro _
    exact dvd_zero 128
  · funext i
    rw [overlay, if_neg (by omega)]

theorem Overlaid.step {total quadsDone : ℕ} {m' : ℕ → Quadlet}
    (h : Overlaid m b src total quadsDone m') (hlt : quadsDone < total) :
    Overlaid m b src total (quadsDone + min 128 (total - quadsDone))
      (memcpy m' b (pointer src quadsDone) (min 128 (total - quadsDone))) := by
  obtain ⟨k, rfl⟩ := h.aligned hlt
  constructor
  · omega
  · funext i
    rw [h.eq]
    simp only [memcpy, overlay, pointer, lastWritten]
    by_cases hnew : b ≤ i ∧ i < b + min 128 (total - 128 * k)
    · rw [if_pos hnew, if_pos (by omega)]
      congr 1
      omega
    · rw [if_neg hnew]
      by_cases hold : b ≤ i ∧ i < b + min 128 (128 * k)
      · rw [if_pos hold, if_pos (by omega)]
        congr 1
        omega
      · rw [if_neg hold, if_neg (by omega)]

/-- The transactions on top of each other leave what a copy leaves, although all but the first one
were put in the wrong place. -/
structure SurvivesOverlay (m : ℕ → Quadlet) (b : ℕ) (src : ℕ → Quadlet) (n : ℕ) : Prop where
  repeated : ∀ j < 128, j < n → src (lastWritten n j) = src j
  present : ∀ j, 128 ≤ j → j < n → m (b + j) = src j

theorem survivesOverlay_of_le (h : n ≤ 128) :
    SurvivesOverlay m b src n := by
  constructor
  · intro j _ hj
    congr 1
    rw [lastWritten]
    omega
  · omega

theorem overlay_eq_iff :
    (∀ j < n, overlay m b src n (b + j) = src j) ↔ SurvivesOverlay m b src n := by
  have hat : ∀ j, overlay m b src n (b + j) =
      if j < min 128 n then src (lastWritten n j) else m (b + j) := by
    intro j
    simp only [overlay, Nat.add_sub_cancel_left]
    congr 1
    simp
  constructor
  · intro h
    constructor
    · intro j hj hn
      have heq := h j hn
      rwa [hat, if_pos (by omega)] at heq
    · intro j hj hn
      have heq := h j hn
      rwa [hat, if_neg (by omega)] at heq
  · intro h j hn
    rw [hat]
    split_ifs with hj
    · exact h.repeated j (by omega) hn
    · exact h.present j (by omega) hn

theorem overlay_eq_memcpy_iff :
    overlay m b src n = memcpy m b src n ↔ SurvivesOverlay m b src n := by
  rw [← overlay_eq_iff]
  constructor
  · intro h j hj
    rw [h, memcpy, if_pos (by omega), Nat.add_sub_cancel_left]
  · intro h
    funext i
    rw [memcpy]
    split_ifs with hin
    · have heq := h (i - b) (by omega)
      rwa [Nat.add_sub_cancel' hin.1] at heq
    · rw [overlay, if_neg (by omega)]

section Blocks

variable {order : ByteOrder} {ok : ℕ → Bool} {m m' : ℕ → Quadlet} {offset length : ℕ}
  {data data' : ℕ → Quadlet}

theorem writeRegBlock_eq (hoffset : offset < invalidOffset) (hdvd : 4 ∣ length)
    (hlimit : lengthQuads length ≤ quadsLimit) :
    writeRegBlock order (fun _ => true) m offset data length =
      some (overlay m (registerIndex offset) (byteSwapToBus order data (length / 4))
        (lengthQuads length), true) := by
  rw [writeRegBlock, if_neg (by omega), if_neg (by omega)]
  generalize byteSwapToBus order data (length / 4) = dataOut
  have hstep : ∀ quadsDone m', quadsDone < lengthQuads length →
      Overlaid m (registerIndex offset) dataOut (lengthQuads length) quadsDone m' →
      Overlaid m (registerIndex offset) dataOut (lengthQuads length)
        (quadsDone + min blocksizeQuads (lengthQuads length - quadsDone))
        (writeTransaction dataOut offset quadsDone
          (min blocksizeQuads (lengthQuads length - quadsDone)) m') := by
    intro quadsDone m' hlt h
    exact h.step hlt
  obtain ⟨m', hm', hinv⟩ := transfer_spec _ (by decide) hlimit hstep
    (overlaid_zero m (registerIndex offset) dataOut _)
  rw [← hinv.eq]
  exact hm'

theorem writeRegBlock_granted
    (h : writeRegBlock order ok m offset data length = some (m', true)) :
    writeRegBlock order (fun _ => true) m offset data length = some (m', true) := by
  rw [writeRegBlock] at h ⊢
  split_ifs at h ⊢
  · simp at h
  · exact transfer_granted h

theorem readRegBlock_eq (hoffset : offset < invalidOffset)
    (hlimit : lengthQuads length ≤ quadsLimit) :
    readRegBlock order (fun _ => true) m offset data length =
      some (byteSwapFromBus order
        (memcpy data 0 (pointer m (registerIndex offset)) (lengthQuads length))
          (length / 4), true) := by
  rw [readRegBlock, if_neg (by omega)]
  have hstep : ∀ quadsDone data', quadsDone < lengthQuads length →
      data' = memcpy data 0 (pointer m (registerIndex offset)) quadsDone →
      readTransaction m offset quadsDone (min 128 (lengthQuads length - quadsDone)) data' =
        memcpy data 0 (pointer m (registerIndex offset))
          (quadsDone + min 128 (lengthQuads length - quadsDone)) := by
    rintro quadsDone _ hlt rfl
    funext i
    simp only [readTransaction, memcpy, pointer, registerIndex_add]
    split_ifs <;> first | rfl | omega | (congr 1; omega)
  have hstart : data = memcpy data 0 (pointer m (registerIndex offset)) 0 := by
    funext i
    rw [memcpy, if_neg (by omega)]
  obtain ⟨data', hdata', hinv⟩ := transfer_spec _ (by decide) hlimit hstep hstart
  have hloop : transfer blocksizeQuads quadsLimit (lengthQuads length) (readTransaction m offset)
      (fun _ => true) data = some (data', true) := hdata'
  rw [hloop, hinv]
  rfl

theorem readRegBlock_granted
    (h : readRegBlock order ok m offset data length = some (data', true)) :
    readRegBlock order (fun _ => true) m offset data length = some (data', true) := by
  rw [readRegBlock] at h ⊢
  split_ifs at h ⊢
  · simp at h
  · obtain ⟨⟨data'', result⟩, htransfer, hreturn⟩ := Option.bind_eq_some_iff.mp h
    have hresult : result = true := by
      simpa using congrArg (Option.map Prod.snd) hreturn
    rw [hresult] at htransfer hreturn
    rw [transfer_granted htransfer]
    exact hreturn

/-- A block write that succeeds copies the data, and a block read that follows returns them. -/
structure CopiesBlock (order : ByteOrder) (m : ℕ → Quadlet) (offset : ℕ) (data : ℕ → Quadlet)
    (length : ℕ) : Prop where
  defined : writeRegBlock order (fun _ => true) m offset data length ≠ none
  copied : ∀ ok m', writeRegBlock order ok m offset data length = some (m', true) →
    m' = memcpy m (registerIndex offset) (byteSwapToBus order data (length / 4)) (length / 4)
  readBack : ∀ ok m', writeRegBlock order ok m offset data length = some (m', true) →
    ∀ ok' buf buf', readRegBlock order ok' m' offset buf length = some (buf', true) →
      ∀ j < length / 4, buf' j = data j

theorem readRegBlock_apply (hoffset : offset < invalidOffset) (hdvd : 4 ∣ length)
    (hle : length / 4 ≤ quadsLimit)
    (h : readRegBlock order ok m offset data length = some (data', true)) {j : ℕ}
    (hj : j < length / 4) : data' j = condSwapFromBus32 order (m (registerIndex offset + j)) := by
  have hquads := lengthQuads_of_lt hdvd (hle.trans_lt (by decide))
  have hread := readRegBlock_granted h
  rw [readRegBlock_eq hoffset (hquads ▸ hle), Option.some.injEq, Prod.mk.injEq] at hread
  rw [← hread.1, byteSwapFromBus, if_pos hj, hquads, memcpy, if_pos (by omega)]
  rfl

theorem copiesBlock_of_survives (hoffset : offset < invalidOffset) (hdvd : 4 ∣ length)
    (hle : length / 4 ≤ quadsLimit)
    (h : SurvivesOverlay m (registerIndex offset) (byteSwapToBus order data (length / 4))
      (length / 4)) : CopiesBlock order m offset data length := by
  have hquads := lengthQuads_of_lt hdvd (hle.trans_lt (by decide))
  have hwrite := @writeRegBlock_eq order m offset length data hoffset hdvd (hquads ▸ hle)
  rw [hquads, overlay_eq_memcpy_iff.mpr h] at hwrite
  have hcopied : ∀ ok m', writeRegBlock order ok m offset data length = some (m', true) →
      m' = memcpy m (registerIndex offset) (byteSwapToBus order data (length / 4))
        (length / 4) := by
    intro ok m' hm'
    have hsame := writeRegBlock_granted hm'
    rw [hwrite, Option.some.injEq, Prod.mk.injEq] at hsame
    exact hsame.1.symm
  constructor
  · rw [hwrite]
    exact Option.some_ne_none _
  · exact hcopied
  · intro ok m' hm' ok' buf buf' hbuf' j hj
    rw [readRegBlock_apply hoffset hdvd hle hbuf' hj, hcopied ok m' hm', memcpy,
      if_pos (by omega), Nat.add_sub_cancel_left, byteSwapToBus, if_pos hj,
      condSwapFromBus32_condSwapToBus32]

theorem offset_lt_of_write (h : writeRegBlock order ok m offset data length = some (m', true)) :
    offset < invalidOffset := by
  by_contra hge
  rw [writeRegBlock, if_pos (by omega)] at h
  simp at h

theorem offset_lt_of_read (h : readRegBlock order ok m offset data length = some (data', true)) :
    offset < invalidOffset := by
  by_contra hge
  rw [readRegBlock, if_pos (by omega)] at h
  simp at h

theorem writeRegBlock_ne_none (hdvd : 4 ∣ length) (hle : length / 4 ≤ quadsLimit) :
    writeRegBlock order (fun _ => true) m offset data length ≠ none := by
  rcases Nat.lt_or_ge offset invalidOffset with hlt | hge
  · have hquads := lengthQuads_of_lt hdvd (hle.trans_lt (by decide))
    rw [writeRegBlock_eq hlt hdvd (hquads ▸ hle)]
    exact Option.some_ne_none _
  · rw [writeRegBlock, if_pos hge]
    exact Option.some_ne_none _

theorem writeRegBlock_single (hdvd : 4 ∣ length) (hle : length / 4 ≤ 128)
    (h : writeRegBlock order ok m offset data length = some (m', true)) :
    m' = memcpy m (registerIndex offset) (byteSwapToBus order data (length / 4)) (length / 4) :=
  (copiesBlock_of_survives (offset_lt_of_write h) hdvd (hle.trans (by decide))
    (survivesOverlay_of_le hle)).copied ok m' h

theorem not_copiesBlock_of_lt (hoffset : offset < invalidOffset) (hdvd : 4 ∣ length)
    (hlt : quadsLimit < length / 4) : ¬ CopiesBlock order m offset data length := by
  intro h
  rcases Nat.lt_or_ge quadsLimit (lengthQuads length) with hover | hle
  · apply h.defined
    rw [writeRegBlock, if_neg (by omega), if_neg (by omega)]
    exact transfer_overflow hover (by decide)
  · -- the last quadlets of the buffer are not read
    obtain ⟨x, hx⟩ := exists_ne (data (lengthQuads length))
    have hread := h.readBack _ _ (writeRegBlock_eq hoffset hdvd hle) _
      (fun _ => condSwapToBus32 order x) _ (readRegBlock_eq hoffset hle) (lengthQuads length)
      (hle.trans_lt hlt)
    rw [byteSwapFromBus, if_pos (hle.trans_lt hlt), memcpy, if_neg (by omega),
      condSwapFromBus32_condSwapToBus32] at hread
    exact hx hread

theorem survives_of_readBack (hoffset : offset < invalidOffset) (hdvd : 4 ∣ length)
    (hle : length / 4 ≤ quadsLimit)
    (h : ∀ ok m', writeRegBlock order ok m offset data length = some (m', true) →
      ∀ ok' buf buf', readRegBlock order ok' m' offset buf length = some (buf', true) →
        ∀ j < length / 4, buf' j = data j) :
    SurvivesOverlay m (registerIndex offset) (byteSwapToBus order data (length / 4))
      (length / 4) := by
  have hquads := lengthQuads_of_lt hdvd (hle.trans_lt (by decide))
  have hlimit : lengthQuads length ≤ quadsLimit := hquads ▸ hle
  rw [← overlay_eq_iff]
  intro j hj
  have hwrite := @writeRegBlock_eq order m offset length data hoffset hdvd hlimit
  have hread := @readRegBlock_eq order (overlay m (registerIndex offset)
    (byteSwapToBus order data (length / 4)) (lengthQuads length)) offset length data hoffset hlimit
  have hdata := h _ _ hwrite _ _ _ hread j hj
  rw [readRegBlock_apply hoffset hdvd hle hread hj, hquads] at hdata
  rw [byteSwapToBus, if_pos hj, ← hdata, condSwapToBus32_condSwapFromBus32]

theorem copiesBlock_iff (hoffset : offset < invalidOffset) (hdvd : 4 ∣ length) :
    CopiesBlock order m offset data length ↔ length / 4 ≤ quadsLimit ∧
      SurvivesOverlay m (registerIndex offset) (byteSwapToBus order data (length / 4))
        (length / 4) := by
  constructor
  · intro h
    have hle : length / 4 ≤ quadsLimit := by
      by_contra hlt
      exact not_copiesBlock_of_lt hoffset hdvd (not_le.mp hlt) h
    exact ⟨hle, survives_of_readBack hoffset hdvd hle h.readBack⟩
  · rintro ⟨hle, h⟩
    exact copiesBlock_of_survives hoffset hdvd hle h

end Blocks

end Ffado.Dice
