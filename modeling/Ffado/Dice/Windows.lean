import Ffado.Dice.Eap
import Ffado.Dice.StreamControl
import Mathlib.Data.Nat.Bitwise

/-!
# Parameter spaces of a DICE device

The registers lie in spaces whose offsets and sizes the device tells in quadlets. `initIoFunctions`
reads them once; the accessors of a space check an access against them and add the offset of the
space. An access that is refused gets a marker as its offset, which is tested when the register is
accessed.

The checks compare an offset in a space with the end of the space in the registers, that of the
streams multiplies the size of the space, and the extended protocol checks the length alone. The
layout of the receivers is read from the space of the transmitters.
-/
namespace Ffado.Dice

def registerAt (order : ByteOrder) (m : ℕ → Quadlet) (offset : ℕ) : Quadlet :=
  condSwapFromBus32 order (m (registerIndex offset))

def readBytes (order : ByteOrder) (ok : Bool) (m : ℕ → Quadlet) (offset : ℕ) : Option Quadlet :=
  (readReg order ok m offset).map (· * 4)

def readSpace (order : ByteOrder) (okOffset okSize : Bool) (m : ℕ → Quadlet) (offset : ℕ) :
    Option Space := do
  let regOffset ← readBytes order okOffset m offset
  let regSize ← readBytes order okSize m (offset + 4)
  return ⟨regOffset, regSize⟩

structure Layout where
  global : Space
  tx : Bank
  rx : Bank
  unused1 : Space
  unused2 : Space

namespace Layout

variable (layout : Layout)

/-- The offset in the space; the sum of the quadlets is a quadlet. -/
def globalOffsetGen (offset length : ℕ) : ℕ :=
  if layout.global.offset &&& 0x80000000 ≠ 0 then invalidOffset
  else if (layout.global.offset + layout.global.size).toNat < (offset + length) % 2 ^ 64 then
    invalidOffset
  else offset

def globalOffset (offset length : ℕ) : ℕ :=
  (layout.global.offset.toNat + layout.globalOffsetGen offset length) % 2 ^ 64

end Layout

def vendorAlesis : ℕ := 0x000595

def vendorFocusrite : ℕ := 0x00130e

def vendorDnr : ℕ := 0x000F64

/-- Devices that announce two receivers and have one. -/
def oneReceiver (vendorId modelId : ℕ) : Bool :=
  (vendorId = vendorAlesis ∧ (modelId = 0x00000001 ∨ modelId = 0x00000000)) ∨
    (vendorId = vendorFocusrite ∧ modelId = 0x00000012)

def clockSelect : ℕ := 0x004C

/-- `ok` tells which of the transactions succeed. The registers are changed for one vendor only. -/
def initIoFunctions (order : ByteOrder) (ok : ℕ → Bool) (vendorId modelId : ℕ) (m : ℕ → Quadlet) :
    Option (Layout × (ℕ → Quadlet)) := do
  let global ← readSpace order (ok 0) (ok 1) m 0x0000
  let tx ← readSpace order (ok 2) (ok 3) m 0x0008
  let rx ← readSpace order (ok 4) (ok 5) m 0x0010
  let unused1 ← readSpace order (ok 6) (ok 7) m 0x0018
  let unused2 ← readSpace order (ok 8) (ok 9) m 0x0020
  let nbTx ← readReg order (ok 10) m tx.offset.toNat
  let txSize ← readBytes order (ok 11) m (tx.offset + 4).toNat
  -- also for the receivers
  let nbRx ← readReg order (ok 12) m tx.offset.toNat
  let rxSize ← readBytes order (ok 13) m (tx.offset + 4).toNat
  let nbRx := if oneReceiver vendorId modelId then 1 else nbRx
  let layout : Layout :=
    { global, unused1, unused2
      tx := ⟨tx.offset, tx.size, nbTx, txSize⟩
      rx := ⟨rx.offset, rx.size, nbRx, rxSize⟩ }
  if vendorId = vendorDnr then
    return (layout, (writeReg order (ok 14) m (layout.globalOffset clockSelect 4) 0x0107).1)
  else return (layout, m)

section Init

variable {order : ByteOrder} {ok : ℕ → Bool} {vendorId modelId : ℕ} {m m' : ℕ → Quadlet}
  {layout : Layout}

variable {offset : ℕ}

/-- The number of bytes that a register with a number of quadlets tells. -/
def byteValue (order : ByteOrder) (m : ℕ → Quadlet) (offset : ℕ) : ℕ :=
  4 * (registerAt order m offset).toNat

structure Small (order : ByteOrder) (m : ℕ → Quadlet) : Prop where
  space : ∀ offset ∈ [0x0000, 0x0004, 0x0008, 0x000C, 0x0010, 0x0014],
    byteValue order m offset < 2 ^ 31
  stream : ∀ offset ∈ [0x0008, 0x0010], byteValue order m (byteValue order m offset + 4) < 2 ^ 31

theorem readReg_eq {okay : Bool} {q : Quadlet} (h : readReg order okay m offset = some q) :
    q = registerAt order m offset := by
  rw [readReg] at h
  split_ifs at h
  exact (Option.some.inj h).symm

theorem readBytes_eq {okay : Bool} {q : Quadlet} (h : readBytes order okay m offset = some q) :
    q = registerAt order m offset * 4 := by
  obtain ⟨q', hread, rfl⟩ := Option.map_eq_some_iff.mp h
  rw [readReg_eq hread]

theorem toNat_mul_four (h : byteValue order m offset < 2 ^ 31) :
    (registerAt order m offset * 4).toNat = byteValue order m offset := by
  have hfour : (4 : Quadlet).toNat = 4 := rfl
  rw [byteValue] at h ⊢
  rw [BitVec.toNat_mul, hfour]
  omega

theorem readSpace_eq {okOffset okSize : Bool} {space : Space}
    (h : readSpace order okOffset okSize m offset = some space)
    (hoffset : byteValue order m offset < 2 ^ 31)
    (hsize : byteValue order m (offset + 4) < 2 ^ 31) :
      space.offset.toNat = byteValue order m offset ∧
        space.size.toNat = byteValue order m (offset + 4) := by
  obtain ⟨regOffset, hreg, h⟩ := Option.bind_eq_some_iff.mp h
  obtain ⟨regSize, hregSize, h⟩ := Option.bind_eq_some_iff.mp h
  cases h
  rw [readBytes_eq hreg, readBytes_eq hregSize]
  exact ⟨toNat_mul_four hoffset, toNat_mul_four hsize⟩

structure Reads (order : ByteOrder) (vendorId modelId : ℕ) (m : ℕ → Quadlet) (layout : Layout) :
    Prop where
  globalOffset : layout.global.offset.toNat = byteValue order m 0x0000
  globalSize : layout.global.size.toNat = byteValue order m 0x0004
  txOffset : layout.tx.regOffset.toNat = byteValue order m 0x0008
  txRegSize : layout.tx.regSize.toNat = byteValue order m 0x000C
  rxOffset : layout.rx.regOffset.toNat = byteValue order m 0x0010
  rxRegSize : layout.rx.regSize.toNat = byteValue order m 0x0014
  nbTx : layout.tx.nb = registerAt order m (byteValue order m 0x0008)
  txSize : layout.tx.size.toNat = byteValue order m (byteValue order m 0x0008 + 4)
  nbRx : layout.rx.nb = if oneReceiver vendorId modelId then 1 else layout.tx.nb
  rxSize : layout.rx.size = layout.tx.size

theorem initIoFunctions_reads (hsmall : Small order m)
    (hinit : initIoFunctions order ok vendorId modelId m = some (layout, m')) :
    Reads order vendorId modelId m layout := by
  obtain ⟨global, hglobal, hinit⟩ := Option.bind_eq_some_iff.mp hinit
  obtain ⟨tx, htx, hinit⟩ := Option.bind_eq_some_iff.mp hinit
  obtain ⟨rx, hrx, hinit⟩ := Option.bind_eq_some_iff.mp hinit
  obtain ⟨unused1, -, hinit⟩ := Option.bind_eq_some_iff.mp hinit
  obtain ⟨unused2, -, hinit⟩ := Option.bind_eq_some_iff.mp hinit
  obtain ⟨nbTx, hnbTx, hinit⟩ := Option.bind_eq_some_iff.mp hinit
  obtain ⟨txSize, htxSize, hinit⟩ := Option.bind_eq_some_iff.mp hinit
  obtain ⟨nbRx, hnbRx, hinit⟩ := Option.bind_eq_some_iff.mp hinit
  obtain ⟨rxSize, hrxSize, hinit⟩ := Option.bind_eq_some_iff.mp hinit
  obtain ⟨hglobalOffset, hglobalSize⟩ :=
    readSpace_eq hglobal (hsmall.space _ (by simp)) (hsmall.space _ (by simp))
  obtain ⟨htxOffset, htxRegSize⟩ :=
    readSpace_eq htx (hsmall.space _ (by simp)) (hsmall.space _ (by simp))
  obtain ⟨hrxOffset, hrxRegSize⟩ :=
    readSpace_eq hrx (hsmall.space _ (by simp)) (hsmall.space _ (by simp))
  have hsecond : (tx.offset + 4).toNat = byteValue order m 0x0008 + 4 := by
    have hlt := hsmall.space 0x0008 (by simp)
    have hfour : (4 : Quadlet).toNat = 4 := rfl
    rw [BitVec.toNat_add, hfour, htxOffset]
    omega
  have hnb := readReg_eq hnbTx
  have hnb' := readReg_eq hnbRx
  have hsize := readBytes_eq htxSize
  have hsize' := readBytes_eq hrxSize
  rw [htxOffset] at hnb hnb'
  rw [hsecond] at hsize hsize'
  have hbytes : txSize.toNat = byteValue order m (byteValue order m 0x0008 + 4) := by
    rw [hsize]
    exact toNat_mul_four (hsmall.stream _ (by simp))
  have hlayout : layout = ⟨global, ⟨tx.offset, tx.size, nbTx, txSize⟩,
      ⟨rx.offset, rx.size, if oneReceiver vendorId modelId then 1 else nbRx, rxSize⟩,
      unused1, unused2⟩ := by
    by_cases hdnr : vendorId = vendorDnr
    · rw [if_pos hdnr] at hinit
      cases hinit
      rfl
    · rw [if_neg hdnr] at hinit
      cases hinit
      rfl
  rw [hlayout]
  refine ⟨hglobalOffset, hglobalSize, htxOffset, htxRegSize, hrxOffset, hrxRegSize, hnb,
    hbytes, ?_, ?_⟩
  · rw [hnb, hnb']
  · rw [hsize, hsize']

end Init

inductive Access
  | global (offset length : UInt64)
  | tx (i : UInt32) (offset length : UInt64)
  | rx (i : UInt32) (offset length : UInt64)
  | eap (base : RegBase) (offset : UInt32) (length : UInt64)

/-- The register that an access starts at. -/
def Access.address (layout : Layout) (eap : Eap) : Access → ℕ
  | .global offset length => layout.globalOffset offset.toNat length.toNat
  | .tx i offset length => layout.tx.streamOffset i.toNat offset.toNat length.toNat
  | .rx i offset length => layout.rx.streamOffset i.toNat offset.toNat length.toNat
  | .eap base offset length => eap.offsetGen base offset length.toNat

/-- These bytes are those of a space. -/
def Within (start size address length : ℕ) : Prop := start ≤ address ∧
    address + length ≤ start + size

/-- The access of a stream is in the space, and in the block of the stream if it is not to the
registers in front of the blocks. `nb` and `size` are the number and the size of the blocks. -/
structure WithinBlock (start regSize nb size i offset address length : ℕ) : Prop where
  space : Within start regSize address length
  block : 8 ≤ offset → i < nb ∧ Within (start + 8 + i * size) size address length

/-- An access that is not refused is inside its space. -/
def Confined (order : ByteOrder) (m : ℕ → Quadlet) (layout : Layout) (eap : Eap)
    (a : Access) : Prop :=
  a.address layout eap < invalidOffset →
    match a with
    | .global _ length =>
      Within (byteValue order m 0x0000) (byteValue order m 0x0004)
        (a.address layout eap) length.toNat
    | .tx i offset length =>
      WithinBlock (byteValue order m 0x0008) (byteValue order m 0x000C)
        (registerAt order m (byteValue order m 0x0008)).toNat
        (byteValue order m (byteValue order m 0x0008 + 4)) i.toNat offset.toNat
        (a.address layout eap) length.toNat
    | .rx i offset length =>
      WithinBlock (byteValue order m 0x0010) (byteValue order m 0x0014)
        (registerAt order m (byteValue order m 0x0010)).toNat
        (byteValue order m (byteValue order m 0x0010 + 4)) i.toNat offset.toNat
        (a.address layout eap) length.toNat
    | .eap base _ length =>
      ∀ addr maxlen, eap.space base = some (addr, maxlen) →
        Within (eapBase + addr) maxlen (a.address layout eap) length.toNat

section Confined

variable {offset length i : ℕ}

/-- An offset in a space, and the bytes behind it. -/
theorem within_iff {start size : ℕ} (hstart : start < 2 ^ 31) (hsize : size < 2 ^ 31)
    (hoffset : offset < 2 ^ 64) :
    Within start size ((start + offset) % 2 ^ 64) length ↔ offset + length ≤ size := by
  rw [Within]
  omega

theorem withinBlock_iff {start regSize nb size r : ℕ} (hstart : start < 2 ^ 31)
    (hsize : regSize < 2 ^ 31) (hr : r < 2 ^ 64) :
    WithinBlock start regSize nb size i offset ((start + r) % 2 ^ 64) length ↔
      r + length ≤ regSize ∧
        (8 ≤ offset → i < nb ∧ 8 + i * size ≤ r ∧ r + length ≤ 8 + (i + 1) * size) := by
  have hblock (hfits : r + length ≤ regSize) :
      Within (start + 8 + i * size) size ((start + r) % 2 ^ 64) length ↔
        8 + i * size ≤ r ∧ r + length ≤ 8 + (i + 1) * size := by
    rw [Within, Nat.succ_mul]
    omega
  constructor
  · rintro ⟨hspace, hin⟩
    have hfits := (within_iff hstart hsize hr).mp hspace
    refine ⟨hfits, fun h8 => ⟨(hin h8).1, (hblock hfits).mp (hin h8).2⟩⟩
  · rintro ⟨hfits, hin⟩
    exact ⟨(within_iff hstart hsize hr).mpr hfits,
      fun h8 => ⟨(hin h8).1, (hblock hfits).mpr (hin h8).2⟩⟩

theorem and_signBit_eq_zero {q : Quadlet} : q &&& 0x80000000 = 0 ↔ q.toNat < 2 ^ 31 := by
  have hbit : (0x80000000 : Quadlet).toNat = 2 ^ 31 := rfl
  rw [← BitVec.toNat_inj, BitVec.toNat_and, hbit, Nat.and_two_pow, Nat.testBit_eq_decide_div_mod_eq]
  change _ = 0 ↔ _
  by_cases hdiv : q.toNat / 2 ^ 31 % 2 = 1
  · simp only [hdiv, decide_true, Bool.toNat_true]
    omega
  · simp only [hdiv, decide_false, Bool.toNat_false]
    omega

/-- The offset of an access in the space of its streams. -/
def relativeOffset (size i offset : ℕ) : ℕ := (i * size % 2 ^ 32 + offset) % 2 ^ 64

theorem relativeOffset_lt (size i offset : ℕ) : relativeOffset size i offset < 2 ^ 64 :=
  Nat.mod_lt _ (by norm_num)

/-- What the check of the streams compares: the number of streams, and the end of the access with a
limit behind the space. -/
def StreamRefused (start regSize nb size i offset length : ℕ) : Prop :=
  2 ^ 31 ≤ nb ∨ nb ≤ i ∨
    (start + 4 + regSize * nb) % 2 ^ 32 < (relativeOffset size i offset + length) % 2 ^ 64

instance (start regSize nb size i offset length : ℕ) :
    Decidable (StreamRefused start regSize nb size i offset length) :=
  inferInstanceAs (Decidable (_ ∨ _ ∨ _))

theorem offsetGen_eq {bank : Bank} (hi : i < 2 ^ 32) (hstart : bank.regOffset.toNat < 2 ^ 31)
    (hsize : bank.size.toNat < 2 ^ 31) :
    bank.offsetGen i offset length =
      if StreamRefused bank.regOffset.toNat bank.regSize.toNat bank.nb.toNat
        bank.size.toNat i offset length then invalidOffset
          else relativeOffset bank.size.toNat i offset := by
  have hproduct : (BitVec.ofNat 32 i * bank.size).toNat = i * bank.size.toNat % 2 ^ 32 := by
    rw [BitVec.toNat_mul, BitVec.toNat_ofNat, Nat.mod_eq_of_lt hi]
  have hlimit : (bank.regOffset + 4 + bank.regSize * bank.nb).toNat =
      (bank.regOffset.toNat + 4 + bank.regSize.toNat * bank.nb.toNat) % 2 ^ 32 := by
    have hfour : (4 : Quadlet).toNat = 4 := rfl
    rw [BitVec.toNat_add, BitVec.toNat_add, BitVec.toNat_mul, hfour]
    omega
  rw [Bank.offsetGen, if_neg (not_not.mpr (and_signBit_eq_zero.mpr hstart)), hproduct, hlimit]
  by_cases hnb : bank.nb.toNat < 2 ^ 31
  · rw [if_neg (not_not.mpr (and_signBit_eq_zero.mpr hnb)),
      if_neg (not_not.mpr (and_signBit_eq_zero.mpr hsize))]
    by_cases hindex : bank.nb.toNat ≤ i
    · rw [if_pos hindex, if_pos (.inr (.inl hindex))]
    · rw [if_neg hindex]
      change (if _ then _ else relativeOffset _ _ _) = _
      congr 1
      exact propext ⟨fun h => .inr (.inr h),
        fun h => (h.resolve_left (not_le.mpr hnb)).resolve_left hindex⟩
  · rw [if_pos fun h => hnb (and_signBit_eq_zero.mp h), if_pos (.inl (not_lt.mp hnb))]

/-- The access is refused, or it fits into the space and into the block of the stream. The check
uses `nb` and `size`, the blocks of the space are `ownNb` blocks of `ownSize` bytes. -/
def StreamSafe (start regSize nb size ownNb ownSize i offset length : ℕ) : Prop :=
  StreamRefused start regSize nb size i offset length ∨
    invalidOffset ≤ (start + relativeOffset size i offset) % 2 ^ 64 ∨
    relativeOffset size i offset + length ≤ regSize ∧
      (8 ≤ offset → i < ownNb ∧ 8 + i * ownSize ≤ relativeOffset size i offset ∧
        relativeOffset size i offset + length ≤ 8 + (i + 1) * ownSize)

theorem stream_confined_iff {bank : Bank} {ownNb ownSize : ℕ} (hi : i < 2 ^ 32)
    (hstart : bank.regOffset.toNat < 2 ^ 31) (hregSize : bank.regSize.toNat < 2 ^ 31)
    (hsize : bank.size.toNat < 2 ^ 31) :
    (bank.streamOffset i offset length < invalidOffset →
        WithinBlock bank.regOffset.toNat bank.regSize.toNat ownNb ownSize i offset
          (bank.streamOffset i offset length) length) ↔
      StreamSafe bank.regOffset.toNat bank.regSize.toNat bank.nb.toNat bank.size.toNat
        ownNb ownSize i offset length := by
  have hlt := relativeOffset_lt bank.size.toNat i offset
  rw [Bank.streamOffset, offsetGen_eq hi hstart hsize, StreamSafe]
  split_ifs with hrefused
  · refine iff_of_true (fun haccepted => ?_) (.inl hrefused)
    rw [invalidOffset] at haccepted
    omega
  · rw [withinBlock_iff hstart hregSize hlt]
    constructor
    · intro h
      by_cases haccepted : (bank.regOffset.toNat + relativeOffset bank.size.toNat i
        offset) % 2 ^ 64 <
          invalidOffset
      · exact .inr (.inr (h haccepted))
      · exact .inr (.inl (not_lt.mp haccepted))
    · rintro (h | h | h) haccepted
      · exact absurd h hrefused
      · exact absurd haccepted (not_lt.mpr h)
      · exact h

/-- The access is refused, or it fits into the space. -/
def GlobalSafe (start size offset length : ℕ) : Prop :=
  start + size < (offset + length) % 2 ^ 64 ∨ invalidOffset ≤ (start + offset) % 2 ^ 64 ∨
    offset + length ≤ size

theorem global_confined_iff {layout : Layout} (hoffset : offset < 2 ^ 64)
    (hstart : layout.global.offset.toNat < 2 ^ 31) (hsize : layout.global.size.toNat < 2 ^ 31) :
    (layout.globalOffset offset length < invalidOffset →
        Within layout.global.offset.toNat layout.global.size.toNat
          (layout.globalOffset offset length) length) ↔
      GlobalSafe layout.global.offset.toNat layout.global.size.toNat offset length := by
  have hsum : (layout.global.offset + layout.global.size).toNat =
      layout.global.offset.toNat + layout.global.size.toNat := by
    rw [BitVec.toNat_add]
    omega
  rw [Layout.globalOffset, Layout.globalOffsetGen,
    if_neg (not_not.mpr (and_signBit_eq_zero.mpr hstart)), hsum, GlobalSafe]
  split_ifs with hrefused
  · refine iff_of_true (fun haccepted => ?_) (.inl hrefused)
    rw [invalidOffset] at haccepted
    omega
  · rw [within_iff hstart hsize hoffset]
    constructor
    · intro h
      by_cases haccepted : (layout.global.offset.toNat + offset) % 2 ^ 64 < invalidOffset
      · exact .inr (.inr (h haccepted))
      · exact .inr (.inl (not_lt.mp haccepted))
    · rintro (h | h | h) haccepted
      · exact absurd h hrefused
      · exact absurd haccepted (not_lt.mpr h)
      · exact h

theorem eap_confined_iff (eap : Eap) {base : RegBase} {offset : UInt32} {addr maxlen : ℕ}
    (hspace : eap.space base = some (addr, maxlen)) (haddr : addr < 2 ^ 32) :
    (eap.offsetGen base offset length < invalidOffset →
        Within (eapBase + addr) maxlen (eap.offsetGen base offset length) length) ↔
      maxlen < length ∨ offset.toNat + length ≤ maxlen := by
  have hoffset := offset.toNat_lt
  rw [Eap.offsetGen, hspace]
  dsimp only
  split_ifs with hrefused
  · exact iff_of_true (fun haccepted => absurd haccepted (lt_irrefl _)) (.inl hrefused)
  · rw [Within, eapBase, invalidOffset]
    omega

theorem space_lt {eap : Eap} {base : RegBase} {addr maxlen : ℕ}
    (hspace : eap.space base = some (addr, maxlen)) : addr < 2 ^ 32 := by
  cases base <;> simp only [Eap.space, Option.some.injEq, Prod.mk.injEq, reduceCtorEq] at hspace
  case rtBase => omega
  all_goals
    rw [← hspace.1]
    exact BitVec.isLt _

/-- Which accesses are refused or fit, in terms of the registers of the device. -/
def Safe (order : ByteOrder) (vendorId modelId : ℕ) (m : ℕ → Quadlet) (eap : Eap) : Access → Prop
  | .global offset length =>
    GlobalSafe (byteValue order m 0x0000) (byteValue order m 0x0004) offset.toNat length.toNat
  | .tx i offset length =>
    StreamSafe (byteValue order m 0x0008) (byteValue order m 0x000C)
      (registerAt order m (byteValue order m 0x0008)).toNat
      (byteValue order m (byteValue order m 0x0008 + 4))
      (registerAt order m (byteValue order m 0x0008)).toNat
      (byteValue order m (byteValue order m 0x0008 + 4)) i.toNat offset.toNat length.toNat
  | .rx i offset length =>
    StreamSafe (byteValue order m 0x0010) (byteValue order m 0x0014)
      (if oneReceiver vendorId modelId then 1
        else (registerAt order m (byteValue order m 0x0008)).toNat)
      (byteValue order m (byteValue order m 0x0008 + 4))
      (registerAt order m (byteValue order m 0x0010)).toNat
      (byteValue order m (byteValue order m 0x0010 + 4)) i.toNat offset.toNat length.toNat
  | .eap base offset length =>
    ∀ addr maxlen, eap.space base = some (addr, maxlen) →
      maxlen < length.toNat ∨ offset.toNat + length.toNat ≤ maxlen

/-- An access stays in its window just if it is refused or fits. -/
theorem access_confined_iff {order : ByteOrder} {ok : ℕ → Bool} {vendorId modelId : ℕ}
    {m m' : ℕ → Quadlet} {layout : Layout}
    (hinit : initIoFunctions order ok vendorId modelId m = some (layout, m'))
    (hsmall : Small order m) (eap : Eap) (a : Access) :
    Confined order m layout eap a ↔ Safe order vendorId modelId m eap a := by
  have h := initIoFunctions_reads hsmall hinit
  have hspace (offset : ℕ) (hmem : offset ∈ [0x0000, 0x0004, 0x0008, 0x000C, 0x0010, 0x0014]) :=
    hsmall.space offset hmem
  cases a with
  | global offset length =>
    rw [Safe, ← h.globalOffset, ← h.globalSize, ← global_confined_iff offset.toNat_lt
      (h.globalOffset ▸ hspace 0x0000 (by simp)) (h.globalSize ▸ hspace 0x0004 (by simp)),
      h.globalOffset, h.globalSize]
    rfl
  | tx i offset length =>
    have hsize : layout.tx.size.toNat < 2 ^ 31 := h.txSize ▸ hsmall.stream 0x0008 (by simp)
    rw [Safe, ← h.nbTx, ← h.txSize, ← h.txOffset, ← h.txRegSize, ← stream_confined_iff i.toNat_lt
      (h.txOffset ▸ hspace 0x0008 (by simp)) (h.txRegSize ▸ hspace 0x000C (by simp)) hsize]
    rw [Confined, ← h.nbTx, ← h.txSize, ← h.txOffset, ← h.txRegSize]
    rfl
  | rx i offset length =>
    have hsize : layout.tx.size.toNat < 2 ^ 31 := h.txSize ▸ hsmall.stream 0x0008 (by simp)
    have hnb : layout.rx.nb.toNat = if oneReceiver vendorId modelId then 1
      else layout.tx.nb.toNat := by
      rw [h.nbRx]
      split_ifs <;> rfl
    rw [Safe, ← h.nbTx, ← hnb, ← h.txSize, ← h.rxSize, ← h.rxOffset, ← h.rxRegSize,
      ← stream_confined_iff i.toNat_lt (h.rxOffset ▸ hspace 0x0010 (by simp))
        (h.rxRegSize ▸ hspace 0x0014 (by simp)) (h.rxSize ▸ hsize)]
    rw [Confined, ← h.rxOffset, ← h.rxRegSize]
    rfl
  | eap base offset length =>
    constructor
    · intro hconfined addr maxlen heap
      exact (eap_confined_iff eap heap (space_lt heap)).mp fun haccepted =>
        hconfined haccepted addr maxlen heap
    · intro hsafe haccepted addr maxlen heap
      exact (eap_confined_iff eap heap (space_lt heap)).mpr (hsafe addr maxlen heap) haccepted

end Confined

/-- The registers of the spaces, and those of the streams in front of their blocks. -/
def smallRegister : ℕ → Quadlet
  | 0 => 10
  | 1 => 10
  | 2 => 20
  | 3 => 20
  | 4 => 50
  | 5 => 20
  | 20 => 2
  | 21 => 8
  | 50 => 2
  | 51 => 9
  | _ => 0

def smallMemory (r : ℕ) : Quadlet := condSwapToBus32 .littleEndian
    (smallRegister (r - registerIndex 0))

/-- Both directions have blocks of 32 bytes, although those of the receivers are larger. -/
def smallLayout : Layout where
  global := ⟨40, 40⟩
  tx := ⟨80, 80, 2, 32⟩
  rx := ⟨200, 80, 2, 32⟩
  unused1 := ⟨0, 0⟩
  unused2 := ⟨0, 0⟩

theorem small_smallMemory : Small .littleEndian smallMemory := by
  constructor
  · decide +kernel
  · decide +kernel

theorem initIoFunctions_smallMemory :
    initIoFunctions .littleEndian (fun _ => true) 0 0 smallMemory =
      some (smallLayout, smallMemory) :=
  rfl

theorem second_transmitter_confined :
    Confined .littleEndian smallMemory smallLayout smallEap (.tx 1 8 4) := by
  refine (access_confined_iff initIoFunctions_smallMemory small_smallMemory smallEap _).mpr ?_
  refine .inr (.inr ⟨by decide +kernel, fun _ => by decide +kernel⟩)

/-- A global register behind the space, one of the transmitters behind theirs, a register of the
second receiver in the block of the first, and one behind the coefficients of the mixer. -/
theorem accesses_escape :
    ¬ Confined .littleEndian smallMemory smallLayout smallEap (.global 60 4) ∧
      ¬ Confined .littleEndian smallMemory smallLayout smallEap (.tx 0 100 4) ∧
      ¬ Confined .littleEndian smallMemory smallLayout smallEap (.rx 1 8 4) ∧
      ¬ Confined .littleEndian smallMemory smallLayout smallEap (.eap .rtMixer 0x100 4) := by
  refine ⟨fun h => ?_, fun h => ?_, fun h => ?_, fun h => ?_⟩
  · have hend := (h (by decide +kernel)).2
    exact absurd hend (by decide +kernel)
  · have hend := (h (by decide +kernel)).space.2
    exact absurd hend (by decide +kernel)
  · have hstart := ((h (by decide +kernel)).block (by decide +kernel)).2.1
    exact absurd hstart (by decide +kernel)
  · have hend := (h (by decide +kernel) 0x100 0x40 rfl).2
    exact absurd hend (by decide +kernel)

end Ffado.Dice
