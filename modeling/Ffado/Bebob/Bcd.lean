import Ffado.Lib.Crc
import Ffado.Util.CmdSerialize

/-!
# Firmware files of BeBoB devices

A BCD file has a header with a checksum. The checksum is computed with a table of values of type
`unsigned long`, and with constants of type `int` that are converted to it. With 32 bits the result
is the CRC-32; with 64 bits the upper halves of the entries get into the way.
-/
namespace Ffado.Bebob

open Cmd Crc MachineInt

inductive DataModel
  | ilp32
  | lp64
  deriving DecidableEq

def DataModel.longBits : DataModel → ℕ
  | ilp32 => 32
  | lp64 => 64

namespace Bcd

section Checksum

variable (w : ℕ)

/-- The constant `1 << k`, which is of type `int`, as an `unsigned long`. -/
def intShift (k : ℕ) : BitVec w := (1#32 <<< k).signExtend w

variable {w}

/-- One turn of the loop with the variables `value` and `ref`. -/
def reflectStep (ch : ℕ) (s : BitVec w × BitVec w) (i : ℕ) : BitVec w × BitVec w :=
  (if s.2 &&& 1 ≠ 0 then s.1 ||| intShift w (ch - i) else s.1, s.2 >>> 1)

def reflect (ref : BitVec w) (ch : ℕ) : BitVec w :=
  ((List.range' 1 ch).foldl (reflectStep ch) (0, ref)).1

def polynomial : BitVec 32 := 0x04c11db7

def tableStep (entry : BitVec w) : BitVec w :=
  (entry <<< 1) ^^^ (if entry &&& intShift w 31 ≠ 0 then polynomial.setWidth w else 0)

def crc32Table (i : ℕ) : BitVec w :=
  reflect (tableStep^[8] (reflect (BitVec.ofNat w i) 8 <<< 24)) 32

variable (w)

def crcStep (crc : BitVec w) (byte : UInt8) : BitVec w :=
  (crc >>> 8) ^^^ crc32Table ((crc &&& 0xff) ^^^ byte.toBitVec.setWidth w).toNat

def getCRC (text : List UInt8) : BitVec 32 :=
  (text.foldl (crcStep w) 0xffffffff ^^^ 0xffffffff).setWidth 32

end Checksum

variable {file : List UInt8}

def read (file : List UInt8) (addr : ℤ) (len : ℕ) : Option (List UInt8) :=
  if addr < 0 then none
  else
    let bytes := (file.drop addr.toNat).take len
    if bytes.length ≠ len then none else some bytes

def readQuadlet (order : ByteOrder) (file : List UInt8) (addr : ℤ) : Option Quadlet :=
  (read file addr 4).map fun bytes => quadletAt order (fun i => bytes.getD i 0) 0

def zeroed (crcOffset : ℕ) (header : List UInt8) : List UInt8 :=
  (((header.set (crcOffset + 0) 0).set (crcOffset + 1) 0).set (crcOffset + 2) 0).set
    (crcOffset + 3) 0

/-- False if one of the reads fails. -/
def checkHeaderCRC (m : DataModel) (order : ByteOrder) (file : List UInt8)
    (crcOffset headerSize : ℕ) : Bool :=
  (readQuadlet order file (i32 crcOffset)).any fun headerCRC =>
    (read file 0 headerSize).any fun header =>
      headerCRC = getCRC m.longBits (zeroed crcOffset header)

def bitsOf (text : List UInt8) : List Bool :=
  text.flatMap fun byte => (List.range 8).map byte.toBitVec.getLsbD

/-- The CRC-32 of a text, by its definition as a remainder: the register starts with ones, and is
mirrored and inverted at the end. -/
def IsCrc32 (text : List UInt8) (value : BitVec 32) : Prop :=
  toPoly (value ^^^ 0xffffffff).reverse = remainder polynomial 0xffffffff (bitsOf text)

theorem IsCrc32.unique {text : List UInt8} {value value' : BitVec 32} (h : IsCrc32 text value)
    (h' : IsCrc32 text value') : value = value' := by
  have hreverse := congrArg BitVec.reverse (toPoly_injective (h.trans h'.symm))
  rw [BitVec.reverse_reverse_eq, BitVec.reverse_reverse_eq] at hreverse
  exact (BitVec.xor_left_inj _).mp hreverse

section Ilp32

variable {ch i : ℕ}

theorem intShift_eq (k : ℕ) : intShift 32 k = BitVec.twoPow 32 k := by
  rw [intShift, BitVec.signExtend_eq, BitVec.twoPow_eq]

theorem and_twoPow_ne_zero_iff (v : BitVec 32) {k : ℕ} (hk : k < 32) :
    v &&& BitVec.twoPow 32 k ≠ 0 ↔ v.getLsbD k = true := by
  have hne : BitVec.twoPow 32 k ≠ 0 := by
    intro h
    have hbit := congrArg (BitVec.getLsbD · k) h
    simp [hk] at hbit
  rw [BitVec.and_twoPow]
  split_ifs with hbit
  · exact iff_of_true hne hbit
  · exact iff_of_false (fun h => h rfl) hbit

theorem getLsbD_reflectStep (s : BitVec 32 × BitVec 32) (h : ch - i < 32) (j : ℕ) :
    (reflectStep ch s i).1.getLsbD j =
      (s.1.getLsbD j || (s.2.getLsbD 0 && decide (ch - i = j))) := by
  have hone : (1 : BitVec 32) = BitVec.twoPow 32 0 := rfl
  rw [reflectStep, hone, intShift_eq]
  simp only [and_twoPow_ne_zero_iff _ (by decide : 0 < 32)]
  cases s.2.getLsbD 0 <;> simp [h]

/-- The invariant of the loop: so many bits have been taken from one end and put to the other. -/
theorem reflect_loop (ref : BitVec 32) {k : ℕ} (hch : ch ≤ 32) (hk : k ≤ ch) :
    ((List.range' 1 k).foldl (reflectStep ch) (0, ref)).2 = ref >>> k ∧
      ∀ j, ((List.range' 1 k).foldl (reflectStep ch) (0, ref)).1.getLsbD j =
        (decide (ch - k ≤ j ∧ j < ch) && ref.getLsbD (ch - 1 - j)) := by
  induction k with
  | zero =>
    refine ⟨rfl, fun j => ?_⟩
    rw [decide_eq_false (by omega)]
    exact BitVec.getLsbD_zero
  | succ k ih =>
    obtain ⟨href, hvalue⟩ := ih (by omega)
    rw [List.range'_concat, List.foldl_append, List.foldl_cons, List.foldl_nil]
    refine ⟨?_, fun j => ?_⟩
    · rw [reflectStep, href, BitVec.shiftRight_add]
    · rw [getLsbD_reflectStep _ (by omega), href, hvalue, BitVec.getLsbD_ushiftRight, Nat.add_zero]
      by_cases hj : ch - (1 + 1 * k) = j
      · -- this is the bit that is new
        have hback : ch - 1 - j = k := by omega
        rw [hback, decide_eq_false (by omega), decide_eq_true hj, decide_eq_true (by omega)]
        simp
      · rw [decide_eq_false hj, Bool.and_false, Bool.or_false]
        congr 1
        exact decide_eq_decide.mpr (by omega)

theorem getLsbD_reflect (ref : BitVec 32) (hch : ch ≤ 32) (j : ℕ) :
    (reflect ref ch).getLsbD j = (decide (j < ch) && ref.getLsbD (ch - 1 - j)) := by
  rw [reflect, (reflect_loop ref hch le_rfl).2]
  simp

theorem reflect_thirtyTwo (ref : BitVec 32) : reflect ref 32 = ref.reverse := by
  apply BitVec.eq_of_getLsbD_eq
  intro j hj
  rw [getLsbD_reflect ref le_rfl, BitVec.getLsbD_reverse, BitVec.getMsbD]

theorem reflect_eight_shiftLeft (hi : i < 256) :
    reflect (BitVec.ofNat 32 i) 8 <<< 24 = (BitVec.ofNat 32 i).reverse := by
  apply BitVec.eq_of_getLsbD_eq
  intro j hj
  rw [BitVec.getLsbD_shiftLeft, getLsbD_reflect _ (by decide), BitVec.getLsbD_reverse,
    BitVec.getMsbD]
  rcases Nat.lt_or_ge j 24 with hlt | hge
  · have hbit : (BitVec.ofNat 32 i).getLsbD (31 - j) = false := by
      have hle : 2 ^ 8 ≤ 2 ^ (31 - j) := Nat.pow_le_pow_right (by decide) (by omega)
      rw [BitVec.getLsbD_ofNat, Nat.testBit_lt_two_pow (hi.trans_le hle), Bool.and_false]
    simp [hlt, hbit]
  · have hindex : 8 - 1 - (j - 24) = 32 - 1 - j := by omega
    have hin : j - 24 < 8 := by omega
    simp only [hindex, hin, hj, Nat.not_lt.mpr hge, decide_true, decide_false, Bool.not_false,
      Bool.true_and]

theorem tableStep_eq_shift (entry : BitVec 32) :
    tableStep entry = shift polynomial entry false := by
  rw [tableStep, shift, intShift_eq, Bool.xor_false, BitVec.setWidth_eq]
  simp only [and_twoPow_ne_zero_iff entry (by decide : 31 < 32), BitVec.msb_eq_getLsbD_last]

/-- An entry of the table holds what becomes of its index in eight steps of the mirrored
register. -/
theorem crc32Table_eq (hi : i < 256) :
    crc32Table i = (shiftDown polynomial.reverse · false)^[8] (BitVec.ofNat 32 i) := by
  have hconj : Function.Semiconj BitVec.reverse (tableStep (w := 32))
      (shiftDown polynomial.reverse · false) := by
    intro entry
    rw [tableStep_eq_shift, reverse_shift]
  rw [crc32Table, reflect_thirtyTwo, reflect_eight_shiftLeft hi, (hconj.iterate_right 8).eq,
    BitVec.reverse_reverse_eq]

theorem getLsbD_ff (i : ℕ) : (0xff : BitVec 32).getLsbD i = decide (i < 8) := by
  have h : (0xff : BitVec 32) = BitVec.ofNat 32 (2 ^ 8 - 1) := rfl
  rw [h, BitVec.getLsbD_ofNat, Nat.testBit_two_pow_sub_one, ← Bool.decide_and]
  exact decide_eq_decide.mpr (by omega)

theorem crcStep_eq (crc : BitVec 32) (byte : UInt8) :
    crcStep 32 crc byte =
      ((List.range 8).map byte.toBitVec.getLsbD).foldl (shiftDown polynomial.reverse) crc := by
  have hbits : (List.range 8).map byte.toBitVec.getLsbD =
      (List.range 8).map (byte.toBitVec.setWidth 32).getLsbD := by
    apply List.map_congr_left
    intro i hi
    have hi' : i < 32 := by
      rw [List.mem_range] at hi
      omega
    rw [BitVec.getLsbD_setWidth, decide_eq_true hi', Bool.true_and]
  have hbyte : byte.toBitVec.setWidth 32 >>> 8 = 0#32 := by
    apply BitVec.eq_of_getLsbD_eq
    intro i _
    simp
  have hlow : ((crc &&& 0xff) ^^^ byte.toBitVec.setWidth 32) >>> 8 = 0#32 := by
    rw [BitVec.ushiftRight_xor_distrib, hbyte, BitVec.xor_zero]
    apply BitVec.eq_of_getLsbD_eq
    intro i _
    rw [BitVec.getLsbD_ushiftRight, BitVec.getLsbD_and, getLsbD_ff, decide_eq_false (by omega)]
    simp
  have hsame : ∀ i < 8, (crc ^^^ byte.toBitVec.setWidth 32).getLsbD i =
      ((crc &&& 0xff) ^^^ byte.toBitVec.setWidth 32).getLsbD i := by
    intro i hi
    rw [BitVec.getLsbD_xor, BitVec.getLsbD_xor, BitVec.getLsbD_and, getLsbD_ff, decide_eq_true hi,
      Bool.and_true]
  have hindex : ((crc &&& 0xff) ^^^ byte.toBitVec.setWidth 32).toNat < 256 := by
    have hnat := congrArg BitVec.toNat hlow
    rw [BitVec.toNat_ushiftRight, Nat.shiftRight_eq_div_pow] at hnat
    exact Nat.lt_of_div_eq_zero (by decide) hnat
  rw [hbits, foldl_shiftDown _ hbyte, iterate_shiftDown_split _ _ _ hsame hlow, crcStep,
    crc32Table_eq hindex, BitVec.ofNat_toNat, BitVec.setWidth_eq,
    BitVec.ushiftRight_xor_distrib, hbyte, BitVec.xor_zero]

theorem isCrc32_getCRC (text : List UInt8) : IsCrc32 text (getCRC 32 text) := by
  have hstep : crcStep 32 = fun crc byte =>
      ((List.range 8).map byte.toBitVec.getLsbD).foldl (shiftDown polynomial.reverse) crc := by
    funext crc byte
    exact crcStep_eq crc byte
  have hones : (0xffffffff : BitVec 32).reverse = 0xffffffff := by decide +kernel
  have hregister : (getCRC 32 text ^^^ 0xffffffff) =
      ((bitsOf text).foldl (shift polynomial) 0xffffffff).reverse := by
    rw [reverse_foldl_shift, hones, bitsOf, List.foldl_flatMap, ← hstep, getCRC, BitVec.setWidth_eq,
      BitVec.xor_assoc, BitVec.xor_self, BitVec.xor_zero]
  rw [IsCrc32, hregister, BitVec.reverse_reverse_eq, toPoly_foldl_shift]

end Ilp32

theorem read_of_le {addr len : ℕ} (h : addr + len ≤ file.length) :
    read file addr len = some ((file.drop addr).take len) := by
  have hlength : ((file.drop addr).take len).length = len := by
    rw [List.length_take, List.length_drop]
    omega
  rw [read, if_neg (by omega), Int.toNat_natCast, if_neg (not_not.mpr hlength)]

theorem checkHeaderCRC_eq (m : DataModel) {order : ByteOrder} {crcOffset headerSize : ℕ}
    {stored : Quadlet} (hfield : crcOffset + 4 ≤ headerSize) (hint : headerSize < 2 ^ 31)
    (hsize : headerSize ≤ file.length) (hstored : readQuadlet order file crcOffset = some stored) :
    checkHeaderCRC m order file crcOffset headerSize =
      decide (stored = getCRC m.longBits (zeroed crcOffset (file.take headerSize))) := by
  have hheader := read_of_le (by omega : 0 + headerSize ≤ file.length)
  rw [List.drop_zero, Nat.cast_zero] at hheader
  rw [checkHeaderCRC, i32_of_range (by omega) (by omega), hstored, hheader, Option.any_some,
    Option.any_some]

/-- The checksum of every text is its CRC-32, and just the headers with the CRC-32 of the header
with a checksum of zero are accepted. -/
def ChecksumIsCrc32 (m : DataModel) : Prop :=
  (∀ text, IsCrc32 text (getCRC m.longBits text)) ∧
    ∀ (order : ByteOrder) (file : List UInt8) (crcOffset headerSize : ℕ) (stored : Quadlet),
      crcOffset + 4 ≤ headerSize → headerSize < 2 ^ 31 → headerSize ≤ file.length →
      readQuadlet order file crcOffset = some stored →
      (checkHeaderCRC m order file crcOffset headerSize = true ↔
        IsCrc32 (zeroed crcOffset (file.take headerSize)) stored)

theorem not_isCrc32_lp64 : ¬ IsCrc32 [0] (getCRC 64 [0]) := by
  intro h
  exact absurd (h.unique (isCrc32_getCRC [0])) (by decide +kernel)

/-- The checksum is right just where `unsigned long` has 32 bits. -/
theorem checksumIsCrc32_iff (m : DataModel) : ChecksumIsCrc32 m ↔ m = .ilp32 := by
  constructor
  · intro h
    cases m with
    | ilp32 => rfl
    | lp64 => exact absurd (h.1 [0]) not_isCrc32_lp64
  · rintro rfl
    refine ⟨isCrc32_getCRC, ?_⟩
    intro order file crcOffset headerSize stored hfield hint hsize hstored
    rw [checkHeaderCRC_eq .ilp32 hfield hint hsize hstored, decide_eq_true_iff]
    constructor
    · rintro rfl
      exact isCrc32_getCRC _
    · intro h
      exact h.unique (isCrc32_getCRC _)

/-- A header of version 0 with nothing but its checksum. -/
def blankHeader : List UInt8 :=
  List.replicate 0x2c 0 ++ quadletBytes .littleEndian (getCRC 32 (List.replicate 0x60 0)) ++
    List.replicate 0x30 0

/-- With 64 bits the checksum of a single byte is wrong, and a header with its CRC-32 is
rejected. -/
theorem lp64_rejects_crc32 :
    getCRC 64 [0] = 0x49662d3d ∧ getCRC 32 [0] = 0xd202ef8d ∧ ¬ IsCrc32 [0] (getCRC 64 [0]) ∧
    checkHeaderCRC .ilp32 .littleEndian blankHeader 0x2c 0x60 = true ∧
    checkHeaderCRC .lp64 .littleEndian blankHeader 0x2c 0x60 = false := by
  refine ⟨by decide +kernel, by decide +kernel, not_isCrc32_lp64, by decide +kernel,
    by decide +kernel⟩

end Bcd

end Ffado.Bebob
