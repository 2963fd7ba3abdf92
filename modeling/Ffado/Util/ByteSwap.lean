import Mathlib.Data.BitVec
import Mathlib.Tactic.IntervalCases

/-!
# Byte order of quadlets

The bus is big endian. On a little endian host a quadlet is swapped on its way to the bus and
back, with `bswap_32` or, four quadlets at a time, with two SSE2 swaps: first of the bytes
in each half, then of the halves.
-/
namespace Ffado

variable {i : ℕ}

abbrev Quadlet := BitVec 32

instance : Nontrivial Quadlet := ⟨0, 1, by decide⟩

inductive ByteOrder
  | littleEndian
  | bigEndian
  deriving DecidableEq

/-- `BYTESWAP32_CONST`, which is also what `bswap_32` computes. -/
def byteSwap32 (d : Quadlet) : Quadlet :=
  ((d &&& 0x000000FF) <<< 24) ||| ((d &&& 0x0000FF00) <<< 8) ||| ((d &&& 0x00FF0000) >>> 8) |||
    ((d &&& 0xFF000000) >>> 24)

/-- The bytes in reverse order, the bits of each in place. -/
theorem getLsbD_byteSwap32 (d : Quadlet) (hi : i < 32) :
    (byteSwap32 d).getLsbD i = d.getLsbD (8 * (3 - i / 8) + i % 8) := by
  unfold byteSwap32
  interval_cases i <;> simp

@[simp] theorem byteSwap32_byteSwap32 (d : Quadlet) : byteSwap32 (byteSwap32 d) = d := by
  apply BitVec.eq_of_getLsbD_eq
  intro i hi
  rw [getLsbD_byteSwap32 _ hi, getLsbD_byteSwap32 _ (by omega)]
  congr 1
  omega

def condSwapToBus32 : ByteOrder → Quadlet → Quadlet
  | .littleEndian, d => byteSwap32 d
  | .bigEndian, d => d

def condSwapFromBus32 : ByteOrder → Quadlet → Quadlet
  | .littleEndian, d => byteSwap32 d
  | .bigEndian, d => d

@[simp] theorem condSwapFromBus32_condSwapToBus32 (order : ByteOrder) (d : Quadlet) :
    condSwapFromBus32 order (condSwapToBus32 order d) = d := by
  cases order with
  | littleEndian => exact byteSwap32_byteSwap32 d
  | bigEndian => rfl

@[simp] theorem condSwapToBus32_condSwapFromBus32 (order : ByteOrder) (d : Quadlet) :
    condSwapToBus32 order (condSwapFromBus32 order d) = d := by
  cases order with
  | littleEndian => exact byteSwap32_byteSwap32 d
  | bigEndian => rfl

instance neZeroTwo : NeZero 2 := ⟨by decide⟩

instance neZeroFour : NeZero 4 := ⟨by decide⟩

/-- A vector of four quadlets, the first one in the lowest bits. -/
abbrev M128i := Fin 4 → Quadlet

def mmAndSi128 (v w : M128i) : M128i := fun lane => v lane &&& w lane

def mmOrSi128 (v w : M128i) : M128i := fun lane => v lane ||| w lane

/-- Shift of the two halves of each quadlet. -/
def mmSlliEpi16 (v : M128i) (n : ℕ) : M128i := fun lane =>
  ((v lane).extractLsb' 16 16 <<< n ++ (v lane).extractLsb' 0 16 <<< n).cast rfl

def mmSrliEpi16 (v : M128i) (n : ℕ) : M128i := fun lane =>
  ((v lane).extractLsb' 16 16 >>> n ++ (v lane).extractLsb' 0 16 >>> n).cast rfl

def mmSlliEpi32 (v : M128i) (n : ℕ) : M128i := fun lane => v lane <<< n

def mmSrliEpi32 (v : M128i) (n : ℕ) : M128i := fun lane => v lane >>> n

/-- From [A B C D] to [B A D C]. -/
def firstSwap (v : M128i) : M128i := mmOrSi128 (mmSlliEpi16 v 8) (mmSrliEpi16 v 8)

/-- From [B A D C] to [D C B A]. -/
def secondSwap (v : M128i) : M128i := mmOrSi128 (mmSlliEpi32 v 16) (mmSrliEpi32 v 16)

theorem getLsbD_firstSwap (v : M128i) (lane : Fin 4) (hi : i < 32) :
    (firstSwap v lane).getLsbD i = (v lane).getLsbD (16 * (i / 16) + (i + 8) % 16) := by
  simp only [firstSwap, mmOrSi128, mmSlliEpi16, mmSrliEpi16, BitVec.getLsbD_or,
    BitVec.getLsbD_cast, BitVec.getLsbD_append, BitVec.getLsbD_shiftLeft,
    BitVec.getLsbD_ushiftRight, BitVec.getLsbD_extractLsb']
  interval_cases i <;> simp

theorem getLsbD_secondSwap (v : M128i) (lane : Fin 4) (hi : i < 32) :
    (secondSwap v lane).getLsbD i = (v lane).getLsbD ((i + 16) % 32) := by
  simp only [secondSwap, mmOrSi128, mmSlliEpi32, mmSrliEpi32, BitVec.getLsbD_or,
    BitVec.getLsbD_shiftLeft, BitVec.getLsbD_ushiftRight]
  interval_cases i <;> simp

/-- The two swaps do in every lane what `bswap_32` does. -/
theorem secondSwap_firstSwap (v : M128i) (lane : Fin 4) :
    secondSwap (firstSwap v) lane = byteSwap32 (v lane) := by
  apply BitVec.eq_of_getLsbD_eq
  intro i hi
  rw [getLsbD_secondSwap _ _ hi, getLsbD_firstSwap _ _ (Nat.mod_lt _ (by norm_num)),
    getLsbD_byteSwap32 _ hi]
  congr 1
  omega

end Ffado
