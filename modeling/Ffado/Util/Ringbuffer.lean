import Ffado.Lib.CircularMemory

/-!
# The jack ring buffer

A ring of `2 ^ powerOfTwo` bytes with a read and a write pointer. One byte is kept
free, so that equal pointers mean an empty ring. `contents` is the queue of readable
bytes. Writing and advancing the write pointer are both an `Appended` step of that
queue, reading and advancing the read pointer a `Popped` step, and everything later
layers need follows from these two relations.

The pointers are kept below the size by the structure itself. Sums that pass through
a negative `size_t` (`w - r + size` with `w < r`) are written with the size first.
-/
namespace Ffado

open CircularMemory

/-- The size is stored as its exponent: `create` only makes powers of two that an
`int` shift can produce. -/
structure Ringbuffer where
  buf : ℕ → UInt8
  powerOfTwo : ℕ
  writePtr : ℕ
  readPtr : ℕ
  one_le_powerOfTwo : 1 ≤ powerOfTwo
  powerOfTwo_le : powerOfTwo ≤ 30
  writePtr_lt : writePtr < 2 ^ powerOfTwo
  readPtr_lt : readPtr < 2 ^ powerOfTwo

namespace Ringbuffer

variable (rb : Ringbuffer)

variable {sz : ℕ} {memory : ℕ → UInt8}

def size : ℕ := 2 ^ rb.powerOfTwo
def sizeMask : ℕ := rb.size - 1

theorem size_pos : 0 < rb.size := Nat.two_pow_pos _

theorem one_lt_size : 1 < rb.size := Nat.one_lt_two_pow (by have := rb.one_le_powerOfTwo; omega)

theorem size_le : rb.size ≤ 2 ^ 30 := Nat.pow_le_pow_right (by norm_num) rb.powerOfTwo_le

theorem writePtr_lt_size : rb.writePtr < rb.size := rb.writePtr_lt
theorem readPtr_lt_size : rb.readPtr < rb.size := rb.readPtr_lt

@[simp] theorem and_sizeMask (x : ℕ) : x &&& rb.sizeMask = x % rb.size :=
  Nat.and_two_pow_sub_one_eq_mod x rb.powerOfTwo

theorem and_sizeMask_lt (x : ℕ) : x &&& rb.sizeMask < 2 ^ rb.powerOfTwo := by
  rw [and_sizeMask]
  exact Nat.mod_lt _ rb.size_pos

/-- The loop of `create`: the first power, from `p` on, that holds `sz` bytes. The
fuel is the number of shifts left before `1 << p` leaves the range of `int`. -/
def firstPower (sz : ℕ) : ℕ → ℕ → Option ℕ
  | 0, _ => none
  | fuel + 1, p => if 1 <<< p < sz then firstPower sz fuel (p + 1) else some p

theorem firstPower_bounds {fuel p q : ℕ} (h : firstPower sz fuel p = some q) :
    p ≤ q ∧ q < p + fuel ∧ sz ≤ 2 ^ q ∧ (q = p ∨ 2 ^ (q - 1) < sz) := by
  induction fuel generalizing p with
  | zero => simp [firstPower] at h
  | succ fuel ih =>
    unfold firstPower at h
    rw [Nat.one_shiftLeft] at h
    split_ifs at h with hlt
    · obtain ⟨h1, h2, h3, h4⟩ := ih h
      refine ⟨by omega, by omega, h3, Or.inr ?_⟩
      rcases h4 with rfl | h4
      · simpa using hlt
      · exact h4
    · cases h
      exact ⟨le_rfl, by omega, by omega, Or.inl rfl⟩

/-- `none` when the shift overflows; the memory is what `malloc` returned. -/
def create (sz : ℕ) (memory : ℕ → UInt8) : Option Ringbuffer :=
  match h : firstPower sz 30 1 with
  | none => none
  | some p => some
    { buf := memory
      powerOfTwo := p
      writePtr := 0
      readPtr := 0
      one_le_powerOfTwo := (firstPower_bounds h).1
      powerOfTwo_le := by have := (firstPower_bounds h).2.1; omega
      writePtr_lt := Nat.two_pow_pos p
      readPtr_lt := Nat.two_pow_pos p }

def reset : Ringbuffer :=
  { rb with
    readPtr := 0
    writePtr := 0
    writePtr_lt := Nat.two_pow_pos _
    readPtr_lt := Nat.two_pow_pos _ }

def readSpace : ℕ :=
  if rb.writePtr > rb.readPtr then rb.writePtr - rb.readPtr
  else (rb.writePtr + rb.size - rb.readPtr) &&& rb.sizeMask

def writeSpace : ℕ :=
  if rb.writePtr > rb.readPtr then
    ((rb.readPtr + rb.size - rb.writePtr) &&& rb.sizeMask) - 1
  else if rb.writePtr < rb.readPtr then (rb.readPtr - rb.writePtr) - 1
  else rb.size - 1

def readAdvance (cnt : ℕ) : Ringbuffer :=
  { rb with
    readPtr := (rb.readPtr + cnt) &&& rb.sizeMask
    readPtr_lt := rb.and_sizeMask_lt _ }

def writeAdvance (cnt : ℕ) : Ringbuffer :=
  { rb with
    writePtr := (rb.writePtr + cnt) &&& rb.sizeMask
    writePtr_lt := rb.and_sizeMask_lt _ }

/-- Bytes written straight into the ring's memory. -/
def poke (start : ℕ) (src : ℕ → UInt8) (n : ℕ) : Ringbuffer :=
  { rb with buf := memcpy rb.buf start src n }

@[simp] theorem readAdvance_size (cnt : ℕ) : (rb.readAdvance cnt).size = rb.size := rfl
@[simp] theorem readAdvance_buf (cnt : ℕ) : (rb.readAdvance cnt).buf = rb.buf := rfl
@[simp] theorem readAdvance_readPtr (cnt : ℕ) :
    (rb.readAdvance cnt).readPtr = (rb.readPtr + cnt) % rb.size := rb.and_sizeMask _
@[simp] theorem writeAdvance_size (cnt : ℕ) : (rb.writeAdvance cnt).size = rb.size := rfl
@[simp] theorem writeAdvance_buf (cnt : ℕ) : (rb.writeAdvance cnt).buf = rb.buf := rfl
@[simp] theorem writeAdvance_writePtr (cnt : ℕ) :
    (rb.writeAdvance cnt).writePtr = (rb.writePtr + cnt) % rb.size := rb.and_sizeMask _
@[simp] theorem poke_size (start : ℕ) (src : ℕ → UInt8) (n : ℕ) :
    (rb.poke start src n).size = rb.size := rfl
@[simp] theorem poke_buf (start : ℕ) (src : ℕ → UInt8) (n : ℕ) :
    (rb.poke start src n).buf = memcpy rb.buf start src n := rfl
@[simp] theorem poke_writePtr (start : ℕ) (src : ℕ → UInt8) (n : ℕ) :
    (rb.poke start src n).writePtr = rb.writePtr := rfl

/-- Copy up to `cnt` bytes to `dest`. The new `dest` and the number of bytes copied are
returned with the ring. -/
def read (dest : ℕ → UInt8) (cnt : ℕ) : (ℕ → UInt8) × Ringbuffer × ℕ :=
  let freeCnt := rb.readSpace
  if freeCnt = 0 then (dest, rb, 0)
  else
    let toRead := if cnt > freeCnt then freeCnt else cnt
    let cnt2 := rb.readPtr + toRead
    let n1 := if cnt2 > rb.size then rb.size - rb.readPtr else toRead
    let n2 := if cnt2 > rb.size then cnt2 &&& rb.sizeMask else 0
    let dest1 := memcpy dest 0 (pointer rb.buf rb.readPtr) n1
    let rb1 := rb.readAdvance n1
    if n2 ≠ 0 then
      (memcpy dest1 n1 (pointer rb1.buf rb1.readPtr) n2, rb1.readAdvance n2, toRead)
    else (dest1, rb1, toRead)

/-- Copy up to `cnt` bytes of `src` into the ring and say how many. -/
def write (src : ℕ → UInt8) (cnt : ℕ) : Ringbuffer × ℕ :=
  let freeCnt := rb.writeSpace
  if freeCnt = 0 then (rb, 0)
  else
    let toWrite := if cnt > freeCnt then freeCnt else cnt
    let cnt2 := rb.writePtr + toWrite
    let n1 := if cnt2 > rb.size then rb.size - rb.writePtr else toWrite
    let n2 := if cnt2 > rb.size then cnt2 &&& rb.sizeMask else 0
    let rb1 := (rb.poke rb.writePtr src n1).writeAdvance n1
    if n2 ≠ 0 then
      ((rb1.poke rb1.writePtr (pointer src n1) n2).writeAdvance n2, toWrite)
    else (rb1, toWrite)

/-- `ffado_ringbuffer_data_t`: an area of the ring's memory, given by its address. -/
structure Data where
  buf : ℕ
  len : ℕ
  deriving DecidableEq, Repr

def getReadVector : Data × Data :=
  let freeCnt :=
    if rb.writePtr > rb.readPtr then rb.writePtr - rb.readPtr
    else (rb.writePtr + rb.size - rb.readPtr) &&& rb.sizeMask
  let cnt2 := rb.readPtr + freeCnt
  if cnt2 > rb.size then (⟨rb.readPtr, rb.size - rb.readPtr⟩, ⟨0, cnt2 &&& rb.sizeMask⟩)
  else (⟨rb.readPtr, freeCnt⟩, ⟨0, 0⟩)

def getWriteVector : Data × Data :=
  let freeCnt :=
    if rb.writePtr > rb.readPtr then
      ((rb.readPtr + rb.size - rb.writePtr) &&& rb.sizeMask) - 1
    else if rb.writePtr < rb.readPtr then (rb.readPtr - rb.writePtr) - 1
    else rb.size - 1
  let cnt2 := rb.writePtr + freeCnt
  if cnt2 > rb.size then (⟨rb.writePtr, rb.size - rb.writePtr⟩, ⟨0, cnt2 &&& rb.sizeMask⟩)
  else (⟨rb.writePtr, freeCnt⟩, ⟨0, 0⟩)

/-- The readable bytes, oldest first. -/
def contents : List UInt8 := window rb.size rb.buf rb.readPtr rb.readSpace

@[simp] theorem length_contents : rb.contents.length = rb.readSpace := length_window _ _ _ _

theorem readSpace_eq_mod : rb.readSpace = (rb.writePtr + rb.size - rb.readPtr) % rb.size := by
  have hw := rb.writePtr_lt_size
  have hr := rb.readPtr_lt_size
  unfold readSpace
  split_ifs with h
  · have he : rb.writePtr + rb.size - rb.readPtr = rb.writePtr - rb.readPtr + rb.size := by omega
    rw [he, Nat.add_mod_right, Nat.mod_eq_of_lt (by omega)]
  · exact rb.and_sizeMask _

theorem readSpace_lt : rb.readSpace < rb.size := by
  rw [readSpace_eq_mod]
  exact Nat.mod_lt _ rb.size_pos

/-- One byte is always kept free. -/
theorem readSpace_add_writeSpace : rb.readSpace + rb.writeSpace + 1 = rb.size := by
  have hw := rb.writePtr_lt_size
  have hr := rb.readPtr_lt_size
  unfold readSpace writeSpace
  simp only [and_sizeMask]
  rcases lt_trichotomy rb.writePtr rb.readPtr with h | h | h
  · rw [if_neg (by omega), if_neg (by omega), if_pos h, Nat.mod_eq_of_lt (by omega)]
    omega
  · have he : rb.writePtr + rb.size - rb.readPtr = rb.size := by omega
    rw [if_neg (by omega), if_neg (by omega), if_neg (by omega), he, Nat.mod_self]
    omega
  · rw [if_pos h, if_pos h, Nat.mod_eq_of_lt (by omega)]
    omega

/-- The write pointer stands behind the readable bytes. -/
theorem writePtr_eq_mod : rb.writePtr = (rb.readPtr + rb.readSpace) % rb.size := by
  have hw := rb.writePtr_lt_size
  have hr := rb.readPtr_lt_size
  unfold readSpace
  simp only [and_sizeMask]
  split_ifs with h
  · rw [Nat.mod_eq_of_lt (by omega)]
    omega
  · rcases Nat.lt_or_ge rb.writePtr rb.readPtr with hlt | hge
    · have he : rb.readPtr + (rb.writePtr + rb.size - rb.readPtr) = rb.writePtr + rb.size := by
        omega
      rw [Nat.mod_eq_of_lt (by omega : rb.writePtr + rb.size - rb.readPtr < rb.size), he,
        Nat.add_mod_right, Nat.mod_eq_of_lt hw]
    · have he : rb.writePtr + rb.size - rb.readPtr = rb.size := by omega
      rw [he, Nat.mod_self, Nat.add_zero, Nat.mod_eq_of_lt hr]
      omega

/-- The first part of a vector ends at the end of the ring at the latest, and both parts
together are the whole space. -/
theorem segments_eq {p space : ℕ} (hp : p < rb.size) (hs : space < rb.size) :
    (if p + space > rb.size then
        ((⟨p, rb.size - p⟩, ⟨0, (p + space) &&& rb.sizeMask⟩) : Data × Data)
      else (⟨p, space⟩, ⟨0, 0⟩)) =
      (⟨p, min space (rb.size - p)⟩, ⟨0, space - min space (rb.size - p)⟩) := by
  rw [and_sizeMask]
  split_ifs with h
  · rw [Nat.mod_eq_sub_mod (by omega), Nat.mod_eq_of_lt (by omega), Nat.min_eq_right (by omega)]
    simp only [Prod.mk.injEq, Data.mk.injEq, true_and]
    omega
  · simp [Nat.min_eq_left (by omega : space ≤ rb.size - p)]

theorem getReadVector_eq : rb.getReadVector =
    (⟨rb.readPtr, min rb.readSpace (rb.size - rb.readPtr)⟩,
      ⟨0, rb.readSpace - min rb.readSpace (rb.size - rb.readPtr)⟩) :=
  rb.segments_eq rb.readPtr_lt_size rb.readSpace_lt

theorem getWriteVector_eq : rb.getWriteVector =
    (⟨rb.writePtr, min rb.writeSpace (rb.size - rb.writePtr)⟩,
      ⟨0, rb.writeSpace - min rb.writeSpace (rb.size - rb.writePtr)⟩) := by
  have h : rb.writeSpace < rb.size := by
    have := rb.readSpace_add_writeSpace
    omega
  exact rb.segments_eq rb.writePtr_lt_size h

structure Appended (src : ℕ → UInt8) (n : ℕ) (rb' : Ringbuffer) : Prop where
  powerOfTwo_eq : rb'.powerOfTwo = rb.powerOfTwo
  readPtr_eq : rb'.readPtr = rb.readPtr
  writePtr_eq : rb'.writePtr = (rb.writePtr + n) % rb.size
  stored : Stored rb.size rb.buf rb.writePtr src n rb'.buf

structure Popped (n : ℕ) (rb' : Ringbuffer) : Prop where
  powerOfTwo_eq : rb'.powerOfTwo = rb.powerOfTwo
  buf_eq : rb'.buf = rb.buf
  writePtr_eq : rb'.writePtr = rb.writePtr
  readPtr_eq : rb'.readPtr = (rb.readPtr + n) % rb.size

variable {rb} {rb' : Ringbuffer} {src : ℕ → UInt8} {n : ℕ}

theorem Appended.size_eq (h : rb.Appended src n rb') : rb'.size = rb.size := by
  rw [size, size, h.powerOfTwo_eq]

theorem Popped.size_eq (h : rb.Popped n rb') : rb'.size = rb.size := by
  rw [size, size, h.powerOfTwo_eq]

theorem ring_distance {N r s d : ℕ} (hr : r < N) (hd : d < N)
    (h : s = (r + d) % N) : (s + N - r) % N = d := by
  rcases Nat.lt_or_ge (r + d) N with hlt | hge
  · rw [Nat.mod_eq_of_lt hlt] at h
    have he : s + N - r = d + N := by omega
    rw [he, Nat.add_mod_right, Nat.mod_eq_of_lt hd]
  · rw [Nat.mod_eq_sub_mod hge, Nat.mod_eq_of_lt (by omega)] at h
    have he : s + N - r = d := by omega
    rw [he, Nat.mod_eq_of_lt hd]

theorem Appended.readSpace_eq (h : rb.Appended src n rb') (hn : n ≤ rb.writeSpace) :
    rb'.readSpace = rb.readSpace + n := by
  have hsum := rb.readSpace_add_writeSpace
  rw [readSpace_eq_mod, h.size_eq]
  refine ring_distance (h.size_eq ▸ rb'.readPtr_lt_size) (by omega) ?_
  rw [h.writePtr_eq, h.readPtr_eq, rb.writePtr_eq_mod, Nat.mod_add_mod, Nat.add_assoc]

theorem Appended.writeSpace_eq (h : rb.Appended src n rb') (hn : n ≤ rb.writeSpace) :
    rb'.writeSpace = rb.writeSpace - n := by
  have h1 := rb.readSpace_add_writeSpace
  have h2 := rb'.readSpace_add_writeSpace
  rw [h.size_eq, h.readSpace_eq hn] at h2
  omega

theorem Popped.readSpace_eq (h : rb.Popped n rb') (hn : n ≤ rb.readSpace) :
    rb'.readSpace = rb.readSpace - n := by
  have hlt := rb.readSpace_lt
  rw [readSpace_eq_mod, h.size_eq]
  refine ring_distance (h.size_eq ▸ rb'.readPtr_lt_size) (by omega) ?_
  rw [h.writePtr_eq, h.readPtr_eq, rb.writePtr_eq_mod, Nat.mod_add_mod, Nat.add_assoc,
    Nat.add_sub_cancel' hn]

theorem Appended.contents_eq (h : rb.Appended src n rb') (hn : n ≤ rb.writeSpace) :
    rb'.contents = rb.contents ++ slice src 0 n := by
  have hsum := rb.readSpace_add_writeSpace
  have hstored : Stored rb.size rb.buf (rb.readPtr + rb.readSpace) src n rb'.buf := by
    have hs := h.stored
    rw [rb.writePtr_eq_mod] at hs
    exact ⟨fun k hk => by simpa [Nat.mod_add_mod] using hs.written k hk,
      fun k hk hN => by simpa [Nat.mod_add_mod] using hs.kept k hk hN⟩
  rw [contents, h.size_eq, h.readPtr_eq, h.readSpace_eq hn]
  exact hstored.window_append (by omega)

theorem Popped.contents_eq (h : rb.Popped n rb') (hn : n ≤ rb.readSpace) :
    rb'.contents = rb.contents.drop n := by
  rw [contents, contents, window_drop _ _ hn, h.size_eq, h.buf_eq, h.readPtr_eq,
    h.readSpace_eq hn, window_mod]

variable (rb)

theorem readAdvance_popped (cnt : ℕ) : rb.Popped cnt (rb.readAdvance cnt) :=
  ⟨rfl, rfl, rfl, rb.and_sizeMask _⟩

/-- Filling the area behind the write pointer and then advancing over it. -/
theorem poke_writeAdvance_appended (src : ℕ → UInt8) {cnt : ℕ}
    (h : rb.writePtr + cnt ≤ rb.size) :
    rb.Appended src cnt ((rb.poke rb.writePtr src cnt).writeAdvance cnt) :=
  ⟨rfl, rfl, rb.and_sizeMask _, stored_memcpy _ _ h⟩

theorem write_count (src : ℕ → UInt8) (cnt : ℕ) :
    (rb.write src cnt).2 = min cnt rb.writeSpace := by
  simp only [write]
  split_ifs <;> simp only [] <;> omega

theorem write_appended (src : ℕ → UInt8) (cnt : ℕ) :
    rb.Appended src (min cnt rb.writeSpace) (rb.write src cnt).1 := by
  have hsum := rb.readSpace_add_writeSpace
  have hw := rb.writePtr_lt_size
  have hto : (if cnt > rb.writeSpace then rb.writeSpace else cnt) = min cnt rb.writeSpace := by
    split_ifs <;> omega
  simp only [write, hto]
  generalize hk : min cnt rb.writeSpace = k
  split_ifs with h0 hwrap hn2 hn2
  · have hk0 : k = 0 := by omega
    subst hk0
    exact ⟨rfl, rfl, (Nat.mod_eq_of_lt hw).symm, ⟨by simp, fun _ _ _ => rfl⟩⟩
  · have hn : (rb.writePtr + k) % rb.size = rb.writePtr + k - rb.size := by
      rw [Nat.mod_eq_sub_mod (by omega), Nat.mod_eq_of_lt (by omega)]
    have hzero : (rb.writePtr + (rb.size - rb.writePtr)) % rb.size = 0 := by
      rw [Nat.add_sub_cancel' hw.le, Nat.mod_self]
    refine ⟨rfl, rfl, ?_, ?_⟩
    · simp only [writeAdvance_writePtr, poke_writePtr, poke_size, writeAdvance_size, and_sizeMask,
        hzero, hn, Nat.zero_add]
      exact Nat.mod_eq_of_lt (by omega)
    · simp only [writeAdvance_buf, poke_buf, writeAdvance_writePtr, poke_writePtr, poke_size,
        and_sizeMask, hzero, hn]
      exact stored_memcpy_wrap _ _ hw (by omega) hwrap
  · exfalso
    rw [and_sizeMask, Nat.mod_eq_sub_mod (by omega), Nat.mod_eq_of_lt (by omega)] at hn2
    omega
  · exact absurd rfl hn2
  · exact rb.poke_writeAdvance_appended src (by omega)

theorem read_count (dest : ℕ → UInt8) (cnt : ℕ) :
    (rb.read dest cnt).2.2 = min cnt rb.readSpace := by
  simp only [read]
  split_ifs <;> simp only [] <;> omega

theorem read_popped (dest : ℕ → UInt8) (cnt : ℕ) :
    rb.Popped (min cnt rb.readSpace) (rb.read dest cnt).2.1 := by
  have hlt := rb.readSpace_lt
  have hr := rb.readPtr_lt_size
  have hto : (if cnt > rb.readSpace then rb.readSpace else cnt) = min cnt rb.readSpace := by
    split_ifs <;> omega
  simp only [read, hto]
  generalize hk : min cnt rb.readSpace = k
  split_ifs with h0 hwrap hn2 hn2
  · have hk0 : k = 0 := by omega
    subst hk0
    exact ⟨rfl, rfl, rfl, (Nat.mod_eq_of_lt hr).symm⟩
  · have hn : (rb.readPtr + k) % rb.size = rb.readPtr + k - rb.size := by
      rw [Nat.mod_eq_sub_mod (by omega), Nat.mod_eq_of_lt (by omega)]
    refine ⟨rfl, rfl, rfl, ?_⟩
    simp only [readAdvance_readPtr, readAdvance_size, and_sizeMask, Nat.add_sub_cancel' hr.le,
      Nat.mod_self, hn, Nat.zero_add]
    exact Nat.mod_eq_of_lt (by omega)
  · exfalso
    rw [and_sizeMask, Nat.mod_eq_sub_mod (by omega), Nat.mod_eq_of_lt (by omega)] at hn2
    omega
  · exact absurd rfl hn2
  · exact rb.readAdvance_popped k

/-- What `read` copies out are the oldest readable bytes. -/
theorem slice_read (dest : ℕ → UInt8) (cnt : ℕ) :
    slice (rb.read dest cnt).1 0 (min cnt rb.readSpace) = rb.contents.take cnt := by
  have hlt := rb.readSpace_lt
  have hr := rb.readPtr_lt_size
  have hto : (if cnt > rb.readSpace then rb.readSpace else cnt) = min cnt rb.readSpace := by
    split_ifs <;> omega
  have htake : rb.contents.take cnt = window rb.size rb.buf rb.readPtr (min cnt rb.readSpace) := by
    rw [contents, ← window_take _ _ (Nat.min_le_right cnt rb.readSpace)]
    rw [List.take_eq_take_min, length_window]
  rw [htake]
  simp only [read, hto]
  generalize hk : min cnt rb.readSpace = k
  split_ifs with h0 hwrap hn2 hn2
  · have hk0 : k = 0 := by omega
    simp [hk0]
  · have hn : (rb.readPtr + k) % rb.size = rb.readPtr + k - rb.size := by
      rw [Nat.mod_eq_sub_mod (by omega), Nat.mod_eq_of_lt (by omega)]
    simp only [readAdvance_readPtr, readAdvance_buf, and_sizeMask, Nat.add_sub_cancel' hr.le,
      Nat.mod_self, hn]
    apply List.map_congr_left
    intro i hi
    have hi' := List.mem_range.mp hi
    rcases Nat.lt_or_ge (rb.readPtr + i) rb.size with hin | hout
    · rw [Nat.mod_eq_of_lt hin]
      simp only [memcpy, pointer]
      rw [if_neg (by omega), if_pos (by omega)]
      congr 1
      omega
    · rw [Nat.mod_eq_sub_mod hout, Nat.mod_eq_of_lt (by omega)]
      simp only [memcpy, pointer]
      rw [if_pos (by omega)]
      congr 1
      omega
  · exfalso
    rw [and_sizeMask, Nat.mod_eq_sub_mod (by omega), Nat.mod_eq_of_lt (by omega)] at hn2
    omega
  · exact absurd rfl hn2
  · rw [slice_memcpy, slice_pointer, Nat.add_zero, window_eq_slice _ (by omega)]

theorem reset_readSpace : rb.reset.readSpace = 0 := by
  rw [readSpace_eq_mod]
  simp [reset]

/-- A new ring is empty and large enough, and less than twice the request unless that is
a single byte. -/
theorem create_spec (h : create sz memory = some rb) :
    rb.readSpace = 0 ∧ sz ≤ rb.size ∧ (rb.size = 2 ∨ rb.size < 2 * sz) ∧ rb.buf = memory := by
  unfold create at h
  split at h
  · exact absurd h (by simp)
  · rename_i p hp
    obtain ⟨h1, -, h3, h4⟩ := firstPower_bounds hp
    cases h
    refine ⟨by rw [readSpace_eq_mod]; simp, h3, ?_, rfl⟩
    rcases h4 with rfl | h4
    · exact Or.inl rfl
    · right
      have hpow : 2 ^ p = 2 * 2 ^ (p - 1) := by
        rw [← Nat.pow_succ', Nat.succ_eq_add_one, Nat.sub_add_cancel h1]
      simp only [size, hpow]
      omega

theorem create_powerOfTwo (h : create sz memory = some rb) :
    firstPower sz 30 1 = some rb.powerOfTwo := by
  unfold create at h
  split at h
  · exact absurd h (by simp)
  · cases h
    assumption

end Ringbuffer
end Ffado
