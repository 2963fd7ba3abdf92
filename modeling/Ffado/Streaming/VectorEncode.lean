import Ffado.Lib.CircularMemory
import Ffado.Streaming.AudioEvents
import Ffado.Streaming.BufferMode

/-!
# The SSE2 encoder

On a machine with SSE2 `encodeAudioPortsInt24` labels and swaps four samples at a time: one
sample of each of four ports, as long as more than four ports are left, then four consecutive
samples of one port. Ports without a buffer in a group of four read zeros from the scratch
buffer. The machine is little endian.

The result is that of the plain encoder, provided the scratch buffer passes the assertion at
the beginning: it has to be longer than the block's samples of one port. With a single column
it is not, if the block is a whole period.
-/
namespace Ffado

open MachineInt Stores CircularMemory Postcondition

def encodeVector (v : M128i) : M128i :=
  let mask : M128i := fun _ => 0x00FFFFFF
  let label : M128i := fun _ => 0x40000000
  secondSwap (firstSwap (mmOrSi128 (mmAndSi128 v mask) label))

@[simp] theorem encodeVector_apply (v : M128i) (lane : Fin 4) :
    encodeVector v lane = int24Event .littleEndian (v lane) :=
  secondSwap_firstSwap _ lane

def mmStoreuSi128 (data : ℕ → Quadlet) (target : ℕ) (v : M128i) : ℕ → Quadlet :=
  stores data [(target, v 0), (target + 1, v 1), (target + 2, v 2), (target + 3, v 3)]

section

variable (dimension : ℕ)

variable {scratch : ℕ → Quadlet}

def clientBuffer (p : PortBuffer) (scratch : ℕ → Quadlet) (offset j : ℕ) : Quadlet :=
  match p.client with
  | some buffer => buffer (offset + j)
  | none => scratch j

def encodeGroup (cache : PortCache) (ports : ℕ → PortBuffer) (scratch data : ℕ → Quadlet)
    (i offset nevents : ℕ) : Option (ℕ → Quadlet) := do
  let p0 ← cache.audioPorts[i]?
  let p1 ← cache.audioPorts[i + 1]?
  let p2 ← cache.audioPorts[i + 2]?
  let p3 ← cache.audioPorts[i + 3]?
  some ((List.range nevents).foldl (fun data j =>
    let v : M128i := ![clientBuffer (ports p0) scratch offset j,
      clientBuffer (ports p1) scratch offset j, clientBuffer (ports p2) scratch offset j,
      clientBuffer (ports p3) scratch offset j]
    mmStoreuSi128 data (i + j * dimension) (encodeVector v)) data)

def encodeRemainingPort (p : PortBuffer) (data : ℕ → Quadlet) (i offset nevents : ℕ) :
    Option (ℕ → Quadlet) :=
  if u32 (nevents + offset) ≤ p.bufferSize then
    match p.client with
    | some buffer =>
      let data := (forIndices 0 nevents 4).foldl (fun data j =>
        let v := encodeVector fun lane => buffer (offset + j + lane)
        stores data [(i + j * dimension, v 0), (i + (j + 1) * dimension, v 1),
          (i + (j + 2) * dimension, v 2), (i + (j + 3) * dimension, v 3)]) data
      -- the loop for the remainder of the events goes on with the same `j`
      let j := forEnd 0 nevents 4
      some (fill data (i + j * dimension) dimension
        (fun k => int24Event .littleEndian (buffer (offset + j + k))) (nevents - j))
    | none => some (fill data i dimension (fun _ => 0x00000040) nevents)
  else none

def encodeGroups (cache : PortCache) (ports : ℕ → PortBuffer) (scratch data : ℕ → Quadlet)
    (offset nevents : ℕ) : Option (ℕ → Quadlet) :=
  (forIndices 0 (cache.nbAudioPorts - 4) 4).foldlM (fun data i =>
    encodeGroup dimension cache ports scratch data i offset nevents) data

def encodeRemainingPorts (cache : PortCache) (ports : ℕ → PortBuffer) (data : ℕ → Quadlet)
    (first offset nevents : ℕ) : Option (ℕ → Quadlet) :=
  (forIndices first cache.nbAudioPorts 1).foldlM (fun data i => do
    let port ← cache.audioPorts[i]?
    encodeRemainingPort dimension (ports port) data i offset nevents) data

def encodeAudioPortsInt24Sse (cache : PortCache) (scratchBufferSizeBytes : ℕ)
    (ports : ℕ → PortBuffer) (data scratch : ℕ → Quadlet) (offset nevents : ℕ) :
    Option ((ℕ → Quadlet) × (ℕ → Quadlet)) :=
  if u32 (nevents * 4) < scratchBufferSizeBytes then do
    let scratch := memcpy scratch 0 (fun _ => 0) (u32 (nevents * 4) / 4)
    let data ← encodeGroups dimension cache ports scratch data offset nevents
    let i := forEnd 0 (cache.nbAudioPorts - 4) 4
    let data ← encodeRemainingPorts dimension cache ports data i offset nevents
    some (data, scratch)
  else none

/-- The stores of a group: four columns, row by row. -/
def groupStores (value : ℕ → ℕ → Quadlet) (i nevents : ℕ) : List (ℕ × Quadlet) :=
  (List.range nevents).flatMap fun j =>
    [(i + j * dimension, value i j), (i + j * dimension + 1, value (i + 1) j),
      (i + j * dimension + 2, value (i + 2) j), (i + j * dimension + 3, value (i + 3) j)]

theorem fillsColumns_groupStores (value : ℕ → ℕ → Quadlet) (i nevents : ℕ) :
    FillsColumns (groupStores dimension value i nevents) dimension nevents value i (i + 4) := by
  intro w
  simp only [groupStores, List.mem_flatMap, List.mem_range, List.mem_cons, List.not_mem_nil,
    or_false]
  constructor
  · rintro ⟨j, hj, rfl | rfl | rfl | rfl⟩
    · exact ⟨i, j, by omega, by omega, hj, rfl⟩
    · exact ⟨i + 1, j, by omega, by omega, hj, by rw [Nat.add_right_comm]⟩
    · exact ⟨i + 2, j, by omega, by omega, hj, by rw [Nat.add_right_comm]⟩
    · exact ⟨i + 3, j, by omega, by omega, hj, by rw [Nat.add_right_comm]⟩
  · rintro ⟨i', j, hi, hi', hj, rfl⟩
    refine ⟨j, hj, ?_⟩
    obtain rfl | rfl | rfl | rfl : i' = i ∨ i' = i + 1 ∨ i' = i + 2 ∨ i' = i + 3 := by omega
    · exact .inl rfl
    · exact .inr (.inl (by rw [Nat.add_right_comm]))
    · exact .inr (.inr (.inl (by rw [Nat.add_right_comm])))
    · exact .inr (.inr (.inr (by rw [Nat.add_right_comm])))

/-- The stores of one of the remaining ports: one column, four rows at a time. -/
def batchStores (value : ℕ → Quadlet) (i nevents : ℕ) : List (ℕ × Quadlet) :=
  (forIndices 0 nevents 4).flatMap fun j =>
    [(i + j * dimension, value j), (i + (j + 1) * dimension, value (j + 1)),
      (i + (j + 2) * dimension, value (j + 2)), (i + (j + 3) * dimension, value (j + 3))]

theorem fillsColumns_batchStores (value : ℕ → ℕ → Quadlet) (i : ℕ) {nevents : ℕ}
    (hbatches : 4 ∣ nevents) :
    FillsColumns (batchStores dimension (value i) i nevents) dimension nevents value i
      (i + 1) := by
  intro w
  simp only [batchStores, List.mem_flatMap, mem_forIndices (show 0 < 4 by norm_num),
    List.mem_cons, List.not_mem_nil, or_false]
  constructor
  · rintro ⟨j, ⟨-, hj, hmod⟩, rfl | rfl | rfl | rfl⟩
    · exact ⟨i, j, by omega, by omega, hj, rfl⟩
    · exact ⟨i, j + 1, by omega, by omega, by omega, rfl⟩
    · exact ⟨i, j + 2, by omega, by omega, by omega, rfl⟩
    · exact ⟨i, j + 3, by omega, by omega, by omega, rfl⟩
  · rintro ⟨i', j, hi, hi', hj, rfl⟩
    obtain rfl : i' = i := by omega
    refine ⟨j / 4 * 4, ⟨by omega, by omega, by omega⟩, ?_⟩
    obtain h | h | h | h : j = j / 4 * 4 ∨ j = j / 4 * 4 + 1 ∨ j = j / 4 * 4 + 2 ∨
        j = j / 4 * 4 + 3 := by omega
    · exact .inl (by rw [← h])
    · exact .inr (.inl (by rw [← h]))
    · exact .inr (.inr (.inl (by rw [← h])))
    · exact .inr (.inr (.inr (by rw [← h])))

variable {dimension} {ports : AmdtpPorts dimension} {cache : PortCache}
  {buffers : ℕ → PortBuffer} {offset nevents : ℕ}

def plainEvent (cache : PortCache) (buffers : ℕ → PortBuffer) (offset i j : ℕ) : Quadlet :=
  portEvent .littleEndian (int24Event .littleEndian) (buffers (cache.audioPort i)) offset j

theorem int24Event_clientBuffer (p : PortBuffer) {j : ℕ} (hzero : scratch j = 0) (offset : ℕ) :
    int24Event .littleEndian (clientBuffer p scratch offset j) =
      portEvent .littleEndian (int24Event .littleEndian) p offset j := by
  unfold clientBuffer portEvent
  cases p.client with
  | some buffer => rfl
  | none =>
    simp only [hzero]
    rfl

theorem encodeGroup_eq (hcache : initPortCache ports.infos = some cache) {i : ℕ}
    (hi : i + 4 ≤ cache.nbAudioPorts) (hzeros : ∀ j < nevents, scratch j = 0) (data : ℕ → Quadlet) :
    encodeGroup dimension cache buffers scratch data i offset nevents =
      some (stores data
        (groupStores dimension (plainEvent cache buffers offset) i nevents)) := by
  have hport : ∀ k < 4, cache.audioPorts[i + k]? = some (cache.audioPort (i + k)) := by
    intro k hk
    exact (AmdtpPorts.audioPorts_getElem? hcache (by omega)).1
  unfold encodeGroup
  rw [show cache.audioPorts[i]? = some (cache.audioPort i) from hport 0 (by norm_num),
    hport 1 (by norm_num), hport 2 (by norm_num), hport 3 (by norm_num)]
  simp only [Option.bind_eq_bind, Option.bind_some, Option.some.injEq]
  apply foldl_stores
  intro j hj data
  have hzero := hzeros j (List.mem_range.mp hj)
  simp [mmStoreuSi128, plainEvent, int24Event_clientBuffer _ hzero]

def remainingStores (dimension : ℕ) (cache : PortCache) (buffers : ℕ → PortBuffer)
    (offset nevents i : ℕ) : List (ℕ × Quadlet) :=
  match (buffers (cache.audioPort i)).client with
  | some _ => batchStores dimension (plainEvent cache buffers offset i) i nevents
  | none => column i dimension (plainEvent cache buffers offset i) nevents

theorem fillsColumns_remainingStores (hbatches : 4 ∣ nevents) (i : ℕ) :
    FillsColumns (remainingStores dimension cache buffers offset nevents i) dimension nevents
      (plainEvent cache buffers offset) i (i + 1) := by
  unfold remainingStores
  cases (buffers (cache.audioPort i)).client with
  | some buffer => exact fillsColumns_batchStores dimension _ i hbatches
  | none => exact fillsColumns_column i dimension nevents _

theorem encodeRemainingPort_eq {i : ℕ}
    (hfits : offset + nevents ≤ (buffers (cache.audioPort i)).bufferSize) (data : ℕ → Quadlet) :
    encodeRemainingPort dimension (buffers (cache.audioPort i)) data i offset nevents =
      some (stores data (remainingStores dimension cache buffers offset nevents i)) := by
  have hassert : u32 (nevents + offset) ≤ (buffers (cache.audioPort i)).bufferSize :=
    (u32_le _).trans (by omega)
  have hend : nevents - forEnd 0 nevents 4 = 0 := by
    have hspec := forEnd_spec (show 0 < 4 by norm_num) (Nat.zero_le nevents)
    omega
  unfold encodeRemainingPort remainingStores
  rw [if_pos hassert]
  have hevent : ∀ j, plainEvent cache buffers offset i j = match
      (buffers (cache.audioPort i)).client with
    | some buffer => int24Event .littleEndian (buffer (offset + j))
    | none => silentEvent .littleEndian := fun _ => rfl
  cases hclient : (buffers (cache.audioPort i)).client with
  | some buffer =>
    simp only [hclient] at hevent
    simp only [hend, fill, Option.some.injEq]
    apply foldl_stores
    intro j _ data
    simp [hevent, Nat.add_assoc]
  | none =>
    simp only [hclient] at hevent
    simp only [fill_eq, Option.some.injEq]
    congr 2
    funext j
    rw [hevent]
    rfl

def vectorStores (dimension : ℕ) (cache : PortCache) (buffers : ℕ → PortBuffer)
    (offset nevents : ℕ) : List (ℕ × Quadlet) :=
  (forIndices 0 (cache.nbAudioPorts - 4) 4).flatMap
      (groupStores dimension (plainEvent cache buffers offset) · nevents) ++
    (forIndices (forEnd 0 (cache.nbAudioPorts - 4) 4) cache.nbAudioPorts 1).flatMap
      (remainingStores dimension cache buffers offset nevents)

/-- Groups and remaining ports together make up the columns of all ports. -/
theorem fillsColumns_vectorStores (hbatches : 4 ∣ nevents) :
    FillsColumns (vectorStores dimension cache buffers offset nevents) dimension nevents
      (plainEvent cache buffers offset) 0 cache.nbAudioPorts := by
  have hle : forEnd 0 (cache.nbAudioPorts - 4) 4 ≤ cache.nbAudioPorts := by
    have hspec := forEnd_spec (show 0 < 4 by norm_num) (Nat.zero_le (cache.nbAudioPorts - 4))
    rcases Nat.lt_or_ge cache.nbAudioPorts 4 with hfew | hmany
    · rw [Nat.sub_eq_zero_of_le (by omega)]
      exact Nat.zero_le _
    · omega
  have hlast : forEnd (forEnd 0 (cache.nbAudioPorts - 4) 4) cache.nbAudioPorts 1 =
      cache.nbAudioPorts := by
    have hspec := forEnd_spec Nat.one_pos hle
    omega
  have hgroups : ∀ i ∈ forIndices 0 (cache.nbAudioPorts - 4) 4, FillsColumns
      (groupStores dimension (plainEvent cache buffers offset) i nevents) dimension nevents
      (plainEvent cache buffers offset) i (i + 4) := by
    intro i _
    exact fillsColumns_groupStores dimension _ i nevents
  have hremaining : ∀ i ∈ forIndices (forEnd 0 (cache.nbAudioPorts - 4) 4) cache.nbAudioPorts 1,
      FillsColumns (remainingStores dimension cache buffers offset nevents i) dimension nevents
        (plainEvent cache buffers offset) i (i + 1) := by
    intro i _
    exact fillsColumns_remainingStores hbatches i
  have hrest := fillsColumns_forIndices hremaining
  rw [hlast] at hrest
  exact (fillsColumns_forIndices hgroups).append hrest (Nat.zero_le _) hle

theorem encodeGroups_eq (hcache : initPortCache ports.infos = some cache)
    (hzeros : ∀ j < nevents, scratch j = 0) (data : ℕ → Quadlet) :
    encodeGroups dimension cache buffers scratch data offset nevents =
      some (stores data ((forIndices 0 (cache.nbAudioPorts - 4) 4).flatMap
        (groupStores dimension (plainEvent cache buffers offset) · nevents))) := by
  apply foldlM_stores
  intro i hi data
  obtain ⟨-, hlt, -⟩ := (mem_forIndices (by norm_num)).mp hi
  exact encodeGroup_eq hcache (by omega) hzeros data

theorem encodeRemainingPorts_eq (hcache : initPortCache ports.infos = some cache)
    (hfits : BlockFits ports buffers offset nevents) (data : ℕ → Quadlet) (first : ℕ) :
    encodeRemainingPorts dimension cache buffers data first offset nevents =
      some (stores data ((forIndices first cache.nbAudioPorts 1).flatMap
        (remainingStores dimension cache buffers offset nevents))) := by
  apply foldlM_stores
  intro i hi data
  obtain ⟨-, hlt, -⟩ := (mem_forIndices Nat.one_pos).mp hi
  obtain ⟨hport, hat⟩ := AmdtpPorts.audioPorts_getElem? hcache hlt
  rw [hport]
  exact encodeRemainingPort_eq (hfits _ _ hat) data

/-- Once the assertion has passed, the events are those of the plain encoder. -/
theorem encodeAudioPortsInt24Sse_of_lt (hcache : initPortCache ports.infos = some cache)
    (hfits : BlockFits ports buffers offset nevents) (hbatches : 4 ∣ nevents)
    (hnevents : nevents * 4 < 2 ^ 32) {size : ℕ} (hsize : u32 (nevents * 4) < size)
    (data scratch : ℕ → Quadlet) :
    (encodeAudioPortsInt24Sse dimension cache size buffers data scratch offset nevents).map
        Prod.fst =
      encodeAudioPortsInt24 .littleEndian dimension cache buffers data offset nevents := by
  have hzeros : ∀ j < nevents, memcpy scratch 0 (fun _ => 0) (u32 (nevents * 4) / 4) j = 0 := by
    intro j hj
    rw [u32_of_lt hnevents]
    exact if_pos ⟨Nat.zero_le j, by omega⟩
  have hsame : stores data (vectorStores dimension cache buffers offset nevents) = stores data
      (audioStores .littleEndian dimension (int24Event .littleEndian) cache buffers offset
        nevents) := by
    apply stores_congr (consistent_audioStores hcache)
    intro w
    exact (fillsColumns_vectorStores hbatches w).trans (fillsColumns_audioStores w).symm
  rw [encodeAudioPortsInt24_eq .littleEndian hcache hfits, ← hsame, vectorStores, stores_append]
  simp only [encodeAudioPortsInt24Sse, if_pos hsize, encodeGroups_eq hcache hzeros,
    encodeRemainingPorts_eq hcache hfits, Option.bind_eq_bind, Option.bind_some, Option.map_some]

def scratchBufferSizeBytes (period dimension : ℕ) : ℕ := u32 (u32 (period * dimension) * 4)

/-- The SSE2 encoder passes its assertion and writes what the plain one writes, exactly if the
block's samples of one port are shorter than the scratch buffer: for blocks within a period,
unless a stream with one column is encoded a whole period at a time. -/
theorem encodeAudioPortsInt24Sse_eq_iff (hcache : initPortCache ports.infos = some cache)
    (hfits : BlockFits ports buffers offset nevents) (hevents : 8 ∣ nevents)
    (hbytes : nevents * 4 < 2 ^ 32) (period : ℕ) (data scratch : ℕ → Quadlet) :
    (encodeAudioPortsInt24Sse dimension cache (scratchBufferSizeBytes period dimension) buffers
        data scratch offset nevents).map Prod.fst =
      encodeAudioPortsInt24 .littleEndian dimension cache buffers data offset nevents ↔
    nevents * 4 < period * dimension * 4 % 2 ^ 32 := by
  have hsize : scratchBufferSizeBytes period dimension = period * dimension * 4 % 2 ^ 32 :=
    u32_u32_mul _ _
  constructor
  · intro hsame
    by_contra hlong
    have hassert : ¬ u32 (nevents * 4) < scratchBufferSizeBytes period dimension := by
      rw [hsize, u32_of_lt hbytes]
      exact hlong
    rw [encodeAudioPortsInt24Sse, if_neg hassert,
      encodeAudioPortsInt24_eq .littleEndian hcache hfits] at hsame
    cases hsame
  · intro hshort
    apply encodeAudioPortsInt24Sse_of_lt hcache hfits
      ((show 4 ∣ 8 by norm_num).trans hevents) hbytes
    rw [hsize, u32_of_lt hbytes]
    exact hshort

theorem encodeAudioPortsInt24Sse_eq_iff_stereo :
    (encodeAudioPortsInt24Sse 3 stereoCache (scratchBufferSizeBytes 16 3) stereoBuffers
        (fun _ => 0) (fun _ => 0) 8 8).map Prod.fst =
      encodeAudioPortsInt24 .littleEndian 3 stereoCache stereoBuffers (fun _ => 0) 8 8 :=
  (encodeAudioPortsInt24Sse_eq_iff initPortCache_stereoPorts
    (blockFits_stereoBuffers (by decide)) (by decide) (by decide) 16 _ _).mpr (by decide)

end

/-- A single audio port, with the buffer of one period of eight frames. -/
def monoPorts : AmdtpPorts 1 where
  infos := [⟨.audio, 0, 0, .mbla⟩]
  position_lt := by decide
  format_eq := by decide

def monoCache : PortCache := ⟨1, [0], 0, []⟩

def monoBuffers (_ : ℕ) : PortBuffer := ⟨some fun _ => 0, false, 8⟩

/-- The scratch buffer has exactly the size of the port's buffer, and the assertion stops. -/
theorem mono_period_asserts : initPortCache monoPorts.infos = some monoCache ∧
    encodeAudioPortsInt24Sse 1 monoCache (scratchBufferSizeBytes 8 1) monoBuffers (fun _ => 0)
        (fun _ => 0) 0 8 = none ∧
      (encodeAudioPortsInt24 .littleEndian 1 monoCache monoBuffers (fun _ => 0) 0 8).isSome :=
  ⟨by decide, rfl, rfl⟩

end Ffado
