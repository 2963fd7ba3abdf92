import Ffado.Lib.MachineInt
import Ffado.Lib.Stores
import Ffado.Streaming.AmdtpPorts

/-!
# Audio samples in AMDTP events

`encodeAudioPortsInt24` puts the samples of each port into the port's column, with the label
for 24 bit audio above the sample; `decodeAudioPortsInt24` takes them out again. Both walk the
events of the block with a pointer that moves on by one event at a time.

Ports have buffers of their own; two ports do not share one.
-/
namespace Ffado

open MachineInt Stores

section

variable (order : ByteOrder) (dimension : ℕ)

def int24Event (sample : Quadlet) : Quadlet :=
  condSwapToBus32 order ((sample &&& 0x00FFFFFF) ||| 0x40000000)

def silentEvent : Quadlet := condSwapToBus32 order 0x40000000

variable (convert : Quadlet → Quadlet)

def portEvent (p : PortBuffer) (offset j : ℕ) : Quadlet :=
  match p.client with
  | some buffer => convert (buffer (offset + j))
  | none => silentEvent order

def encodeAudioPort (p : PortBuffer) (data : ℕ → Quadlet) (i offset nevents : ℕ) :
    Option (ℕ → Quadlet) :=
  if u32 (nevents + offset) ≤ p.bufferSize then
    match p.client with
    | some buffer => some (fill data i dimension (fun j => convert (buffer (offset + j))) nevents)
    | none => some (fill data i dimension (fun _ => silentEvent order) nevents)
  else none

/-- The loop of the encoders, with the conversion of one sample. -/
def encodeAudioPorts (cache : PortCache) (ports : ℕ → PortBuffer) (data : ℕ → Quadlet)
    (offset nevents : ℕ) : Option (ℕ → Quadlet) :=
  (List.range cache.nbAudioPorts).foldlM (fun data i => do
    let port ← cache.audioPorts[i]?
    encodeAudioPort order dimension convert (ports port) data i offset nevents) data

def encodeAudioPortsInt24 : PortCache → (ℕ → PortBuffer) → (ℕ → Quadlet) → ℕ → ℕ →
    Option (ℕ → Quadlet) :=
  encodeAudioPorts order dimension (int24Event order)

def decodeAudioPort (data : ℕ → Quadlet) (i offset nevents : ℕ) (p : PortBuffer) :
    Option PortBuffer :=
  if u32 (nevents + offset) ≤ p.bufferSize then
    match p.client with
    | some buffer =>
      let sample := fun j => condSwapFromBus32 order (data (i + j * dimension)) &&& 0x00FFFFFF
      some { p with buffer := some (fill buffer offset 1 sample nevents) }
    | none => some p
  else none

def decodeAudioPortsInt24 (cache : PortCache) (ports : ℕ → PortBuffer) (data : ℕ → Quadlet)
    (offset nevents : ℕ) : Option (ℕ → PortBuffer) :=
  (List.range cache.nbAudioPorts).foldlM (fun ports i => do
    let port ← cache.audioPorts[i]?
    let p ← decodeAudioPort order dimension data i offset nevents (ports port)
    some (Function.update ports port p)) ports

variable {order dimension convert}

theorem encodeAudioPort_eq {p : PortBuffer} {offset nevents : ℕ}
    (hfits : offset + nevents ≤ p.bufferSize) (data : ℕ → Quadlet) (i : ℕ) :
    encodeAudioPort order dimension convert p data i offset nevents =
      some (stores data (column i dimension (portEvent order convert p offset) nevents)) := by
  have hassert : u32 (nevents + offset) ≤ p.bufferSize := (u32_le _).trans (by omega)
  unfold encodeAudioPort portEvent
  rw [if_pos hassert]
  cases hclient : p.client with
  | _ => simp only [fill_eq]

def BlockFits (ports : AmdtpPorts dimension) (buffers : ℕ → PortBuffer) (offset nevents : ℕ) :
    Prop :=
  ∀ n position, ports.AudioPortAt n position → offset + nevents ≤ (buffers n).bufferSize

variable {ports : AmdtpPorts dimension} {cache : PortCache} {buffers : ℕ → PortBuffer}
  {offset nevents : ℕ}

def audioStores (order : ByteOrder) (dimension : ℕ) (convert : Quadlet → Quadlet)
    (cache : PortCache) (buffers : ℕ → PortBuffer) (offset nevents : ℕ) : List (ℕ × Quadlet) :=
  (List.range cache.nbAudioPorts).flatMap fun i =>
    column i dimension (portEvent order convert (buffers (cache.audioPort i)) offset) nevents

theorem encodeAudioPorts_eq (hcache : initPortCache ports.infos = some cache)
    (hfits : BlockFits ports buffers offset nevents) (data : ℕ → Quadlet) :
    encodeAudioPorts order dimension convert cache buffers data offset nevents =
      some (stores data
        (audioStores order dimension convert cache buffers offset nevents)) := by
  apply foldlM_stores
  intro i hi data
  obtain ⟨hport, hat⟩ := AmdtpPorts.audioPorts_getElem? hcache (List.mem_range.mp hi)
  rw [hport]
  exact encodeAudioPort_eq (hfits _ _ hat) data i

theorem encodeAudioPortsInt24_eq (order : ByteOrder)
    (hcache : initPortCache ports.infos = some cache)
    (hfits : BlockFits ports buffers offset nevents) (data : ℕ → Quadlet) :
    encodeAudioPortsInt24 order dimension cache buffers data offset nevents =
      some (stores data
        (audioStores order dimension (int24Event order) cache buffers offset nevents)) :=
  encodeAudioPorts_eq hcache hfits data

theorem fillsColumns_audioStores : FillsColumns
    (audioStores order dimension convert cache buffers offset nevents) dimension nevents
    (fun i => portEvent order convert (buffers (cache.audioPort i)) offset)
    0 cache.nbAudioPorts :=
  fillsColumns_columns _ _ _ _

theorem consistent_audioStores (hcache : initPortCache ports.infos = some cache) :
    Consistent (audioStores order dimension convert cache buffers offset nevents) :=
  fillsColumns_audioStores.consistent (AmdtpPorts.nbAudioPorts_le hcache)

theorem stored_portEvent (hcache : initPortCache ports.infos = some cache) {n position j : ℕ}
    (hn : ports.AudioPortAt n position) (hj : j < nevents) (data : ℕ → Quadlet) :
    stores data (audioStores order dimension convert cache buffers offset nevents)
      (position + j * dimension) = portEvent order convert (buffers n) offset j := by
  obtain ⟨hlt, rfl⟩ := hn.cached hcache
  apply stores_of_mem (consistent_audioStores hcache)
  exact (fillsColumns_audioStores _).mpr ⟨position, j, Nat.zero_le _, hlt, hj, rfl⟩

/-- An address that is no audio slot of the block. -/
def OutsideColumns (ports : AmdtpPorts dimension) (nevents a : ℕ) : Prop :=
  ∀ n position j, ports.AudioPortAt n position → j < nevents → a ≠ position + j * dimension

theorem stores_audioStores_of_outside (hcache : initPortCache ports.infos = some cache) {a : ℕ}
    (ha : OutsideColumns ports nevents a) (data : ℕ → Quadlet) :
    stores data (audioStores order dimension convert cache buffers offset nevents) a =
      data a := by
  apply stores_of_notMem
  intro hmem
  obtain ⟨w, hw, rfl⟩ := List.mem_map.mp hmem
  obtain ⟨i, j, -, hi, hj, rfl⟩ := (fillsColumns_audioStores w).mp hw
  exact ha _ i j (AmdtpPorts.audioPorts_getElem? hcache hi).2 hj rfl

@[simp] theorem decoded_int24Event (sample : Quadlet) :
    condSwapFromBus32 order (int24Event order sample) &&& 0x00FFFFFF =
      sample &&& 0x00FFFFFF := by
  rw [int24Event, condSwapFromBus32_condSwapToBus32, BitVec.and_or_distrib_right, BitVec.and_assoc]
  simp

@[simp] theorem decoded_silentEvent :
    condSwapFromBus32 order (silentEvent order) &&& 0x00FFFFFF = 0 := by
  rw [silentEvent, condSwapFromBus32_condSwapToBus32]
  rfl

/-- What a decoder makes of the port's quadlet: the low bits of the sample, or silence. -/
def sentSample (p : PortBuffer) (offset j : ℕ) : Quadlet :=
  match p.client with
  | some buffer => buffer (offset + j) &&& 0x00FFFFFF
  | none => 0

theorem decoded_portEvent (p : PortBuffer) (offset j : ℕ) :
    condSwapFromBus32 order (portEvent order (int24Event order) p offset j) &&& 0x00FFFFFF =
      sentSample p offset j := by
  unfold portEvent sentSample
  cases p.client with
  | some buffer => exact decoded_int24Event _
  | none => exact decoded_silentEvent

/-- The samples of the block end up in the client's buffer, and the rest of it stays. -/
def Received (buffer received : ℕ → Quadlet) (offset nevents : ℕ) (sample : ℕ → Quadlet) :
    Prop :=
  (∀ j < nevents, received (offset + j) = sample j) ∧
    ∀ k, k < offset ∨ offset + nevents ≤ k → received k = buffer k

theorem received_fill (buffer : ℕ → Quadlet) (offset nevents : ℕ) (sample : ℕ → Quadlet) :
    Received buffer (fill buffer offset 1 sample nevents) offset nevents sample := by
  have hmem : ∀ w, w ∈ column offset 1 sample nevents ↔
      ∃ j < nevents, w = (offset + j, sample j) := by
    intro w
    simp [column, eq_comm]
  have hcons : Consistent (column offset 1 sample nevents) := by
    intro a v v' hv hv'
    obtain ⟨j, -, hj⟩ := (hmem _).mp hv
    obtain ⟨j', -, hj'⟩ := (hmem _).mp hv'
    rw [Prod.mk.injEq] at hj hj'
    obtain rfl : j = j' := by omega
    rw [hj.2, hj'.2]
  rw [fill_eq]
  constructor
  · intro j hj
    exact stores_of_mem hcons ((hmem _).mpr ⟨j, hj, rfl⟩) buffer
  · intro k hk
    apply stores_of_notMem
    intro hk'
    obtain ⟨w, hw, rfl⟩ := List.mem_map.mp hk'
    obtain ⟨j, hj, rfl⟩ := (hmem w).mp hw
    dsimp only at hk
    omega

theorem decodeAudioPort_eq (order : ByteOrder) {p : PortBuffer}
    (hfits : offset + nevents ≤ p.bufferSize) (data : ℕ → Quadlet) (i : ℕ) :
    ∃ p', decodeAudioPort order dimension data i offset nevents p = some p' ∧
      ∀ buffer, p.client = some buffer → ∃ received, p'.client = some received ∧
        Received buffer received offset nevents
          (fun j => condSwapFromBus32 order (data (i + j * dimension)) &&& 0x00FFFFFF) := by
  have hassert : u32 (nevents + offset) ≤ p.bufferSize := (u32_le _).trans (by omega)
  unfold decodeAudioPort
  rw [if_pos hassert]
  cases hclient : p.client with
  | none => exact ⟨p, rfl, by simp⟩
  | some buffer =>
    refine ⟨_, rfl, ?_⟩
    rintro _ ⟨rfl⟩
    refine ⟨_, ?_, received_fill _ _ _ _⟩
    unfold PortBuffer.client at hclient ⊢
    split_ifs at hclient ⊢
    rfl

theorem decodeAudioPortsInt24_eq (order : ByteOrder)
    (hcache : initPortCache ports.infos = some cache)
    (hfits : BlockFits ports buffers offset nevents) (data : ℕ → Quadlet) :
    ∃ buffers', decodeAudioPortsInt24 order dimension cache buffers data offset nevents =
        some buffers' ∧
      ∀ n position, ports.AudioPortAt n position →
        decodeAudioPort order dimension data position offset nevents (buffers n) =
          some (buffers' n) := by
  have hpass : ∀ i ∈ List.range cache.nbAudioPorts, ∀ ports : ℕ → PortBuffer,
      (do
        let port ← cache.audioPorts[i]?
        let p ← decodeAudioPort order dimension data i offset nevents (ports port)
        some (Function.update ports port p)) =
      (decodeAudioPort order dimension data i offset nevents (ports (cache.audioPort i))).map
        (Function.update ports (cache.audioPort i)) := by
    intro i hi ports
    rw [(AmdtpPorts.audioPorts_getElem? hcache (List.mem_range.mp hi)).1]
    exact (Option.map_eq_bind ..).symm
  have hsome : ∀ i ∈ List.range cache.nbAudioPorts, (decodeAudioPort order dimension data i
      offset nevents (buffers (cache.audioPort i))).isSome := by
    intro i hi
    have hat := (AmdtpPorts.audioPorts_getElem? hcache (List.mem_range.mp hi)).2
    obtain ⟨p', hp', -⟩ := decodeAudioPort_eq order (hfits _ _ hat) data i
    rw [hp']
    rfl
  obtain ⟨buffers', hrun, hdecoded, -⟩ :=
    foldlM_update (AmdtpPorts.nodup_audioPorts hcache) hpass hsome
  refine ⟨buffers', hrun, ?_⟩
  intro n position hn
  obtain ⟨hlt, rfl⟩ := hn.cached hcache
  exact hdecoded position (List.mem_range.mpr hlt)

/-- Decoding the events that were encoded gives every receive port the low 24 bits of the samples
of the transmit port at its position, or silence if that port is disabled or has no buffer.
Nothing but the columns of the transmit ports changes, and of those only the block. -/
theorem audio_round_trip (order : ByteOrder) {tx rx : AmdtpPorts dimension}
    {txCache rxCache : PortCache} (htx : initPortCache tx.infos = some txCache)
    (hrx : initPortCache rx.infos = some rxCache) {txBuffers rxBuffers : ℕ → PortBuffer}
    {offset offset' nevents : ℕ} (htxFits : BlockFits tx txBuffers offset nevents)
    (hrxFits : BlockFits rx rxBuffers offset' nevents) (data : ℕ → Quadlet) :
    ∃ events received,
      encodeAudioPortsInt24 order dimension txCache txBuffers data offset nevents =
        some events ∧
      decodeAudioPortsInt24 order dimension rxCache rxBuffers events offset' nevents =
        some received ∧
      (∀ n n' position buffer, tx.AudioPortAt n position → rx.AudioPortAt n' position →
        (rxBuffers n').client = some buffer → ∃ buffer', (received n').client = some buffer' ∧
          Received buffer buffer' offset' nevents (sentSample (txBuffers n) offset)) ∧
      ∀ a, OutsideColumns tx nevents a → events a = data a := by
  let events := stores data
    (audioStores order dimension (int24Event order) txCache txBuffers offset nevents)
  obtain ⟨received, hreceived, hdecoded⟩ := decodeAudioPortsInt24_eq order hrx hrxFits events
  refine ⟨events, received, encodeAudioPortsInt24_eq order htx htxFits data, hreceived, ?_, ?_⟩
  · intro n n' position buffer hn hn' hbuffer
    obtain ⟨p', hp', hfilled⟩ := decodeAudioPort_eq order (hrxFits _ _ hn') events position
    rw [hdecoded n' position hn', Option.some.injEq] at hp'
    subst hp'
    obtain ⟨buffer', hbuffer', hsamples, hrest⟩ := hfilled buffer hbuffer
    refine ⟨buffer', hbuffer', ?_, hrest⟩
    intro j hj
    rw [hsamples j hj]
    exact (congrArg (condSwapFromBus32 order · &&& 0x00FFFFFF)
      (stored_portEvent htx hn hj data)).trans (decoded_portEvent _ _ _)
  · intro a ha
    exact stores_audioStores_of_outside htx ha data

end

/-- Two audio ports, created in the other order, and a MIDI port in the last column. -/
def stereoPorts : AmdtpPorts 3 where
  infos := [⟨.audio, 1, 0, .mbla⟩, ⟨.audio, 0, 0, .mbla⟩, ⟨.midi, 2, 0, .midi⟩]
  position_lt := by decide
  format_eq := by decide

def stereoCache : PortCache := ⟨2, [1, 0], 1, [⟨2, 2, 0⟩]⟩

theorem initPortCache_stereoPorts : initPortCache stereoPorts.infos = some stereoCache := by
  decide

/-- The second port is disabled. -/
def stereoBuffers (n : ℕ) : PortBuffer := ⟨some fun _ => 0xABCDEF01, n = 1, 16⟩

theorem blockFits_stereoBuffers {offset nevents : ℕ} (h : offset + nevents ≤ 16) :
    BlockFits stereoPorts stereoBuffers offset nevents := by
  intro n position _
  exact h

theorem audio_round_trip_stereo : ∃ events received buffer,
    encodeAudioPortsInt24 .littleEndian 3 stereoCache stereoBuffers (fun _ => 0) 8 8 =
      some events ∧
    decodeAudioPortsInt24 .littleEndian 3 stereoCache stereoBuffers events 8 8 = some received ∧
    (received 0).client = some buffer ∧ buffer 9 = 0x00CDEF01 := by
  have hat : stereoPorts.AudioPortAt 0 1 := ⟨⟨.audio, 1, 0, .mbla⟩, rfl, rfl, rfl⟩
  have hfits : BlockFits stereoPorts stereoBuffers 8 8 := blockFits_stereoBuffers (by decide)
  obtain ⟨events, received, hevents, hreceived, hports, -⟩ := audio_round_trip .littleEndian
    initPortCache_stereoPorts initPortCache_stereoPorts hfits hfits fun _ => 0
  obtain ⟨buffer, hbuffer, hsamples, -⟩ := hports 0 0 1 (fun _ => 0xABCDEF01) hat hat rfl
  exact ⟨events, received, buffer, hevents, hreceived, hbuffer, hsamples 1 (by decide)⟩

end Ffado
