import Ffado.Streaming.AudioEvents

/-!
# The slots of a transmitted block

A block of events lies in memory that is used again and again. An audio port writes its column
in every event, a MIDI port only in every eighth event from its location on, and a column
without a port is not written at all. What is sent in the other slots is what was there before.

The conversion of a floating point sample is a parameter; nothing here depends on it.
-/
namespace Ffado

open MachineInt Stores

inductive AudioDataType
  | int24
  | float
  deriving DecidableEq

section

variable (order : ByteOrder) (dimension : ℕ) (floatEvent : Quadlet → Quadlet)

def am824SetLabel (x label : Quadlet) : Quadlet := x ||| (label <<< 24)

def midiNoData : Quadlet := condSwapToBus32 order (am824SetLabel 0 0x80)

/-- A byte is sent if the client has flagged one. -/
def midiEvent (value : Quadlet) : Quadlet :=
  if value &&& 0xFF000000 ≠ 0 then
    condSwapToBus32 order (am824SetLabel ((value <<< 16) &&& 0x00FF0000) 0x81)
  else midiNoData order

def fillMidiSlots (p : MidiPortCache) (value : ℕ → Quadlet) (data : ℕ → Quadlet)
    (nevents : ℕ) : ℕ → Quadlet :=
  (forIndices p.location nevents 8).foldl
    (fun data j => Function.update data (j * dimension + p.position) (value j)) data

/-- The client's buffer moves on by eight samples with each event, from the block's offset on. -/
def midiPortEvent (p : MidiPortCache) (buffer : PortBuffer) (offset j : ℕ) : Quadlet :=
  match buffer.client with
  | some client => midiEvent order (client (offset + (j - p.location)))
  | none => midiNoData order

def encodeMidiPorts (cache : PortCache) (ports : ℕ → PortBuffer) (data : ℕ → Quadlet)
    (offset nevents : ℕ) : Option (ℕ → Quadlet) :=
  (List.range cache.nbMidiPorts).foldlM (fun data i => do
    let p ← cache.midiPorts[i]?
    some (fillMidiSlots dimension p (midiPortEvent order p (ports p.port) offset) data nevents))
    data

def encodeMidiPortsSilence (cache : PortCache) (data : ℕ → Quadlet) (nevents : ℕ) :
    Option (ℕ → Quadlet) :=
  (List.range cache.nbMidiPorts).foldlM (fun data i => do
    let p ← cache.midiPorts[i]?
    some (fillMidiSlots dimension p (fun _ => midiNoData order) data nevents)) data

def encodeAudioPortsFloat : PortCache → (ℕ → PortBuffer) → (ℕ → Quadlet) → ℕ → ℕ →
    Option (ℕ → Quadlet) :=
  encodeAudioPorts order dimension floatEvent

def encodeAudioPortsSilence (cache : PortCache) (data : ℕ → Quadlet) (nevents : ℕ) :
    ℕ → Quadlet :=
  (List.range cache.nbAudioPorts).foldl
    (fun data i => fill data i dimension (fun _ => silentEvent order) nevents) data

def processWriteBlock (dataType : AudioDataType) (cache : PortCache) (ports : ℕ → PortBuffer)
    (data : ℕ → Quadlet) (nevents offset : ℕ) : Option ((ℕ → Quadlet) × Bool) := do
  let data ← match dataType with
    | .int24 => encodeAudioPortsInt24 order dimension cache ports data offset nevents
    | .float => encodeAudioPortsFloat order dimension floatEvent cache ports data offset nevents
  let data ← encodeMidiPorts order dimension cache ports data offset nevents
  some (data, true)

def transmitSilenceBlock (cache : PortCache) (data : ℕ → Quadlet) (nevents : ℕ) :
    Option ((ℕ → Quadlet) × Bool) := do
  let data := encodeAudioPortsSilence order dimension cache data nevents
  let data ← encodeMidiPortsSilence order dimension cache data nevents
  some (data, true)

end

def AmdtpPortInfo.WritesAt (info : AmdtpPortInfo) (j : ℕ) : Prop :=
  match info.portType with
  | .audio => True
  | .midi => info.location ≤ j ∧ (j - info.location) % 8 = 0

variable {dimension : ℕ} {ports : AmdtpPorts dimension} {cache : PortCache} {nevents : ℕ}

/-- Every slot of a block of `nevents` events is written by a port. -/
def AmdtpPorts.Covers (ports : AmdtpPorts dimension) (nevents : ℕ) : Prop :=
  ∀ j < nevents, ∀ i < dimension, ∃ info ∈ ports.infos, info.position = i ∧ info.WritesAt j

def StoresTo (ports : AmdtpPorts dimension) (nevents : ℕ) (kind : PortType)
    (l : List (ℕ × Quadlet)) : Prop :=
  ∀ a, a ∈ l.map Prod.fst ↔ ∃ info ∈ ports.infos, info.portType = kind ∧
    ∃ j < nevents, info.WritesAt j ∧ a = info.position + j * dimension

theorem storesTo_audio (hcache : initPortCache ports.infos = some cache)
    {l : List (ℕ × Quadlet)} {value : ℕ → ℕ → Quadlet}
    (hl : FillsColumns l dimension nevents value 0 cache.nbAudioPorts) :
    StoresTo ports nevents .audio l := by
  intro a
  constructor
  · intro ha
    obtain ⟨w, hw, rfl⟩ := List.mem_map.mp ha
    obtain ⟨i, j, -, hi, hj, rfl⟩ := (hl w).mp hw
    obtain ⟨-, info, hinfo, haudio, hposition⟩ := AmdtpPorts.audioPorts_getElem? hcache hi
    refine ⟨info, List.mem_of_getElem? hinfo, haudio, j, hj, ?_, by rw [hposition]⟩
    simp [AmdtpPortInfo.WritesAt, haudio]
  · rintro ⟨info, hinfo, haudio, j, hj, -, rfl⟩
    obtain ⟨n, hn⟩ := List.mem_iff_getElem?.mp hinfo
    have hat : ports.AudioPortAt n info.position := ⟨info, hn, haudio, rfl⟩
    have hcolumn := (hl _).mpr
      ⟨info.position, j, Nat.zero_le _, (hat.cached hcache).1, hj, rfl⟩
    exact List.mem_map.mpr ⟨_, hcolumn, rfl⟩

def midiStores (dimension : ℕ) (cache : PortCache) (value : MidiPortCache → ℕ → Quadlet)
    (nevents : ℕ) : List (ℕ × Quadlet) :=
  cache.midiPorts.flatMap fun p =>
    (forIndices p.location nevents 8).map fun j => (j * dimension + p.position, value p j)

theorem storesTo_midi (hcache : initPortCache ports.infos = some cache)
    (value : MidiPortCache → ℕ → Quadlet) :
    StoresTo ports nevents .midi (midiStores dimension cache value nevents) := by
  intro a
  simp only [midiStores, List.mem_map, List.mem_flatMap, Prod.exists, Prod.mk.injEq,
    mem_forIndices (show 0 < 8 by norm_num)]
  constructor
  · rintro ⟨_, _, ⟨p, hp, j, ⟨hle, hlt, hmod⟩, rfl, rfl⟩, rfl⟩
    obtain ⟨info, hinfo, hmidi, hposition, hlocation⟩ := (AmdtpPorts.mem_midiPorts hcache).mp hp
    refine ⟨info, List.mem_of_getElem? hinfo, hmidi, j, hlt, ?_, by rw [hposition, Nat.add_comm]⟩
    simp only [AmdtpPortInfo.WritesAt, hmidi, hlocation]
    exact ⟨hle, hmod⟩
  · rintro ⟨info, hinfo, hmidi, j, hj, hwrites, rfl⟩
    obtain ⟨n, hn⟩ := List.mem_iff_getElem?.mp hinfo
    simp only [AmdtpPortInfo.WritesAt, hmidi] at hwrites
    exact ⟨_, _, ⟨⟨n, info.position, info.location⟩,
      (AmdtpPorts.mem_midiPorts hcache).mpr ⟨info, hn, hmidi, rfl, rfl⟩, j,
      ⟨hwrites.1, hj, hwrites.2⟩, Nat.add_comm _ _, rfl⟩, rfl⟩

theorem fillMidiSlots_eq (p : MidiPortCache) (value data : ℕ → Quadlet) (nevents : ℕ) :
    fillMidiSlots dimension p value data nevents = stores data
      ((forIndices p.location nevents 8).map fun j => (j * dimension + p.position, value j)) := by
  rw [List.map_eq_flatMap]
  apply foldl_stores
  intro j _ data
  rfl

theorem foldlM_midiPorts (hcache : initPortCache ports.infos = some cache)
    (value : MidiPortCache → ℕ → Quadlet) (data : ℕ → Quadlet) :
    (List.range cache.nbMidiPorts).foldlM (fun data i => do
      let p ← cache.midiPorts[i]?
      some (fillMidiSlots dimension p (value p) data nevents)) data =
      some (stores data (midiStores dimension cache value nevents)) := by
  rw [← AmdtpPorts.length_midiPorts hcache,
    foldlM_range fun data p => some (fillMidiSlots dimension p (value p) data nevents)]
  apply foldlM_stores
  intro p _ data
  rw [fillMidiSlots_eq]

theorem StoresTo.mem_append {audio midi : List (ℕ × Quadlet)}
    (haudio : StoresTo ports nevents .audio audio) (hmidi : StoresTo ports nevents .midi midi)
    (a : ℕ) : a ∈ (audio ++ midi).map Prod.fst ↔ ∃ info ∈ ports.infos,
      ∃ j < nevents, info.WritesAt j ∧ a = info.position + j * dimension := by
  rw [List.map_append, List.mem_append, haudio a, hmidi a]
  constructor
  · rintro (⟨info, hinfo, -, h⟩ | ⟨info, hinfo, -, h⟩)
    · exact ⟨info, hinfo, h⟩
    · exact ⟨info, hinfo, h⟩
  · rintro ⟨info, hinfo, h⟩
    cases hkind : info.portType with
    | audio => exact .inl ⟨info, hinfo, hkind, h⟩
    | midi => exact .inr ⟨info, hinfo, hkind, h⟩

/-- If audio and MIDI slots are all that is written, a block is independent of the memory before
exactly if its slots are covered. -/
theorem independent_iff_covers {audio midi : List (ℕ × Quadlet)}
    (haudio : StoresTo ports nevents .audio audio) (hmidi : StoresTo ports nevents .midi midi) :
    (∀ k < nevents * dimension, ∀ data data',
      stores data (audio ++ midi) k = stores data' (audio ++ midi) k) ↔ ports.Covers nevents := by
  simp only [stores_independent_iff, haudio.mem_append hmidi]
  constructor
  · intro h j hj i hi
    have hslot : i + j * dimension < nevents * dimension := by
      calc i + j * dimension < dimension + j * dimension := by omega
        _ = (j + 1) * dimension := by ring
        _ ≤ nevents * dimension := Nat.mul_le_mul_right _ hj
    obtain ⟨info, hinfo, j', -, hwrites, heq⟩ := h _ hslot
    obtain ⟨rfl, rfl⟩ := cell_inj hi (ports.position_lt info hinfo) heq
    exact ⟨info, hinfo, rfl, hwrites⟩
  · intro h k hk
    have hpos : 0 < dimension := Nat.pos_of_mul_pos_left (Nat.zero_lt_of_lt hk)
    have hevent : k / dimension < nevents := Nat.div_lt_of_lt_mul (Nat.mul_comm _ _ ▸ hk)
    obtain ⟨info, hinfo, hposition, hwrites⟩ := h _ hevent _ (Nat.mod_lt k hpos)
    exact ⟨info, hinfo, _, hevent, hwrites, by
      rw [hposition, Nat.mul_comm, Nat.mod_add_div]⟩

theorem encodeMidiPorts_eq (order : ByteOrder) (hcache : initPortCache ports.infos = some cache)
    (buffers : ℕ → PortBuffer) (offset : ℕ) (data : ℕ → Quadlet) :
    encodeMidiPorts order dimension cache buffers data offset nevents =
      some (stores data (midiStores dimension cache
        (fun p => midiPortEvent order p (buffers p.port) offset) nevents)) :=
  foldlM_midiPorts hcache _ data

theorem encodeMidiPortsSilence_eq (order : ByteOrder)
    (hcache : initPortCache ports.infos = some cache) (data : ℕ → Quadlet) :
    encodeMidiPortsSilence order dimension cache data nevents =
      some (stores data (midiStores dimension cache (fun _ _ => midiNoData order) nevents)) :=
  foldlM_midiPorts hcache _ data

def silentStores (order : ByteOrder) (dimension : ℕ) (cache : PortCache) (nevents : ℕ) :
    List (ℕ × Quadlet) :=
  (List.range cache.nbAudioPorts).flatMap fun i =>
    column i dimension (fun _ => silentEvent order) nevents

theorem encodeAudioPortsSilence_eq (order : ByteOrder) (data : ℕ → Quadlet) :
    encodeAudioPortsSilence order dimension cache data nevents =
      stores data (silentStores order dimension cache nevents) := by
  apply foldl_stores
  intro i _ data
  exact fill_eq _ _ _ _ _

theorem processWriteBlock_eq (order : ByteOrder) (floatEvent : Quadlet → Quadlet)
    (dataType : AudioDataType) (hcache : initPortCache ports.infos = some cache)
    {buffers : ℕ → PortBuffer} {offset : ℕ} (hfits : BlockFits ports buffers offset nevents) :
    ∃ audio midi, StoresTo ports nevents .audio audio ∧ StoresTo ports nevents .midi midi ∧
      ∀ data, processWriteBlock order dimension floatEvent dataType cache buffers data nevents
        offset = some (stores data (audio ++ midi), true) := by
  have hmidi : StoresTo ports nevents .midi (midiStores dimension cache
      (fun p => midiPortEvent order p (buffers p.port) offset) nevents) :=
    storesTo_midi hcache _
  cases dataType with
  | int24 =>
    refine ⟨audioStores order dimension (int24Event order) cache buffers offset nevents, _,
      storesTo_audio hcache fillsColumns_audioStores, hmidi, ?_⟩
    intro data
    simp only [processWriteBlock, encodeAudioPortsInt24_eq order hcache hfits,
      encodeMidiPorts_eq order hcache, stores_append, Option.bind_eq_bind, Option.bind_some]
  | float =>
    refine ⟨audioStores order dimension floatEvent cache buffers offset nevents, _,
      storesTo_audio hcache fillsColumns_audioStores, hmidi, ?_⟩
    intro data
    simp only [processWriteBlock, encodeAudioPortsFloat, encodeAudioPorts_eq hcache hfits,
      encodeMidiPorts_eq order hcache, stores_append, Option.bind_eq_bind, Option.bind_some]

theorem transmitSilenceBlock_eq (order : ByteOrder)
    (hcache : initPortCache ports.infos = some cache) (nevents : ℕ) :
    ∃ audio midi, StoresTo ports nevents .audio audio ∧ StoresTo ports nevents .midi midi ∧
      ∀ data, transmitSilenceBlock order dimension cache data nevents =
        some (stores data (audio ++ midi), true) := by
  have haudio : FillsColumns (silentStores order dimension cache nevents) dimension nevents
      (fun _ _ => silentEvent order) 0 cache.nbAudioPorts := fillsColumns_columns _ _ _ _
  refine ⟨_, _, storesTo_audio hcache haudio,
    storesTo_midi hcache fun _ _ => midiNoData order, ?_⟩
  intro data
  simp only [transmitSilenceBlock, encodeAudioPortsSilence_eq,
    encodeMidiPortsSilence_eq order hcache, stores_append, Option.bind_eq_bind, Option.bind_some]

def slot (block : Option ((ℕ → Quadlet) × Bool)) (k : ℕ) : Option Quadlet :=
  block.map fun r => r.1 k

/-- No slot of a block depends on what was in the memory before, for a block of samples and for
a silent one, exactly if the ports cover the block. -/
theorem block_defined_iff_covers (order : ByteOrder) (floatEvent : Quadlet → Quadlet)
    (dataType : AudioDataType) (hcache : initPortCache ports.infos = some cache)
    {buffers : ℕ → PortBuffer} {offset : ℕ} (hfits : BlockFits ports buffers offset nevents) :
    ((∀ k < nevents * dimension, ∀ data data',
        slot (processWriteBlock order dimension floatEvent dataType cache buffers data nevents
          offset) k =
        slot (processWriteBlock order dimension floatEvent dataType cache buffers data' nevents
          offset) k) ↔ ports.Covers nevents) ∧
    ((∀ k < nevents * dimension, ∀ data data',
        slot (transmitSilenceBlock order dimension cache data nevents) k =
        slot (transmitSilenceBlock order dimension cache data' nevents) k) ↔
      ports.Covers nevents) := by
  constructor
  · obtain ⟨audio, midi, haudio, hmidi, hblock⟩ :=
      processWriteBlock_eq order floatEvent dataType hcache hfits
    simp only [hblock, slot, Option.map_some, Option.some.injEq]
    exact independent_iff_covers haudio hmidi
  · obtain ⟨audio, midi, haudio, hmidi, hblock⟩ := transmitSilenceBlock_eq order hcache nevents
    simp only [hblock, slot, Option.map_some, Option.some.injEq]
    exact independent_iff_covers haudio hmidi

/-- A block of one event has its MIDI slot written. -/
theorem block_defined_iff_covers_firstEvent :
    slot (processWriteBlock .littleEndian 3 id .int24 stereoCache stereoBuffers (fun _ => 0) 1 0)
        2 =
      slot (processWriteBlock .littleEndian 3 id .int24 stereoCache stereoBuffers (fun _ => 1) 1
        0) 2 := by
  have hcovers : stereoPorts.Covers 1 := by
    intro j hj i hi
    obtain rfl : j = 0 := by omega
    interval_cases i
    · exact ⟨⟨.audio, 0, 0, .mbla⟩, by decide, rfl, trivial⟩
    · exact ⟨⟨.audio, 1, 0, .mbla⟩, by decide, rfl, trivial⟩
    · exact ⟨⟨.midi, 2, 0, .midi⟩, by decide, rfl, Nat.le_refl 0, rfl⟩
  exact (block_defined_iff_covers .littleEndian id .int24 initPortCache_stereoPorts
    (blockFits_stereoBuffers (by decide))).1.mpr hcovers 2 (by decide) _ _

/-- The second event's MIDI slot still holds what was there before. -/
theorem midi_slot_undefined : initPortCache stereoPorts.infos = some stereoCache ∧
    slot (processWriteBlock .littleEndian 3 id .int24 stereoCache stereoBuffers (fun _ => 0) 8 0)
      5 = some 0 ∧
    slot (processWriteBlock .littleEndian 3 id .int24 stereoCache stereoBuffers (fun _ => 1) 8 0)
      5 = some 1 ∧
    slot (transmitSilenceBlock .littleEndian 3 stereoCache (fun _ => 0) 8) 5 = some 0 ∧
    slot (transmitSilenceBlock .littleEndian 3 stereoCache (fun _ => 1) 8) 5 = some 1 := by
  decide +kernel

end Ffado
