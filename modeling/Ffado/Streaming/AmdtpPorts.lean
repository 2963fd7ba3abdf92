import Ffado.Lib.Postcondition
import Ffado.Util.ByteSwap
import Mathlib.Data.List.Perm.Subperm
import Mathlib.Data.List.NodupEquivFin
import Mathlib.Data.List.GetD

/-!
# The ports of an AMDTP stream

An event of the stream has `m_dimension` quadlets; a port's position is its column. The
encoders and decoders do not look at the position of an audio port: they take its index in
the port cache, where `initPortCache` puts the audio ports in the order of their positions.
It accepts the ports only if the positions from 0 on are taken without a gap, and then index
and position are the same.
-/
namespace Ffado

open Postcondition

inductive PortType
  | audio
  | midi
  deriving DecidableEq

inductive PortFormat
  | mbla
  | midi
  | spdif
  deriving DecidableEq

structure AmdtpPortInfo where
  portType : PortType
  position : ℕ
  location : ℕ
  format : PortFormat
  deriving DecidableEq

/-- What the client may change at any time: the address of the port's buffer (`none` for a null
pointer) and whether the port is disabled. -/
structure PortBuffer where
  buffer : Option (ℕ → Quadlet)
  disabled : Bool
  bufferSize : ℕ

def PortBuffer.client (p : PortBuffer) : Option (ℕ → Quadlet) :=
  if p.disabled then none else p.buffer

structure MidiPortCache where
  port : ℕ
  position : ℕ
  location : ℕ
  deriving DecidableEq

/-- The cached ports, as indices in `m_Ports`. `updatePortCache` copies buffer, size and enabled
flag of each of them before a block, so they are read from the ports here. -/
structure PortCache where
  nbAudioPorts : ℕ
  audioPorts : List ℕ
  nbMidiPorts : ℕ
  midiPorts : List MidiPortCache
  deriving DecidableEq

def PortCache.audioPort (cache : PortCache) (i : ℕ) : ℕ := cache.audioPorts.getD i 0

def cacheAudioPort (ports : List AmdtpPortInfo) (idx : ℕ) : Option ℕ :=
  match ports.findIdx? (·.position = idx) with
  | some port => if ports[port]?.any (·.portType = .audio) then some port else none
  | none => none

def cacheMidiPort : AmdtpPortInfo × ℕ → Option MidiPortCache
  | (info, port) => if info.portType = .midi then some
      ⟨port, info.position, info.location⟩ else none

def initPortCache (ports : List AmdtpPortInfo) : Option PortCache := do
  let nbAudioPorts := ports.countP (·.format = .mbla)
  let nbMidiPorts := ports.countP (·.format = .midi)
  let audioPorts ← (List.range nbAudioPorts).mapM (cacheAudioPort ports)
  some {
    nbAudioPorts := nbAudioPorts
    audioPorts := audioPorts
    nbMidiPorts := nbMidiPorts
    midiPorts := ports.zipIdx.filterMap cacheMidiPort }

/-- The ports as the devices create them: each in a column of the event, audio ports for
multibit linear audio and MIDI ports for MIDI. -/
structure AmdtpPorts (dimension : ℕ) where
  infos : List AmdtpPortInfo
  position_lt : ∀ info ∈ infos, info.position < dimension
  format_eq : ∀ info ∈ infos, info.format = match info.portType with
    | .audio => .mbla
    | .midi => .midi

namespace AmdtpPorts

variable {dimension : ℕ} (ports : AmdtpPorts dimension)

def AudioPortAt (n position : ℕ) : Prop :=
  ∃ info, ports.infos[n]? = some info ∧ info.portType = .audio ∧ info.position = position

theorem AudioPortAt.lt {ports : AmdtpPorts dimension} {n position : ℕ}
    (h : ports.AudioPortAt n position) : position < dimension := by
  obtain ⟨info, hinfo, -, rfl⟩ := h
  exact ports.position_lt info (List.mem_of_getElem? hinfo)

theorem audioPortAt_of_cacheAudioPort {idx n : ℕ}
    (h : cacheAudioPort ports.infos idx = some n) : ports.AudioPortAt n idx := by
  unfold cacheAudioPort at h
  split at h
  · rename_i port hfound
    split_ifs at h with haudio
    cases h
    obtain ⟨hlt, hposition, -⟩ := List.findIdx?_eq_some_iff_getElem.mp hfound
    have hinfo := List.getElem?_eq_getElem hlt
    rw [hinfo, Option.any_some, decide_eq_true_iff] at haudio
    exact ⟨_, hinfo, haudio, by simpa using hposition⟩
  · cases h

def audioIndices : List ℕ :=
  (ports.infos.zipIdx.filter (fun x => x.1.portType = .audio)).map (·.2)

theorem mem_audioIndices {n : ℕ} :
    n ∈ ports.audioIndices ↔ ∃ position, ports.AudioPortAt n position := by
  unfold audioIndices AudioPortAt
  simp only [List.mem_map, List.mem_filter, List.mk_mem_zipIdx_iff_getElem?, Prod.exists,
    decide_eq_true_eq, exists_eq_right]
  constructor
  · rintro ⟨info, hinfo, haudio⟩
    exact ⟨info.position, info, hinfo, haudio, rfl⟩
  · rintro ⟨_, info, hinfo, haudio, rfl⟩
    exact ⟨info, hinfo, haudio⟩

theorem countP_zipIdx (q : AmdtpPortInfo → Bool) :
    ports.infos.zipIdx.countP (fun x => q x.1) = ports.infos.countP q := by
  conv_rhs => rw [← List.zipIdx_map_fst 0 ports.infos, List.countP_map]
  rfl

theorem length_audioIndices : ports.audioIndices.length =
    ports.infos.countP (·.format = .mbla) := by
  rw [audioIndices, List.length_map, ← List.countP_eq_length_filter,
    ports.countP_zipIdx fun info => info.portType = .audio]
  apply List.countP_congr
  intro info hinfo
  have hformat := ports.format_eq info hinfo
  cases htype : info.portType <;> simp [hformat, htype]

variable {ports} {cache : PortCache}

theorem initPortCache_eq (h : initPortCache ports.infos = some cache) :
    cache.nbAudioPorts = ports.audioIndices.length ∧
      List.Forall₂ (fun idx port => cacheAudioPort ports.infos idx = some port)
        (List.range cache.nbAudioPorts) cache.audioPorts ∧
      cache.nbMidiPorts = ports.infos.countP (·.format = .midi) ∧
      cache.midiPorts = ports.infos.zipIdx.filterMap cacheMidiPort := by
  unfold initPortCache at h
  obtain ⟨audioPorts, haudio, h⟩ := Option.bind_eq_some_iff.mp h
  cases h
  exact ⟨ports.length_audioIndices.symm, forall₂_of_mapM haudio, rfl, rfl⟩

theorem audioPorts_getElem? (h : initPortCache ports.infos = some cache) {i : ℕ}
    (hi : i < cache.nbAudioPorts) :
    cache.audioPorts[i]? = some (cache.audioPort i) ∧ ports.AudioPortAt (cache.audioPort i) i := by
  obtain ⟨-, haudio, -, -⟩ := initPortCache_eq h
  have hlength := haudio.length_eq
  rw [List.length_range] at hlength
  have hget : cache.audioPorts[i]? = some (cache.audioPort i) := by
    unfold PortCache.audioPort
    rw [List.getD_eq_getElem _ _ (by omega), List.getElem?_eq_getElem]
  refine ⟨hget, audioPortAt_of_cacheAudioPort ports ?_⟩
  have hcached := List.forall₂_iff_get.mp haudio
  have hi' : i < cache.audioPorts.length := by omega
  have hport := hcached.2 i (by simpa using hi) hi'
  rw [List.getElem?_eq_getElem hi', Option.some.injEq] at hget
  simpa [hget] using hport

theorem AudioPortAt.unique {n i i' : ℕ} (h : ports.AudioPortAt n i)
    (h' : ports.AudioPortAt n i') : i = i' := by
  obtain ⟨info, hinfo, -, rfl⟩ := h
  obtain ⟨info', hinfo', -, rfl⟩ := h'
  rw [hinfo, Option.some.injEq] at hinfo'
  rw [hinfo']

theorem nodup_audioPorts (h : initPortCache ports.infos = some cache) :
    ((List.range cache.nbAudioPorts).map cache.audioPort).Nodup := by
  apply List.Nodup.map_on _ List.nodup_range
  intro i hi i' hi' heq
  have hport := (audioPorts_getElem? h (List.mem_range.mp hi)).2
  rw [heq] at hport
  exact hport.unique (audioPorts_getElem? h (List.mem_range.mp hi')).2

theorem AudioPortAt.cached {n position : ℕ} (hn : ports.AudioPortAt n position)
    (h : initPortCache ports.infos = some cache) :
    position < cache.nbAudioPorts ∧ cache.audioPort position = n := by
  obtain ⟨hcount, -, -, -⟩ := initPortCache_eq h
  have hsub : (List.range cache.nbAudioPorts).map cache.audioPort ⊆ ports.audioIndices := by
    intro m hm
    obtain ⟨i, hi, rfl⟩ := List.mem_map.mp hm
    exact ports.mem_audioIndices.mpr ⟨i, (audioPorts_getElem? h (List.mem_range.mp hi)).2⟩
  have hall := ((nodup_audioPorts h).subperm hsub).perm_of_length_le (by simp [hcount])
  have hmem := hall.mem_iff.mpr (ports.mem_audioIndices.mpr ⟨position, hn⟩)
  obtain ⟨i, hi, rfl⟩ := List.mem_map.mp hmem
  rw [List.mem_range] at hi
  rw [hn.unique (audioPorts_getElem? h hi).2]
  exact ⟨hi, rfl⟩

theorem mem_midiPorts (h : initPortCache ports.infos = some cache) {p : MidiPortCache} :
    p ∈ cache.midiPorts ↔ ∃ info, ports.infos[p.port]? = some info ∧ info.portType = .midi ∧
      info.position = p.position ∧ info.location = p.location := by
  obtain ⟨-, -, -, hports⟩ := initPortCache_eq h
  rw [hports, List.mem_filterMap]
  constructor
  · rintro ⟨⟨info, n⟩, hinfo, hp⟩
    rw [List.mk_mem_zipIdx_iff_getElem?] at hinfo
    simp only [cacheMidiPort] at hp
    split_ifs at hp with hmidi
    cases hp
    exact ⟨info, hinfo, hmidi, rfl, rfl⟩
  · rintro ⟨info, hinfo, hmidi, hposition, hlocation⟩
    refine ⟨(info, p.port), List.mk_mem_zipIdx_iff_getElem?.mpr hinfo, ?_⟩
    simp [cacheMidiPort, hmidi, hposition, hlocation]

theorem length_midiPorts (h : initPortCache ports.infos = some cache) :
    cache.midiPorts.length = cache.nbMidiPorts := by
  obtain ⟨-, -, hcount, hports⟩ := initPortCache_eq h
  have hcached : ∀ x : AmdtpPortInfo × ℕ,
      (cacheMidiPort x).isSome = decide (x.1.portType = .midi) := by
    rintro ⟨info, n⟩
    simp only [cacheMidiPort]
    split_ifs with hmidi <;> simp [hmidi]
  rw [hports, hcount, List.length_filterMap_eq_countP]
  simp only [hcached]
  rw [ports.countP_zipIdx fun info => info.portType = .midi]
  apply List.countP_congr
  intro info hinfo
  have hformat := ports.format_eq info hinfo
  cases htype : info.portType <;> simp [hformat, htype]

theorem nbAudioPorts_le (h : initPortCache ports.infos = some cache) :
    cache.nbAudioPorts ≤ dimension := by
  cases hn : cache.nbAudioPorts with
  | zero => exact Nat.zero_le _
  | succ n => exact (audioPorts_getElem? h (hn ▸ Nat.lt_succ_self n)).2.lt

end AmdtpPorts

end Ffado
