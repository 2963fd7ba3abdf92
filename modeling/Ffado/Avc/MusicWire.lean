import Ffado.Avc.MusicDescriptor
import Ffado.Avc.TrailingBlocks

/-!
# Plugs and clusters on the wire

The format of the blocks within a routing status block: their fields, the blocks that they announce,
and whatever other blocks follow until the compound length is filled. A parser in front of a block
reads the announced part of it, and consumes the whole if the trailing blocks are of the right form.
-/
namespace Ffado.Avc

open Cmd Decoding Decoding.Cursor Deserializer MachineInt

def ClusterInfoBlock.untexted (b : ClusterInfoBlock) : ClusterInfoBlock :=
  { b with texts := .fresh }

def SubunitPlugInfoBlock.untexted (b : SubunitPlugInfoBlock) : SubunitPlugInfoBlock :=
  { b with clusters := b.clusters.map ClusterInfoBlock.untexted, texts := .fresh }

def MusicPlugInfoBlock.untexted (b : MusicPlugInfoBlock) : MusicPlugInfoBlock :=
  { b with texts := .fresh }

namespace SignalInfo

def bytes (x : SignalInfo) : List UInt8 :=
  word x.musicPlugId ++ ([x.streamPosition] ++ [x.streamLocation])

theorem decodes (x : SignalInfo) : Decodes deserialize x.bytes x := by
  exact (decodes_localWord _).bind ((decodes_localByte _).bind ((decodes_localByte _).bind
    (decodes_pure x)))

end SignalInfo

namespace PlugEnd

def bytes (x : PlugEnd) : List UInt8 :=
  [x.plugFunctionType] ++ ([x.plugId] ++ ([x.plugFunctionBlockId] ++ ([x.streamPosition] ++
    [x.streamLocation])))

theorem length_bytes (x : PlugEnd) : x.bytes.length = 5 := rfl

theorem decodes (old x : PlugEnd) : Decodes old.deserialize x.bytes x := by
  exact (decodes_byte _ _).bind ((decodes_byte _ _).bind ((decodes_byte _ _).bind
    ((decodes_byte _ _).bind ((decodes_byte _ _).bind (decodes_pure x)))))

end PlugEnd

theorem run_consumed {α : Type} (f : ℤ → Deserializer α) (s : Reader) :
    (getNrOfConsumedBytes >>= f) s = f s.de.getNrOfConsumedBytes s :=
  run_bind_of_some rfl

/-- The bytes consumed since the header, as the parsers count them. -/
theorem bytesLeft_advance {s : Reader} {compoundLength : UInt16} {k left : ℕ}
    (hle : s.de.curPos + (6 + k) ≤ s.de.length) (h : compoundLength.toNat = 4 + k + left) :
    bytesLeft compoundLength (advance s 6).de.getNrOfConsumedBytes
      (advance s (6 + k)).de.getNrOfConsumedBytes = left := by
  have hlt := compoundLength.toNat_lt
  have hstart : (advance s 6).de.curPos = s.de.curPos + 6 := s.de.advance_curPos_of_le (by omega)
  have hend : (advance s (6 + k)).de.curPos = s.de.curPos + (6 + k) := s.de.advance_curPos_of_le hle
  rw [bytesLeft, BufferDeserialize.getNrOfConsumedBytes,
    BufferDeserialize.getNrOfConsumedBytes, hstart, hend, i32_add_i32_sub_i32,
    i32_of_range (by omega) (by omega)]
  omega

namespace Wire

structure Cluster where
  primaryFieldLength : UInt16
  streamFormat : UInt8
  portType : UInt8
  signals : List SignalInfo
  trailing : List Block

namespace Cluster

variable (c : Cluster)

def compoundLength : ℕ :=
  7 + (c.signals.flatMap SignalInfo.bytes).length + (trailingBytes c.trailing).length

def header : InfoBlock := ⟨UInt16.ofNat c.compoundLength, clusterType, c.primaryFieldLength⟩

def announcedBytes : List UInt8 :=
  c.header.bytes ++ ([c.streamFormat] ++ ([c.portType] ++ ([UInt8.ofNat c.signals.length] ++
    c.signals.flatMap SignalInfo.bytes)))

def bytes : List UInt8 := c.announcedBytes ++ trailingBytes c.trailing

structure Fits : Prop where
  length_lt : c.compoundLength < 2 ^ 16
  signals_lt : c.signals.length < 2 ^ 8

def announced : ClusterInfoBlock :=
  ⟨c.header, c.streamFormat, c.portType, UInt8.ofNat c.signals.length, c.signals, .fresh⟩

/-- The block with the text that a parser in front of it finds. -/
def decoded (s : Reader) : ClusterInfoBlock :=
  { c.announced with texts := (advance s c.announcedBytes.length).texts c.trailing }

/-- A parser in front of the cluster reads it as announced and consumes it. -/
def InStep (s : Reader) : Prop :=
  ∃ b, ClusterInfoBlock.fresh.deserialize s = some (b, advance s c.bytes.length) ∧
    b.untexted = c.announced

def Ok (s : Reader) : Prop := (advance s c.announcedBytes.length).TrailingOk c.trailing

variable {c} {s : Reader}

theorem length_announcedBytes : c.announcedBytes.length =
    6 + (3 + (c.signals.flatMap SignalInfo.bytes).length) := by
  simp only [announcedBytes, List.length_append, InfoBlock.length_bytes, List.length_singleton]
  omega

theorem Fits.trailing (h : c.Fits) : ∀ t ∈ c.trailing, t.Fits := by
  apply fits_of_trailing
  have hlt := h.length_lt
  rw [compoundLength] at hlt
  omega

theorem deserialize_eq (hs : Holds s c.announcedBytes) (hfits : c.Fits) :
    ClusterInfoBlock.fresh.deserialize s = (TextBlocks.fresh.deserialize
      (trailingBytes c.trailing).length (advance s c.announcedBytes.length)).map
        (Prod.map (fun texts => { c.announced with texts }) id) := by
  have hle := hs.le
  rw [length_announcedBytes] at hle
  obtain ⟨hheader, hs⟩ := holds_append.mp hs
  obtain ⟨hformat, hs⟩ := holds_append.mp hs
  obtain ⟨hport, hs⟩ := holds_append.mp hs
  obtain ⟨hnb, hsignals⟩ := holds_append.mp hs
  have hdecodes : Decodes (ClusterInfoBlock.fresh.header.deserialize clusterType) c.header.bytes
      c.header := decodes_header _ rfl
  have hcount := UInt8.toNat_ofNat_of_lt' hfits.signals_lt
  have htimes := Decodes.times fun x (_ : x ∈ c.signals) => x.decodes
  have hlength : c.header.compoundLength.toNat =
      4 + (3 + (c.signals.flatMap SignalInfo.bytes).length) + (trailingBytes
        c.trailing).length := by
    rw [header, UInt16.toNat_ofNat_of_lt' hfits.length_lt, compoundLength]
    omega
  rw [ClusterInfoBlock.deserialize, hdecodes.run_bind hheader, run_consumed,
    (decodes_byte _ _).run_bind hformat, (decodes_byte _ _).run_bind hport,
    (decodes_byte _ _).run_bind hnb, hcount, htimes.run_bind hsignals, run_consumed,
    length_announcedBytes]
  simp only [advance_advance, InfoBlock.length_bytes, List.length_singleton, List.map_id']
  have hoffset : 6 + 1 + 1 + 1 + (c.signals.flatMap SignalInfo.bytes).length =
      6 + (3 + (c.signals.flatMap SignalInfo.bytes).length) := by omega
  rw [hoffset, bytesLeft_advance hle hlength]
  exact run_bind_pure _ _

theorem deserialize_of_ok (c : Cluster) (hs : Holds s c.bytes) (hfits : c.Fits) (hok : c.Ok s) :
    ClusterInfoBlock.fresh.deserialize s = some (c.decoded s, advance s c.bytes.length) := by
  obtain ⟨hannounced, htrailing⟩ := holds_append.mp hs
  rw [bytes, List.length_append]
  exact run_of_trailingOk (deserialize_eq hannounced hfits) htrailing hfits.trailing hok

theorem inStep_iff (c : Cluster) (hs : Holds s c.bytes) (hfits : c.Fits) : c.InStep s ↔ c.Ok s := by
  obtain ⟨hannounced, htrailing⟩ := holds_append.mp hs
  rw [InStep, bytes, List.length_append]
  exact exists_run_iff (fun _ => rfl) (deserialize_eq hannounced hfits) htrailing hfits.trailing

end Cluster

structure SubunitPlug where
  subunitPlugId : UInt8
  signalFormat : UInt16
  plugType : UInt8
  nbChannels : UInt16
  clusters : List Cluster
  trailing : List Block

namespace SubunitPlug

variable (p : SubunitPlug)

def compoundLength : ℕ :=
  12 + (p.clusters.flatMap Cluster.bytes).length + (trailingBytes p.trailing).length

def header : InfoBlock := ⟨UInt16.ofNat p.compoundLength, subunitPlugType, 8⟩

def fieldBytes : List UInt8 :=
  p.header.bytes ++ ([p.subunitPlugId] ++ (word p.signalFormat ++ ([p.plugType] ++
    (word (UInt16.ofNat p.clusters.length) ++ word p.nbChannels))))

def announcedBytes : List UInt8 := p.fieldBytes ++ p.clusters.flatMap Cluster.bytes

def bytes : List UInt8 := p.announcedBytes ++ trailingBytes p.trailing

structure Fits : Prop where
  length_lt : p.compoundLength < 2 ^ 16
  clusters_lt : p.clusters.length < 2 ^ 16
  clusters : ∀ c ∈ p.clusters, c.Fits

def announced : SubunitPlugInfoBlock :=
  ⟨p.header, p.subunitPlugId, p.signalFormat, p.plugType, UInt16.ofNat p.clusters.length,
    p.nbChannels, p.clusters.map Cluster.announced, .fresh⟩

def decoded (s : Reader) : SubunitPlugInfoBlock :=
  { p.announced with
    clusters := mapAt Cluster.bytes (fun s c => c.decoded s) (advance s 14) p.clusters
    texts := (advance s p.announcedBytes.length).texts p.trailing }

/-- The parsers in front of the plug and of its clusters read them as announced and consume them. -/
structure InStep (s : Reader) : Prop where
  clusters : AllAt Cluster.bytes (fun s c => c.InStep s) (advance s 14) p.clusters
  consumed : ∃ b, SubunitPlugInfoBlock.fresh.deserialize s = some (b, advance s p.bytes.length) ∧
    b.untexted = p.announced

structure Ok (s : Reader) : Prop where
  clusters : AllAt Cluster.bytes (fun s c => c.Ok s) (advance s 14) p.clusters
  trailing : (advance s p.announcedBytes.length).TrailingOk p.trailing

variable {p} {s : Reader}

theorem length_fieldBytes : p.fieldBytes.length = 14 := rfl

theorem length_announcedBytes :
    p.announcedBytes.length = 6 + (8 + (p.clusters.flatMap Cluster.bytes).length) := by
  rw [announcedBytes, List.length_append, length_fieldBytes]
  omega

theorem Fits.trailing (h : p.Fits) : ∀ t ∈ p.trailing, t.Fits := by
  apply fits_of_trailing
  have hlt := h.length_lt
  rw [compoundLength] at hlt
  omega

theorem deserialize_fields (hs : Holds s p.fieldBytes) (hfits : p.Fits) :
    SubunitPlugInfoBlock.fresh.deserialize s = (do
      let clusters ← times p.clusters.length ClusterInfoBlock.fresh.deserialize
      let consumedAtClusterEnd ← getNrOfConsumedBytes
      let texts ← TextBlocks.fresh.deserialize (bytesLeft p.header.compoundLength
        (advance s 6).de.getNrOfConsumedBytes consumedAtClusterEnd)
      return { p.announced with clusters, texts }) (advance s 14) := by
  obtain ⟨hheader, hs⟩ := holds_append.mp hs
  obtain ⟨hid, hs⟩ := holds_append.mp hs
  obtain ⟨hformat, hs⟩ := holds_append.mp hs
  obtain ⟨htype, hs⟩ := holds_append.mp hs
  obtain ⟨hnb, hchannels⟩ := holds_append.mp hs
  have hdecodes : Decodes (SubunitPlugInfoBlock.fresh.header.deserialize subunitPlugType)
      p.header.bytes p.header := decodes_header _ rfl
  have hprimary : ¬ p.header.primaryFieldLength ≠ 8 := not_not.mpr rfl
  have hcount := UInt16.toNat_ofNat_of_lt' hfits.clusters_lt
  rw [SubunitPlugInfoBlock.deserialize, hdecodes.run_bind hheader, if_neg hprimary, run_consumed,
    (decodes_byte _ _).run_bind hid, (decodes_word _ _).run_bind hformat,
    (decodes_byte _ _).run_bind htype, (decodes_word _ _).run_bind hnb,
    (decodes_word _ _).run_bind hchannels, hcount]
  simp only [advance_advance, InfoBlock.length_bytes, List.length_singleton, length_word,
    Nat.reduceAdd]
  rfl

theorem deserialize_eq (hs : Holds s p.announcedBytes) (hfits : p.Fits)
    (hok : AllAt Cluster.bytes (fun s c => c.Ok s) (advance s 14) p.clusters) :
    SubunitPlugInfoBlock.fresh.deserialize s = (TextBlocks.fresh.deserialize
      (trailingBytes p.trailing).length (advance s p.announcedBytes.length)).map
        (Prod.map (fun texts => { p.decoded s with texts }) id) := by
  have hle := hs.le
  rw [length_announcedBytes] at hle
  obtain ⟨hfields, hclusters⟩ := holds_append.mp hs
  rw [length_fieldBytes] at hclusters
  have hlength : p.header.compoundLength.toNat =
      4 + (8 + (p.clusters.flatMap Cluster.bytes).length) + (trailingBytes p.trailing).length := by
    rw [header, UInt16.toNat_ofNat_of_lt' hfits.length_lt, compoundLength]
    omega
  have hoffset : 14 + (p.clusters.flatMap Cluster.bytes).length =
      6 + (8 + (p.clusters.flatMap Cluster.bytes).length) := by omega
  have hrun := times_run (hok.imp hclusters fun _ c hc hs =>
    c.deserialize_of_ok hs (hfits.clusters c hc))
  rw [deserialize_fields hfields hfits, run_bind_of_some hrun, run_consumed, advance_advance,
    hoffset, bytesLeft_advance hle hlength, length_announcedBytes]
  exact run_bind_pure _ _

theorem deserialize_of_ok (p : SubunitPlug) (hs : Holds s p.bytes) (hfits : p.Fits) (hok : p.Ok s) :
    SubunitPlugInfoBlock.fresh.deserialize s = some (p.decoded s, advance s p.bytes.length) := by
  obtain ⟨hannounced, htrailing⟩ := holds_append.mp hs
  rw [bytes, List.length_append]
  exact run_of_trailingOk (deserialize_eq hannounced hfits hok.clusters) htrailing hfits.trailing
    hok.trailing

theorem decoded_untexted (texts : TextBlocks) :
    ({ p.decoded s with texts } : SubunitPlugInfoBlock).untexted = p.announced := by
  have hclusters : (mapAt Cluster.bytes (fun s c => c.decoded s) (advance s 14) p.clusters).map
      ClusterInfoBlock.untexted = p.clusters.map Cluster.announced := by
    apply map_mapAt
    intro s c
    rfl
  simp only [SubunitPlugInfoBlock.untexted, decoded, hclusters]
  rfl

theorem inStep_iff (p : SubunitPlug) (hs : Holds s p.bytes) (hfits : p.Fits) :
    p.InStep s ↔ p.Ok s := by
  obtain ⟨hannounced, htrailing⟩ := holds_append.mp hs
  have hclusters := AllAt.congr (holds_append.mp hannounced).2 fun _ c hc hs =>
    c.inStep_iff hs (hfits.clusters c hc)
  have hiff := fun hok => exists_run_iff (Q := fun b => b.untexted = p.announced) decoded_untexted
    (deserialize_eq hannounced hfits hok) htrailing hfits.trailing
  rw [← List.length_append] at hiff
  constructor
  · rintro ⟨hin, hconsumed⟩
    have hok := hclusters.mp hin
    exact ⟨hok, (hiff hok).mp hconsumed⟩
  · rintro ⟨hok, htrailingOk⟩
    exact ⟨hclusters.mpr hok, (hiff hok).mpr htrailingOk⟩

end SubunitPlug

structure MusicPlug where
  plugType : UInt8
  plugId : UInt16
  routingSupport : UInt8
  source : PlugEnd
  dest : PlugEnd
  trailing : List Block

namespace MusicPlug

variable (p : MusicPlug)

def compoundLength : ℕ := 18 + (trailingBytes p.trailing).length

def header : InfoBlock := ⟨UInt16.ofNat p.compoundLength, musicPlugType, 14⟩

def announcedBytes : List UInt8 :=
  p.header.bytes ++ ([p.plugType] ++ (word p.plugId ++ ([p.routingSupport] ++
    (p.source.bytes ++ p.dest.bytes))))

def bytes : List UInt8 := p.announcedBytes ++ trailingBytes p.trailing

def Fits : Prop := p.compoundLength < 2 ^ 16

def announced : MusicPlugInfoBlock :=
  ⟨p.header, p.plugType, p.plugId, p.routingSupport, p.source, p.dest, .fresh⟩

def decoded (s : Reader) : MusicPlugInfoBlock :=
  { p.announced with texts := (advance s p.announcedBytes.length).texts p.trailing }

def InStep (s : Reader) : Prop :=
  ∃ b, MusicPlugInfoBlock.fresh.deserialize s = some (b, advance s p.bytes.length) ∧
    b.untexted = p.announced

def Ok (s : Reader) : Prop := (advance s p.announcedBytes.length).TrailingOk p.trailing

variable {p} {s : Reader}

theorem Fits.trailing (h : p.Fits) : ∀ t ∈ p.trailing, t.Fits := by
  apply fits_of_trailing
  rw [Fits, compoundLength] at h
  omega

theorem deserialize_eq (hs : Holds s p.announcedBytes) (hfits : p.Fits) :
    MusicPlugInfoBlock.fresh.deserialize s = (TextBlocks.fresh.deserialize
      (trailingBytes p.trailing).length (advance s p.announcedBytes.length)).map
        (Prod.map (fun texts => { p.announced with texts }) id) := by
  obtain ⟨hheader, hs⟩ := holds_append.mp hs
  obtain ⟨htype, hs⟩ := holds_append.mp hs
  obtain ⟨hid, hs⟩ := holds_append.mp hs
  obtain ⟨hrouting, hs⟩ := holds_append.mp hs
  obtain ⟨hsource, hdest⟩ := holds_append.mp hs
  have hdecodes : Decodes (MusicPlugInfoBlock.fresh.header.deserialize musicPlugType)
      p.header.bytes p.header := decodes_header _ rfl
  have hprimary : ¬ p.header.primaryFieldLength ≠ 14 := not_not.mpr rfl
  have hlength : (p.header.compoundLength.toNat : ℤ) - 18 = (trailingBytes p.trailing).length := by
    rw [header, UInt16.toNat_ofNat_of_lt' hfits, compoundLength]
    omega
  rw [MusicPlugInfoBlock.deserialize, hdecodes.run_bind hheader, if_neg hprimary,
    (decodes_byte _ _).run_bind htype, (decodes_word _ _).run_bind hid,
    (decodes_byte _ _).run_bind hrouting, (PlugEnd.decodes _ _).run_bind hsource,
    (PlugEnd.decodes _ _).run_bind hdest, hlength]
  simp only [advance_advance, InfoBlock.length_bytes, List.length_singleton, length_word,
    PlugEnd.length_bytes, Nat.reduceAdd]
  exact run_bind_pure _ _

theorem deserialize_of_ok (p : MusicPlug) (hs : Holds s p.bytes) (hfits : p.Fits) (hok : p.Ok s) :
    MusicPlugInfoBlock.fresh.deserialize s = some (p.decoded s, advance s p.bytes.length) := by
  obtain ⟨hannounced, htrailing⟩ := holds_append.mp hs
  rw [bytes, List.length_append]
  exact run_of_trailingOk (deserialize_eq hannounced hfits) htrailing hfits.trailing hok

theorem inStep_iff (p : MusicPlug) (hs : Holds s p.bytes) (hfits : p.Fits) :
    p.InStep s ↔ p.Ok s := by
  obtain ⟨hannounced, htrailing⟩ := holds_append.mp hs
  rw [InStep, bytes, List.length_append]
  exact exists_run_iff (fun _ => rfl) (deserialize_eq hannounced hfits) htrailing hfits.trailing

end MusicPlug

structure RoutingStatus where
  destPlugs : List SubunitPlug
  sourcePlugs : List SubunitPlug
  musicPlugs : List MusicPlug
  trailing : List Block

namespace RoutingStatus

variable (r : RoutingStatus)

def plugBytes : List UInt8 :=
  r.destPlugs.flatMap SubunitPlug.bytes ++ (r.sourcePlugs.flatMap SubunitPlug.bytes ++
    r.musicPlugs.flatMap MusicPlug.bytes)

def compoundLength : ℕ := 8 + r.plugBytes.length + (trailingBytes r.trailing).length

def header : InfoBlock := ⟨UInt16.ofNat r.compoundLength, routingStatusType, 4⟩

def fieldBytes : List UInt8 :=
  r.header.bytes ++ ([UInt8.ofNat r.destPlugs.length] ++ ([UInt8.ofNat r.sourcePlugs.length] ++
    word (UInt16.ofNat r.musicPlugs.length)))

def announcedBytes : List UInt8 := r.fieldBytes ++ r.plugBytes

def bytes : List UInt8 := r.announcedBytes ++ trailingBytes r.trailing

structure Fits : Prop where
  length_lt : r.compoundLength < 2 ^ 16
  destPlugs_lt : r.destPlugs.length < 2 ^ 8
  sourcePlugs_lt : r.sourcePlugs.length < 2 ^ 8
  musicPlugs_lt : r.musicPlugs.length < 2 ^ 16
  destPlugs : ∀ p ∈ r.destPlugs, p.Fits
  sourcePlugs : ∀ p ∈ r.sourcePlugs, p.Fits
  musicPlugs : ∀ p ∈ r.musicPlugs, p.Fits

def sourceOffset : ℕ := 10 + (r.destPlugs.flatMap SubunitPlug.bytes).length

def musicOffset : ℕ := r.sourceOffset + (r.sourcePlugs.flatMap SubunitPlug.bytes).length

structure AllPlugs (P : Reader → SubunitPlug → Prop) (Q : Reader → MusicPlug → Prop) (s : Reader) :
    Prop where
  destPlugs : AllAt SubunitPlug.bytes P (advance s 10) r.destPlugs
  sourcePlugs : AllAt SubunitPlug.bytes P (advance s r.sourceOffset) r.sourcePlugs
  musicPlugs : AllAt MusicPlug.bytes Q (advance s r.musicOffset) r.musicPlugs

/-- The plugs that a parser appends. -/
def decodedInto (b : RoutingStatusInfoBlock) (s : Reader) : RoutingStatusInfoBlock :=
  ⟨r.header, UInt8.ofNat r.destPlugs.length, UInt8.ofNat r.sourcePlugs.length,
    UInt16.ofNat r.musicPlugs.length,
    b.destPlugs ++ mapAt SubunitPlug.bytes (fun s p => p.decoded s) (advance s 10) r.destPlugs,
    b.sourcePlugs ++
      mapAt SubunitPlug.bytes (fun s p => p.decoded s) (advance s r.sourceOffset) r.sourcePlugs,
    b.musicPlugs ++
      mapAt MusicPlug.bytes (fun s p => p.decoded s) (advance s r.musicOffset) r.musicPlugs⟩

variable {r} {s : Reader}

theorem length_fieldBytes : r.fieldBytes.length = 10 := rfl

theorem length_announcedBytes : r.announcedBytes.length =
    r.musicOffset + (r.musicPlugs.flatMap MusicPlug.bytes).length := by
  rw [announcedBytes, plugBytes, List.length_append, List.length_append, List.length_append,
    length_fieldBytes, musicOffset, sourceOffset]
  omega

theorem holds_plugs (hs : Holds s r.announcedBytes) :
    Holds (advance s 10) (r.destPlugs.flatMap SubunitPlug.bytes) ∧
      Holds (advance s r.sourceOffset) (r.sourcePlugs.flatMap SubunitPlug.bytes) ∧
      Holds (advance s r.musicOffset) (r.musicPlugs.flatMap MusicPlug.bytes) := by
  obtain ⟨-, hplugs⟩ := holds_append.mp hs
  obtain ⟨hdest, hplugs⟩ := holds_append.mp hplugs
  rw [advance_advance] at hplugs
  obtain ⟨hsource, hmusic⟩ := holds_append.mp hplugs
  rw [advance_advance] at hmusic
  exact ⟨hdest, hsource, hmusic⟩

theorem deserialize_fields (hs : Holds s r.fieldBytes) (hfits : r.Fits)
    (b : RoutingStatusInfoBlock) : b.deserialize s = (do
      let destPlugs ← times r.destPlugs.length SubunitPlugInfoBlock.fresh.deserialize
      let sourcePlugs ← times r.sourcePlugs.length SubunitPlugInfoBlock.fresh.deserialize
      let musicPlugs ← times r.musicPlugs.length MusicPlugInfoBlock.fresh.deserialize
      return (⟨r.header, UInt8.ofNat r.destPlugs.length, UInt8.ofNat r.sourcePlugs.length,
        UInt16.ofNat r.musicPlugs.length, b.destPlugs ++ destPlugs, b.sourcePlugs ++ sourcePlugs,
        b.musicPlugs ++ musicPlugs⟩ : RoutingStatusInfoBlock)) (advance s 10) := by
  obtain ⟨hheader, hs⟩ := holds_append.mp hs
  obtain ⟨hnbDest, hs⟩ := holds_append.mp hs
  obtain ⟨hnbSource, hnbMusic⟩ := holds_append.mp hs
  have hdecodes : Decodes (b.header.deserialize routingStatusType) r.header.bytes r.header :=
    decodes_header _ rfl
  have hprimary : ¬ r.header.primaryFieldLength ≠ 4 := not_not.mpr rfl
  rw [RoutingStatusInfoBlock.deserialize, hdecodes.run_bind hheader, if_neg hprimary,
    (decodes_byte _ _).run_bind hnbDest, (decodes_byte _ _).run_bind hnbSource,
    (decodes_word _ _).run_bind hnbMusic, UInt8.toNat_ofNat_of_lt' hfits.destPlugs_lt,
    UInt8.toNat_ofNat_of_lt' hfits.sourcePlugs_lt, UInt16.toNat_ofNat_of_lt' hfits.musicPlugs_lt]
  simp only [advance_advance, InfoBlock.length_bytes, List.length_singleton, length_word,
    Nat.reduceAdd]

theorem deserialize_of_ok (hs : Holds s r.announcedBytes) (hfits : r.Fits)
    (hok : r.AllPlugs (fun s p => p.Ok s) (fun s p => p.Ok s) s) (b : RoutingStatusInfoBlock) :
    b.deserialize s = some (r.decodedInto b s, advance s r.announcedBytes.length) := by
  obtain ⟨hdest, hsource, hmusic⟩ := holds_plugs hs
  have hdestRun := times_run (hok.destPlugs.imp hdest fun _ p hp hs =>
    p.deserialize_of_ok hs (hfits.destPlugs p hp))
  have hsourceRun := times_run (hok.sourcePlugs.imp hsource fun _ p hp hs =>
    p.deserialize_of_ok hs (hfits.sourcePlugs p hp))
  have hmusicRun := times_run (hok.musicPlugs.imp hmusic fun _ p hp hs =>
    p.deserialize_of_ok hs (hfits.musicPlugs p hp))
  rw [deserialize_fields (holds_append.mp hs).1 hfits, run_bind_of_some hdestRun, advance_advance,
    ← sourceOffset, run_bind_of_some hsourceRun, advance_advance, ← musicOffset,
    run_bind_of_some hmusicRun, advance_advance, length_announcedBytes]
  rfl

theorem allPlugs_inStep_iff (hs : Holds s r.announcedBytes) (hfits : r.Fits) :
    r.AllPlugs (fun s p => p.InStep s) (fun s p => p.InStep s) s ↔
      r.AllPlugs (fun s p => p.Ok s) (fun s p => p.Ok s) s := by
  obtain ⟨hdest, hsource, hmusic⟩ := holds_plugs hs
  have hdestIff := AllAt.congr hdest fun _ p hp hs => p.inStep_iff hs (hfits.destPlugs p hp)
  have hsourceIff := AllAt.congr hsource fun _ p hp hs => p.inStep_iff hs (hfits.sourcePlugs p hp)
  have hmusicIff := AllAt.congr hmusic fun _ p hp hs => p.inStep_iff hs (hfits.musicPlugs p hp)
  constructor
  · intro h
    exact ⟨hdestIff.mp h.destPlugs, hsourceIff.mp h.sourcePlugs, hmusicIff.mp h.musicPlugs⟩
  · intro h
    exact ⟨hdestIff.mpr h.destPlugs, hsourceIff.mpr h.sourcePlugs, hmusicIff.mpr h.musicPlugs⟩

end RoutingStatus

end Wire

end Ffado.Avc
