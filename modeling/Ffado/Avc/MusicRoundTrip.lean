import Ffado.Avc.MusicWire
import Ffado.Avc.TextRoundTrip

/-!
# The routing status written and read back

A tree whose lengths and counts agree with its contents is written as the wire format describes.
Everything but the texts is read back; a text is read back if a zero byte follows it.
-/
namespace Ffado.Avc

open CircularMemory Cmd Decoding Decoding.Cursor Deserializer MachineInt Wire

variable (order : ByteOrder) {s : Reader}

theorem SignalInfo.emits (x : SignalInfo) : Emits (x.serialize order) x.bytes :=
  (emits_word order x.musicPlugId).comp ((emits_byte order x.streamPosition).comp
    (emits_byte order x.streamLocation))

namespace ClusterInfoBlock

variable (b : ClusterInfoBlock)

def toWire : Wire.Cluster :=
  ⟨b.header.primaryFieldLength, b.streamFormat, b.portType, b.signalInfos, b.texts.trailing⟩

/-- Lengths and counts are those of the contents, and they fit into their fields. -/
structure Consistent : Prop where
  fits : b.toWire.Fits
  header : b.header = b.toWire.header
  nbSignals : b.nbSignals.toNat = b.signalInfos.length
  texts : b.texts.Consistent

/-- A reader in front of the cluster finds its text. -/
def Kept (s : Reader) : Prop := b.texts.Kept (advance s b.toWire.announcedBytes.length)

variable {b}

theorem Consistent.emits (h : b.Consistent) (hname : b.texts.NameNonempty) :
    Emits (b.serialize order) b.toWire.bytes := by
  have htype : b.header.infoBlockType = clusterType := by rw [h.header]; rfl
  have hsignals : Emits (fun w => b.signalInfos.foldl (fun w x => x.serialize order w) w)
      (b.signalInfos.flatMap SignalInfo.bytes) := Emits.foldl fun x _ => x.emits order
  have hall := (emits_header order htype).comp ((emits_byte order b.streamFormat).comp
    ((emits_byte order b.portType).comp ((emits_byte order b.nbSignals).comp
      (hsignals.comp (h.texts.emits order hname)))))
  simp only [Cluster.bytes, Cluster.announcedBytes, List.append_assoc, ← h.header]
  simp only [toWire, ← h.nbSignals, UInt8.ofNat_toNat]
  intro w hroom
  rw [serialize, if_neg (not_not.mpr h.nbSignals.symm)]
  exact hall w hroom

theorem Consistent.ok_of_isSome (h : b.Consistent) (hs : Holds s b.toWire.bytes)
    (hsome : (fresh.deserialize s).isSome) : b.toWire.Ok s := by
  obtain ⟨hannounced, htrailing⟩ := holds_append.mp hs
  rw [Cluster.deserialize_eq hannounced h.fits, Option.isSome_map] at hsome
  exact h.texts.trailingOk_of_isSome htrailing hsome

theorem Consistent.decoded_eq_iff (h : b.Consistent) : b.toWire.decoded s = b ↔
    (advance s b.toWire.announcedBytes.length).texts b.texts.trailing = b.texts := by
  rw [Cluster.decoded, Cluster.announced, ← h.header]
  simp only [toWire, ← h.nbSignals, UInt8.ofNat_toNat]
  cases b
  simp

theorem Consistent.kept_iff (h : b.Consistent) (hs : Holds s b.toWire.bytes) :
    b.toWire.Ok s ∧ b.toWire.decoded s = b ↔ b.Kept s := by
  rw [h.decoded_eq_iff]
  exact h.texts.kept_iff (holds_append.mp hs).2

end ClusterInfoBlock

namespace SubunitPlugInfoBlock

variable (b : SubunitPlugInfoBlock)

def toWire : Wire.SubunitPlug :=
  ⟨b.subunitPlugId, b.signalFormat, b.plugType, b.nbChannels,
    b.clusters.map ClusterInfoBlock.toWire, b.texts.trailing⟩

structure Consistent : Prop where
  fits : b.toWire.Fits
  header : b.header = b.toWire.header
  nbClusters : b.nbClusters.toNat = b.clusters.length
  clusters : ∀ c ∈ b.clusters, c.Consistent
  texts : b.texts.Consistent

structure NamesNonempty : Prop where
  clusters : ∀ c ∈ b.clusters, c.texts.NameNonempty
  texts : b.texts.NameNonempty

structure Kept (s : Reader) : Prop where
  clusters : AllAt (fun c => c.toWire.bytes) (fun s c => c.Kept s) (advance s 14) b.clusters
  texts : b.texts.Kept (advance s b.toWire.announcedBytes.length)

variable {b}

theorem Consistent.emits (h : b.Consistent) (hnames : b.NamesNonempty) :
    Emits (b.serialize order) b.toWire.bytes := by
  have htype : b.header.infoBlockType = subunitPlugType := by rw [h.header]; rfl
  have hclusters := Emits.foldl fun c hc => (h.clusters c hc).emits order (hnames.clusters c hc)
  have hall := (emits_header order htype).comp ((emits_byte order b.subunitPlugId).comp
    ((emits_word order b.signalFormat).comp ((emits_byte order b.plugType).comp
      ((emits_word order b.nbClusters).comp ((emits_word order b.nbChannels).comp
        (hclusters.comp (h.texts.emits order hnames.texts)))))))
  simp only [SubunitPlug.bytes, SubunitPlug.announcedBytes, SubunitPlug.fieldBytes,
    List.append_assoc, ← h.header]
  simp only [toWire, List.flatMap_map, List.length_map, ← h.nbClusters, UInt16.ofNat_toNat]
  intro w hroom
  rw [serialize, if_neg (not_not.mpr h.nbClusters.symm)]
  exact hall w hroom

theorem Consistent.ok_of_isSome (h : b.Consistent) (hs : Holds s b.toWire.bytes)
    (hsome : (fresh.deserialize s).isSome) : b.toWire.Ok s := by
  obtain ⟨hannounced, htrailing⟩ := holds_append.mp hs
  obtain ⟨hfields, hclusters⟩ := holds_append.mp hannounced
  have hread := hsome
  rw [SubunitPlug.deserialize_fields hfields h.fits] at hread
  obtain ⟨hok, -⟩ := allAt_map_of_times (P := fun s c => c.Ok s)
    (f := fun s c => c.decoded s) hclusters
    (fun s c hc hs => (h.clusters c hc).ok_of_isSome hs)
    (fun s c hc hs => c.toWire.deserialize_of_ok hs (h.clusters c hc).fits) hread
  rw [SubunitPlug.deserialize_eq hannounced h.fits hok, Option.isSome_map] at hsome
  exact ⟨hok, h.texts.trailingOk_of_isSome htrailing hsome⟩

theorem Consistent.decoded_eq_iff (h : b.Consistent) : b.toWire.decoded s = b ↔
    mapAt Cluster.bytes (fun s c => c.decoded s) (advance s 14) b.toWire.clusters = b.clusters ∧
      (advance s b.toWire.announcedBytes.length).texts b.texts.trailing = b.texts := by
  rw [SubunitPlug.decoded, SubunitPlug.announced, ← h.header]
  simp only [toWire, List.length_map, ← h.nbClusters, UInt16.ofNat_toNat]
  cases b
  simp

theorem Consistent.kept_iff (h : b.Consistent) (hs : Holds s b.toWire.bytes) :
    b.toWire.Ok s ∧ b.toWire.decoded s = b ↔ b.Kept s := by
  obtain ⟨hannounced, htrailing⟩ := holds_append.mp hs
  obtain ⟨-, hclusters⟩ := holds_append.mp hannounced
  have hclustersIff := allAt_map_and_mapAt_eq_iff (P := fun s c => c.Ok s)
    (f := fun s c => c.decoded s) (K := fun s c => c.Kept s) hclusters
    fun s c hc hs => (h.clusters c hc).kept_iff hs
  have htextsIff := h.texts.kept_iff htrailing
  rw [h.decoded_eq_iff]
  constructor
  · rintro ⟨hok, hmap, htexts⟩
    exact ⟨hclustersIff.mp ⟨hok.clusters, hmap⟩, htextsIff.mp ⟨hok.trailing, htexts⟩⟩
  · intro hkept
    obtain ⟨hok, hmap⟩ := hclustersIff.mpr hkept.clusters
    obtain ⟨htrailingOk, htexts⟩ := htextsIff.mpr hkept.texts
    exact ⟨⟨hok, htrailingOk⟩, hmap, htexts⟩

end SubunitPlugInfoBlock

theorem PlugEnd.emits (x : PlugEnd) : Emits (x.serialize order) x.bytes :=
  (emits_byte order x.plugFunctionType).comp ((emits_byte order x.plugId).comp
    ((emits_byte order x.plugFunctionBlockId).comp ((emits_byte order x.streamPosition).comp
      (emits_byte order x.streamLocation))))

namespace MusicPlugInfoBlock

variable (b : MusicPlugInfoBlock)

def toWire : Wire.MusicPlug :=
  ⟨b.plugType, b.plugId, b.routingSupport, b.source, b.dest, b.texts.trailing⟩

structure Consistent : Prop where
  fits : b.toWire.Fits
  header : b.header = b.toWire.header
  texts : b.texts.Consistent

def Kept (s : Reader) : Prop := b.texts.Kept (advance s b.toWire.announcedBytes.length)

variable {b}

theorem Consistent.emits (h : b.Consistent) (hname : b.texts.NameNonempty) :
    Emits (b.serialize order) b.toWire.bytes := by
  have htype : b.header.infoBlockType = musicPlugType := by rw [h.header]; rfl
  have hall := (emits_header order htype).comp ((emits_byte order b.plugType).comp
    ((emits_word order b.plugId).comp ((emits_byte order b.routingSupport).comp
      ((b.source.emits order).comp ((b.dest.emits order).comp (h.texts.emits order hname))))))
  simp only [MusicPlug.bytes, MusicPlug.announcedBytes, List.append_assoc, ← h.header]
  exact hall

theorem Consistent.ok_of_isSome (h : b.Consistent) (hs : Holds s b.toWire.bytes)
    (hsome : (fresh.deserialize s).isSome) : b.toWire.Ok s := by
  obtain ⟨hannounced, htrailing⟩ := holds_append.mp hs
  rw [MusicPlug.deserialize_eq hannounced h.fits, Option.isSome_map] at hsome
  exact h.texts.trailingOk_of_isSome htrailing hsome

theorem Consistent.kept_iff (h : b.Consistent) (hs : Holds s b.toWire.bytes) :
    b.toWire.Ok s ∧ b.toWire.decoded s = b ↔ b.Kept s := by
  have heq : b.toWire.decoded s = b ↔
      (advance s b.toWire.announcedBytes.length).texts b.texts.trailing = b.texts := by
    rw [MusicPlug.decoded, MusicPlug.announced, ← h.header]
    cases b
    simp [toWire]
  rw [heq]
  exact h.texts.kept_iff (holds_append.mp hs).2

end MusicPlugInfoBlock

namespace RoutingStatusInfoBlock

variable (b : RoutingStatusInfoBlock)

def toWire : Wire.RoutingStatus :=
  ⟨b.destPlugs.map SubunitPlugInfoBlock.toWire, b.sourcePlugs.map SubunitPlugInfoBlock.toWire,
    b.musicPlugs.map MusicPlugInfoBlock.toWire, []⟩

structure Consistent : Prop where
  fits : b.toWire.Fits
  header : b.header = b.toWire.header
  nbDestPlugs : b.nbDestPlugs.toNat = b.destPlugs.length
  nbSourcePlugs : b.nbSourcePlugs.toNat = b.sourcePlugs.length
  nbMusicPlugs : b.nbMusicPlugs.toNat = b.musicPlugs.length
  destPlugs : ∀ p ∈ b.destPlugs, p.Consistent
  sourcePlugs : ∀ p ∈ b.sourcePlugs, p.Consistent
  musicPlugs : ∀ p ∈ b.musicPlugs, p.Consistent

structure NamesNonempty : Prop where
  destPlugs : ∀ p ∈ b.destPlugs, p.NamesNonempty
  sourcePlugs : ∀ p ∈ b.sourcePlugs, p.NamesNonempty
  musicPlugs : ∀ p ∈ b.musicPlugs, p.texts.NameNonempty

/-- A reader in front of the tree finds its texts. -/
structure Kept (s : Reader) : Prop where
  destPlugs : AllAt (fun p => p.toWire.bytes) (fun s p => p.Kept s) (advance s 10) b.destPlugs
  sourcePlugs : AllAt (fun p => p.toWire.bytes) (fun s p => p.Kept s)
    (advance s b.toWire.sourceOffset) b.sourcePlugs
  musicPlugs : AllAt (fun p => p.toWire.bytes) (fun s p => p.Kept s)
    (advance s b.toWire.musicOffset) b.musicPlugs

variable {b}

theorem Consistent.emits (h : b.Consistent) (hnames : b.NamesNonempty) :
    Emits (b.serialize order) b.toWire.announcedBytes := by
  have htype : b.header.infoBlockType = routingStatusType := by rw [h.header]; rfl
  have hdest := Emits.foldl fun p hp => (h.destPlugs p hp).emits order (hnames.destPlugs p hp)
  have hsource := Emits.foldl fun p hp => (h.sourcePlugs p hp).emits order (hnames.sourcePlugs p hp)
  have hmusic := Emits.foldl fun p hp => (h.musicPlugs p hp).emits order (hnames.musicPlugs p hp)
  have hall := (emits_header order htype).comp ((emits_byte order b.nbDestPlugs).comp
    ((emits_byte order b.nbSourcePlugs).comp ((emits_word order b.nbMusicPlugs).comp
      (hdest.comp (hsource.comp hmusic)))))
  simp only [RoutingStatus.announcedBytes, RoutingStatus.fieldBytes, RoutingStatus.plugBytes,
    List.append_assoc, ← h.header]
  simp only [toWire, List.flatMap_map, List.length_map, ← h.nbDestPlugs, ← h.nbSourcePlugs,
    ← h.nbMusicPlugs, UInt8.ofNat_toNat, UInt16.ofNat_toNat]
  intro w hroom
  rw [serialize, if_neg (not_not.mpr h.nbDestPlugs.symm), if_neg (not_not.mpr h.nbSourcePlugs.symm),
    if_neg (not_not.mpr h.nbMusicPlugs.symm)]
  exact hall w hroom

/-- A parser that returns has been in step with all plugs. -/
theorem Consistent.ok_of_isSome (h : b.Consistent) (hs : Holds s b.toWire.announcedBytes)
    (hsome : (fresh.deserialize s).isSome) :
    b.toWire.AllPlugs (fun s p => p.Ok s) (fun s p => p.Ok s) s := by
  obtain ⟨hdest, hsource, hmusic⟩ := RoutingStatus.holds_plugs hs
  rw [RoutingStatus.deserialize_fields (holds_append.mp hs).1 h.fits] at hsome
  obtain ⟨hdestOk, hsome⟩ := allAt_map_of_times (P := fun s p => p.Ok s)
    (f := fun s p => p.decoded s) hdest
    (fun _ p hp hs => (h.destPlugs p hp).ok_of_isSome hs)
    (fun _ p hp hs => p.toWire.deserialize_of_ok hs (h.destPlugs p hp).fits) hsome
  rw [advance_advance] at hsome
  obtain ⟨hsourceOk, hsome⟩ := allAt_map_of_times (P := fun s p => p.Ok s)
    (f := fun s p => p.decoded s) hsource
    (fun _ p hp hs => (h.sourcePlugs p hp).ok_of_isSome hs)
    (fun _ p hp hs => p.toWire.deserialize_of_ok hs (h.sourcePlugs p hp).fits) hsome
  rw [advance_advance] at hsome
  obtain ⟨hmusicOk, -⟩ := allAt_map_of_times (P := fun s p => p.Ok s)
    (f := fun s p => p.decoded s) hmusic
    (fun _ p hp hs => (h.musicPlugs p hp).ok_of_isSome hs)
    (fun _ p hp hs => p.toWire.deserialize_of_ok hs (h.musicPlugs p hp).fits) hsome
  exact ⟨hdestOk, hsourceOk, hmusicOk⟩

theorem Consistent.decodedInto_eq_iff (h : b.Consistent) : b.toWire.decodedInto fresh s = b ↔
    mapAt SubunitPlug.bytes (fun s p => p.decoded s) (advance s 10) b.toWire.destPlugs =
        b.destPlugs ∧
      mapAt SubunitPlug.bytes (fun s p => p.decoded s) (advance s b.toWire.sourceOffset)
        b.toWire.sourcePlugs = b.sourcePlugs ∧
      mapAt MusicPlug.bytes (fun s p => p.decoded s) (advance s b.toWire.musicOffset)
        b.toWire.musicPlugs = b.musicPlugs := by
  rw [RoutingStatus.decodedInto, ← h.header]
  simp only [fresh, List.nil_append, toWire, List.length_map, ← h.nbDestPlugs, ← h.nbSourcePlugs,
    ← h.nbMusicPlugs, UInt8.ofNat_toNat, UInt16.ofNat_toNat]
  cases b
  simp

theorem Consistent.kept_iff (h : b.Consistent) (hs : Holds s b.toWire.announcedBytes) :
    b.toWire.AllPlugs (fun s p => p.Ok s) (fun s p => p.Ok s) s ∧
      b.toWire.decodedInto fresh s = b ↔ b.Kept s := by
  obtain ⟨hdest, hsource, hmusic⟩ := RoutingStatus.holds_plugs hs
  have hdestIff := allAt_map_and_mapAt_eq_iff (P := fun s p => p.Ok s) (f := fun s p => p.decoded s)
    (K := fun s p => p.Kept s) hdest fun s p hp hs => (h.destPlugs p hp).kept_iff hs
  have hsourceIff := allAt_map_and_mapAt_eq_iff (P := fun s p => p.Ok s)
    (f := fun s p => p.decoded s) (K := fun s p => p.Kept s) hsource
    fun s p hp hs => (h.sourcePlugs p hp).kept_iff hs
  have hmusicIff := allAt_map_and_mapAt_eq_iff (P := fun s p => p.Ok s)
    (f := fun s p => p.decoded s) (K := fun s p => p.Kept s) hmusic fun s p hp hs =>
      (h.musicPlugs p hp).kept_iff hs
  rw [h.decodedInto_eq_iff]
  constructor
  · rintro ⟨hok, hdestMap, hsourceMap, hmusicMap⟩
    exact ⟨hdestIff.mp ⟨hok.destPlugs, hdestMap⟩, hsourceIff.mp ⟨hok.sourcePlugs, hsourceMap⟩,
      hmusicIff.mp ⟨hok.musicPlugs, hmusicMap⟩⟩
  · intro hkept
    obtain ⟨hdestOk, hdestMap⟩ := hdestIff.mpr hkept.destPlugs
    obtain ⟨hsourceOk, hsourceMap⟩ := hsourceIff.mpr hkept.sourcePlugs
    obtain ⟨hmusicOk, hmusicMap⟩ := hmusicIff.mpr hkept.musicPlugs
    exact ⟨⟨hdestOk, hsourceOk, hmusicOk⟩, hdestMap, hsourceMap, hmusicMap⟩

/-- A parser in front of the tree returns it just if its texts are kept. -/
theorem Consistent.deserialize_eq_iff (h : b.Consistent) (hs : Holds s b.toWire.announcedBytes) :
    (∃ s', fresh.deserialize s = some (b, s') ∧ s'.result = true) ↔ b.Kept s := by
  rw [← h.kept_iff hs]
  constructor
  · rintro ⟨s', hread, -⟩
    have hok := h.ok_of_isSome hs (Option.isSome_of_eq_some hread)
    rw [RoutingStatus.deserialize_of_ok hs h.fits hok, Option.some.injEq, Prod.mk.injEq] at hread
    exact ⟨hok, hread.1⟩
  · rintro ⟨hok, heq⟩
    refine ⟨advance s b.toWire.announcedBytes.length, ?_, hs.result⟩
    rw [RoutingStatus.deserialize_of_ok hs h.fits hok, heq]

/-- The tree is written, and a fresh one is read from the bytes that were produced. What the buffer
contained stays behind them, up to its end. -/
def RoundTrips (b : RoutingStatusInfoBlock) (m : ℕ → UInt8) (length : Fin (2 ^ 64)) : Prop :=
  let w := b.serialize order ⟨.create m length, true⟩
  w.result = true ∧
    ∃ s', fresh.deserialize ⟨.create w.se.memory w.se.curPos, length, true⟩ = some (b, s') ∧
      s'.result = true

/-- A reader of a buffer with the wire format of the tree in it. -/
def reader (b : RoutingStatusInfoBlock) (m : ℕ → UInt8) (length : Fin (2 ^ 64)) : Reader :=
  ⟨.create (storeAt m 0 b.toWire.announcedBytes) b.toWire.announcedBytes.length, length, true⟩

theorem holds_reader {m : ℕ → UInt8} {length : Fin (2 ^ 64)}
    (hroom : b.toWire.announcedBytes.length < length) :
    Holds (b.reader m length) b.toWire.announcedBytes := by
  constructor
  · exact contains_storeAt m 0 _
  · have hlength : (b.reader m length).de.length = b.toWire.announcedBytes.length :=
      u64_of_lt (hroom.trans length.isLt)
    rw [hlength]
    exact (Nat.zero_add _).le
  · rfl

/-- A consistent tree whose names are not empty is read back from a large enough buffer just if
every text is followed by a zero byte, and no name stands beside a raw text. -/
theorem roundTrips_iff (m : ℕ → UInt8) (length : Fin (2 ^ 64)) (b : RoutingStatusInfoBlock)
    (h : b.Consistent) (hnames : b.NamesNonempty)
    (hroom : b.toWire.announcedBytes.length < length) :
    b.RoundTrips order m length ↔ b.Kept (b.reader m length) := by
  have hwritten : b.serialize order ⟨.create m length, true⟩ =
      Writer.put ⟨.create m length, true⟩ b.toWire.announcedBytes := by
    apply h.emits order hnames
    simpa [BufferSerialize.create] using hroom
  have hcur : ((BufferSerialize.create m length).put b.toWire.announcedBytes).curPos =
      b.toWire.announcedBytes.length := Nat.zero_add _
  rw [← h.deserialize_eq_iff (holds_reader hroom), RoundTrips, hwritten]
  simp only [Writer.put, hcur, true_and]
  rfl

def labelled : RoutingStatusInfoBlock :=
  ⟨⟨35, routingStatusType, 4⟩, 0, 0, 1, [], [],
    [⟨⟨25, musicPlugType, 14⟩, 0, 1, 0, ⟨0, 0, 0, 0, 0⟩, ⟨0, 0, 0, 0, 0⟩,
      ⟨⟨⟨5, rawTextType, 0⟩, [65]⟩, .fresh⟩⟩]⟩

theorem labelled_consistent : labelled.Consistent where
  fits := ⟨by decide, by decide, by decide, by decide, by simp [labelled, toWire],
    by simp [labelled, toWire], by
      simp only [labelled, toWire, List.map_cons, List.map_nil, List.mem_singleton, forall_eq]
      change _ < _
      decide⟩
  header := by decide
  nbDestPlugs := rfl
  nbSourcePlugs := rfl
  nbMusicPlugs := rfl
  destPlugs := by simp [labelled]
  sourcePlugs := by simp [labelled]
  musicPlugs := by
    simp only [labelled, List.mem_singleton, forall_eq]
    refine ⟨?_, by decide, Or.inr ⟨by decide, ?_, by decide⟩, Or.inl rfl⟩
    · change _ < _
      decide
    · change _ < _
      decide

theorem roundTrips_labelled : labelled.RoundTrips .littleEndian (fun _ => 0) 64 := by
  apply (roundTrips_iff .littleEndian (fun _ => 0) 64 labelled labelled_consistent ?_ ?_).mpr
  · refine ⟨trivial, trivial, ?_, trivial⟩
    change _ ∧ _
    decide +kernel
  · refine ⟨by simp [labelled], by simp [labelled], ?_⟩
    simp [labelled, TextBlocks.NameNonempty]
  · decide +kernel

def crowded : RoutingStatusInfoBlock :=
  ⟨⟨299, routingStatusType, 4⟩, 1, 0, 0,
    [⟨⟨289, subunitPlugType, 8⟩, 0, 0, 0, 2, 0,
      [⟨⟨14, clusterType, 0⟩, 0, 0, 0, [], ⟨⟨⟨5, rawTextType, 0⟩, [65]⟩, .fresh⟩⟩,
        ⟨⟨259, clusterType, 0⟩, 0, 0, 63, List.replicate 63 ⟨0, 0, 0⟩, .fresh⟩], .fresh⟩], [], []⟩

theorem crowded_fits : crowded.toWire.Fits := by
  refine ⟨by decide +kernel, by decide, by decide, by decide, ?_, by simp [crowded, toWire],
    by simp [crowded, toWire]⟩
  simp only [crowded, toWire, List.map_cons, List.map_nil, List.mem_singleton, forall_eq]
  refine ⟨by decide +kernel, by decide, ?_⟩
  simp only [SubunitPlugInfoBlock.toWire, List.map_cons, List.map_nil, List.mem_cons,
    List.not_mem_nil, or_false, forall_eq_or_imp, forall_eq]
  exact ⟨⟨by decide, by decide⟩, by decide +kernel, by decide +kernel⟩

theorem crowded_consistent : crowded.Consistent where
  fits := crowded_fits
  header := by decide +kernel
  nbDestPlugs := rfl
  nbSourcePlugs := rfl
  nbMusicPlugs := rfl
  destPlugs := by
    simp only [crowded, List.mem_singleton, forall_eq]
    refine ⟨crowded_fits.destPlugs _ List.mem_cons_self, by decide +kernel, rfl, ?_,
      Or.inl rfl, Or.inl rfl⟩
    simp only [List.mem_cons, List.not_mem_nil, or_false, forall_eq_or_imp, forall_eq]
    exact ⟨⟨⟨by decide, by decide⟩, by decide, rfl, Or.inr ⟨by decide, by
      change _ < _
      decide, by decide⟩, Or.inl rfl⟩, ⟨by decide +kernel, by decide +kernel⟩,
        by decide +kernel, rfl, Or.inl rfl, Or.inl rfl⟩
  sourcePlugs := by simp [crowded]
  musicPlugs := by simp [crowded]

/-- The text goes on with the length and the type of the next cluster. -/
theorem text_runs_into_next_cluster :
    crowded.Consistent ∧ crowded.NamesNonempty ∧
    let w := crowded.serialize .littleEndian ⟨.create (fun _ => 0) 1024, true⟩
    w.result = true ∧ (fresh.deserialize ⟨.create w.se.memory w.se.curPos, 1024, true⟩).map
      (fun (b, s) => (b.destPlugs.map fun p => p.clusters.map fun c =>
        c.texts.rawText.text, s.result)) = some ([[[65, 0x01, 0x03, 0x81, 0x0A], []]], true) := by
  refine ⟨crowded_consistent, ⟨?_, by simp [crowded], by simp [crowded]⟩, by decide +kernel⟩
  simp only [crowded, List.mem_singleton, forall_eq]
  refine ⟨?_, Or.inl rfl⟩
  simp [TextBlocks.NameNonempty, TextBlocks.fresh]

end RoutingStatusInfoBlock

end Ffado.Avc
