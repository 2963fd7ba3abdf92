import Ffado.Avc.PlugCache

/-!
# Plugs that have been written and read back

Each reader is right about what its writer has put below a path. Two paths do not agree: the formats
are written under another name than they are read, and the connections of a plug are written under
its index and read under its global id.
-/
namespace Ffado.Avc.Cache

open PathStore

variable {s : Store} {base path : String} {f : Key → Option Value} {fuel : ℕ}

variable {p : Plug} {m : PlugManager} {name : String}

theorem readChannelInfo_eq {c : ChannelInfo} (h : Holds s path (lookup c.entries)) :
    readChannelInfo s path = some c := by
  simp (disch := decide) [readChannelInfo, readByte, readText, readLongLong, byteValue, h.leaf,
    ChannelInfo.entries]

theorem collect_items {α γ : Type} {entries : γ → List (Key × Value)} {ys : List γ} {key : String}
    {read : String → Option α} (g : γ → α) (h : Holds s base f) (hname : IsStem name)
    (hkey : IsName key)
    (hf : ∀ i k, f (.dir name i k) = ys[i]?.bind fun y => lookup (entries y) k)
    (hexists : ∀ y ∈ ys, (lookup (entries y) (.leaf key)).isSome)
    (hread : ∀ y ∈ ys, ∀ path, Holds s path (lookup (entries y)) → read path = some (g y))
    (hfuel : ys.length < fuel) :
    collect (fun i => some (itemOf (isExisting s (element base name i ++ key))
      (read (element base name i)))) fuel 0 = some (ys.map g, true) := by
  apply collect_numbered g h hname hf _ _ hfuel
  · intro i y hy hholds
    rw [isExisting, hholds.leaf hkey, hexists y hy, hread y hy _ hholds]
    rfl
  · intro i hnone
    rw [isExisting, hnone.leaf hkey]
    rfl

theorem deserializeChannelInfos_eq {cs : List ChannelInfo} (h : Holds s base f)
    (hf : ∀ i k, f (.dir "m_channelInfo" i k) = cs[i]?.bind fun c => lookup c.entries k)
    (hfuel : cs.length < fuel) : deserializeChannelInfos fuel s base = some (cs, true) := by
  have hcollect := collect_items id h (by decide) (by decide : IsName "m_streamPosition") hf
    (by simp [ChannelInfo.entries]) (fun c _ path => readChannelInfo_eq) hfuel
  rwa [List.map_id] at hcollect

theorem readClusterInfo_eq {c : ClusterInfo} (h : Holds s path (lookup c.entries)) :
    readClusterInfo s path (c.channelInfos, true) = some c := by
  simp (disch := decide) [readClusterInfo, readByte, readInt, readText, readLongLong, byteValue,
    intValue, h.leaf, ClusterInfo.entries]

theorem deserializeClusterInfos_eq {cs : List ClusterInfo} (h : Holds s base f)
    (hf : ∀ i k, f (.dir "m_clusterInfos" i k) = cs[i]?.bind fun c => lookup c.entries k)
    (hfuel : cs.length < fuel) (hchannels : ∀ c ∈ cs, c.channelInfos.length < fuel) :
    deserializeClusterInfos fuel s base = some (cs, true) := by
  rw [deserializeClusterInfos, collect_numbered id h (by decide) hf _ _ hfuel, List.map_id]
  · intro i c hmem hc
    have hinfos := deserializeChannelInfos_eq hc (by simp [ClusterInfo.entries]) (hchannels c hmem)
    dsimp only
    rw [isExisting, hc.leaf (by decide), hinfos, Option.map_some, readClusterInfo_eq hc]
    simp [ClusterInfo.entries, itemOf]
  · intro i hnone
    dsimp only
    rw [isExisting, hnone.leaf (by decide)]
    rfl

theorem deserializeFormatInfos_eq_nil (h : Holds s base f) (hname : IsStem name)
    (hf : ∀ i k, f (.dir name i k) = none) (hfuel : 0 < fuel) :
    deserializeFormatInfos fuel s base name = some ([], true) :=
  @collect_items _ _ _ fuel name _ _ FormatInfo.entries [] _ _ id h hname
    (by decide : IsName "m_samplingFrequency") hf nofun nofun hfuel

theorem readGlobalId {g : GlobalId} (h : lookup s path = some g.value) :
    readInt s path = some (BitVec.ofNat 32 g.val) := by
  rw [readInt, readLongLong, h]
  simp [GlobalId.value]

theorem toNat_globalId (g : GlobalId) : (BitVec.ofNat 32 g.val).toNat = g.val := by
  have hlt := g.lt
  rw [BitVec.toNat_ofNat]
  omega

theorem toInt_globalId (g : GlobalId) : (BitVec.ofNat 32 g.val).toInt = g.val := by
  have hlt := g.lt
  rw [BitVec.toInt_eq_toNat_of_lt (by rw [toNat_globalId]; omega), toNat_globalId]

theorem globalIdOf_eq (g : GlobalId) : globalIdOf (BitVec.ofNat 32 g.val) = some g := by
  rw [globalIdOf, dif_pos (by rw [toNat_globalId]; exact g.lt)]
  simp only [toNat_globalId]

/-- What the first pass restores. -/
def Plug.unconnected (p : Plug) : Plug :=
  { p with
    formatInfos := []
    inputConnections := []
    outputConnections := [] }

theorem readPlug_eq (h : Holds s path (lookup p.entries)) :
    readPlug s path (p.clusterInfos, true) ([], true) = some p.unconnected := by
  simp (disch := decide) [readPlug, readEnum, readByte, readInt, readText, readLongLong, byteValue,
    GlobalId.value, h.leaf, Plug.entries, plugVectorEntries, SubunitType.find?_code,
    PlugAddressType.find?_code, PlugDirection.find?_code, PlugType.find?_code, globalIdOf_eq,
    Plug.unconnected]

/-- A number of rounds that is enough for every list of a plug. -/
def Plug.extent (p : Plug) : ℕ :=
  p.clusterInfos.length + (p.clusterInfos.map fun c => c.channelInfos.length).sum +
    p.inputConnections.length + p.outputConnections.length

theorem Plug.deserialize_eq (h : Holds s path (lookup p.entries)) (hfuel : p.extent < fuel) :
    Plug.deserialize fuel s path = some (.found p.unconnected) := by
  rw [Plug.extent] at hfuel
  have hexists : isExisting s (path ++ "m_subunitType") = true := by
    rw [isExisting, h.leaf (by decide)]
    simp [Plug.entries, plugVectorEntries]
  have hclusters := @deserializeClusterInfos_eq s path _ fuel p.clusterInfos h
    (by simp [Plug.entries, plugVectorEntries]) (by omega) (fun c hc => by
      have hle := List.le_sum_of_mem (List.mem_map_of_mem (f := fun c => c.channelInfos.length) hc)
      omega)
  have hformats := @deserializeFormatInfos_eq_nil s path _ fuel "m_formatInfos" h (by decide)
    (by simp [Plug.entries, plugVectorEntries]) (by omega)
  rw [Plug.deserialize, if_pos hexists, hclusters, hformats]
  dsimp only
  rw [readPlug_eq h]
  rfl

theorem Plug.deserialize_absent (h : Holds s path fun _ => none) :
    Plug.deserialize fuel s path = some .absent := by
  rw [Plug.deserialize, isExisting, h.leaf (by decide)]
  rfl

def PlugManager.extent (m : PlugManager) : ℕ := m.plugs.length + (m.plugs.map Plug.extent).sum

theorem PlugManager.extent_of_mem (hp : p ∈ m.plugs) :
    p.extent ≤ m.extent := by
  have hle := List.le_sum_of_mem (List.mem_map_of_mem (f := Plug.extent) hp)
  rw [PlugManager.extent]
  omega

/-- The store has the plugs of the manager below `base`, maybe among other things. -/
structure HoldsPlugs (s : Store) (base : String) (f : Key → Option Value)
    (m : PlugManager) : Prop where
  holds : Holds s base f
  plugs : ∀ i k, f (.dir "Plug" i k) = m.plugs[i]?.bind fun p => lookup p.entries k
  counter : f (.leaf "Plugm_globalIdCounter") = some (intValue m.globalIdCounter)

theorem PlugManager.deserialize_eq (h : HoldsPlugs s base f m) (hfuel : m.extent < fuel) :
    PlugManager.deserialize fuel s base = some ⟨m.plugs.map Plug.unconnected,
      m.globalIdCounter⟩ := by
  have hcounter : readInt s (base ++ "Plugm_globalIdCounter") = some m.globalIdCounter := by
    rw [readInt, readLongLong, h.holds.leaf (by decide), h.counter]
    simp [intValue]
  have hlength : m.plugs.length < fuel := by
    rw [PlugManager.extent] at hfuel
    omega
  rw [PlugManager.deserialize,
    collect_numbered Plug.unconnected h.holds (by decide) h.plugs _ _ hlength, hcounter]
  · rfl
  · intro i p hp hplug
    exact Plug.deserialize_eq hplug ((extent_of_mem hp).trans_lt hfuel)
  · intro i hnone
    exact Plug.deserialize_absent hnone

theorem getPlug_globalId {plugs : List Plug} {g : GlobalId} (h : ∃ q ∈ plugs, q.globalId = g) :
    (getPlug plugs (BitVec.ofNat 32 g.val)).map Plug.globalId = some g := by
  obtain ⟨q, hq, hqg⟩ := h
  rw [getPlug, toInt_globalId]
  cases hfind : plugs.find? fun p => decide ((p.globalId.val : ℤ) = g.val) with
  | none =>
    have hnone := List.find?_eq_none.mp hfind q hq
    rw [hqg] at hnone
    simp at hnone
  | some q' =>
    have hval := List.find?_some hfind
    simp only [decide_eq_true_eq, Nat.cast_inj] at hval
    rw [Option.map_some, Option.some.injEq]
    cases hq' : q'.globalId with
    | mk val lt =>
      cases g with
      | mk val' lt' =>
        rw [hq'] at hval
        subst hval
        rfl

theorem deserializePlugVector_eq {plugs : List Plug} {ids : List GlobalId} (h : Holds s base f)
    (hname : IsStem name) (hf : ∀ i k, f (.dir name i k) = ids[i]?.bind fun g => lookup g.entries k)
    (hids : ∀ g ∈ ids, ∃ q ∈ plugs, q.globalId = g) (hfuel : ids.length < fuel) :
    deserializePlugVector fuel s base name plugs = some (ids, true) := by
  have hcollect := @collect_items _ _ _ fuel name _ _ GlobalId.entries ids "global_id"
    (fun path => ((readInt s (path ++ "global_id")).bind (getPlug plugs)).map Plug.globalId) id h
      hname
    (by decide) hf (by simp [GlobalId.entries]) (fun g hg path hid => by
      have hvalue : lookup s (path ++ "global_id") = some g.value :=
        (hid.leaf (by decide)).trans (by simp [GlobalId.entries])
      rw [readGlobalId hvalue, Option.bind_some, getPlug_globalId (hids g hg), id]) hfuel
  rwa [List.map_id] at hcollect

/-- The connections that stand under a number. -/
def connectionsAt (plugs : List Plug) (n : ℕ) : List GlobalId × List GlobalId :=
  match plugs[n]? with
  | some q => (q.inputConnections, q.outputConnections)
  | none => ([], [])

def Closed (plugs : List Plug) : Prop :=
  ∀ p ∈ plugs, ∀ g ∈ p.inputConnections ++ p.outputConnections, ∃ q ∈ plugs, q.globalId = g

theorem connectionsAt_closed {plugs : List Plug} (h : Closed plugs) (n : ℕ) :
    ∀ g ∈ (connectionsAt plugs n).1 ++ (connectionsAt plugs n).2, ∃ q ∈ plugs, q.globalId = g := by
  rw [connectionsAt]
  cases hn : plugs[n]? with
  | none => simp
  | some q => exact h q (List.mem_of_getElem? hn)

theorem connectionsAt_length (n : ℕ) :
    (connectionsAt m.plugs n).1.length + (connectionsAt m.plugs n).2.length ≤ m.extent := by
  rw [connectionsAt]
  cases hn : m.plugs[n]? with
  | none => exact Nat.zero_le _
  | some q =>
    have hle := PlugManager.extent_of_mem (List.mem_of_getElem? hn)
    rw [Plug.extent] at hle
    dsimp only
    omega

/-- What the second pass makes of a plug. -/
def Plug.reconnected (plugs : List Plug) (p : Plug) : Plug :=
  { p with
    formatInfos := []
    inputConnections := (connectionsAt plugs p.globalId.val).1
    outputConnections := (connectionsAt plugs p.globalId.val).2 }

theorem Plug.deserializeConnections_eq (h : HoldsPlugs s base f m) (hclosed : Closed m.plugs)
    (hfuel : m.extent < fuel) (p : Plug) :
    Plug.deserializeConnections fuel s base (m.plugs.map Plug.unconnected) p.unconnected =
      some (p.reconnected m.plugs) := by
  have hids : ∀ g ∈ (connectionsAt m.plugs p.globalId.val).1 ++
      (connectionsAt m.plugs p.globalId.val).2,
      ∃ q ∈ m.plugs.map Plug.unconnected, q.globalId = g := by
    intro g hg
    obtain ⟨q, hq, hqg⟩ := connectionsAt_closed hclosed _ g hg
    exact ⟨q.unconnected, List.mem_map_of_mem hq, hqg⟩
  have hlength := @connectionsAt_length m p.globalId.val
  have hplug := h.holds.element (by decide : IsStem "Plug") p.globalId.val
  have hinputs := @deserializePlugVector_eq s (element base "Plug" p.globalId.val) _ fuel
    "m_inputConnections" (m.plugs.map Plug.unconnected)
      (connectionsAt m.plugs p.globalId.val).1 hplug
    (by decide) (fun i k => by
      rw [h.plugs, connectionsAt]
      cases m.plugs[p.globalId.val]? with
      | none => rfl
      | some q => simp [Plug.entries, plugVectorEntries])
    (fun g hg => hids g (List.mem_append_left _ hg)) (by omega)
  have houtputs := @deserializePlugVector_eq s (element base "Plug" p.globalId.val) _ fuel
    "m_outputConnections" (m.plugs.map Plug.unconnected)
      (connectionsAt m.plugs p.globalId.val).2 hplug
    (by decide) (fun i k => by
      rw [h.plugs, connectionsAt]
      cases m.plugs[p.globalId.val]? with
      | none => rfl
      | some q => simp [Plug.entries, plugVectorEntries])
    (fun g hg => hids g (List.mem_append_right _ hg)) (by omega)
  rw [Plug.deserializeConnections]
  dsimp only [Plug.unconnected] at hinputs houtputs ⊢
  rw [hinputs, houtputs]
  rfl

theorem mapM_eq_some {α β : Type} {g : α → Option β} {g' : α → β} {xs : List α}
    (h : ∀ x ∈ xs, g x = some (g' x)) : xs.mapM g = some (xs.map g') := by
  induction xs with
  | nil => rfl
  | cons x xs ih =>
    rw [List.forall_mem_cons] at h
    rw [List.mapM_cons, h.1, ih h.2]
    rfl

theorem PlugManager.deserializeUpdate_eq (h : HoldsPlugs s base f m) (hclosed : Closed m.plugs)
    (hfuel : m.extent < fuel) :
    PlugManager.deserializeUpdate fuel s base ⟨m.plugs.map Plug.unconnected, m.globalIdCounter⟩ =
      some ⟨m.plugs.map (Plug.reconnected m.plugs), m.globalIdCounter⟩ := by
  have hmap : (m.plugs.map Plug.unconnected).mapM
      (Plug.deserializeConnections fuel s base (m.plugs.map Plug.unconnected)) =
        some (m.plugs.map (Plug.reconnected m.plugs)) := by
    rw [List.mapM_map]
    exact mapM_eq_some fun p _ => Plug.deserializeConnections_eq h hclosed hfuel p
  rw [PlugManager.deserializeUpdate]
  rw [hmap]
  rfl

/-- Plugs with distinct global ids that are connected among each other. -/
structure PlugGraph where
  manager : PlugManager
  nodup : (manager.plugs.map Plug.globalId).Nodup
  closed : Closed manager.plugs

theorem GlobalId.allWellFormed (g : GlobalId) : AllWellFormed g.entries := by
  simp only [entries, allWellFormed_leaf, allWellFormed_nil]
  decide

theorem plugVector_allWellFormed (hname : IsStem name) (vec : List GlobalId) :
    AllWellFormed (plugVectorEntries name vec) :=
  allWellFormed_numbered hname fun g _ => g.allWellFormed

theorem ChannelInfo.allWellFormed (c : ChannelInfo) : AllWellFormed c.entries := by
  simp only [entries, allWellFormed_leaf, allWellFormed_nil]
  decide

theorem ClusterInfo.allWellFormed (c : ClusterInfo) : AllWellFormed c.entries := by
  simp only [entries, allWellFormed_append, allWellFormed_leaf, allWellFormed_nil,
    allWellFormed_numbered (by decide : IsStem "m_channelInfo") fun i _ =>
    ChannelInfo.allWellFormed i]
  decide

theorem FormatInfo.allWellFormed (f : FormatInfo) : AllWellFormed f.entries := by
  simp only [entries, allWellFormed_leaf, allWellFormed_nil]
  decide

theorem Plug.allWellFormed (p : Plug) : AllWellFormed p.entries := by
  simp only [entries, allWellFormed_append, allWellFormed_leaf, allWellFormed_nil,
    allWellFormed_numbered (by decide : IsStem "m_clusterInfos") fun c _ =>
    ClusterInfo.allWellFormed c, allWellFormed_numbered (by decide : IsStem "m_formatInfo")
      fun f _ => FormatInfo.allWellFormed f,
    plugVector_allWellFormed (by decide : IsStem "m_inputConnections"),
    plugVector_allWellFormed (by decide : IsStem "m_outputConnections")]
  decide

theorem PlugManager.allWellFormed (m : PlugManager) : AllWellFormed m.entries := by
  simp only [entries, allWellFormed_append, allWellFormed_leaf, allWellFormed_nil,
    allWellFormed_numbered (by decide : IsStem "Plug") fun p _ => Plug.allWellFormed p]
  decide

theorem holdsPlugs_serialize (base : String) (m : PlugManager) :
    HoldsPlugs (m.serialize base) base (lookup m.entries) m where
  holds := holds_write m.allWellFormed
  plugs i k := by simp [PlugManager.entries]
  counter := by simp [PlugManager.entries]

/-- The two passes with the paths that the unit uses. -/
def PlugManager.restore (fuel : ℕ) (s : Store) (base : String) : Option PlugManager :=
  (PlugManager.deserialize fuel s base).bind (PlugManager.deserializeUpdate fuel s base)

theorem PlugManager.restore_eq (h : HoldsPlugs s base f m) (hclosed : Closed m.plugs)
    (hfuel : m.extent < fuel) : PlugManager.restore fuel s base =
      some ⟨m.plugs.map (Plug.reconnected m.plugs), m.globalIdCounter⟩ := by
  rw [restore, deserialize_eq h hfuel, Option.bind_some, deserializeUpdate_eq h hclosed hfuel]

theorem Plug.reconnected_eq_self_iff (plugs : List Plug) (p : Plug) :
    p.reconnected plugs = p ↔ p.formatInfos = [] ∧
      connectionsAt plugs p.globalId.val = (p.inputConnections, p.outputConnections) := by
  rw [Prod.ext_iff]
  cases p
  simp [reconnected, eq_comm]

/-- The plugs come back just if none has formats, and the connections of each are those of the plug
whose index is its global id. -/
theorem PlugGraph.restore_iff (g : PlugGraph) (base : String) :
    (∃ bound, ∀ fuel ≥ bound, ∃ m, PlugManager.restore fuel (g.manager.serialize base)
      base = some m ∧ m.plugs = g.manager.plugs) ↔
    ∀ p ∈ g.manager.plugs, p.formatInfos = [] ∧
      connectionsAt g.manager.plugs p.globalId.val = (p.inputConnections, p.outputConnections) := by
  have hrestore : ∀ fuel, g.manager.extent < fuel →
      PlugManager.restore fuel (g.manager.serialize base) base =
        some ⟨g.manager.plugs.map (Plug.reconnected g.manager.plugs), g.manager.globalIdCounter⟩ :=
    fun fuel => PlugManager.restore_eq (holdsPlugs_serialize base g.manager) g.closed
  have hself : g.manager.plugs.map (Plug.reconnected g.manager.plugs) = g.manager.plugs ↔
      ∀ p ∈ g.manager.plugs, p.reconnected g.manager.plugs = p := by
    constructor
    · intro h p hp
      exact List.map_eq_map_iff.mp (h.trans (List.map_id _).symm) p hp
    · intro h
      exact (List.map_congr_left h).trans (List.map_id _)
  simp only [← Plug.reconnected_eq_self_iff]
  rw [← hself]
  constructor
  · rintro ⟨bound, h⟩
    obtain ⟨m, hm, hplugs⟩ := h (max bound (g.manager.extent + 1)) (le_max_left _ _)
    rw [hrestore _ (lt_of_lt_of_le (Nat.lt_succ_self _) (le_max_right _ _)),
      Option.some.injEq] at hm
    exact (congrArg PlugManager.plugs hm).trans hplugs
  · intro h
    exact ⟨g.manager.extent + 1, fun fuel hfuel => ⟨_, hrestore fuel hfuel, h⟩⟩

def Plug.bare (g : GlobalId) : Plug where
  subunitType := .unit
  subunitId := 0xff
  functionBlockType := 0xff
  functionBlockId := 0xff
  addressType := .pcr
  direction := .input
  id := 0
  infoPlugType := .isoStream
  nrOfChannels := 0
  name := "plug"
  clusterInfos := []
  samplingFrequency := 0
  formatInfos := []
  inputConnections := []
  outputConnections := []
  globalId := g

/-- Two plugs in the reverse order of their ids, the first with a format and an input from the
second. -/
def twoPlugs : PlugManager where
  plugs :=
    [{ Plug.bare ⟨1, by decide⟩ with
        formatInfos := [⟨4, false, 2, 0, 0⟩]
        inputConnections := [⟨0, by decide⟩] },
      Plug.bare ⟨0, by decide⟩]
  globalIdCounter := 2

/-- The format is lost, and the connection has gone over to the other plug. -/
theorem format_lost_and_connection_moved :
    (twoPlugs.plugs.map Plug.globalId).Nodup ∧ Closed twoPlugs.plugs ∧
    (PlugManager.restore 4 (twoPlugs.serialize "") "").map
      (fun m => m.plugs.map fun p => (p.globalId.val, p.formatInfos,
        p.inputConnections.map GlobalId.val)) =
      some [(1, [], []), (0, [], [0])] ∧
    twoPlugs.plugs.map (fun p => (p.globalId.val, p.formatInfos.length,
      p.inputConnections.map GlobalId.val)) = [(1, 1, [0]), (0, 0, [])] := by
  have hclosed : Closed twoPlugs.plugs := by
    unfold Closed
    decide
  refine ⟨by decide, hclosed, ?_, rfl⟩
  rw [PlugManager.restore_eq (holdsPlugs_serialize "" twoPlugs) hclosed (by decide)]
  rfl

end Ffado.Avc.Cache
