import Ffado.Dice.Eap

/-!
# Routing by name

The router has names for its sources and destinations. A connection is a route of the current table,
which is kept for each range of sampling rates. A change is made in the table, written to the
device, loaded there by a command, and the tables of all ranges are read back.
-/
namespace Ffado.Dice

open MachineInt

/-- The ranges of sampling rates. The unknown one is the `none` of `Router.currentConfig`. -/
inductive DiceConfig
  | low
  | mid
  | high
  deriving DecidableEq

/-- The place of the table among the current configurations. -/
def DiceConfig.routerOffset : DiceConfig → UInt32
  | .low => 0x0000
  | .mid => 0x2000
  | .high => 0x4000

namespace RouterConfig

def createRoute (src dest : UInt8) (routes : List Route) : List Route := routes ++ [(dest, src)]

/-- The loop leaves at the first route to the destination. -/
def setupRoute (src dest : UInt8) : List Route → List Route
  | [] => createRoute src dest []
  | route :: routes =>
    if route.1 = dest then (route.1, src) :: routes else route :: setupRoute src dest routes

def muteRoute (smuteId dest : UInt8) : List Route → Bool × List Route
  | [] => (false, [])
  | route :: routes =>
    if route.1 = dest then (true, (route.1, smuteId) :: routes)
    else
      let (found, routes) := muteRoute smuteId dest routes
      (found, route :: routes)

def getSourceForDestination (dest : UInt8) : List Route → UInt8
  | [] => 255
  | route :: routes => if route.1 = dest then route.2 else getSourceForDestination dest routes

end RouterConfig

/-- The registers of the device when it is called, what it does on the command, and which of its
answers arrive. If it executes the command, the table that has been written is its current one. -/
structure RouterDevice (eap : Eap) (order : ByteOrder) where
  registers : ℕ → Quadlet
  writeOk : ℕ → ℕ → Bool
  loadRouterConfig : DiceConfig → (ℕ → Quadlet) → (ℕ → Quadlet) × Bool
  readOk : DiceConfig → ℕ → ℕ → Bool
  streamsOk : Bool
  takesOver : ∀ {ok ok' cfg m m' m'' routes routes'},
    RouterConfig.write eap order ok m .rtNewRouting 0 routes = some (m', true) →
    loadRouterConfig cfg m' = (m'', true) →
    RouterConfig.read eap order ok' m'' .rtCurrentCfg cfg.routerOffset = some (routes', true) →
    routes' = routes

namespace RouterDevice

variable {eap : Eap} {order : ByteOrder} (device : RouterDevice eap order)

def readTable (m : ℕ → Quadlet) (cfg : DiceConfig) : Option (List Route × Bool) :=
  RouterConfig.read eap order (device.readOk cfg) m .rtCurrentCfg cfg.routerOffset

/-- The tables are read in their order up to the first one that fails. A table is cleared before it
is read. -/
def readTables (m : ℕ → Quadlet) :
    List DiceConfig → (DiceConfig → List Route) → Option ((DiceConfig → List Route) × Bool)
  | [], tables => some (tables, device.streamsOk)
  | cfg :: cfgs, tables => do
    let (routes, result) ← device.readTable m cfg
    let tables := Function.update tables cfg routes
    if !result then return (tables, false)
    readTables m cfgs tables

def updateConfigurationCache (m : ℕ → Quadlet) (tables : DiceConfig → List Route) :
    Option ((DiceConfig → List Route) × Bool) :=
  device.readTables m [.low, .mid, .high] tables

/-- The table of `cfg` is uploaded. The tables are read back also if the command has failed. -/
def updateRouterConfig (cfg : DiceConfig) (tables : DiceConfig → List Route) :
    Option ((DiceConfig → List Route) × Bool) := do
  let (m, written) ←
    RouterConfig.write eap order device.writeOk device.registers .rtNewRouting 0 (tables cfg)
  if !written then return (tables, false)
  let (m, loaded) := device.loadRouterConfig cfg m
  let (tables, updated) ← device.updateConfigurationCache m tables
  return (tables, loaded && updated)

end RouterDevice

/-- The ids of names. -/
structure NameTable where
  index : String → Option ℤ
  distinct : ∀ {name name' id}, index name = some id → index name' = some id → name = name'

structure Router where
  sources : NameTable
  destinations : NameTable
  currentConfig : Option DiceConfig
  currentCfgRouting : DiceConfig → List Route

namespace Router

variable {eap : Eap} {order : ByteOrder}

def getSourceIndex (router : Router) (name : String) : ℤ := (router.sources.index name).getD (-1)

def getDestinationIndex (router : Router) (name : String) : ℤ :=
  (router.destinations.index name).getD (-1)

def getSMuteId (router : Router) : UInt8 := UInt8.ofInt (router.getSourceIndex "Mute:00")

/-- The indices become bytes in the table. The result of the update is dropped. -/
def setConnectionStateByIndex (device : RouterDevice eap order) (router : Router) (source dest : ℤ)
    (enable : Bool) : Option (Bool × Router) :=
  match router.currentConfig with
  | none => some (false, router)
  | some cfg => do
    let rcfg := router.currentCfgRouting cfg
    let (ret, rcfg) :=
      if enable then (true, RouterConfig.setupRoute (UInt8.ofInt source) (UInt8.ofInt dest) rcfg)
      else RouterConfig.muteRoute router.getSMuteId (UInt8.ofInt dest) rcfg
    let (tables, _) ←
      device.updateRouterConfig cfg (Function.update router.currentCfgRouting cfg rcfg)
    return (ret, { router with currentCfgRouting := tables })

def getConnectionStateByIndex (router : Router) (source dest : ℤ) : Bool :=
  match router.currentConfig with
  | none => false
  | some cfg =>
    (RouterConfig.getSourceForDestination (UInt8.ofInt dest)
      (router.currentCfgRouting cfg)).toNat = source

def setConnectionState (device : RouterDevice eap order) (router : Router) (src dst : String)
    (enable : Bool) : Option (Bool × Router) :=
  router.setConnectionStateByIndex device (router.getSourceIndex src)
    (router.getDestinationIndex dst) enable

def getConnectionState (router : Router) (src dst : String) : Bool :=
  router.getConnectionStateByIndex (router.getSourceIndex src) (router.getDestinationIndex dst)

end Router

open RouterConfig

theorem getSourceForDestination_setupRoute (src dest dest' : UInt8) (routes : List Route) :
    getSourceForDestination dest' (setupRoute src dest routes) =
      if dest' = dest then src else getSourceForDestination dest' routes := by
  induction routes with
  | nil => simp [setupRoute, createRoute, getSourceForDestination, eq_comm]
  | cons route routes ih =>
    rw [setupRoute]
    split_ifs with hroute hdest hdest
    · simp [getSourceForDestination, hroute, hdest]
    · rw [getSourceForDestination, if_neg, getSourceForDestination, if_neg]
      · exact fun h => hdest (h.symm.trans hroute)
      · exact fun h => hdest (h.symm.trans hroute)
    · rw [getSourceForDestination, if_neg (fun h => hroute (h.trans hdest)), ih, if_pos hdest]
    · rw [getSourceForDestination, getSourceForDestination, ih, if_neg hdest]

theorem toNat_ofInt_eq_iff {i : ℤ} : ((UInt8.ofInt i).toNat : ℤ) = i ↔ 0 ≤ i ∧ i < 256 := by
  rw [UInt8.ofInt, UInt8.toNat_ofNat']
  omega

section Names

variable {eap : Eap} {order : ByteOrder} {device : RouterDevice eap order} {router : Router}
  {cfg : DiceConfig} {src dst : String} {i j : ℤ}

variable {routes : List Route} {m : ℕ → Quadlet}

/-- The names that a table connects, with the byte of the destination: the source is the only one of
`dst`, and the other destinations are as in `routes`. -/
structure Shows (router : Router) (src dst : String) (routes table : List Route) : Prop where
  connected : ∀ s, ((getSourceForDestination (UInt8.ofInt (router.getDestinationIndex dst))
    table).toNat : ℤ) = router.getSourceIndex s ↔ s = src
  others : ∀ d, d ≠ dst → router.destinations.index d ≠ none → ∀ s,
    ((getSourceForDestination (UInt8.ofInt (router.getDestinationIndex d)) table).toNat : ℤ) =
        router.getSourceIndex s ↔
      ((getSourceForDestination (UInt8.ofInt (router.getDestinationIndex d)) routes).toNat : ℤ) =
        router.getSourceIndex s

theorem getSourceIndex_eq (h : router.sources.index src = some i) :
    router.getSourceIndex src = i := by
  rw [Router.getSourceIndex, h, Option.getD_some]

theorem getDestinationIndex_eq (h : router.destinations.index dst = some j) :
    router.getDestinationIndex dst = j := by
  rw [Router.getDestinationIndex, h, Option.getD_some]

/-- Unknown names have an index that is no byte, and known ones have different indices. -/
theorem eq_getSourceIndex_iff (h : router.sources.index src = some i) (hi : 0 ≤ i) (s : String) :
    i = router.getSourceIndex s ↔ s = src := by
  constructor
  · intro heq
    rw [Router.getSourceIndex] at heq
    cases hs : router.sources.index s with
    | none =>
      rw [hs, Option.getD_none] at heq
      omega
    | some i' =>
      rw [hs, Option.getD_some] at heq
      subst heq
      exact router.sources.distinct hs h
  · rintro rfl
    exact (getSourceIndex_eq h).symm

theorem shows_iff {table : List Route} (hsrc : router.sources.index src = some i)
    (hdst : router.destinations.index dst = some j)
    (htable : ∀ k, getSourceForDestination k table = getSourceForDestination (UInt8.ofInt j) table ∨
      getSourceForDestination k table = getSourceForDestination k routes)
    :
    Shows router src dst routes table ↔
      ((getSourceForDestination (UInt8.ofInt j) table).toNat : ℤ) = i ∧
      ∀ d k, d ≠ dst → router.destinations.index d = some k →
        getSourceForDestination (UInt8.ofInt k) table =
          getSourceForDestination (UInt8.ofInt k) routes := by
  constructor
  · rintro ⟨hconnected, hothers⟩
    rw [getDestinationIndex_eq hdst] at hconnected
    have hsource := (hconnected src).mpr rfl
    rw [getSourceIndex_eq hsrc] at hsource
    refine ⟨hsource, fun d k hne hd => ?_⟩
    rcases htable (UInt8.ofInt k) with hsame | hkept
    · have hbefore := (hothers d hne (by simp [hd]) src).mp
      rw [getDestinationIndex_eq hd, getSourceIndex_eq hsrc, hsame, hsource] at hbefore
      apply UInt8.toNat.inj
      rw [hsame]
      exact Int.ofNat.inj (hsource.trans (hbefore rfl).symm)
    · exact hkept
  · rintro ⟨hsource, hothers⟩
    constructor
    · intro s
      rw [getDestinationIndex_eq hdst, hsource]
      exact eq_getSourceIndex_iff hsrc (by omega) s
    · intro d hne hd s
      obtain ⟨k, hk⟩ := Option.ne_none_iff_exists'.mp hd
      rw [getDestinationIndex_eq hk, hothers d k hne hk]

/-- Whether the table of `cfg` comes through: it is cleared if its own read fails, and not read any
more behind another failure. It is undefined what a count beyond all memory does. -/
def comesThrough (read : DiceConfig → Option (List Route × Bool)) (cfg : DiceConfig) :
    List DiceConfig → Option Bool
  | [] => some true
  | c :: cs =>
    match read c with
    | none => none
    | some (_, false) => some (decide (c ≠ cfg))
    | some (_, true) => comesThrough read cfg cs

theorem read_failed {ok : ℕ → ℕ → Bool} {base : RegBase} {offset : UInt32}
    (h : RouterConfig.read eap order ok m base offset = some (routes, false)) :
    routes = [] := by
  obtain ⟨⟨count, result₁⟩, -, h⟩ := Option.bind_eq_some_iff.mp h
  cases result₁ with
  | false =>
    cases h
    rfl
  | true =>
    simp only [Bool.not_true, Bool.false_eq_true, if_false] at h
    split_ifs at h with hmany
    · simp at h
    · obtain ⟨⟨tmpEntries, result₂⟩, -, h⟩ := Option.bind_eq_some_iff.mp h
      cases result₂ with
      | false =>
        cases h
        rfl
      | true => cases h

/-- The tables are read back just if everything up to the first failure is defined, and the table
of `cfg` is then the one that was uploaded, or empty. -/
theorem readTables_spec (device : RouterDevice eap order)
    (hread : ∀ routes', device.readTable m cfg = some (routes', true) → routes' = routes)
    (cfgs : List DiceConfig) (tables : DiceConfig → List Route) (htable : tables cfg = routes) :
    (device.readTables m cfgs tables).map (fun t => t.1 cfg) =
      (comesThrough (device.readTable m) cfg cfgs).map fun kept => if kept then routes else [] := by
  induction cfgs generalizing tables with
  | nil => simp [RouterDevice.readTables, comesThrough, htable]
  | cons c cfgs ih =>
    rw [RouterDevice.readTables, comesThrough]
    cases hc : device.readTable m c with
    | none => rfl
    | some answer =>
      obtain ⟨routes', result⟩ := answer
      cases result with
      | false =>
        obtain rfl := read_failed hc
        by_cases heq : c = cfg
        · subst heq
          simp
        · simp [heq, Function.update_of_ne (Ne.symm heq), htable]
      | true =>
        apply ih
        by_cases heq : c = cfg
        · subst heq
          rw [Function.update_self, hread routes' hc]
        · rw [Function.update_of_ne (Ne.symm heq), htable]

def Router.newTable (router : Router) (cfg : DiceConfig) (src dst : String) : List Route :=
  setupRoute (UInt8.ofInt (router.getSourceIndex src))
    (UInt8.ofInt (router.getDestinationIndex dst)) (router.currentCfgRouting cfg)

/-- The device has got the table, and has made it the current one on the command. -/
structure RouterDevice.Accepts (device : RouterDevice eap order) (cfg : DiceConfig)
    (routes : List Route) (m m' : ℕ → Quadlet) : Prop where
  written : RouterConfig.write eap order device.writeOk device.registers .rtNewRouting 0 routes =
    some (m, true)
  loaded : device.loadRouterConfig cfg m = (m', true)

/-- `setConnectionState` with `enable`, by names: it succeeds only with known names and the consent
of the device, and then the connection of the destination is the new one and all others are kept. -/
def ConnectsByName (device : RouterDevice eap order) (router : Router) (src dst : String) : Prop :=
  ∃ result router', router.setConnectionState device src dst true = some (result, router') ∧
    (result = true →
      router.sources.index src ≠ none ∧ router.destinations.index dst ≠ none ∧
      (∃ cfg m m', router.currentConfig = some cfg ∧
        device.Accepts cfg (router.newTable cfg src dst) m m') ∧
      (∀ s, router'.getConnectionState s dst = true ↔ s = src) ∧
      ∀ d, d ≠ dst → router.destinations.index d ≠ none → ∀ s,
        router'.getConnectionState s d = true ↔ router.getConnectionState s d = true) ∧
    (router.sources.index src = none ∨ router.destinations.index dst = none →
      result = false ∧ router'.currentCfgRouting = router.currentCfgRouting)

/-- No other destination has the byte of `dst`, unless the new route is the old one. -/
def Router.Unshared (router : Router) (dst : String) (i j : ℤ) (routes : List Route) : Prop :=
  ∀ d k, d ≠ dst → router.destinations.index d = some k → UInt8.ofInt k = UInt8.ofInt j →
    UInt8.ofInt i = getSourceForDestination (UInt8.ofInt j) routes

def Router.Unrouted (router : Router) (dst : String) (routes : List Route) : Prop :=
  ∀ d k, d ≠ dst → router.destinations.index d = some k →
    255 = getSourceForDestination (UInt8.ofInt k) routes

theorem shows_setupRoute_iff (hsrc : router.sources.index src = some i)
    (hdst : router.destinations.index dst = some j) :
    Shows router src dst routes (setupRoute (UInt8.ofInt i) (UInt8.ofInt j) routes) ↔
      (0 ≤ i ∧ i < 256) ∧ router.Unshared dst i j routes := by
  rw [shows_iff hsrc hdst]
  · simp only [getSourceForDestination_setupRoute, if_true, toNat_ofInt_eq_iff]
    refine and_congr_right fun _ => forall₄_congr fun d k _ _ => ?_
    by_cases heq : UInt8.ofInt k = UInt8.ofInt j
    · simp [heq]
    · simp [heq]
  · intro k
    simp only [getSourceForDestination_setupRoute, if_true]
    split_ifs
    · exact .inl rfl
    · exact .inr rfl

theorem shows_nil_iff (hsrc : router.sources.index src = some i)
    (hdst : router.destinations.index dst = some j) :
    Shows router src dst routes [] ↔ i = 255 ∧ router.Unrouted dst routes := by
  rw [shows_iff hsrc hdst fun _ => .inl rfl]
  exact and_congr_left fun _ => eq_comm

theorem getConnectionState_iff (hcfg : router.currentConfig = some cfg) (s d : String) :
    router.getConnectionState s d = true ↔
      ((getSourceForDestination (UInt8.ofInt (router.getDestinationIndex d))
        (router.currentCfgRouting cfg)).toNat : ℤ) = router.getSourceIndex s := by
  simp [Router.getConnectionState, Router.getConnectionStateByIndex, hcfg]

theorem shows_iff_getConnectionState (src dst : String) (hcfg : router.currentConfig = some cfg)
    (tables : DiceConfig → List Route) :
    Shows router src dst (router.currentCfgRouting cfg) (tables cfg) ↔
      (∀ s, { router with currentCfgRouting := tables }.getConnectionState s dst = true ↔
        s = src) ∧
      ∀ d, d ≠ dst → router.destinations.index d ≠ none → ∀ s,
        { router with currentCfgRouting := tables }.getConnectionState s d = true ↔
          router.getConnectionState s d = true := by
  have hcfg' : { router with currentCfgRouting := tables }.currentConfig = some cfg := hcfg
  simp only [getConnectionState_iff hcfg', getConnectionState_iff hcfg]
  constructor
  · rintro ⟨hconnected, hothers⟩
    exact ⟨hconnected, hothers⟩
  · rintro ⟨hconnected, hothers⟩
    exact ⟨hconnected, hothers⟩

theorem setConnectionState_eq (hcfg : router.currentConfig = some cfg) :
    router.setConnectionState device src dst true =
      (device.updateRouterConfig cfg
        (Function.update router.currentCfgRouting cfg (router.newTable cfg src dst))).map
          fun t => (true, { router with currentCfgRouting := t.1 }) := by
  rw [Router.setConnectionState, Router.setConnectionStateByIndex, hcfg]
  dsimp only
  rw [if_pos rfl, ← Router.newTable]
  cases device.updateRouterConfig cfg
    (Function.update router.currentCfgRouting cfg (router.newTable cfg src dst)) <;> rfl

theorem updateRouterConfig_of_accepts {tables : DiceConfig → List Route} {m' : ℕ → Quadlet}
    (h : device.Accepts cfg (tables cfg) m m') :
    device.updateRouterConfig cfg tables = device.updateConfigurationCache m' tables := by
  rw [RouterDevice.updateRouterConfig, h.written]
  simp only [Option.bind_eq_bind, Option.bind_some, Bool.not_true, Bool.false_eq_true, if_false,
    h.loaded]
  cases device.updateConfigurationCache m' tables <;> rfl

theorem connectsByName_iff_of_accepts {m' : ℕ → Quadlet} (hcfg : router.currentConfig = some cfg)
    (hsrc : router.sources.index src = some i) (hdst : router.destinations.index dst = some j)
    (haccepts : device.Accepts cfg (router.newTable cfg src dst) m m') :
    ConnectsByName device router src dst ↔
      ∃ kept, comesThrough (device.readTable m') cfg [.low, .mid, .high] = some kept ∧
        Shows router src dst (router.currentCfgRouting cfg)
          (if kept then router.newTable cfg src dst else []) := by
  have hself := Function.update_self cfg (router.newTable cfg src dst) router.currentCfgRouting
  have hspec := readTables_spec device (m := m')
    (fun _ => device.takesOver haccepts.written haccepts.loaded) [.low, .mid, .high] _ hself
  rw [ConnectsByName, setConnectionState_eq hcfg,
    updateRouterConfig_of_accepts (by rw [hself]; exact haccepts),
    RouterDevice.updateConfigurationCache]
  cases hread : device.readTables m' [.low, .mid, .high]
      (Function.update router.currentCfgRouting cfg (router.newTable cfg src dst)) with
  | none =>
    rw [hread, Option.map_none, eq_comm, Option.map_eq_none_iff] at hspec
    simp [hspec]
  | some answer =>
    obtain ⟨tables, updated⟩ := answer
    rw [hread, Option.map_some, eq_comm, Option.map_eq_some_iff] at hspec
    obtain ⟨kept, hkept, htable⟩ := hspec
    have hshows := shows_iff_getConnectionState src dst hcfg tables
    constructor
    · rintro ⟨result, router', hset, hgood, -⟩
      cases hset
      obtain ⟨-, -, -, hconnections⟩ := hgood rfl
      refine ⟨kept, hkept, ?_⟩
      rw [htable]
      exact hshows.mpr hconnections
    · rintro ⟨kept', hkept', hshown⟩
      obtain rfl := Option.some.inj (hkept.symm.trans hkept')
      rw [htable] at hshown
      refine ⟨true, _, rfl, fun _ => ?_, fun hunknown => ?_⟩
      · exact ⟨by simp [hsrc], by simp [hdst], ⟨cfg, m, m', hcfg, haccepts⟩,
          hshows.mp hshown⟩
      · rcases hunknown with hnone | hnone
        · rw [hsrc] at hnone
          cases hnone
        · rw [hdst] at hnone
          cases hnone

/-- With a known sampling rate the call returns true, whatever the device does. -/
theorem ConnectsByName.accepted (h : ConnectsByName device router src dst)
    (hcfg : router.currentConfig = some cfg) :
    router.sources.index src ≠ none ∧ router.destinations.index dst ≠ none ∧
      ∃ m m', device.Accepts cfg (router.newTable cfg src dst) m m' := by
  obtain ⟨result, router', hset, hgood, -⟩ := h
  rw [setConnectionState_eq hcfg] at hset
  obtain ⟨_, _, hreturn⟩ := Option.map_eq_some_iff.mp hset
  obtain ⟨hsrc, hdst, ⟨cfg', m, m', hcfg', haccepts⟩, -⟩ := hgood (congrArg Prod.fst hreturn).symm
  obtain rfl := Option.some.inj (hcfg.symm.trans hcfg')
  exact ⟨hsrc, hdst, m, m', haccepts⟩

/-- What a connection by name needs. Without a known sampling rate nothing is done. Otherwise both
names are known, the device accepts the table and it is read back; if it comes through, the id of
the source is a byte and no other destination has the byte of this one, and if it is lost, the lost
routes have all been 255, as the new one. -/
def Connectable (device : RouterDevice eap order) (router : Router) (src dst : String) : Prop :=
  router.currentConfig = none ∨ ∃ cfg i j m m', router.currentConfig = some cfg ∧
    router.sources.index src = some i ∧ router.destinations.index dst = some j ∧
    device.Accepts cfg (router.newTable cfg src dst) m m' ∧
    ∃ kept, comesThrough (device.readTable m') cfg [.low, .mid, .high] = some kept ∧
      if kept then (0 ≤ i ∧ i < 256) ∧ router.Unshared dst i j (router.currentCfgRouting cfg)
      else i = 255 ∧ router.Unrouted dst (router.currentCfgRouting cfg)

theorem connectsByName_iff (device : RouterDevice eap order) (router : Router) (src dst : String) :
    ConnectsByName device router src dst ↔ Connectable device router src dst := by
  have hshows : ∀ {cfg i j} (kept : Bool), router.sources.index src = some i →
      router.destinations.index dst = some j →
      (Shows router src dst (router.currentCfgRouting cfg)
          (if kept then router.newTable cfg src dst else []) ↔
        if kept then (0 ≤ i ∧ i < 256) ∧ router.Unshared dst i j (router.currentCfgRouting cfg)
        else i = 255 ∧ router.Unrouted dst (router.currentCfgRouting cfg)) := by
    intro cfg i j kept hsrc hdst
    cases kept with
    | false => exact shows_nil_iff hsrc hdst
    | true =>
      rw [if_pos rfl, if_pos rfl, Router.newTable, getSourceIndex_eq hsrc,
        getDestinationIndex_eq hdst]
      exact shows_setupRoute_iff hsrc hdst
  constructor
  · intro h
    cases hcfg : router.currentConfig with
    | none => exact .inl hcfg
    | some cfg =>
      right
      obtain ⟨hknown, hknown', m, m', haccepts⟩ := h.accepted hcfg
      obtain ⟨i, hsrc⟩ := Option.ne_none_iff_exists'.mp hknown
      obtain ⟨j, hdst⟩ := Option.ne_none_iff_exists'.mp hknown'
      obtain ⟨kept, hkept, hshown⟩ :=
        (connectsByName_iff_of_accepts hcfg hsrc hdst haccepts).mp h
      exact ⟨cfg, i, j, m, m', hcfg, hsrc, hdst, haccepts, kept, hkept,
        (hshows kept hsrc hdst).mp hshown⟩
  · rintro (hnone | ⟨cfg, i, j, m, m', hcfg, hsrc, hdst, haccepts, kept, hkept, hcondition⟩)
    · refine ⟨false, router, ?_, fun h => (Bool.false_ne_true h).elim, fun _ => ⟨rfl, rfl⟩⟩
      rw [Router.setConnectionState, Router.setConnectionStateByIndex, hnone]
    · exact (connectsByName_iff_of_accepts hcfg hsrc hdst haccepts).mpr
        ⟨kept, hkept, (hshows kept hsrc hdst).mpr hcondition⟩

end Names

/-- One source and one destination. -/
def oneName (name : String) (id : ℤ) : NameTable where
  index := fun n => if n = name then some id else none
  distinct := by
    intro n n' i h h'
    split_ifs at h with hn
    split_ifs at h' with hn'
    exact hn.trans hn'.symm

def smallRouter : Router := ⟨oneName "Mic" 0x40, oneName "Line" 0xb0, some .low, fun _ => []⟩

/-- The table that is loaded for the low rates is the one that is written. -/
def loopEap : Eap := { smallEap with currCfg := smallEap.newRouting }

theorem length_le_of_write {eap : Eap} {order : ByteOrder} {ok : ℕ → ℕ → Bool} {m m' : ℕ → Quadlet}
    {base : RegBase} {offset : UInt32} {routes : List Route} {result : Bool}
    (h : RouterConfig.write eap order ok m base offset routes = some (m', result)) :
    routes.length ≤ 128 := by
  simp only [RouterConfig.write] at h
  split_ifs at h
  all_goals omega

def loopDevice (loads : Bool) : RouterDevice loopEap .littleEndian where
  registers := fun _ => 0
  writeOk := fun _ _ => true
  loadRouterConfig := fun cfg m => (m, loads && decide (cfg = .low))
  readOk := fun _ _ _ => true
  streamsOk := true
  takesOver := by
    intro ok ok' cfg m m' m'' routes routes' hwrite hload hread
    obtain ⟨rfl, hlow⟩ := Prod.mk.inj hload
    obtain rfl : cfg = .low := by simpa using (Bool.and_eq_true_iff.mp hlow).2
    exact kept_of_le (by decide) (length_le_of_write hwrite) hwrite hread

theorem microphone_connected :
    ConnectsByName (loopDevice true) smallRouter "Mic" "Line" := by
  obtain ⟨hkept, hwritten⟩ :
      (RouterConfig.write loopEap .littleEndian (fun _ _ => true) (fun _ => 0) .rtNewRouting 0
          (smallRouter.newTable .low "Mic" "Line")).bind (fun answer =>
        comesThrough ((loopDevice true).readTable answer.1) .low [.low, .mid, .high]) = some true ∧
      (RouterConfig.write loopEap .littleEndian (fun _ _ => true) (fun _ => 0) .rtNewRouting 0
        (smallRouter.newTable .low "Mic" "Line")).map Prod.snd = some true := by
    decide +kernel
  obtain ⟨⟨m, result⟩, hwrite, rfl⟩ := Option.map_eq_some_iff.mp hwritten
  rw [hwrite, Option.bind_some] at hkept
  refine (connectsByName_iff _ _ _ _).mpr (.inr ⟨.low, 0x40, 0xb0, m, m, rfl, by decide, by decide,
    ⟨hwrite, rfl⟩, true, hkept, by decide, ?_⟩)
  intro d k hne hd
  exact absurd hd (by simp [smallRouter, oneName, hne])

/-- The call returns true although the device has refused the table, and although the source is
unknown. -/
theorem connections_fail :
    ¬ ConnectsByName (loopDevice false) smallRouter "Mic" "Line" ∧
      ¬ ConnectsByName (loopDevice true) smallRouter "Tape" "Line" := by
  constructor
  · intro h
    obtain ⟨-, -, m, m', haccepts⟩ := h.accepted rfl
    cases haccepts.loaded
  · intro h
    exact (h.accepted rfl).1 (by decide)

end Ffado.Dice
