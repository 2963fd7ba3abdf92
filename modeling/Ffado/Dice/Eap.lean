import Ffado.Dice.Registers

/-!
# Mixer and router of the extended application protocol

The protocol keeps its tables in several spaces of the registers. The mixer stores its matrix of
coefficients as one block. The router stores a count and up to 128 routes behind it.
-/
namespace Ffado.Dice

open CircularMemory MachineInt

inductive RegBase
  | rtBase
  | rtCapability
  | rtCommand
  | rtMixer
  | rtPeak
  | rtNewRouting
  | rtNewStreamCfg
  | rtCurrentCfg
  | rtStandalone
  | rtApplication
  | rtNone
  deriving DecidableEq

structure Space where
  offset : Quadlet
  size : Quadlet

structure Eap where
  capability : Space
  cmd : Space
  mixer : Space
  peak : Space
  newRouting : Space
  newStreamCfg : Space
  currCfg : Space
  standalone : Space
  app : Space
  mixerReadonly : Bool
  mixerNbTx : UInt8
  mixerNbRx : UInt8
  routerNbEntries : UInt16

def eapBase : ℕ := 0x200000

def eapMaxSize : ℕ := 0xF00000

namespace Eap

variable (eap : Eap) (order : ByteOrder)

/-- Address and length of a space. -/
def space : RegBase → Option (ℕ × ℕ)
  | .rtBase => some (0, eapMaxSize)
  | .rtCapability => some (eap.capability.offset.toNat, eap.capability.size.toNat)
  | .rtCommand => some (eap.cmd.offset.toNat, eap.cmd.size.toNat)
  | .rtMixer => some (eap.mixer.offset.toNat, eap.mixer.size.toNat)
  | .rtPeak => some (eap.peak.offset.toNat, eap.peak.size.toNat)
  | .rtNewRouting => some (eap.newRouting.offset.toNat, eap.newRouting.size.toNat)
  | .rtNewStreamCfg => some (eap.newStreamCfg.offset.toNat, eap.newStreamCfg.size.toNat)
  | .rtCurrentCfg => some (eap.currCfg.offset.toNat, eap.currCfg.size.toNat)
  | .rtStandalone => some (eap.standalone.offset.toNat, eap.standalone.size.toNat)
  | .rtApplication => some (eap.app.offset.toNat, eap.app.size.toNat)
  | .rtNone => none

def offsetGen (base : RegBase) (offset : UInt32) (length : ℕ) : ℕ :=
  match eap.space base with
  | none => 0
  | some (addr, maxlen) =>
    -- out-of-range check
    if maxlen < length then invalidOffset else eapBase + addr + offset.toNat

def readRegBlock (ok : ℕ → Bool) (m : ℕ → Quadlet) (base : RegBase) (offset : UInt32)
    (data : ℕ → Quadlet) (length : ℕ) : Option ((ℕ → Quadlet) × Bool) :=
  Dice.readRegBlock order ok m (eap.offsetGen base offset length) data length

def writeRegBlock (ok : ℕ → Bool) (m : ℕ → Quadlet) (base : RegBase) (offset : UInt32)
    (data : ℕ → Quadlet) (length : ℕ) : Option ((ℕ → Quadlet) × Bool) :=
  Dice.writeRegBlock order ok m (eap.offsetGen base offset length) data length

/-- The product is an `int`. -/
def nbCoefficients : ℕ := eap.mixerNbTx.toNat * eap.mixerNbRx.toNat

end Eap

section Tables

variable (eap : Eap) (order : ByteOrder)

/-- The array is `none` before it is initialised. -/
def Mixer.loadCoefficients (ok : ℕ → Bool) (m : ℕ → Quadlet) (coeff : Option (ℕ → Quadlet)) :
    Option (Option (ℕ → Quadlet) × Bool) :=
  match coeff with
  | none => some (none, false)
  | some coeff => do
    let (coeff, result) ← eap.readRegBlock order ok m .rtMixer 4 coeff (eap.nbCoefficients * 4)
    return (some coeff, result)

def Mixer.storeCoefficients (ok : ℕ → Bool) (m : ℕ → Quadlet) (coeff : Option (ℕ → Quadlet)) :
    Option ((ℕ → Quadlet) × Bool) :=
  match coeff with
  | none => some (m, false)
  | some coeff =>
    if eap.mixerReadonly then some (m, false)
    else eap.writeRegBlock order ok m .rtMixer 4 coeff (eap.nbCoefficients * 4)

/-- A destination and its source. -/
abbrev Route := UInt8 × UInt8

def encodeRoute (route : Route) : Quadlet :=
  BitVec.ofNat 32 (((route.2.toNat <<< 8) + route.1.toNat) &&& 0xffff)

def decodeRoute (entry : Quadlet) : Route :=
  (UInt8.ofNat (entry.toNat &&& 0xff), UInt8.ofNat ((entry.toNat >>> 8) &&& 0xff))

@[simp] theorem decodeRoute_encodeRoute (route : Route) :
    decodeRoute (encodeRoute route) = route := by
  obtain ⟨dest, src⟩ := route
  have hdest := dest.toNat_lt
  have hsrc := src.toNat_lt
  have hsum : (encodeRoute (dest, src)).toNat = src.toNat * 256 + dest.toNat := by
    rw [encodeRoute, BitVec.toNat_ofNat, Nat.shiftLeft_eq,
      Nat.and_two_pow_sub_one_eq_mod (src.toNat * 2 ^ 8 + dest.toNat) 16]
    omega
  have hlow : (encodeRoute (dest, src)).toNat &&& 0xff = dest.toNat := by
    rw [hsum, Nat.and_two_pow_sub_one_eq_mod _ 8]
    omega
  have hhigh : ((encodeRoute (dest, src)).toNat >>> 8) &&& 0xff = src.toNat := by
    rw [hsum, Nat.and_two_pow_sub_one_eq_mod _ 8, Nat.shiftRight_eq_div_pow]
    omega
  rw [decodeRoute, hlow, hhigh, UInt8.ofNat_toNat, UInt8.ofNat_toNat]

/-- The entries are filled in from all routes, also from those that have no room. -/
def RouterConfig.write (ok : ℕ → ℕ → Bool) (m : ℕ → Quadlet) (base : RegBase) (offset : UInt32)
    (routes : List Route) : Option ((ℕ → Quadlet) × Bool) :=
  let nbRoutes := u32 routes.length
  let nbRoutes := if 128 < nbRoutes then 128 else nbRoutes
  if nbRoutes < routes.length then none
  else do
    let tmpEntries : ℕ → Quadlet := fun i => encodeRoute (routes.getD i (0, 0))
    let nbRoutesMax := eap.routerNbEntries.toNat
    let (m, result) ← eap.writeRegBlock order (ok 0) m base offset (fun _ => 0)
      ((nbRoutesMax + 1) * 4)
    if !result then return (m, false)
    let (m, result) ← eap.writeRegBlock order (ok 1) m base (offset + 4) tmpEntries (nbRoutes * 4)
    if !result then return (m, false)
    eap.writeRegBlock order (ok 2) m base offset (fun _ => BitVec.ofNat 32 nbRoutes) 4

/-- The number of bytes is computed in 32 bits, so that too large a count leaves entries unread. -/
def RouterConfig.read (ok : ℕ → ℕ → Bool) (m : ℕ → Quadlet) (base : RegBase) (offset : UInt32) :
    Option (List Route × Bool) := do
  let (nbRoutes, result) ← eap.readRegBlock order (ok 0) m base offset (fun _ => 0) 4
  if !result then return ([], false)
  let nbRoutes := (nbRoutes 0).toNat
  if 2 ^ 30 ≤ nbRoutes then none
  let (tmpEntries, result) ←
    eap.readRegBlock order (ok 1) m base (offset + 4) (fun _ => 0) (nbRoutes * 4)
  if !result then return ([], false)
  return ((List.range nbRoutes).map fun i => decodeRoute (tmpEntries i), true)

end Tables

section RoundTrips

variable {eap : Eap} {order : ByteOrder} {m : ℕ → Quadlet}

variable {ok : ℕ → Bool} {coeff : ℕ → Quadlet}

theorem nbCoefficients_le (eap : Eap) : eap.nbCoefficients * 4 / 4 ≤ quadsLimit := by
  have htx := eap.mixerNbTx.toNat_lt
  have hrx := eap.mixerNbRx.toNat_lt
  rw [Nat.mul_div_cancel _ (by norm_num), Eap.nbCoefficients, quadsLimit]
  calc eap.mixerNbTx.toNat * eap.mixerNbRx.toNat ≤ 256 * 256 := Nat.mul_le_mul htx.le hrx.le
    _ ≤ 2 ^ 29 := by norm_num

/-- The quadlet behind the first one of the mixer space. -/
def Eap.mixerOffset (eap : Eap) : ℕ := eapBase + eap.mixer.offset.toNat + 4

theorem offsetGen_mixer {length : ℕ} (h : length ≤ eap.mixer.size.toNat) :
    eap.offsetGen .rtMixer 4 length = eap.mixerOffset := by
  simp only [Eap.offsetGen, Eap.space, Eap.mixerOffset]
  rw [if_neg (by omega)]
  rfl

theorem mixerOffset_lt (eap : Eap) : eap.mixerOffset < invalidOffset := by
  have hoffset := eap.mixer.offset.isLt
  rw [Eap.mixerOffset, eapBase, invalidOffset]
  omega

structure KeepsCoefficients (eap : Eap) (order : ByteOrder) (m coeff : ℕ → Quadlet) : Prop where
  defined : Mixer.storeCoefficients eap order (fun _ => true) m (some coeff) ≠ none
  kept : ∀ ok m', Mixer.storeCoefficients eap order ok m (some coeff) = some (m', true) →
    ∀ ok' old coeff',
      Mixer.loadCoefficients eap order ok' m' (some old) = some (some coeff', true) →
      ∀ j < eap.nbCoefficients, coeff' j = coeff j

theorem loadCoefficients_eq_some {old coeff' : ℕ → Quadlet} {result : Bool} :
    Mixer.loadCoefficients eap order ok m (some old) = some (some coeff', result) ↔
      eap.readRegBlock order ok m .rtMixer 4 old (eap.nbCoefficients * 4) =
        some (coeff', result) := by
  simp only [Mixer.loadCoefficients]
  constructor
  · intro h
    obtain ⟨⟨coeff, result⟩, hread, hreturn⟩ := Option.bind_eq_some_iff.mp h
    cases hreturn
    exact hread
  · intro h
    rw [h]
    rfl

theorem storeCoefficients_eq (hreadonly : eap.mixerReadonly = false)
    (hsize : eap.nbCoefficients * 4 ≤ eap.mixer.size.toNat) :
    Mixer.storeCoefficients eap order ok m (some coeff) =
      writeRegBlock order ok m eap.mixerOffset coeff (eap.nbCoefficients * 4) := by
  simp only [Mixer.storeCoefficients, hreadonly, Bool.false_eq_true, if_false, Eap.writeRegBlock,
    offsetGen_mixer hsize]

theorem storable_of_storeCoefficients {m' : ℕ → Quadlet}
    (h : Mixer.storeCoefficients eap order ok m (some coeff) = some (m', true)) :
    eap.mixerReadonly = false ∧ eap.nbCoefficients * 4 ≤ eap.mixer.size.toNat := by
  simp only [Mixer.storeCoefficients] at h
  split_ifs at h with hreadonly
  · simp at h
  · constructor
    · simpa using hreadonly
    · by_contra hgt
      have hlt := offset_lt_of_write h
      simp only [Eap.offsetGen, Eap.space, if_pos (not_le.mp hgt), lt_self_iff_false] at hlt

/-- The mixer returns what was stored just if its matrix survives. -/
theorem keepsCoefficients_iff :
    KeepsCoefficients eap order m coeff ↔
      (eap.mixerReadonly = false → eap.nbCoefficients * 4 ≤ eap.mixer.size.toNat →
        SurvivesOverlay m (registerIndex eap.mixerOffset)
          (byteSwapToBus order coeff eap.nbCoefficients) eap.nbCoefficients) := by
  have hdvd : 4 ∣ eap.nbCoefficients * 4 := dvd_mul_left 4 _
  have hle := nbCoefficients_le eap
  have hdiv : eap.nbCoefficients * 4 / 4 = eap.nbCoefficients := Nat.mul_div_cancel _ (by norm_num)
  have hoffset := mixerOffset_lt eap
  constructor
  · intro h hreadonly hsize
    have hsurvives := @survives_of_readBack order m eap.mixerOffset (eap.nbCoefficients * 4) coeff
      hoffset hdvd hle
    rw [hdiv] at hsurvives
    apply hsurvives
    intro ok m' hwrite ok' buf buf' hread
    rw [← storeCoefficients_eq hreadonly hsize] at hwrite
    apply h.kept ok m' hwrite ok' buf buf'
    rw [loadCoefficients_eq_some, Eap.readRegBlock, offsetGen_mixer hsize]
    exact hread
  · intro h
    constructor
    · simp only [Mixer.storeCoefficients]
      split_ifs with hreadonly
      · exact Option.some_ne_none _
      · exact writeRegBlock_ne_none hdvd hle
    · intro ok m' hstore ok' old coeff' hload j hj
      obtain ⟨hreadonly, hsize⟩ := storable_of_storeCoefficients hstore
      have hsurvives := h hreadonly hsize
      rw [storeCoefficients_eq hreadonly hsize] at hstore
      rw [loadCoefficients_eq_some, Eap.readRegBlock, offsetGen_mixer hsize] at hload
      have hcopies := @copiesBlock_of_survives order m eap.mixerOffset
        (eap.nbCoefficients * 4) coeff hoffset hdvd hle
      rw [hdiv] at hcopies
      exact (hcopies hsurvives).readBack ok m' hstore ok' old coeff' hload j (by rwa [hdiv])

structure KeepsRoutes (eap : Eap) (order : ByteOrder) (m : ℕ → Quadlet) (base : RegBase)
    (offset : UInt32) (routes : List Route) : Prop where
  defined : RouterConfig.write eap order (fun _ _ => true) m base offset routes ≠ none
  kept : ∀ ok m', RouterConfig.write eap order ok m base offset routes = some (m', true) →
    ∀ ok' routes', RouterConfig.read eap order ok' m' base offset = some (routes', true) →
      routes' = routes

section Router

variable {ok : ℕ → ℕ → Bool} {m' : ℕ → Quadlet} {base : RegBase} {offset : UInt32}
  {routes routes' : List Route}

def entries (routes : List Route) : ℕ → Quadlet := fun i => encodeRoute (routes.getD i (0, 0))

theorem nbRoutes_eq (h : routes.length ≤ 128) :
    (if 128 < u32 routes.length then 128 else u32 routes.length) = routes.length := by
  rw [u32_of_lt (by omega), if_neg (by omega)]

theorem write_eq_some (hle : routes.length ≤ 128)
    (h : RouterConfig.write eap order ok m base offset routes = some (m', true)) :
    ∃ m₁ m₂, eap.writeRegBlock order (ok 1) m₁ base (offset + 4) (entries routes)
        (routes.length * 4) = some (m₂, true) ∧
      eap.writeRegBlock order (ok 2) m₂ base offset (fun _ => BitVec.ofNat 32 routes.length) 4 =
        some (m', true) := by
  simp only [RouterConfig.write, nbRoutes_eq hle, if_neg (lt_irrefl _)] at h
  obtain ⟨⟨m₁, result₁⟩, -, h⟩ := Option.bind_eq_some_iff.mp h
  cases result₁ with
  | false => simp at h
  | true =>
    obtain ⟨⟨m₂, result₂⟩, hentries, h⟩ := Option.bind_eq_some_iff.mp h
    cases result₂ with
    | false => simp at h
    | true => exact ⟨m₁, m₂, hentries, h⟩

theorem read_eq_some (h : RouterConfig.read eap order ok m base offset = some (routes', true)) :
    ∃ count tmpEntries, eap.readRegBlock order (ok 0) m base offset (fun _ => 0) 4 =
        some (count, true) ∧
      eap.readRegBlock order (ok 1) m base (offset + 4) (fun _ => 0) ((count 0).toNat * 4) =
        some (tmpEntries, true) ∧
      routes' = (List.range (count 0).toNat).map fun i => decodeRoute (tmpEntries i) := by
  obtain ⟨⟨count, result₁⟩, hcount, h⟩ := Option.bind_eq_some_iff.mp h
  cases result₁ with
  | false => simp at h
  | true =>
    simp only [Bool.not_true, Bool.false_eq_true, if_false] at h
    split_ifs at h with hmany
    · simp at h
    · obtain ⟨⟨tmpEntries, result₂⟩, hentries, h⟩ := Option.bind_eq_some_iff.mp h
      cases result₂ with
      | false => simp at h
      | true =>
        cases h
        exact ⟨count, tmpEntries, hcount, hentries, rfl⟩

/-- The count is not among the entries. -/
theorem registerIndex_entries (hbase : base ≠ .rtNone) {length : ℕ}
    (hcount : eap.offsetGen base offset 4 < invalidOffset)
    (hentries : eap.offsetGen base (offset + 4) length < invalidOffset) :
    registerIndex (eap.offsetGen base offset 4) <
        registerIndex (eap.offsetGen base (offset + 4) length) ∨
      registerIndex (eap.offsetGen base (offset + 4) length) + 128 <
        registerIndex (eap.offsetGen base offset 4) := by
  obtain ⟨⟨addr, maxlen⟩, hspace⟩ : ∃ space, eap.space base = some space := by
    cases base <;> first | exact ⟨_, rfl⟩ | exact absurd rfl hbase
  simp only [Eap.offsetGen, hspace] at hcount hentries ⊢
  have hoffset := offset.toNat_lt
  have hadd : (offset + 4).toNat = (offset.toNat + 4) % 2 ^ 32 := UInt32.toNat_add offset 4
  split_ifs at hcount hentries ⊢
  · omega
  · omega
  · omega
  · simp only [registerIndex, hadd]
    omega

theorem kept_of_le (hbase : base ≠ .rtNone) (hle : routes.length ≤ 128)
    (hwrite : RouterConfig.write eap order ok m base offset routes = some (m', true))
    {ok' : ℕ → ℕ → Bool}
    (hread : RouterConfig.read eap order ok' m' base offset = some (routes', true)) :
    routes' = routes := by
  obtain ⟨m₁, m₂, hentries, hcount⟩ := write_eq_some hle hwrite
  obtain ⟨count, tmpEntries, hreadCount, hreadEntries, rfl⟩ := read_eq_some hread
  have hdiv : routes.length * 4 / 4 = routes.length := Nat.mul_div_cancel _ (by norm_num)
  have hapart := registerIndex_entries hbase (offset_lt_of_write hcount)
    (offset_lt_of_write hentries)
  rw [Eap.writeRegBlock] at hentries hcount
  rw [Eap.readRegBlock] at hreadCount hreadEntries
  -- the count
  have hm' := writeRegBlock_single (by norm_num) (by norm_num) hcount
  have hnumber : (count 0).toNat = routes.length := by
    rw [readRegBlock_apply (offset_lt_of_read hreadCount) (by norm_num) (by decide) hreadCount
      (by norm_num : 0 < 4 / 4), hm']
    simp [memcpy, byteSwapToBus]
    omega
  rw [hnumber] at hreadEntries ⊢
  -- the entries
  have hm₂ := writeRegBlock_single (dvd_mul_left 4 _) (by omega) hentries
  apply List.ext_getElem
  · simp
  · intro i hi hi'
    have hentry := readRegBlock_apply (offset_lt_of_read hreadEntries) (dvd_mul_left 4 _)
      (by rw [hdiv, quadsLimit]; omega) hreadEntries (by omega : i < routes.length * 4 / 4)
    rw [hm', memcpy, if_neg (by omega), hm₂, memcpy, if_pos (by omega), Nat.add_sub_cancel_left,
      byteSwapToBus, if_pos (by omega), condSwapFromBus32_condSwapToBus32] at hentry
    simp [hentry, entries, List.getElem?_eq_getElem hi']

theorem write_ne_none (hle : routes.length ≤ 128) :
    RouterConfig.write eap order (fun _ _ => true) m base offset routes ≠ none := by
  have hmax := eap.routerNbEntries.toNat_lt
  simp only [RouterConfig.write, nbRoutes_eq hle, if_neg (lt_irrefl _)]
  obtain ⟨⟨m₁, result₁⟩, h₁⟩ := Option.ne_none_iff_exists'.mp
    (@writeRegBlock_ne_none order m (eap.offsetGen base offset
      ((eap.routerNbEntries.toNat + 1) * 4)) ((eap.routerNbEntries.toNat + 1) * 4) (fun _ => 0)
        (dvd_mul_left 4 _)
      (by rw [quadsLimit]; omega))
  rw [Eap.writeRegBlock, h₁]
  cases result₁ with
  | false => exact Option.some_ne_none _
  | true =>
    obtain ⟨⟨m₂, result₂⟩, h₂⟩ := Option.ne_none_iff_exists'.mp
      (@writeRegBlock_ne_none order m₁ (eap.offsetGen base (offset + 4) (routes.length * 4))
        (routes.length * 4) (entries routes) (dvd_mul_left 4 _) (by rw [quadsLimit]; omega))
    have hentries : eap.writeRegBlock order (fun _ => true) m₁ base (offset + 4)
        (fun i => encodeRoute (routes.getD i (0, 0))) (routes.length * 4) = some (m₂, result₂) := h₂
    simp only [Option.bind_eq_bind, Option.bind_some, Bool.not_true, Bool.false_eq_true, if_false,
      hentries]
    cases result₂ with
    | false => exact Option.some_ne_none _
    | true => exact writeRegBlock_ne_none (by norm_num) (by decide)

/-- A table is kept just if it has no more than 128 routes. -/
theorem keepsRoutes_iff (hbase : base ≠ .rtNone) :
    KeepsRoutes eap order m base offset routes ↔ routes.length ≤ 128 := by
  constructor
  · intro h
    by_contra hgt
    apply h.defined
    have hmin : (if 128 < u32 routes.length then 128 else u32 routes.length) < routes.length := by
      split_ifs <;> omega
    simp only [RouterConfig.write, if_pos hmin]
  · intro hle
    constructor
    · exact write_ne_none hle
    · intro ok m' hwrite ok' routes' hread
      exact kept_of_le hbase hle hwrite hread

end Router

/-- For every device: a block is copied and read back just if it survives the writes on top of
each other, the mixer keeps its coefficients just if their block does, and the router keeps its
table just if it has no more than 128 routes. -/
theorem block_access_iff (order : ByteOrder) (m : ℕ → Quadlet) (eap : Eap) :
    (∀ offset data length, offset < invalidOffset → 4 ∣ length →
      (CopiesBlock order m offset data length ↔ length / 4 ≤ quadsLimit ∧
        SurvivesOverlay m (registerIndex offset) (byteSwapToBus order data (length / 4))
          (length / 4))) ∧
    (∀ coeff, KeepsCoefficients eap order m coeff ↔
      (eap.mixerReadonly = false → eap.nbCoefficients * 4 ≤ eap.mixer.size.toNat →
        SurvivesOverlay m (registerIndex eap.mixerOffset)
          (byteSwapToBus order coeff eap.nbCoefficients) eap.nbCoefficients)) ∧
    (∀ base offset routes, base ≠ .rtNone →
      (KeepsRoutes eap order m base offset routes ↔ routes.length ≤ 128)) := by
  refine ⟨?_, ?_, ?_⟩
  · intro offset data length hoffset hdvd
    exact copiesBlock_iff hoffset hdvd
  · intro coeff
    exact keepsCoefficients_iff
  · intro base offset routes hbase
    exact keepsRoutes_iff hbase

/-- A device with a mixer of two inputs and two outputs. -/
def smallEap : Eap where
  capability := ⟨0, 0⟩
  cmd := ⟨0, 0⟩
  mixer := ⟨0x100, 0x40⟩
  peak := ⟨0, 0⟩
  newRouting := ⟨0x200, 0x400⟩
  newStreamCfg := ⟨0, 0⟩
  currCfg := ⟨0, 0⟩
  standalone := ⟨0, 0⟩
  app := ⟨0, 0⟩
  mixerReadonly := false
  mixerNbTx := 2
  mixerNbRx := 2
  routerNbEntries := 128

theorem block_access_iff_smallEap :
    CopiesBlock .littleEndian (fun _ => 0) 0 (fun j => BitVec.ofNat 32 j) 8 ∧
      KeepsCoefficients smallEap .littleEndian (fun _ => 0) (fun j => BitVec.ofNat 32 j) ∧
      KeepsRoutes smallEap .littleEndian (fun _ => 0) .rtNewRouting 0 [(1, 2), (3, 4)] := by
  obtain ⟨hblock, hmixer, hrouter⟩ := block_access_iff .littleEndian (fun _ => 0) smallEap
  refine ⟨?_, ?_, ?_⟩
  · exact (hblock 0 _ 8 (by decide) (by decide)).mpr
      ⟨by decide, survivesOverlay_of_le (by decide)⟩
  · exact (hmixer _).mpr fun _ _ => survivesOverlay_of_le (by decide)
  · exact (hrouter _ _ _ (by decide)).mpr (by decide)

/-- The second transaction of 129 quadlets is written over the first one. -/
theorem second_transaction_misplaced :
    ¬ CopiesBlock .littleEndian (fun _ => 0) 0 (fun j => if j = 128 then 1 else 0) 516 := by
  intro h
  have hsurvives := ((copiesBlock_iff (by decide) (by decide)).mp h).2
  have hfirst := hsurvives.repeated 0 (by decide) (by decide)
  exact absurd hfirst (by decide)

end RoundTrips

end Ffado.Dice
