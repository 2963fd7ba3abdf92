import Ffado.Dice.Registers
import Ffado.Ieee1394.IsoResources

/-!
# Start and stop of DICE streams

A stream is started by allocating a channel and writing it into the ISO_CHANNEL register of the
stream, and stopped by resetting the register and giving the channel back. The device sends on its
TX registers (our receive processors) and receives on its RX registers (our transmit processors).
-/
namespace Ffado.Dice

open Function Ieee1394Service

/-- The registers of one direction, all `fb_quadlet_t`. -/
structure Bank where
  regOffset : Quadlet
  regSize : Quadlet
  nb : Quadlet
  size : Quadlet

def Bank.offsetGen (bank : Bank) (i offset length : ℕ) : ℕ :=
  if bank.regOffset &&& 0x80000000 ≠ 0 then invalidOffset
  else if bank.nb &&& 0x80000000 ≠ 0 then invalidOffset
  else if bank.size &&& 0x80000000 ≠ 0 then invalidOffset
  else if bank.nb.toNat ≤ i then invalidOffset
  else
    let offsetTx := ((BitVec.ofNat 32 i * bank.size).toNat + offset) % 2 ^ 64
    -- out-of-range check
    if (bank.regOffset + 4 + bank.regSize * bank.nb).toNat < (offsetTx + length) % 2 ^ 64 then
      invalidOffset
    else offsetTx

def Bank.streamOffset (bank : Bank) (i offset length : ℕ) : ℕ :=
  (bank.regOffset.toNat + bank.offsetGen i offset length) % 2 ^ 64

inductive StreamDirection
  | capture
  | playback
  deriving DecidableEq

/-- The part of a stream processor that is used here. -/
structure Processor where
  maxPacketSize : BitVec 32
  channel : ℤ

structure Device where
  order : ByteOrder
  tx : Bank
  rx : Bank
  registers : ℕ → Quadlet
  receiveProcessors : List Processor
  transmitProcessors : List Processor
  service : Service
  snoopMode : Bool

/-- How the accesses of one call turn out. The channel may be given back twice, the second time
as the one found in the register. -/
structure Environment where
  readOk : Bool
  writeOk : Bool
  allocate : Answers
  deallocate : Answers
  deallocateReused : Answers

/-- Register accesses succeed, bandwidth is granted and what is given back is released. -/
structure Environment.Succeeds (env : Environment) : Prop where
  readOk : env.readOk = true
  writeOk : env.writeOk = true
  bandwidth : env.allocate.bandwidthAlloc = true
  release : env.deallocate.Release

/-- DICE_REGISTER_TX_ISOC_BASE and DICE_REGISTER_RX_ISOC_BASE. -/
def isocBase : ℕ := 0x0008

def noChannel : Quadlet := 0xFFFFFFFF

namespace Device

variable (env : Environment) (dev : Device)

def bank : StreamDirection → Bank
  | .capture => dev.tx
  | .playback => dev.rx

def processors : StreamDirection → List Processor
  | .capture => dev.receiveProcessors
  | .playback => dev.transmitProcessors

def streamOffset (dir : StreamDirection) (n offset : ℕ) : ℕ :=
  (dev.bank dir).streamOffset n offset 4

/-- The accessors that `setRXTXfuncs` selects: `readTxReg` and `writeTxReg` for capture,
`readRxReg` and `writeRxReg` for playback. -/
def readFunc (dir : StreamDirection) (n offset : ℕ) : Option Quadlet :=
  readReg dev.order env.readOk dev.registers (dev.streamOffset dir n offset)

def writeFunc (dir : StreamDirection) (n offset : ℕ) (data : Quadlet) : Device × Bool :=
  let (registers, result) :=
    writeReg dev.order env.writeOk dev.registers (dev.streamOffset dir n offset) data
  ({ dev with registers }, result)

def writeTxReg (n offset : ℕ) (data : Quadlet) : Device × Bool :=
  dev.writeFunc env .capture n offset data

def setChannel (dir : StreamDirection) (n : ℕ) (c : ℤ) : Device :=
  match dir with
  | .capture =>
    { dev with
      receiveProcessors := dev.receiveProcessors.modify n fun p => { p with channel := c } }
  | .playback =>
    { dev with
      transmitProcessors := dev.transmitProcessors.modify n fun p => { p with channel := c } }

def allocateIsoChannel (packetSize : BitVec 32) : Device × ℤ :=
  let (service, c) := dev.service.allocateIsoChannelGeneric env.allocate (8 + packetSize)
  ({ dev with service }, c)

def deallocateIsoChannel (answers : Answers) (c : ℤ) : Device × Bool :=
  let (service, result) := dev.service.freeIsoChannel answers c
  ({ dev with service }, result)

def enterChannel (dir : StreamDirection) (n : ℕ) (isochannel : ℤ) : Device × Bool :=
  let (dev, written) := dev.writeFunc env dir n isocBase (BitVec.ofInt 32 isochannel)
  if !written then
    (((dev.setChannel dir n (-1)).deallocateIsoChannel env.deallocateReused isochannel).1, false)
  else (dev, true)

def claimRegister (dir : StreamDirection) (n : ℕ) (isochannel : ℤ) : Device × Bool :=
  match dev.readFunc env dir n isocBase with
  | none => (((dev.setChannel dir n (-1)).deallocateIsoChannel env.deallocate isochannel).1, false)
  | some regIsoch =>
    if regIsoch ≠ noChannel then
      let (dev, _) := dev.deallocateIsoChannel env.deallocate isochannel
      (dev.setChannel dir n regIsoch.toInt).enterChannel env dir n regIsoch.toInt
    else dev.enterChannel env dir n isochannel

def startStream (dir : StreamDirection) (n : ℕ) (p : Processor) : Device × Bool :=
  if dev.snoopMode then
    match dev.readFunc env dir n isocBase with
    | none => (dev.setChannel dir n (-1), false)
    | some regIsoch => (dev.setChannel dir n regIsoch.toInt, true)
  else
    let (dev, isochannel) := dev.allocateIsoChannel env p.maxPacketSize
    if isochannel < 0 then (dev, false)
    else (dev.setChannel dir n isochannel).claimRegister env dir n isochannel

def resetRegister (dir : StreamDirection) (n : ℕ) (isochannel : Quadlet) : Device × Bool :=
  let (dev, written) := dev.writeTxReg env n isocBase noChannel
  if !written then (dev, false)
  else
    let (dev, freed) := dev.deallocateIsoChannel env.deallocate isochannel.toInt
    if !freed then (dev, false)
    else (dev.setChannel dir n (-1), true)

def stopStream (dir : StreamDirection) (n : ℕ) (p : Processor) : Device × Bool :=
  if !dev.snoopMode then
    let isochannel : Quadlet := BitVec.ofInt 32 p.channel
    match dev.readFunc env dir n isocBase with
    | none => (dev, false)
    | some regIsoch =>
      if regIsoch ≠ isochannel then (dev, false)
      else dev.resetRegister env dir n isochannel
  else (dev.setChannel dir n (-1), true)

def startstopStreamByIndex (i : ℤ) (start : Bool) : Option (Device × Bool) :=
  let select (dir : StreamDirection) (n : ℤ) : Option (Device × Bool) :=
    if n < 0 then none
    else ((dev.processors dir)[n.toNat]?).map fun p =>
      if start then dev.startStream env dir n.toNat p else dev.stopStream env dir n.toNat p
  if i < dev.receiveProcessors.length then select .capture i
  else if i < dev.receiveProcessors.length + dev.transmitProcessors.length then
    select .playback (i - dev.receiveProcessors.length)
  else some (dev, false)

def startStreamByIndex (i : ℤ) : Option (Device × Bool) := dev.startstopStreamByIndex env i true

def stopStreamByIndex (i : ℤ) : Option (Device × Bool) := dev.startstopStreamByIndex env i false

section Accessors

variable {env : Environment} {dev : Device} {dir dir' : StreamDirection} {n n' : ℕ} {c : ℤ}

def isoRegister (dev : Device) (dir : StreamDirection) (n : ℕ) : ℕ :=
  registerIndex (dev.streamOffset dir n isocBase)

def HasRegister (dev : Device) (dir : StreamDirection) (n : ℕ) : Prop :=
  dev.streamOffset dir n isocBase < invalidOffset

def isoChannel (dev : Device) (dir : StreamDirection) (n : ℕ) : Quadlet :=
  condSwapFromBus32 dev.order (dev.registers (dev.isoRegister dir n))

/-- The devices differ in registers, channels and service only. -/
structure SameLayout (dev dev' : Device) : Prop where
  order : dev'.order = dev.order
  snoopMode : dev'.snoopMode = dev.snoopMode
  streamOffset : ∀ dir n, dev'.streamOffset dir n isocBase = dev.streamOffset dir n isocBase
  length : ∀ dir, (dev'.processors dir).length = (dev.processors dir).length

namespace SameLayout

variable {dev' dev'' : Device}

theorem trans (h : dev.SameLayout dev') (h' : dev'.SameLayout dev'') : dev.SameLayout dev'' := by
  constructor
  · rw [h'.order, h.order]
  · rw [h'.snoopMode, h.snoopMode]
  · intro dir n
    rw [h'.streamOffset, h.streamOffset]
  · intro dir
    rw [h'.length, h.length]

theorem isoRegister (h : dev.SameLayout dev') : dev'.isoRegister dir n = dev.isoRegister dir n := by
  rw [Device.isoRegister, h.streamOffset, Device.isoRegister]

theorem hasRegister (h : dev.SameLayout dev') :
    dev'.HasRegister dir n ↔ dev.HasRegister dir n := by
  rw [HasRegister, h.streamOffset, HasRegister]

theorem isoChannel (h : dev.SameLayout dev') (hregisters : dev'.registers = dev.registers) :
    dev'.isoChannel dir n = dev.isoChannel dir n := by
  rw [Device.isoChannel, h.order, hregisters, h.isoRegister, Device.isoChannel]

end SameLayout

theorem sameLayout_update (dev : Device) (registers : ℕ → Quadlet) (service : Service) :
    dev.SameLayout { dev with registers, service } := by
  constructor
  · rfl
  · rfl
  · intro dir n
    cases dir <;> rfl
  · intro dir
    cases dir <;> rfl

theorem sameLayout_setChannel (dev : Device) (dir : StreamDirection) (n : ℕ) (c : ℤ) :
    dev.SameLayout (dev.setChannel dir n c) := by
  constructor
  · cases dir <;> rfl
  · cases dir <;> rfl
  · intro dir' n'
    cases dir <;> rfl
  · intro dir'
    cases dir <;> cases dir' <;> simp [setChannel, processors]

@[simp] theorem setChannel_registers : (dev.setChannel dir n c).registers = dev.registers := by
  cases dir <;> rfl

@[simp] theorem setChannel_service : (dev.setChannel dir n c).service = dev.service := by
  cases dir <;> rfl

theorem getElem?_setChannel :
    ((dev.setChannel dir n c).processors dir)[n]? =
      ((dev.processors dir)[n]?).map fun p => { p with channel := c } := by
  cases dir <;> simp [setChannel, processors]

theorem readFunc_eq (h : dev.HasRegister dir n) (hread : env.readOk = true) :
    dev.readFunc env dir n isocBase = some (dev.isoChannel dir n) := by
  rw [readFunc, readReg, if_neg (not_le.mpr h), if_pos hread]
  rfl

theorem writeFunc_eq (h : dev.HasRegister dir n) (hwrite : env.writeOk = true) (data : Quadlet) :
    dev.writeFunc env dir n isocBase data =
      ({ dev with
        registers :=
          update dev.registers (dev.isoRegister dir n) (condSwapToBus32 dev.order data) },
        true) := by
  rw [writeFunc, writeReg, if_neg (not_le.mpr h), if_pos hwrite]
  rfl

theorem writeFunc_refused (h : ¬ (dev.HasRegister dir n ∧ env.writeOk = true)) (data : Quadlet) :
    dev.writeFunc env dir n isocBase data = (dev, false) := by
  rw [writeFunc, writeReg]
  split_ifs with hoffset hwrite
  · rfl
  · exact absurd ⟨not_le.mp hoffset, hwrite⟩ h
  · rfl

end Accessors

section Start

variable {env : Environment} {dev dev₁ : Device} {dir : StreamDirection} {n : ℕ} {c : ℤ}

variable {k : Fin 64}

/-- What the start of stream `n` on channel `c` leaves behind, apart from the service. -/
structure Running (dev dev₁ : Device) (dir : StreamDirection) (n : ℕ) (c : ℤ) : Prop where
  layout : dev.SameLayout dev₁
  registers : dev₁.registers = update dev.registers (dev.isoRegister dir n)
    (condSwapToBus32 dev.order (BitVec.ofInt 32 c))
  channel : ∀ p ∈ (dev₁.processors dir)[n]?, p.channel = c

theorem enterChannel_running (dev' : Device) (hlayout : dev.SameLayout dev')
    (hregisters : dev'.registers = dev.registers) (hregister : dev.HasRegister dir n)
    (hwrite : env.writeOk = true) :
    ∃ dev₁, (dev'.setChannel dir n c).enterChannel env dir n c = (dev₁, true) ∧
      Running dev dev₁ dir n c ∧ dev₁.service = dev'.service := by
  have hset := hlayout.trans (sameLayout_setChannel dev' dir n c)
  rw [enterChannel, writeFunc_eq (hset.hasRegister.mpr hregister) hwrite]
  refine ⟨_, rfl, ?_, setChannel_service⟩
  constructor
  · exact hset.trans (sameLayout_update _ _ _)
  · simp only [setChannel_registers, hregisters, hset.isoRegister, hset.order]
  · intro p hp
    have hget : ((dev'.setChannel dir n c).processors dir)[n]? = some p := by
      cases dir <;> exact hp
    rw [getElem?_setChannel] at hget
    obtain ⟨q, -, rfl⟩ := Option.map_eq_some_iff.mp hget
    rfl

/-- The first channel that the IRM grants has been allocated. -/
def granted (dev : Device) (k : Fin 64) (p : Processor) : Service :=
  ⟨update dev.service.channels k (.generic k (8 + p.maxPacketSize)),
    dev.service.held + (ChannelInfo.generic k (8 + p.maxPacketSize)).resources⟩

/-- The service when the channel has been given back at once. -/
def regained (dev : Device) (k : Fin 64) : Service :=
  ⟨update dev.service.channels k .unused, dev.service.held⟩

theorem freeIsoChannel_granted (hrelease : env.deallocate.Release) (hk : (k : ℕ) < 63)
    (p : Processor) : (dev.granted k p).freeIsoChannel env.deallocate (k : ℕ) =
      (dev.regained k, true) := by
  have hentry : (dev.granted k p).channels k = .generic k (8 + p.maxPacketSize) := by
    simp [granted]
  have hused : ((dev.granted k p).channels k).alloctype ≠ .free := by
    rw [hentry]
    simp [ChannelInfo.generic]
  have hrest : (dev.granted k p).held =
      dev.service.held + ((dev.granted k p).channels k).resources := by
    rw [hentry]
    rfl
  rw [freeIsoChannel_of_release hrelease hk hused hrest]
  simp only [granted, regained, update_idem]

/-- The channel and the service after a start for which the IRM has granted channel `k`: a channel
found in the register is reused. -/
def StartedOn (dev dev₁ : Device) (dir : StreamDirection) (n : ℕ) (k : Fin 64) (p : Processor)
    (c : ℤ) : Prop :=
  (dev.isoChannel dir n = noChannel ∧ c = (k : ℕ) ∧ dev₁.service = dev.granted k p) ∨
    (dev.isoChannel dir n ≠ noChannel ∧ c = (dev.isoChannel dir n).toInt ∧
      dev₁.service = dev.regained k)

theorem startStream_startedOn (hsnoop : dev.snoopMode = false) (hregister : dev.HasRegister dir n)
    (henv : env.Succeeds) (hfirst : dev.service.firstGranted env.allocate = some (k : ℕ))
    (p : Processor) :
    ∃ dev₁ c, dev.startStream env dir n p = (dev₁, true) ∧ Running dev dev₁ dir n c ∧
      StartedOn dev dev₁ dir n k p c := by
  let allocated := { dev with service := dev.granted k p }.setChannel dir n (k : ℕ)
  have hstart : dev.startStream env dir n p = allocated.claimRegister env dir n (k : ℕ) := by
    rw [startStream, if_neg (by simp [hsnoop]), allocateIsoChannel,
      allocateIsoChannelGeneric_of_granted hfirst henv.bandwidth]
    exact if_neg (by omega)
  have hservice := sameLayout_update dev dev.registers (dev.granted k p)
  have hset := hservice.trans (sameLayout_setChannel _ dir n (k : ℕ))
  rw [hstart, claimRegister, readFunc_eq (hset.hasRegister.mpr hregister) henv.readOk,
    hset.isoChannel setChannel_registers]
  dsimp only
  by_cases hstopped : dev.isoChannel dir n = noChannel
  · rw [if_neg (not_not.mpr hstopped)]
    obtain ⟨dev₁, henter, hrunning, heq⟩ := @enterChannel_running env dev dir n (k : ℕ)
      _ hservice rfl hregister henv.writeOk
    exact ⟨dev₁, _, henter, hrunning, Or.inl ⟨hstopped, rfl, heq⟩⟩
  · rw [if_pos hstopped, deallocateIsoChannel, setChannel_service,
      freeIsoChannel_granted henv.release (firstGranted_lt hfirst)]
    obtain ⟨dev₁, henter, hrunning, heq⟩ := @enterChannel_running env dev dir n
      (dev.isoChannel dir n).toInt _ (hset.trans (sameLayout_update allocated allocated.registers
        (dev.regained k))) setChannel_registers hregister henv.writeOk
    exact ⟨dev₁, _, henter, hrunning, Or.inr ⟨hstopped, rfl, heq⟩⟩

end Start

section Stop

variable {env : Environment} {dev dev₁ dev₂ : Device} {dir : StreamDirection} {n : ℕ} {c : ℤ}
  {p : Processor}

theorem Running.isoChannel (h : Running dev dev₁ dir n c) :
    dev₁.isoChannel dir n = BitVec.ofInt 32 c := by
  rw [Device.isoChannel, h.layout.isoRegister, h.layout.order, h.registers, update_self,
    condSwapFromBus32_condSwapToBus32]

theorem stopStream_eq (h : Running dev dev₁ dir n c) (hsnoop : dev.snoopMode = false)
    (hregister : dev.HasRegister dir n) (hread : env.readOk = true)
    (hp : (dev₁.processors dir)[n]? = some p) :
    dev₁.stopStream env dir n p = dev₁.resetRegister env dir n (BitVec.ofInt 32 c) := by
  have hmode : (!dev₁.snoopMode) = true := by
    rw [h.layout.snoopMode, hsnoop]
    rfl
  rw [stopStream, if_pos hmode, h.channel p hp,
    readFunc_eq (h.layout.hasRegister.mpr hregister) hread, h.isoChannel]
  exact if_neg (not_not.mpr rfl)

theorem resetRegister_playback
    (hapart : dev.HasRegister .capture n → dev.isoRegister .playback n ≠ dev.isoRegister .capture n)
    {isochannel : Quadlet} (h : dev.resetRegister env .playback n isochannel = (dev₂, true)) :
    dev₂.isoChannel .playback n = dev.isoChannel .playback n := by
  by_cases hwritten : dev.HasRegister .capture n ∧ env.writeOk = true
  · rw [resetRegister, writeTxReg, writeFunc_eq hwritten.1 hwritten.2] at h
    simp only [Bool.not_true, Bool.false_eq_true, if_false, deallocateIsoChannel] at h
    cases hfree : dev.service.freeIsoChannel env.deallocate isochannel.toInt with
    | mk service freed =>
      cases freed with
      | false => simp [hfree] at h
      | true =>
        simp only [hfree, Bool.not_true, Bool.false_eq_true, if_false, Prod.mk.injEq, and_true] at h
        rw [← h]
        have hkept := @update_of_ne _ _ _ _ _ (hapart hwritten.1)
          (condSwapToBus32 dev.order noChannel) dev.registers
        exact congrArg (condSwapFromBus32 dev.order) hkept
  · -- the stream has no counterpart, and nothing is written
    rw [resetRegister, writeTxReg, writeFunc_refused hwritten] at h
    simp at h

theorem toInt_ofInt_channel (k : Fin 64) : (BitVec.ofInt 32 (k : ℕ)).toInt = (k : ℕ) := by
  rw [BitVec.toInt_ofInt, Int.bmod]
  omega

theorem ofInt_channel_ne (k : Fin 64) : BitVec.ofInt 32 (k : ℕ) ≠ noChannel := by
  intro h
  have hint := congrArg BitVec.toInt h
  rw [toInt_ofInt_channel, show noChannel.toInt = -1 by decide] at hint
  omega

theorem stopStream_capture {k : Fin 64} (h : Running dev dev₁ .capture n (k : ℕ))
    (hsnoop : dev.snoopMode = false) (hregister : dev.HasRegister .capture n)
    (henv : env.Succeeds) (hp : (dev₁.processors .capture)[n]? = some p) (hk : (k : ℕ) < 63)
    (hused : (dev₁.service.channels k).alloctype ≠ .free) {rest : Holdings}
    (hrest : dev₁.service.held = rest + (dev₁.service.channels k).resources) :
    ∃ dev₂, dev₁.stopStream env .capture n p = (dev₂, true) ∧ dev.SameLayout dev₂ ∧
      dev₂.registers = update dev.registers (dev.isoRegister .capture n)
        (condSwapToBus32 dev.order noChannel) ∧
      dev₂.service = ⟨update dev₁.service.channels k .unused, rest⟩ := by
  have hfree := freeIsoChannel_of_release henv.release hk hused hrest
  rw [← toInt_ofInt_channel] at hfree
  rw [stopStream_eq h hsnoop hregister henv.readOk hp,
    resetRegister, writeTxReg, writeFunc_eq (h.layout.hasRegister.mpr hregister) henv.writeOk]
  simp only [Bool.not_true, Bool.false_eq_true, if_false, deallocateIsoChannel, hfree]
  refine ⟨_, rfl, ?_, ?_, setChannel_service⟩
  · exact h.layout.trans ((sameLayout_update dev₁ _ _).trans (sameLayout_setChannel _ _ _ _))
  · simp only [setChannel_registers, h.layout.isoRegister, h.layout.order, h.registers, update_idem]

theorem stopStream_playback (h : Running dev dev₁ .playback n c) (hsnoop : dev.snoopMode = false)
    (hregister : dev.HasRegister .playback n) (hread : env.readOk = true)
    (hapart : dev.HasRegister .capture n → dev.isoRegister .playback n ≠ dev.isoRegister .capture n)
    (hp : (dev₁.processors .playback)[n]? = some p)
    (hstop : dev₁.stopStream env .playback n p = (dev₂, true)) :
    dev₂.isoChannel .playback n = BitVec.ofInt 32 c := by
  rw [stopStream_eq h hsnoop hregister hread hp] at hstop
  rw [resetRegister_playback _ hstop, h.isoChannel]
  rw [h.layout.hasRegister, h.layout.isoRegister, h.layout.isoRegister]
  exact hapart

end Stop

def streamAt (dev : Device) (i : ℕ) : StreamDirection × ℕ :=
  if i < dev.receiveProcessors.length then (.capture, i)
  else (.playback, i - dev.receiveProcessors.length)

/-- Every stream has a register, and no register is that of two streams. -/
structure WellLaidOut (dev : Device) : Prop where
  reachable : ∀ dir n, n < (dev.processors dir).length → dev.HasRegister dir n
  apart : ∀ dir n dir' n', dev.HasRegister dir n → dev.HasRegister dir' n' →
    dev.isoRegister dir n = dev.isoRegister dir' n' → dir = dir' ∧ n = n'

/-- `dev₁` is what a start of the stream makes of `dev`, and `dev₂` what a stop makes of that. -/
structure Undone (dev dev₁ dev₂ : Device) (dir : StreamDirection) (n : ℕ) : Prop where
  started : ∀ r, r ≠ dev.isoRegister dir n → dev₁.registers r = dev.registers r
  reset : dev₂.isoChannel dir n = noChannel
  others : ∀ r, r ≠ dev.isoRegister dir n → dev₂.registers r = dev.registers r
  returned : ∃ k : Fin 64, (∀ p ∈ (dev₁.processors dir)[n]?, p.channel = (k : ℕ)) ∧
    (dev₁.service.channels k).alloctype ≠ .free ∧ (dev₂.service.channels k).alloctype = .free ∧
    dev₂.service.held + (dev₁.service.channels k).resources = dev₁.service.held
  balanced : dev.isoChannel dir n = noChannel → dev₂.service.held = dev.service.held

section ByIndex

variable {env env' : Environment} {dev dev₁ : Device} {dir : StreamDirection} {i n : ℕ} {c : ℤ}

theorem streamAt_lt (hi : i < dev.receiveProcessors.length + dev.transmitProcessors.length) :
    (dev.streamAt i).2 < (dev.processors (dev.streamAt i).1).length := by
  rw [streamAt]
  split_ifs with h
  · exact h
  · exact Nat.sub_lt_left_of_lt_add (not_lt.mp h) hi

theorem streamAt_eq_capture_iff :
    (dev.streamAt i).1 = .capture ↔ i < dev.receiveProcessors.length := by
  rw [streamAt]
  split_ifs with h <;> simp [h]

theorem SameLayout.streamAt (h : dev.SameLayout dev₁) : dev₁.streamAt i = dev.streamAt i := by
  have hlength : dev₁.receiveProcessors.length = dev.receiveProcessors.length := h.length .capture
  rw [Device.streamAt, hlength, Device.streamAt]

theorem startstopStreamByIndex_eq (env : Environment)
    (hi : i < dev.receiveProcessors.length + dev.transmitProcessors.length) (start : Bool) :
    ∃ p, (dev.processors (dev.streamAt i).1)[(dev.streamAt i).2]? = some p ∧
      dev.startstopStreamByIndex env i start = some (if start then
        dev.startStream env (dev.streamAt i).1 (dev.streamAt i).2 p
      else dev.stopStream env (dev.streamAt i).1 (dev.streamAt i).2 p) := by
  obtain ⟨p, hp⟩ : ∃ p, (dev.processors (dev.streamAt i).1)[(dev.streamAt i).2]? = some p :=
    ⟨_, List.getElem?_eq_getElem (streamAt_lt hi)⟩
  refine ⟨p, hp, ?_⟩
  by_cases h : i < dev.receiveProcessors.length
  · simp only [streamAt, if_pos h] at hp ⊢
    have hlt : (i : ℤ) < dev.receiveProcessors.length := by omega
    have hnonneg : ¬ (i : ℤ) < 0 := by omega
    simp only [startstopStreamByIndex, if_pos hlt, if_neg hnonneg, Int.toNat_natCast, hp,
      Option.map_some]
  · simp only [streamAt, if_neg h] at hp ⊢
    have hge : ¬ (i : ℤ) < dev.receiveProcessors.length := by omega
    have hlt : (i : ℤ) < dev.receiveProcessors.length + dev.transmitProcessors.length := by omega
    have hnonneg : ¬ (i : ℤ) - dev.receiveProcessors.length < 0 := by omega
    have hindex : ((i : ℤ) - dev.receiveProcessors.length).toNat =
        i - dev.receiveProcessors.length := by omega
    simp only [startstopStreamByIndex, if_neg hge, if_pos hlt, if_neg hnonneg, hindex, hp,
      Option.map_some]

section Started

variable {k : Fin 64} {p : Processor}

theorem StartedOn.ne_noChannel (h : StartedOn dev dev₁ dir n k p c) :
    BitVec.ofInt 32 c ≠ noChannel := by
  rcases h with ⟨-, rfl, -⟩ | ⟨hne, rfl, -⟩
  · exact ofInt_channel_ne k
  · rwa [BitVec.ofInt_toInt]

def Owned (dev₁ : Device) (c : ℤ) : Prop :=
  ∃ k : Fin 64, c = (k : ℕ) ∧ (dev₁.service.channels k).alloctype ≠ .free

theorem regained_used_iff (hfree : (dev.service.channels k).alloctype = .free) (k' : Fin 64) :
    ((dev.regained k).channels k').alloctype ≠ .free ↔
      (dev.service.channels k').alloctype ≠ .free := by
  rcases eq_or_ne k' k with rfl | hne
  · simp [regained, hfree, ChannelInfo.unused]
  · simp [regained, update_of_ne hne]

theorem toInt_eq_channel_iff (q : Quadlet) (k : Fin 64) :
    q.toInt = (k : ℕ) ↔ q = BitVec.ofNat 32 k := by
  constructor
  · intro h
    rw [← BitVec.ofInt_natCast, ← h, BitVec.ofInt_toInt]
  · rintro rfl
    rw [← BitVec.ofInt_natCast, toInt_ofInt_channel]

theorem StartedOn.owned_iff (h : StartedOn dev dev₁ dir n k p c)
    (hfree : (dev.service.channels k).alloctype = .free) :
    dev₁.Owned c ↔ dev.isoChannel dir n = noChannel ∨ ∃ k : Fin 64,
      dev.isoChannel dir n = BitVec.ofNat 32 k ∧ (dev.service.channels k).alloctype ≠ .free := by
  rcases h with ⟨hstopped, rfl, hservice⟩ | ⟨hne, rfl, hservice⟩
  · apply iff_of_true _ (Or.inl hstopped)
    refine ⟨k, rfl, ?_⟩
    simp [hservice, granted, ChannelInfo.generic]
  · simp only [Owned, hservice, regained_used_iff hfree, toInt_eq_channel_iff, hne, false_or]

theorem StartedOn.exists_rest (h : StartedOn dev dev₁ dir n k p c)
    (hrecorded : Recorded dev.service) (hk : (k : ℕ) < 63)
    (hlast : (dev.service.channels 63).alloctype = .free)
    (hfree : (dev.service.channels k).alloctype = .free) {k' : Fin 64} (hc : c = (k' : ℕ))
    (hused : (dev₁.service.channels k').alloctype ≠ .free) : (k' : ℕ) < 63 ∧ ∃ rest,
      dev₁.service.held = rest + (dev₁.service.channels k').resources ∧
      (dev.isoChannel dir n = noChannel → rest = dev.service.held) := by
  rcases h with ⟨hstopped, rfl, hservice⟩ | ⟨hne, rfl, hservice⟩
  · have heq : k' = k := Fin.ext (by omega)
    subst heq
    refine ⟨hk, dev.service.held, ?_, fun _ => rfl⟩
    simp [hservice, granted]
  · rw [hservice] at hused ⊢
    have hused' := (regained_used_iff hfree k').mp hused
    have hother : k' ≠ k := by
      rintro rfl
      exact hused' hfree
    obtain ⟨rest, hrest⟩ := hrecorded.exists_rest k'
    refine ⟨lt_of_used hlast hused', rest, ?_, fun hstopped => absurd hstopped hne⟩
    simp only [regained, update_of_ne hother]
    exact hrest

end Started

theorem undone_of_owned {k : Fin 64} {p q : Processor} (hrunning : Running dev dev₁ .capture n c)
    (hstarted : StartedOn dev dev₁ .capture n k p c) (hsnoop : dev.snoopMode = false)
    (hregister : dev.HasRegister .capture n) (henv : env.Succeeds)
    (hrecorded : Recorded dev.service) (hk : (k : ℕ) < 63)
    (hlast : (dev.service.channels 63).alloctype = .free)
    (hfree : (dev.service.channels k).alloctype = .free)
    (hq : (dev₁.processors .capture)[n]? = some q) (howned : dev₁.Owned c) :
    ∃ dev₂, dev₁.stopStream env .capture n q = (dev₂, true) ∧ Undone dev dev₁ dev₂ .capture n := by
  obtain ⟨k', rfl, hused⟩ := howned
  obtain ⟨hk', rest, hrest, hbalanced⟩ := hstarted.exists_rest hrecorded hk hlast hfree rfl hused
  obtain ⟨dev₂, hstop, hlayout, hregisters, hservice⟩ :=
    stopStream_capture hrunning hsnoop hregister henv hq hk' hused hrest
  refine ⟨dev₂, hstop, ?_⟩
  constructor
  · intro r hr
    rw [hrunning.registers, update_of_ne hr]
  · rw [isoChannel, hlayout.isoRegister, hlayout.order, hregisters, update_self,
      condSwapFromBus32_condSwapToBus32]
  · intro r hr
    rw [hregisters, update_of_ne hr]
  · refine ⟨k', hrunning.channel, hused, ?_, ?_⟩
    · simp [hservice, ChannelInfo.unused]
    · rw [hservice, hrest]
  · intro hstopped
    rw [hservice, hbalanced hstopped]

theorem owned_of_undone {dev₂ : Device} {q : Processor} (hrunning : Running dev dev₁ dir n c)
    (hq : (dev₁.processors dir)[n]? = some q) (h : Undone dev dev₁ dev₂ dir n) :
    dev₁.Owned c := by
  obtain ⟨k, hchannel, hused, -, -⟩ := h.returned
  exact ⟨k, (hrunning.channel q hq).symm.trans (hchannel q hq), hused⟩

theorem startStop_stream_iff (hsnoop : dev.snoopMode = false) (hlaid : dev.WellLaidOut)
    (hrecorded : Recorded dev.service) (hlast : (dev.service.channels 63).alloctype = .free)
    (henv : env.Succeeds) (henv' : env'.Succeeds) {k : Fin 64}
    (hfirst : dev.service.firstGranted env.allocate = some (k : ℕ))
    (hn : n < (dev.processors dir).length) (p : Processor) :
    ∃ dev₁, dev.startStream env dir n p = (dev₁, true) ∧ dev.SameLayout dev₁ ∧
      ∀ q, (dev₁.processors dir)[n]? = some q →
        ((∃ dev₂, dev₁.stopStream env' dir n q = (dev₂, true) ∧ Undone dev dev₁ dev₂ dir n) ↔
          dir = .capture ∧ (dev.isoChannel dir n = noChannel ∨
            ∃ k : Fin 64, dev.isoChannel dir n = BitVec.ofNat 32 k ∧
              (dev.service.channels k).alloctype ≠ .free)) := by
  have hregister := hlaid.reachable dir n hn
  have hfree := hrecorded.free_of_granted (channelGranted_of_first hfirst)
  obtain ⟨dev₁, c, hstart, hrunning, hstarted⟩ :=
    startStream_startedOn hsnoop hregister henv hfirst p
  refine ⟨dev₁, hstart, hrunning.layout, fun q hq => ?_⟩
  rw [← hstarted.owned_iff hfree]
  cases dir with
  | capture =>
    constructor
    · rintro ⟨dev₂, -, hundone⟩
      exact ⟨rfl, owned_of_undone hrunning hq hundone⟩
    · rintro ⟨-, howned⟩
      exact undone_of_owned hrunning hstarted hsnoop hregister henv' hrecorded
        (firstGranted_lt hfirst) hlast hfree hq howned
  | playback =>
    apply iff_of_false _ (by simp)
    rintro ⟨dev₂, hstop, hundone⟩
    have hapart : dev.HasRegister .capture n →
        dev.isoRegister .playback n ≠ dev.isoRegister .capture n := by
      intro hcapture heq
      have hdir := (hlaid.apart _ _ _ _ hregister hcapture heq).1
      contradiction
    have hkept := stopStream_playback hrunning hsnoop hregister henv'.readOk hapart hq hstop
    exact hstarted.ne_noChannel (hkept.symm.trans hundone.reset)

/-- Starting and stopping a stream leaves no trace just for capture streams that were stopped, or
that were running on a channel of ours. -/
theorem startStop_undone_iff (hsnoop : dev.snoopMode = false) (hlaid : dev.WellLaidOut)
    (hrecorded : Recorded dev.service) (hlast : (dev.service.channels 63).alloctype = .free)
    (henv : env.Succeeds) (henv' : env'.Succeeds)
    (hgranted : (dev.service.firstGranted env.allocate).isSome)
    (hi : i < dev.receiveProcessors.length + dev.transmitProcessors.length) :
    (∃ dev₁ dev₂, dev.startStreamByIndex env i = some (dev₁, true) ∧
      dev₁.stopStreamByIndex env' i = some (dev₂, true) ∧
      Undone dev dev₁ dev₂ (dev.streamAt i).1 (dev.streamAt i).2) ↔
    i < dev.receiveProcessors.length ∧ (dev.isoChannel .capture i = noChannel ∨
      ∃ k : Fin 64, dev.isoChannel .capture i = BitVec.ofNat 32 k ∧
        (dev.service.channels k).alloctype ≠ .free) := by
  obtain ⟨c₀, hfirst⟩ := Option.isSome_iff_exists.mp hgranted
  obtain ⟨k, rfl⟩ : ∃ k : Fin 64, c₀ = (k : ℕ) :=
    ⟨⟨c₀, (firstGranted_lt hfirst).trans (by decide)⟩, rfl⟩
  obtain ⟨p, -, hstartIndex⟩ := startstopStreamByIndex_eq env hi true
  obtain ⟨dev₁, hstart, hlayout, hstop⟩ := startStop_stream_iff hsnoop hlaid hrecorded hlast henv
    henv' hfirst (streamAt_lt hi) p
  have hi₁ : i < dev₁.receiveProcessors.length + dev₁.transmitProcessors.length := by
    have hreceive := hlayout.length .capture
    have htransmit := hlayout.length .playback
    simp only [processors] at hreceive htransmit
    omega
  obtain ⟨q, hq, hstopIndex⟩ := startstopStreamByIndex_eq env' hi₁ false
  rw [hlayout.streamAt] at hq hstopIndex
  rw [if_pos rfl, hstart] at hstartIndex
  have hpair := hstop q hq
  rw [streamAt_eq_capture_iff] at hpair
  calc
    _ ↔ ∃ dev₂, dev₁.stopStream env' (dev.streamAt i).1 (dev.streamAt i).2 q = (dev₂, true) ∧
        Undone dev dev₁ dev₂ (dev.streamAt i).1 (dev.streamAt i).2 := by
      simp only [startStreamByIndex, hstartIndex, Option.some.injEq, Prod.mk.injEq, and_true]
      constructor
      · rintro ⟨_, dev₂, rfl, hstopped, hundone⟩
        rw [stopStreamByIndex, hstopIndex, Option.some.injEq] at hstopped
        exact ⟨dev₂, hstopped, hundone⟩
      · rintro ⟨dev₂, hstopped, hundone⟩
        exact ⟨dev₁, dev₂, rfl, hstopIndex.trans (congrArg some hstopped), hundone⟩
    _ ↔ _ := by
      rw [hpair]
      apply and_congr_right
      intro hcapture
      rw [show dev.streamAt i = (.capture, i) from if_pos hcapture]

/-- A device with one stream in each direction; the playback stream is stopped. -/
def smallDevice (captureChannel : Quadlet) : Device where
  order := .littleEndian
  tx := ⟨0x100, 0x40, 1, 0x40⟩
  rx := ⟨0x200, 0x40, 1, 0x40⟩
  registers r :=
    condSwapToBus32 .littleEndian (if r = registerIndex 0x108 then captureChannel else noChannel)
  receiveProcessors := [⟨64, -1⟩]
  transmitProcessors := [⟨64, -1⟩]
  service := .init
  snoopMode := false

def succeeding : Environment where
  readOk := true
  writeOk := true
  allocate := ⟨fun _ => true, true, true, true, fun _ _ _ _ => ⟨-1, -1, -1, 0⟩, true⟩
  deallocate := ⟨fun _ => true, true, true, true, fun _ _ _ _ => ⟨-1, -1, -1, 0⟩, true⟩
  deallocateReused := ⟨fun _ => true, true, true, true, fun _ _ _ _ => ⟨-1, -1, -1, 0⟩, true⟩

theorem succeeding_succeeds : succeeding.Succeeds :=
  ⟨rfl, rfl, rfl, ⟨rfl, rfl, rfl⟩⟩

theorem HasRegister.lt (h : dev.HasRegister dir n) : n < (dev.bank dir).nb.toNat := by
  by_contra hge
  rw [HasRegister, streamOffset, Bank.streamOffset, Bank.offsetGen] at h
  simp only [if_pos (not_lt.mp hge), ite_self, invalidOffset] at h
  omega

theorem streamOffset_smallDevice (captureChannel : Quadlet) (dir : StreamDirection) :
    (smallDevice captureChannel).streamOffset dir 0 isocBase =
      if dir = .capture then 0x108 else 0x208 := by
  cases dir <;> simp [streamOffset, bank, smallDevice, Bank.streamOffset, Bank.offsetGen, isocBase]

theorem wellLaidOut_smallDevice (captureChannel : Quadlet) :
    (smallDevice captureChannel).WellLaidOut := by
  have hzero : ∀ {dir n}, (smallDevice captureChannel).HasRegister dir n → n = 0 := by
    intro dir n h
    cases dir <;> exact Nat.lt_one_iff.mp h.lt
  constructor
  · intro dir n hn
    have hn0 : n = 0 := by cases dir <;> exact Nat.lt_one_iff.mp hn
    subst hn0
    rw [HasRegister, streamOffset_smallDevice]
    cases dir <;> decide
  · intro dir n dir' n' h h' heq
    rw [hzero h, hzero h', isoRegister, isoRegister, streamOffset_smallDevice,
      streamOffset_smallDevice] at heq
    refine ⟨?_, (hzero h).trans (hzero h').symm⟩
    cases dir <;> cases dir' <;> first | rfl | exact absurd heq (by decide)

theorem startStop_undone_iff_smallDevice :
    ∃ dev₁ dev₂, (smallDevice noChannel).startStreamByIndex succeeding 0 = some (dev₁, true) ∧
      dev₁.stopStreamByIndex succeeding 0 = some (dev₂, true) ∧
      Undone (smallDevice noChannel) dev₁ dev₂ .capture 0 :=
  (startStop_undone_iff (i := 0) rfl (wellLaidOut_smallDevice _) recorded_init rfl
    succeeding_succeeds succeeding_succeeds (by decide) (by decide)).mpr
    ⟨by decide, Or.inl (by decide)⟩

/-- The playback stream stays on its channel, and the capture stream loses its own. -/
theorem wrong_register_reset :
    ∃ dev₁ dev₂, (smallDevice 5).startStreamByIndex succeeding 1 = some (dev₁, true) ∧
      dev₁.stopStreamByIndex succeeding 1 = some (dev₂, true) ∧
      dev₂.isoChannel .playback 0 = 0 ∧
      (smallDevice 5).isoChannel .capture 0 = 5 ∧ dev₂.isoChannel .capture 0 = noChannel := by
  refine ⟨_, _, rfl, rfl, ?_, ?_, ?_⟩
  · decide
  · decide
  · decide

end ByIndex

end Device

end Ffado.Dice
