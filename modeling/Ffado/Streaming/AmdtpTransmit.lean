import Ffado.Streaming.StreamProcessor

/-!
# AMDTP packet headers

The subclass for AMDTP devices decides from the time of the first frame in the buffer whether a
packet of the given cycle carries frames, and writes the header. The time at which the device
is to present the frames is sent as a SYT field of four bits of cycle and an offset, so it has
to lie less than 16 cycles after the packet.

The fields of the packet that are not written by a function keep what the memory held before.
The byte order of the SYT field and the node id of the sender are left out.
-/
namespace Ffado

open CycleTimer MachineInt

def amdtpTransmitTransferDelay : ℕ := 8704
def amdtpMinCyclesBeforePresentation : ℤ := 1
def amdtpMaxCyclesToTransmitEarly : ℤ := 1
def amdtpSendPayloadInNodataXmitByDefault : Bool := true

def iec61883FmtAmdtp : ℕ := 0x10
def iec61883TagWithCip : ℕ := 1
def iec61883FdfNodata : ℕ := 0xFF

/-- An outgoing packet: the fields of `iec61883_packet`, and what is returned beside it. -/
structure TransmitPacket where
  eoh0 : ℕ
  dbs : ℕ
  fn : ℕ
  qpc : ℕ
  sph : ℕ
  reserved : ℕ
  dbc : ℕ
  eoh1 : ℕ
  fmt : ℕ
  fdf : ℕ
  syt : ℕ
  length : ℕ
  tag : ℕ
  sy : ℕ
  deriving DecidableEq, Repr

/-- The number of events is one that `getSytInterval` returns, and the dimension one that the
size field of the header can express. -/
structure AmdtpTransmit where
  base : StreamProcessor
  dimension : ℕ
  sytInterval : ℕ
  fdf : ℕ
  dbc : ℕ
  sendNodataPayload : Bool
  maxCyclesToTransmitEarly : ℤ
  transmitTransferDelay : ℕ
  minCyclesBeforePresentation : ℤ
  dimension_pos : 0 < dimension
  dimension_le : dimension ≤ 255
  sytInterval_le : sytInterval ≤ 32

namespace AmdtpTransmit

variable {d : ℕ}

/-- The constructor. The interval is set when the processor is prepared. -/
def new (dimension : ℕ) (hpos : 0 < dimension) (hle : dimension ≤ 255) : AmdtpTransmit where
  base := .new .transmit
  dimension := dimension
  sytInterval := 0
  fdf := 0
  dbc := 0
  sendNodataPayload := amdtpSendPayloadInNodataXmitByDefault
  maxCyclesToTransmitEarly := amdtpMaxCyclesToTransmitEarly
  transmitTransferDelay := amdtpTransmitTransferDelay
  minCyclesBeforePresentation := amdtpMinCyclesBeforePresentation
  dimension_pos := hpos
  dimension_le := hle
  sytInterval_le := by norm_num

def getSytInterval (nominalRate : ℕ) : ℕ :=
  if nominalRate = 32000 ∨ nominalRate = 44100 ∨ nominalRate = 48000 then 8
  else if nominalRate = 88200 ∨ nominalRate = 96000 then 16
  else if nominalRate = 176400 ∨ nominalRate = 192000 then 32
  else 0

def getFDF (nominalRate : ℕ) : ℕ :=
  if nominalRate = 32000 then 0
  else if nominalRate = 44100 then 1
  else if nominalRate = 48000 then 2
  else if nominalRate = 88200 then 3
  else if nominalRate = 96000 then 4
  else if nominalRate = 176400 then 5
  else if nominalRate = 192000 then 6
  else 0

theorem getSytInterval_le (nominalRate : ℕ) : getSytInterval nominalRate ≤ 32 := by
  unfold getSytInterval
  split_ifs <;> norm_num

variable (x : AmdtpTransmit)

/-- The part of `prepareChild` that concerns the headers. -/
def prepareChild (nominalRate : ℕ) : AmdtpTransmit :=
  { x with
    sytInterval := getSytInterval nominalRate
    fdf := getFDF nominalRate
    sytInterval_le := getSytInterval_le nominalRate }

/-- The fields that all headers have in common. -/
def writeCip (packet : TransmitPacket) : TransmitPacket :=
  { packet with
    eoh0 := 0
    dbs := x.dimension % 256
    fn := 0
    qpc := 0
    sph := 0
    reserved := 0
    dbc := x.dbc % 256
    eoh1 := 2
    fmt := iec61883FmtAmdtp
    tag := iec61883TagWithCip
    sy := 0 }

def fillDataPacketHeader (packet : TransmitPacket) (ts : ℕ) : TransmitPacket × ℕ :=
  ({ packet with
    fdf := x.fdf
    syt := ticksToSyt (u32 ts)
    length := u32 (x.sytInterval * 4 * x.dimension + 8) }, x.sytInterval)

/-- A packet without frames may still carry a block of dummy events. -/
def fillNoDataPacketHeader (packet : TransmitPacket) : TransmitPacket × ℕ :=
  let packet := { packet with fdf := iec61883FdfNodata, syt := 0xFFFF }
  if x.sendNodataPayload then
    ({ packet with length := u32 (2 * 4 + x.sytInterval * x.dimension * 4) }, x.sytInterval)
  else ({ packet with length := 2 * 4 }, 0)

def announceData (packet : TransmitPacket) (presentationTime : ℕ) :
    AmdtpTransmit × TransmitPacket :=
  let (packet, nevents) := x.fillDataPacketHeader packet presentationTime
  ({ x with
    dbc := u32 (x.dbc + nevents)
    base := { x.base with lastTimestamp := presentationTime } }, packet)

def announceNoData (packet : TransmitPacket) : AmdtpTransmit × TransmitPacket :=
  let (packet, nevents) := x.fillNoDataPacketHeader (x.writeCip packet)
  ({ x with dbc := u32 (x.dbc + nevents) }, packet)

def generateSilentPacketHeader (packet : TransmitPacket) :
    AmdtpTransmit × TransmitPacket × ChildReturnValue :=
  let (x, packet) := x.announceNoData packet
  (x, packet, .packet)

def generateEmptyPacketHeader (packet : TransmitPacket) :
    AmdtpTransmit × TransmitPacket × ChildReturnValue :=
  let (x, packet) := x.announceNoData packet
  (x, packet, .ok)

/-- The time at which the first frame of the buffer is to be presented. -/
def presentationTime : ℕ :=
  (StreamProcessor.truncate x.base.dataBuffer.getBufferHeadTimestamp.1).toNat

def transmitAtTime : ℕ := substractTicks x.presentationTime x.transmitTransferDelay

def cyclesUntilPresentation (pktCtr : ℕ) : ℤ :=
  diffCycles (ticksToCycles x.presentationTime) (cycleTimerGetCycles pktCtr)

def cyclesUntilTransmit (pktCtr : ℕ) : ℤ :=
  diffCycles (ticksToCycles x.transmitAtTime) (cycleTimerGetCycles pktCtr)

def generatePacketHeader (packet : TransmitPacket) (pktCtr : ℕ) :
    AmdtpTransmit × TransmitPacket × ChildReturnValue :=
  let packet := x.writeCip packet
  let fc := x.base.dataBuffer.getBufferHeadTimestamp.2
  if fc < x.sytInterval then
    if x.cyclesUntilPresentation pktCtr ≤ x.minCyclesBeforePresentation then (x, packet, .xRun)
    else (x, packet, .again)
  else if x.cyclesUntilTransmit pktCtr < 0 then
    -- too late for the nominal transfer delay, but perhaps not for the device
    if x.cyclesUntilPresentation pktCtr ≥ x.minCyclesBeforePresentation then
      let (x', packet) := x.announceData packet x.presentationTime
      (x', packet, if fc < 2 * x.sytInterval then .defer else .packet)
    else (x, packet, .xRun)
  else if x.cyclesUntilTransmit pktCtr ≤ x.maxCyclesToTransmitEarly then
    let (x', packet) := x.announceData packet x.presentationTime
    (x', packet, if fc < x.sytInterval then .defer else .packet)
  else (x, packet, .emptyPacket)

/-- There is a block of frames, and it can be sent in this cycle. -/
def DataDue (pktCtr : ℕ) : Prop :=
  x.sytInterval ≤ x.base.dataBuffer.framecounter ∧
    (0 ≤ x.cyclesUntilTransmit pktCtr ∧
        x.cyclesUntilTransmit pktCtr ≤ x.maxCyclesToTransmitEarly ∨
      x.cyclesUntilTransmit pktCtr < 0 ∧
        x.minCyclesBeforePresentation ≤ x.cyclesUntilPresentation pktCtr)

/-- A packet with frames is announced exactly if they are due. -/
theorem generatePacketHeader_of_dataDue (packet : TransmitPacket) {pktCtr : ℕ}
    (h : x.DataDue pktCtr) : ∃ answer, (answer = .packet ∨ answer = .defer) ∧
      x.generatePacketHeader packet pktCtr =
        ((x.announceData (x.writeCip packet) x.presentationTime).1,
          (x.announceData (x.writeCip packet) x.presentationTime).2, answer) := by
  obtain ⟨hfill, ⟨hpos, hearly⟩ | ⟨hlate, hmin⟩⟩ := h
  · refine ⟨.packet, Or.inl rfl, ?_⟩
    have hnlt : ¬ x.base.dataBuffer.getBufferHeadTimestamp.2 < x.sytInterval := not_lt.mpr hfill
    simp only [generatePacketHeader, hnlt, if_false, not_lt.mpr hpos, if_pos hearly]
  · have hnlt : ¬ x.base.dataBuffer.getBufferHeadTimestamp.2 < x.sytInterval := not_lt.mpr hfill
    simp only [generatePacketHeader, hnlt, if_false, if_pos hlate, ge_iff_le, if_pos hmin]
    split_ifs
    · exact ⟨.defer, Or.inr rfl, rfl⟩
    · exact ⟨.packet, Or.inl rfl, rfl⟩

theorem generatePacketHeader_of_not_dataDue (packet : TransmitPacket) {pktCtr : ℕ}
    (h : ¬ x.DataDue pktCtr) : ∃ answer, (answer = .xRun ∨ answer = .again ∨
      answer = .emptyPacket) ∧ x.generatePacketHeader packet pktCtr =
        (x, x.writeCip packet, answer) := by
  simp only [generatePacketHeader]
  split_ifs with hfill hpres hlate hmin hfew hearly
  · exact ⟨.xRun, Or.inl rfl, rfl⟩
  · exact ⟨.again, Or.inr (Or.inl rfl), rfl⟩
  · exact absurd ⟨not_lt.mp hfill, Or.inr ⟨hlate, hmin⟩⟩ h
  · exact absurd ⟨not_lt.mp hfill, Or.inr ⟨hlate, hmin⟩⟩ h
  · exact ⟨.xRun, Or.inl rfl, rfl⟩
  · exact absurd ⟨not_lt.mp hfill, Or.inl ⟨not_lt.mp hlate, hearly⟩⟩ h
  · exact ⟨.emptyPacket, Or.inr (Or.inr rfl), rfl⟩

/-- The timing parameters that the constructor sets. -/
structure DefaultTiming : Prop where
  maxCyclesToTransmitEarly_eq : x.maxCyclesToTransmitEarly = amdtpMaxCyclesToTransmitEarly
  transmitTransferDelay_eq : x.transmitTransferDelay = amdtpTransmitTransferDelay
  minCyclesBeforePresentation_eq : x.minCyclesBeforePresentation = amdtpMinCyclesBeforePresentation

theorem ticksToCycles_substractTicks_delay {t : ℕ} (ht : t < maxTicks) :
    ∃ e, (e = 2 ∨ e = 3) ∧ ticksToCycles t =
      (ticksToCycles (substractTicks t amdtpTransmitTransferDelay) + e) % 8000 := by
  have hsub := substractTicks_eq ht (show amdtpTransmitTransferDelay ≤ maxTicks by decide)
  generalize substractTicks t amdtpTransmitTransferDelay = s at hsub
  have hmax : maxTicks = 3145728000 := rfl
  simp only [hmax, amdtpTransmitTransferDelay] at ht hsub
  simp only [ticksToCycles, ticksPerCycle, cyclesPerSecond]
  by_cases hoff : t % 3072 < 2560
  · exact ⟨3, Or.inr rfl, by omega⟩
  · exact ⟨2, Or.inl rfl, by omega⟩

variable {x} {pktCtr t : ℕ}

theorem presentationTime_eq (hhead : x.base.dataBuffer.getBufferHeadTimestamp.1 = t) :
    x.presentationTime = t := by
  simp [presentationTime, hhead, StreamProcessor.truncate]

theorem DataDue.presentation_cycle (hdue : x.DataDue pktCtr) (hdef : x.DefaultTiming)
    (ht : t < maxTicks) (htime : x.presentationTime = t) :
    ∃ d, 1 ≤ d ∧ d ≤ 4 ∧ ticksToCycles t = (cycleTimerGetCycles pktCtr + d) % 8000 := by
  obtain ⟨e, he, hcycle⟩ := ticksToCycles_substractTicks_delay ht
  have hspec := fun s => diffCycles_spec (ticksToCycles_lt s) (cycleTimerGetCycles_lt pktCtr)
  obtain ⟨hp0, hp1, hp⟩ := hspec t
  obtain ⟨hs0, hs1, hs⟩ := hspec (substractTicks t amdtpTransmitTransferDelay)
  obtain ⟨-, hwhen⟩ := hdue
  simp only [cyclesUntilTransmit, cyclesUntilPresentation, transmitAtTime, htime,
    hdef.transmitTransferDelay_eq, hdef.maxCyclesToTransmitEarly_eq,
    hdef.minCyclesBeforePresentation_eq, amdtpMaxCyclesToTransmitEarly,
    amdtpMinCyclesBeforePresentation] at hwhen
  generalize diffCycles (ticksToCycles (substractTicks t amdtpTransmitTransferDelay))
    (cycleTimerGetCycles pktCtr) = cut at *
  generalize diffCycles (ticksToCycles t) (cycleTimerGetCycles pktCtr) = cup at *
  rcases hwhen with ⟨hcut0, hcut1⟩ | ⟨hlate, hmin⟩
  · -- in time: the transfer delay comes on top of the cycles until transmission
    refine ⟨(cut + e).toNat, ?_, ?_, ?_⟩ <;> omega
  · -- late by a cycle or two, which the transfer delay makes up for
    refine ⟨cup.toNat, ?_, ?_, ?_⟩ <;> omega

/-- What a receiver makes of the SYT field, for a time up to four cycles after the packet. -/
theorem sytRecvToFullTicks2_of_cycle (hd : d ≤ 4)
    (hcycle : ticksToCycles t = (cycleTimerGetCycles pktCtr + d) % 8000) :
    sytRecvToFullTicks2 (ticksToSyt t) pktCtr =
      ((cycleCount pktCtr + d) * 3072 + ticksToOffset t) % maxTicks := by
  rw [sytRecvToFullTicks2, sytToFullTicks_ticksToSyt (cycleTimerGetCycles_lt pktCtr)
    (cycleTimerGetSecs_lt pktCtr) (hd.trans (by norm_num)) hcycle]
  rfl

theorem sytRecvToFullTicks2_mod_second (hd : d ≤ 4)
    (hcycle : ticksToCycles t = (cycleTimerGetCycles pktCtr + d) % 8000) :
    sytRecvToFullTicks2 (ticksToSyt t) pktCtr % ticksPerSecond = t % ticksPerSecond := by
  rw [sytRecvToFullTicks2_of_cycle hd hcycle]
  simp only [cycleCount, ticksToCycles, ticksToOffset, maxTicks, ticksPerSecond, ticksPerCycle,
    cyclesPerSecond] at *
  omega

theorem sytRecvToFullTicks2_of_near (hd : d ≤ 4) (ht : t < maxTicks)
    (hcycle : ticksToCycles t = (cycleTimerGetCycles pktCtr + d) % 8000)
    (hnear : |Int.bmod (t - cycleTimerToTicks pktCtr) maxTicks| < ticksPerSecond / 2) :
    sytRecvToFullTicks2 (ticksToSyt t) pktCtr = t := by
  have hoff := cycleTimerGetOffset_lt pktCtr
  have hturn := Int.bmod_add_bdiv (t - cycleTimerToTicks pktCtr : ℤ) maxTicks
  have hmax : maxTicks = 3145728000 := rfl
  rw [abs_lt] at hnear
  rw [sytRecvToFullTicks2_of_cycle hd hcycle]
  rw [cycleTimerToTicks_eq] at hturn hnear
  generalize Int.bmod _ maxTicks = near at hturn hnear
  generalize Int.bdiv _ maxTicks = turns at hturn
  simp only [cycleCount, ticksToCycles, ticksToOffset, hmax, ticksPerSecond, ticksPerCycle,
    cyclesPerSecond] at *
  push_cast at *
  omega

theorem announceData_syt (packet : TransmitPacket) (ht : t < maxTicks) :
    (x.announceData packet t).2.syt = ticksToSyt t := by
  have hu : u32 t = t := u32_of_lt (ht.trans (by decide))
  simp [announceData, fillDataPacketHeader, hu]

theorem dataDue_of_transmitCycle (hdef : x.DefaultTiming)
    (hfill : x.sytInterval ≤ x.base.dataBuffer.framecounter)
    (hcycle : ticksToCycles x.transmitAtTime = cycleTimerGetCycles pktCtr) : x.DataDue pktCtr := by
  have hzero : x.cyclesUntilTransmit pktCtr = 0 := by
    rw [cyclesUntilTransmit, hcycle]
    simp [diffCycles, cyclesPerSecond]
  refine ⟨hfill, Or.inl ⟨hzero.ge, ?_⟩⟩
  rw [hzero, hdef.maxCyclesToTransmitEarly_eq]
  decide

/-- With the default timing, every packet that announces frames is presented one to fifteen
cycles after it is sent, and its SYT field gives the receiver back the presentation time: up to
whole seconds always, and exactly if the first frame is within half a second of the packet. A
block whose transmit cycle is that of the packet is announced. -/
theorem presentation_time_recoverable (x : AmdtpTransmit) (packet : TransmitPacket) (pktCtr t : ℕ)
    (hdef : x.DefaultTiming) (ht : t < maxTicks)
    (hhead : x.base.dataBuffer.getBufferHeadTimestamp.1 = t) {x' : AmdtpTransmit}
    {packet' : TransmitPacket} {answer : ChildReturnValue}
    (hgen : x.generatePacketHeader packet pktCtr = (x', packet', answer)) :
    (answer = .packet ∨ answer = .defer →
      (∃ d, 1 ≤ d ∧ d ≤ 15 ∧
        ticksToCycles x'.base.lastTimestamp = (cycleTimerGetCycles pktCtr + d) % 8000) ∧
      sytRecvToFullTicks2 packet'.syt pktCtr % ticksPerSecond =
        x'.base.lastTimestamp % ticksPerSecond ∧
      (|Int.bmod (t - cycleTimerToTicks pktCtr) maxTicks| < ticksPerSecond / 2 →
        sytRecvToFullTicks2 packet'.syt pktCtr = x'.base.lastTimestamp)) ∧
    (x.sytInterval ≤ x.base.dataBuffer.framecounter →
      ticksToCycles x.transmitAtTime = cycleTimerGetCycles pktCtr →
      answer ≠ .emptyPacket ∧ answer ≠ .xRun) := by
  have htime := presentationTime_eq hhead
  by_cases hdue : x.DataDue pktCtr
  · obtain ⟨answer', hanswer, heq⟩ := x.generatePacketHeader_of_dataDue packet hdue
    rw [heq, htime] at hgen
    obtain ⟨rfl, hrest⟩ := Prod.mk.inj hgen
    obtain ⟨rfl, rfl⟩ := Prod.mk.inj hrest
    obtain ⟨d, hd1, hd4, hcycle⟩ := hdue.presentation_cycle hdef ht htime
    have hlast : (x.announceData (x.writeCip packet) t).1.base.lastTimestamp = t := rfl
    rw [announceData_syt _ ht, hlast]
    refine ⟨fun _ => ⟨⟨d, hd1, by omega, hcycle⟩, sytRecvToFullTicks2_mod_second hd4 hcycle,
      sytRecvToFullTicks2_of_near hd4 ht hcycle⟩, fun _ _ => ?_⟩
    rcases hanswer with rfl | rfl <;> simp
  · obtain ⟨answer', hanswer, heq⟩ := x.generatePacketHeader_of_not_dataDue packet hdue
    rw [heq] at hgen
    obtain ⟨rfl, hrest⟩ := Prod.mk.inj hgen
    obtain ⟨rfl, rfl⟩ := Prod.mk.inj hrest
    constructor
    · intro hsent
      rcases hanswer with rfl | rfl | rfl <;> simp at hsent
    · intro hfill hcycle
      exact absurd (dataDue_of_transmitCycle hdef hfill hcycle) hdue

/-- A stream of two channels with a block of frames for cycle 10. -/
def blockForCycleTen : AmdtpTransmit :=
  let x := (new 2 (by norm_num) (by norm_num)).prepareChild 48000
  { x with
    base := { x.base with
      state := .running
      nextState := .running
      dataBuffer := { x.base.dataBuffer with
        framecounter := 8
        currentRate := 512
        bufferTailTimestamp := 34816 } } }

def blankPacket : TransmitPacket := ⟨0, 0, 0, 0, 0, 0, 0, 0, 0, 0, 0, 0, 0, 0⟩

/-- The block leaves in cycle 7, and the receiver reads the time back. -/
theorem presentation_time_recoverable_cycleSeven :
    sytRecvToFullTicks2
      (blockForCycleTen.generatePacketHeader blankPacket (7 <<< 12)).2.1.syt
        (7 <<< 12) = 30720 := by
  have hsent : (blockForCycleTen.generatePacketHeader blankPacket (7 <<< 12)).2.2 = .packet := by
    decide +kernel
  have hnear : |Int.bmod ((30720 : ℕ) - cycleTimerToTicks (7 <<< 12)) maxTicks| <
      ticksPerSecond / 2 := by decide +kernel
  have hhead : blockForCycleTen.base.dataBuffer.getBufferHeadTimestamp.1 = (30720 : ℕ) := by
    decide +kernel
  have hlast : (blockForCycleTen.generatePacketHeader blankPacket (7 <<< 12)).1.base.lastTimestamp =
      30720 := by decide +kernel
  rw [← hlast]
  exact ((presentation_time_recoverable blockForCycleTen blankPacket (7 <<< 12) 30720
    ⟨rfl, rfl, rfl⟩ (by decide) hhead rfl).1 (Or.inl hsent)).2.2 hnear

end AmdtpTransmit
end Ffado
