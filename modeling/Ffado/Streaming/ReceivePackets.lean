import Ffado.Streaming.StateChange

/-!
# Received packets

Three subclasses read packets from a device: AMDTP, MOTU and RME. Each one decides in
`processPacketHeader` whether it takes a packet, and then derives the number of frames to store
in `processPacketData`, from other fields of the packet. The buffer below accepts only blocks of
its update period, with a time on the clock; it stops the process otherwise. `Safe` says what a
call of the buffer must be like, and the results say which packets lead to such calls.

The bytes of a packet are those at `data`; nothing is known of the memory behind them.
-/
namespace Ffado

open CircularMemory CycleTimer MachineInt Postcondition

def byteAt (data : ℕ → UInt8) (i : ℕ) : ℕ := (data i).toNat

/-- A quadlet of a packet, in bus byte order. -/
def quadletAt (data : ℕ → UInt8) (i : ℕ) : ℕ :=
  ((byteAt data i * 256 + byteAt data (i + 1)) * 256 + byteAt data (i + 2)) * 256 +
    byteAt data (i + 3)

def getBits (d start len : ℕ) : ℕ := (d >>> (start - len + 1)) &&& ((1 <<< len) - 1)

/-- The call of the buffer with which a subclass stores the frames of a packet. -/
structure WriteCall where
  nframes : ℕ
  offset : ℕ
  deriving DecidableEq, Repr

namespace WriteCall

def perform (call : WriteCall) (sp : StreamProcessor) (data : ℕ → UInt8) :
    Option (StreamProcessor × ChildReturnValue) := do
  let (tb, result) ←
    sp.dataBuffer.writeFrames call.nframes (pointer data call.offset) sp.lastTimestamp
  some ({ sp with dataBuffer := tb }, if result then .ok else .xRun)

/-- The packet covers the frames, there are as many as the buffer expects, and their time is on
the clock. -/
structure Safe (call : WriteCall) (sp : StreamProcessor) (length : ℕ) : Prop where
  covered : call.offset + call.nframes * sp.dataBuffer.frameBytes ≤ length
  regular : call.nframes = sp.dataBuffer.updatePeriod
  inRange : sp.lastTimestamp < maxTicks

end WriteCall

/-- The buffer is set up for a subclass with the given size of a frame and frames per packet. -/
structure StreamProcessor.Configured (sp : StreamProcessor) (frameBytes nframes : ℕ) : Prop where
  frameBytes_eq : sp.dataBuffer.frameBytes = frameBytes
  updatePeriod_eq : sp.dataBuffer.updatePeriod = nframes
  wrapAt_eq : sp.dataBuffer.wrapAt = maxTicks
  ring : sp.dataBuffer.eventBuffer.isSome

/-- The interval is not zero: the buffer asserts that its update period is not. -/
structure AmdtpReceive where
  dimension : ℕ
  sytInterval : ℕ
  sytInterval_pos : 0 < sytInterval

namespace AmdtpReceive

variable (a : AmdtpReceive)

/-! The fields of `iec61883_packet`. -/

def dbs (data : ℕ → UInt8) : ℕ := byteAt data 1
def fmt (data : ℕ → UInt8) : ℕ := byteAt data 4 % 64
def fdf (data : ℕ → UInt8) : ℕ := byteAt data 5
def syt (data : ℕ → UInt8) : ℕ := byteAt data 6 * 256 + byteAt data 7

def processPacketHeader (sp : StreamProcessor) (data : ℕ → UInt8) (length pktCtr : ℕ) :
    StreamProcessor × ChildReturnValue :=
  if syt data ≠ 0xFFFF ∧ fdf data ≠ 0xFF ∧ fmt data = 0x10 ∧ dbs data > 0 ∧ length ≥ 2 * 4 then
    ({ sp with lastTimestamp := sytRecvToFullTicks2 (syt data) pktCtr }, .ok)
  else (sp, .invalid)

/-- The known rates have a fixed number of events; only for others the length counts. -/
def nevents (data : ℕ → UInt8) (length : ℕ) : ℕ :=
  if fdf data ≤ 0x02 then 8
  else if fdf data ≤ 0x04 then 16
  else if fdf data ≤ 0x06 then 32
  else (length / 4 - 2) / dbs data

/-- A debug message divides by the number of events. -/
def dataCall (data : ℕ → UInt8) (length : ℕ) : Option WriteCall :=
  if nevents data length = 0 then none else some ⟨nevents data length, 8⟩

def processPacketData (sp : StreamProcessor) (data : ℕ → UInt8) (length : ℕ) :
    Option (StreamProcessor × ChildReturnValue) := do
  let call ← dataCall data length
  call.perform sp data

/-- The packet is of the rate that the stream was prepared for, or of an unknown rate with the
right number of events, and as long as that takes. -/
structure WellFormed (data : ℕ → UInt8) (length : ℕ) : Prop where
  rate : fdf data ≤ 2 ∧ a.sytInterval = 8 ∨ fdf data ∈ Set.Icc 3 4 ∧ a.sytInterval = 16 ∨
    fdf data ∈ Set.Icc 5 6 ∧ a.sytInterval = 32 ∨
    7 ≤ fdf data ∧ (length / 4 - 2) / dbs data = a.sytInterval
  length_ge : 8 + a.sytInterval * (4 * a.dimension) ≤ length

theorem nevents_eq_iff (data : ℕ → UInt8) (length n : ℕ) :
    nevents data length = n ↔ fdf data ≤ 2 ∧ n = 8 ∨ fdf data ∈ Set.Icc 3 4 ∧ n = 16 ∨
      fdf data ∈ Set.Icc 5 6 ∧ n = 32 ∨ 7 ≤ fdf data ∧ (length / 4 - 2) / dbs data = n := by
  simp only [nevents, Set.mem_Icc]
  split_ifs <;> omega

variable {a} {sp sp' : StreamProcessor} {data : ℕ → UInt8} {length pktCtr : ℕ}

theorem processPacketHeader_ok (h : processPacketHeader sp data length pktCtr = (sp', .ok)) :
    sp'.dataBuffer = sp.dataBuffer ∧ sp'.lastTimestamp < maxTicks := by
  simp only [processPacketHeader] at h
  split_ifs at h
  · cases h
    exact ⟨rfl, sytToFullTicks_lt _ (cycleTimerGetCycles_lt pktCtr) (cycleTimerGetSecs_lt pktCtr)⟩
  · cases h

theorem safe_iff (hconf : sp.Configured (4 * a.dimension) a.sytInterval)
    (h : processPacketHeader sp data length pktCtr = (sp', .ok)) :
    (∃ call, dataCall data length = some call ∧ call.Safe sp' length) ↔
      a.WellFormed data length := by
  obtain ⟨hbuffer, htime⟩ := processPacketHeader_ok h
  have hpos := a.sytInterval_pos
  constructor
  · rintro ⟨call, hcall, hcovered, hregular, -⟩
    unfold dataCall at hcall
    split_ifs at hcall with hzero
    cases hcall
    rw [hbuffer, hconf.updatePeriod_eq] at hregular
    rw [hbuffer, hconf.frameBytes_eq, show (WriteCall.mk _ 8).nframes = a.sytInterval from hregular]
      at hcovered
    exact ⟨(nevents_eq_iff _ _ _).mp hregular, hcovered⟩
  · rintro ⟨hrate, hlength⟩
    have hnevents := (nevents_eq_iff data length _).mpr hrate
    refine ⟨⟨a.sytInterval, 8⟩, ?_, ?_, ?_, htime⟩
    · rw [dataCall, hnevents, if_neg (by omega)]
    · rw [hbuffer, hconf.frameBytes_eq]
      exact hlength
    · rw [hbuffer, hconf.updatePeriod_eq]

end AmdtpReceive

structure MotuReceive where
  eventSize : ℕ
  nominalRate : ℕ
  eventSize_pos : 0 < eventSize

namespace MotuReceive

variable (m : MotuReceive)

def getNominalFramesPerPacket : ℕ :=
  if m.nominalRate ≤ 48000 then 8 else if m.nominalRate ≤ 96000 then 16 else 32

/-- The second that a timestamp of the device belongs to. -/
def sphSecond (sph ctNow : ℕ) : ℕ :=
  let nowCycles := cycleTimerGetCycles ctNow
  let tsSec := cycleTimerGetSecs ctNow
  if cycleTimerGetCycles sph > nowCycles + 1000 then previousSecond tsSec
  else if nowCycles > cycleTimerGetCycles sph + 1000 then if tsSec = 127 then 0 else tsSec + 1
  else tsSec

def sphRecvToFullTicks (sph ctNow : ℕ) : ℕ :=
  u32 (cycleTimerToTicks (sph &&& 0x1FFFFFF) + sphSecond sph ctNow * ticksPerSecond)

/-- With no event at all, the timestamp is read far behind the packet. -/
def lastSph (data : ℕ → UInt8) (length : ℕ) : ℕ :=
  let nevents := (length - 8) / m.eventSize
  quadletAt data (8 + u32 (u32 (nevents + (2 ^ 32 - 1)) * m.eventSize))

def processPacketHeader (sp : StreamProcessor) (data : ℕ → UInt8) (length tag ctNow : ℕ) :
    StreamProcessor × ChildReturnValue :=
  if length > 8 then
    let dbs := getBits (quadletAt data 0) 23 8
    let fdfSize := if getBits (quadletAt data 4) 23 8 = 0x22 then 32 else 0
    if tag ≠ 1 ∨ (fdfSize ≠ 32 ∧ fdfSize ≠ 0) ∨ dbs = 0 then (sp, .invalid)
    else ({ sp with lastTimestamp := sphRecvToFullTicks (m.lastSph data length) ctNow }, .ok)
  else (sp, .invalid)

def dataCall (length : ℕ) : WriteCall := ⟨(length - 8) / m.eventSize, 8⟩

def processPacketData (sp : StreamProcessor) (data : ℕ → UInt8) (length : ℕ) :
    Option (StreamProcessor × ChildReturnValue) :=
  (m.dataCall length).perform sp data

/-- The packet has the right number of events, and the time of the last one is within its
second, unless that is not the last second of the clock. -/
structure WellFormed (data : ℕ → UInt8) (length ctNow : ℕ) : Prop where
  events : (length - 8) / m.eventSize = m.getNominalFramesPerPacket
  time : cycleTimerGetCycles (m.lastSph data length) * ticksPerCycle +
      cycleTimerGetOffset (m.lastSph data length) < ticksPerSecond ∨
    sphSecond (m.lastSph data length) ctNow ≠ 127

theorem sphSecond_lt (sph ctNow : ℕ) : sphSecond sph ctNow < 128 := by
  have hs := cycleTimerGetSecs_lt ctNow
  simp only [sphSecond, previousSecond]
  split_ifs <;> omega

theorem cycleTimerToTicks_sph (sph : ℕ) :
    cycleTimerToTicks (sph &&& 0x1FFFFFF) =
      cycleTimerGetCycles sph * ticksPerCycle + cycleTimerGetOffset sph := by
  rw [show 0x1FFFFFF = 2 ^ 25 - 1 from rfl, Nat.and_two_pow_sub_one_eq_mod]
  simp only [cycleTimerToTicks, cycleTimerGetSecs_eq, cycleTimerGetCycles_eq,
    cycleTimerGetOffset_eq, ticksPerSecond, ticksPerCycle]
  omega

theorem sphRecvToFullTicks_lt_iff (sph ctNow : ℕ) :
    sphRecvToFullTicks sph ctNow < maxTicks ↔
      cycleTimerGetCycles sph * ticksPerCycle + cycleTimerGetOffset sph < ticksPerSecond ∨
        sphSecond sph ctNow ≠ 127 := by
  have hs := sphSecond_lt sph ctNow
  have hc := cycleTimerGetCycles_lt sph
  have ho := cycleTimerGetOffset_lt sph
  rw [sphRecvToFullTicks, cycleTimerToTicks_sph]
  simp only [maxTicks, ticksPerSecond, ticksPerCycle]
  rw [u32_of_lt (by omega)]
  omega

variable {m} {sp sp' : StreamProcessor} {data : ℕ → UInt8} {length tag ctNow : ℕ}

theorem processPacketHeader_ok (h : m.processPacketHeader sp data length tag ctNow = (sp', .ok)) :
    8 < length ∧
      sp' = { sp with lastTimestamp := sphRecvToFullTicks (m.lastSph data length) ctNow } := by
  simp only [processPacketHeader] at h
  split_ifs at h with hlength <;> cases h <;> exact ⟨hlength, rfl⟩

theorem safe_iff (hconf : sp.Configured m.eventSize m.getNominalFramesPerPacket)
    (h : m.processPacketHeader sp data length tag ctNow = (sp', .ok)) :
    (m.dataCall length).Safe sp' length ↔ m.WellFormed data length ctNow := by
  obtain ⟨hlength, rfl⟩ := processPacketHeader_ok h
  constructor
  · rintro ⟨-, hregular, htime⟩
    exact ⟨hregular.trans hconf.updatePeriod_eq, (sphRecvToFullTicks_lt_iff _ _).mp htime⟩
  · rintro ⟨hevents, htime⟩
    refine ⟨?_, hevents.trans hconf.updatePeriod_eq.symm, (sphRecvToFullTicks_lt_iff _ _).mpr htime⟩
    have hle := Nat.div_mul_le_self (length - 8) m.eventSize
    simp only [dataCall, hconf.frameBytes_eq]
    omega

end MotuReceive

def rmeReceiveTransferDelay : ℕ := 3 * ticksPerCycle

structure RmeReceive where
  eventSize : ℕ
  nominalRate : ℕ
  eventSize_pos : 0 < eventSize

namespace RmeReceive

variable (r : RmeReceive)

def getNominalFramesPerPacket : ℕ :=
  if r.nominalRate ≤ 48000 then 7 else if r.nominalRate ≤ 96000 then 15 else 25

/-- The device sends no timestamps; the time of arrival is taken, with the offset cleared. -/
def pktTimestamp (pktCtr : ℕ) : ℤ :=
  wrapAtMinMaxTicks (cycleTimerToTicks (pktCtr / 4096 * 4096) - rmeReceiveTransferDelay)

def processPacketHeader (sp : StreamProcessor) (length pktCtr : ℕ) :
    StreamProcessor × ChildReturnValue :=
  if length > 0 then
    ({ sp with lastTimestamp := (pktTimestamp pktCtr % 2 ^ 64).toNat }, .ok)
  else (sp, .invalid)

def dataCall (length : ℕ) : WriteCall := ⟨length / r.eventSize, 0⟩

def processPacketData (sp : StreamProcessor) (data : ℕ → UInt8) (length : ℕ) :
    Option (StreamProcessor × ChildReturnValue) :=
  (r.dataCall length).perform sp data

theorem pktTimestamp_range (pktCtr : ℕ) : 0 ≤ pktTimestamp pktCtr ∧
    pktTimestamp pktCtr < maxTicks := by
  have hs := cycleTimerGetSecs_lt (pktCtr / 4096 * 4096)
  have hc := cycleTimerGetCycles_lt (pktCtr / 4096 * 4096)
  have ho : cycleTimerGetOffset (pktCtr / 4096 * 4096) = 0 := by
    rw [cycleTimerGetOffset_eq, Nat.mul_mod_left]
  have hmax : maxTicks = 3145728000 := rfl
  have hticks : cycleTimerToTicks (pktCtr / 4096 * 4096) ≤ 127 * 24576000 + 8191 * 3072 := by
    simp only [cycleTimerToTicks, ho, ticksPerSecond, ticksPerCycle]
    omega
  rw [pktTimestamp, wrapAtMinMaxTicks_eq, hmax]
  · omega
  · simp only [rmeReceiveTransferDelay, ticksPerCycle, hmax]
    omega
  · simp only [rmeReceiveTransferDelay, ticksPerCycle, hmax]
    omega

variable {r} {sp sp' : StreamProcessor} {length pktCtr : ℕ}

theorem safe_iff (hconf : sp.Configured r.eventSize r.getNominalFramesPerPacket)
    (h : processPacketHeader sp length pktCtr = (sp', .ok)) :
    (r.dataCall length).Safe sp' length ↔ length / r.eventSize = r.getNominalFramesPerPacket := by
  obtain ⟨htime0, htime1⟩ := pktTimestamp_range pktCtr
  have hmax : maxTicks = 3145728000 := rfl
  simp only [processPacketHeader] at h
  split_ifs at h <;> cases h
  constructor
  · rintro ⟨-, hregular, -⟩
    exact hregular.trans hconf.updatePeriod_eq
  · intro hevents
    refine ⟨?_, hevents.trans hconf.updatePeriod_eq.symm, ?_⟩
    · have hle := Nat.div_mul_le_self length r.eventSize
      simp only [dataCall, hconf.frameBytes_eq]
      omega
    · rw [hmax] at htime1 ⊢
      simp only
      omega

end RmeReceive

/-- The receive processor of a device. -/
inductive Receiver
  | amdtp (a : AmdtpReceive)
  | motu (m : MotuReceive)
  | rme (r : RmeReceive)

/-- A packet, with the cycle timer values it is handed over with. -/
structure ReceivedPacket where
  data : ℕ → UInt8
  length : ℕ
  tag : ℕ
  pktCtr : ℕ
  ctNow : ℕ

namespace Receiver

variable (device : Receiver) (packet : ReceivedPacket)

def frameBytes : ℕ :=
  match device with
  | .amdtp a => 4 * a.dimension
  | .motu m => m.eventSize
  | .rme r => r.eventSize

def nominalFrames : ℕ :=
  match device with
  | .amdtp a => a.sytInterval
  | .motu m => m.getNominalFramesPerPacket
  | .rme r => r.getNominalFramesPerPacket

def processPacketHeader (sp : StreamProcessor) : StreamProcessor × ChildReturnValue :=
  match device with
  | .amdtp _ => AmdtpReceive.processPacketHeader sp packet.data packet.length packet.pktCtr
  | .motu m => m.processPacketHeader sp packet.data packet.length packet.tag packet.ctNow
  | .rme _ => RmeReceive.processPacketHeader sp packet.length packet.pktCtr

/-- The call of `writeFrames` in `processPacketData`, unless the process stops before it. -/
def dataCall : Option WriteCall :=
  match device with
  | .amdtp _ => AmdtpReceive.dataCall packet.data packet.length
  | .motu m => some (m.dataCall packet.length)
  | .rme r => some (r.dataCall packet.length)

/-- For AMDTP, the rate of the packet is that of the stream (or the length gives the right number
of events) and it is long enough; for MOTU, the length gives the right number of events and the
last timestamp is a time; for RME, the length gives the right number of events. -/
def WellFormed : Prop :=
  match device with
  | .amdtp a => a.WellFormed packet.data packet.length
  | .motu m => m.WellFormed packet.data packet.length packet.ctNow
  | .rme r => packet.length / r.eventSize = r.getNominalFramesPerPacket

end Receiver

/-- An accepted packet leads to a safe call of the buffer exactly if it is well formed. -/
theorem accepted_packet_safe_iff (device : Receiver) (packet : ReceivedPacket)
    {sp sp' : StreamProcessor} (hconf : sp.Configured device.frameBytes device.nominalFrames)
    (h : device.processPacketHeader packet sp = (sp', .ok)) :
    (∃ call, device.dataCall packet = some call ∧ call.Safe sp' packet.length) ↔
      device.WellFormed packet := by
  cases device with
  | amdtp a => exact AmdtpReceive.safe_iff hconf h
  | motu m => simpa [Receiver.dataCall, Receiver.WellFormed] using MotuReceive.safe_iff hconf h
  | rme r => simpa [Receiver.dataCall, Receiver.WellFormed] using RmeReceive.safe_iff hconf h

/-- A receive processor with a buffer for the given frames, whose clock has been started. -/
def receiving (frameBytes nframes : ℕ) : StreamProcessor :=
  { StreamProcessor.new .receive with
    dataBuffer := { TimestampedBuffer.new with
      eventBuffer := Ringbuffer.create 16 fun _ => 0
      eventSize := frameBytes
      eventsPerFrame := 1
      updatePeriod := nframes
      wrapAt := maxTicks
      bufferTailTimestamp := 0
      bufferNextTailTimestamp := 0 } }

theorem receiving_configured (frameBytes nframes : ℕ) :
    (receiving frameBytes nframes).Configured frameBytes nframes :=
  ⟨Nat.mul_one frameBytes, rfl, rfl, rfl⟩

/-- An AMDTP header with data block size `1`, for the given rate. -/
def amdtpHeader (fdf : UInt8) : ℕ → UInt8 := fun i => [0, 1, 0, 0, 0x90, fdf, 0x12, 0x34].getD i 0

/-- One channel at 48 kHz. -/
def monoReceive : AmdtpReceive := ⟨1, 8, by norm_num⟩

/-- A MOTU stream with events of twelve bytes, and an RME stream of one channel. -/
def motuReceive : MotuReceive := ⟨12, 48000, by norm_num⟩
def rmeReceive : RmeReceive := ⟨4, 48000, by norm_num⟩

/-- Packets of the right length for each of the streams. -/
def amdtpPacket : ReceivedPacket := ⟨amdtpHeader 2, 40, 1, 0, 0⟩
def motuPacket : ReceivedPacket := ⟨amdtpHeader 0x22, 104, 1, 0, 0⟩
def rmePacket : ReceivedPacket := ⟨fun _ => 0, 28, 1, 0, 0⟩

theorem accepted_packet_safe_iff_regular :
    (∃ call, (Receiver.amdtp monoReceive).dataCall amdtpPacket = some call ∧ call.Safe
        ((Receiver.amdtp monoReceive).processPacketHeader amdtpPacket (receiving 4 8)).1 40) ∧
      (∃ call, (Receiver.motu motuReceive).dataCall motuPacket = some call ∧ call.Safe
        ((Receiver.motu motuReceive).processPacketHeader motuPacket (receiving 12 8)).1 104) ∧
      ∃ call, (Receiver.rme rmeReceive).dataCall rmePacket = some call ∧ call.Safe
        ((Receiver.rme rmeReceive).processPacketHeader rmePacket (receiving 4 7)).1 28 := by
  have hamdtp : (Receiver.amdtp monoReceive).processPacketHeader amdtpPacket (receiving 4 8) =
      (((Receiver.amdtp monoReceive).processPacketHeader amdtpPacket (receiving 4 8)).1, .ok) :=
    Prod.ext rfl (by decide +kernel)
  have hmotu : (Receiver.motu motuReceive).processPacketHeader motuPacket (receiving 12 8) =
      (((Receiver.motu motuReceive).processPacketHeader motuPacket (receiving 12 8)).1, .ok) :=
    Prod.ext rfl (by decide +kernel)
  have hrme : (Receiver.rme rmeReceive).processPacketHeader rmePacket (receiving 4 7) =
      (((Receiver.rme rmeReceive).processPacketHeader rmePacket (receiving 4 7)).1, .ok) :=
    Prod.ext rfl (by decide +kernel)
  constructor
  · exact (accepted_packet_safe_iff _ _ (receiving_configured 4 8) hamdtp).mpr
      ⟨Or.inl ⟨by decide, rfl⟩, by decide⟩
  constructor
  · exact (accepted_packet_safe_iff _ _ (receiving_configured 12 8) hmotu).mpr
      ⟨by decide, Or.inl (by decide +kernel)⟩
  · have hframes : 28 / rmeReceive.eventSize = rmeReceive.getNominalFramesPerPacket := by decide
    exact (accepted_packet_safe_iff _ _ (receiving_configured 4 7) hrme).mpr hframes

/-- A header without a body, and a packet of another rate: both are accepted. The first makes
the buffer copy 32 bytes from behind the packet, the second stops the process. A MOTU packet
with seven events and an RME packet with six are accepted as well. -/
theorem malformed_packets_accepted :
    (AmdtpReceive.processPacketHeader (receiving 4 8) (amdtpHeader 2) 8 0).2 = .ok ∧
      AmdtpReceive.dataCall (amdtpHeader 2) 8 = some ⟨8, 8⟩ ∧ ¬ 8 + 8 * 4 ≤ 8 ∧
    (AmdtpReceive.processPacketHeader (receiving 4 8) (amdtpHeader 4) 72 0).2 = .ok ∧
      AmdtpReceive.processPacketData
        (AmdtpReceive.processPacketHeader (receiving 4 8) (amdtpHeader 4) 72 0).1
        (amdtpHeader 4) 72 = none ∧
    (motuReceive.processPacketHeader (receiving 12 8) (amdtpHeader 0x22) 92 1 0).2 = .ok ∧
      motuReceive.processPacketData
        (motuReceive.processPacketHeader (receiving 12 8) (amdtpHeader 0x22) 92 1 0).1
        (amdtpHeader 0x22) 92 = none ∧
    (RmeReceive.processPacketHeader (receiving 4 7) 24 0).2 = .ok ∧
      rmeReceive.processPacketData (RmeReceive.processPacketHeader (receiving 4 7) 24 0).1
        (fun _ => 0) 24 = none := by
  refine ⟨by decide +kernel, by decide +kernel, by decide, by decide +kernel, ?_, by decide +kernel,
    ?_, by decide +kernel, ?_⟩
  · exact Option.isNone_iff_eq_none.mp (by decide +kernel)
  · exact Option.isNone_iff_eq_none.mp (by decide +kernel)
  · exact Option.isNone_iff_eq_none.mp (by decide +kernel)

end Ffado
