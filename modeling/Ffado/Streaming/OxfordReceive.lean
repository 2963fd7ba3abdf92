import Ffado.Ieee1394.CycleTimer
import Ffado.Lib.LabelledRun
import Ffado.Streaming.ReceivePackets
import Ffado.Util.Ringbuffer

/-!
# From non-blocking to blocking transmission

Oxford devices send as many frames in a packet as they have. The receive processor collects
them in a temporary ring and hands on a payload of `syt_interval` frames as soon as it
believes that there are enough. The test counts four quadlets per frame, whatever the
dimension, and takes the frames that were in the ring before the packet came. What is read
from the ring is not looked at: with too few frames in it the end of the payload is that of
an earlier one.
-/
namespace Ffado

open CircularMemory CycleTimer LabelledRun

def dllBandwidthHz : ℚ := 1

/-- The value of a timestamp that is to be generated. -/
def noTimestamp : ℕ := 0xFFFFFFFF

structure AmdtpOxfordReceive (dimension : ℕ) where
  sytInterval : ℕ
  tempBuffer : Ringbuffer
  payloadBuffer : ℕ → UInt8
  nextPacketTimestamp : ℕ
  expectedTimeOfReceive : ℕ
  lastTimestamp : ℕ
  nominalTicksPerFrame : ℚ
  dllE2 : ℚ
  dllB : ℚ
  dllC : ℚ
  dimension_pos : 0 < dimension

namespace AmdtpOxfordReceive

variable {dimension : ℕ} (o : AmdtpOxfordReceive dimension)

variable {nevents frames : ℕ} {payload : ℕ → UInt8}

def packetSizeBytes : ℕ := o.sytInterval * dimension * 4

/-- A fresh processor after `prepareChild`, or `none` if that answers `false`. The two memories
are what the allocations return. -/
def prepareChild (sytInterval nominalRate : ℕ) (hpos : 0 < dimension)
    (ringMemory payloadMemory : ℕ → UInt8) : Option (AmdtpOxfordReceive dimension) := do
  let tempBuffer ← Ringbuffer.create (dimension * sytInterval * 4 * 4 * 2) ringMemory
  let nominalTicksPerFrame := (ticksPerSecond : ℚ) / nominalRate
  let tupdate := nominalTicksPerFrame * sytInterval
  let bwRel := dllBandwidthHz / ticksPerSecond * tupdate
  if bwRel ≥ 1 / 2 then none
  else some {
    sytInterval := sytInterval
    tempBuffer := tempBuffer
    payloadBuffer := payloadMemory
    nextPacketTimestamp := noTimestamp
    expectedTimeOfReceive := noTimestamp
    lastTimestamp := 0
    nominalTicksPerFrame := nominalTicksPerFrame
    dllE2 := tupdate
    dllB := bwRel * (dllSqrt2 * dll2Pi)
    dllC := bwRel * bwRel * dll2Pi * dll2Pi
    dimension_pos := hpos }

/-- The time of arrival of the first frame in the ring, filtered. -/
def generateTimestamp (pktCtr framesInTempbuffer : ℕ) : AmdtpOxfordReceive dimension :=
  let toa := addTicks (cycleTimerToTicks pktCtr) (2 * ticksPerCycle)
  let toa := substractTicks toa ⌊o.nominalTicksPerFrame * framesInTempbuffer⌋₊
  let expected :=
    if o.expectedTimeOfReceive ≥ 0xFFFFFFFE then substractTicks toa ⌊o.dllE2⌋₊
    else o.expectedTimeOfReceive
  let err : ℚ := diffTicks toa expected
  let jump : Prop := err > o.dllE2 * 2 ∨ err < -o.dllE2 * 2
  let expected := if jump then toa else expected
  let err := if jump then 0 else err
  let corr := o.dllB * err + o.dllE2
  { o with
    nextPacketTimestamp := expected
    expectedTimeOfReceive :=
      if corr > 0 then addTicks expected ⌊corr⌋₊ else substractTicks expected ⌊-corr⌋₊
    dllE2 := o.dllE2 + o.dllC * err }

def framesInTempbuffer : ℕ := o.tempBuffer.readSpace / 4 / dimension

/-- The payload goes into the ring, and a payload of the ring out of it if the frames that were
there before suffice. -/
def convert (payload : ℕ → UInt8) (nevents framesInTempbuffer : ℕ) :
    AmdtpOxfordReceive dimension × ChildReturnValue :=
  let writeSize := nevents * 4 * dimension
  let (ring, written) := o.tempBuffer.write payload writeSize
  let o := { o with tempBuffer := ring }
  if written < writeSize then (o, .error)
  else
    let quadletsInTempbuffer := framesInTempbuffer * 4
    if quadletsInTempbuffer ≥ o.sytInterval * dimension then
      let (payloadBuffer, ring, _) := o.tempBuffer.read o.payloadBuffer o.packetSizeBytes
      ({ o with
        lastTimestamp := o.nextPacketTimestamp
        nextPacketTimestamp := noTimestamp
        payloadBuffer := payloadBuffer
        tempBuffer := ring }, .ok)
    else (o, .invalid)

def processPacketHeader (data : ℕ → UInt8) (length pktCtr : ℕ) :
    Option (AmdtpOxfordReceive dimension × ChildReturnValue) :=
  if AmdtpReceive.fdf data ≠ 0xFF ∧ AmdtpReceive.fmt data = 0x10 ∧ AmdtpReceive.dbs data > 0 ∧
      length ≥ 2 * 4 then
    let frames := o.framesInTempbuffer
    let o := if o.nextPacketTimestamp = noTimestamp then o.generateTimestamp pktCtr frames else o
    if dimension = AmdtpReceive.dbs data then
      some (o.convert (pointer data 8) ((length / 4 - 2) / dimension) frames)
    else none
  else some (o, .invalid)

theorem convert_of_full (h : o.tempBuffer.writeSpace < nevents * 4 * dimension) :
    o.convert payload nevents frames =
      ({ o with tempBuffer := (o.tempBuffer.write payload (nevents * 4 * dimension)).1 },
        .error) := by
  simp only [convert, Ringbuffer.write_count]
  rw [if_pos (by omega)]

theorem convert_of_insufficient (h : nevents * 4 * dimension ≤ o.tempBuffer.writeSpace)
    (hframes : ¬ o.sytInterval * dimension ≤ frames * 4) :
    o.convert payload nevents frames =
      ({ o with tempBuffer := (o.tempBuffer.write payload (nevents * 4 * dimension)).1 },
        .invalid) := by
  simp only [convert, Ringbuffer.write_count]
  rw [if_neg (by omega), if_neg hframes]

theorem convert_of_sufficient (h : nevents * 4 * dimension ≤ o.tempBuffer.writeSpace)
    (hframes : o.sytInterval * dimension ≤ frames * 4) :
    o.convert payload nevents frames =
      let ring := (o.tempBuffer.write payload (nevents * 4 * dimension)).1
      ({ o with
        lastTimestamp := o.nextPacketTimestamp
        nextPacketTimestamp := noTimestamp
        payloadBuffer := (ring.read o.payloadBuffer o.packetSizeBytes).1
        tempBuffer := (ring.read o.payloadBuffer o.packetSizeBytes).2.1 }, .ok) := by
  simp only [convert, Ringbuffer.write_count]
  rw [if_neg (by omega), if_pos hframes]
  rfl

end AmdtpOxfordReceive

/-- A packet that is accepted by a stream of the given dimension, with a payload of whole
frames. -/
structure OxfordPacket (dimension : ℕ) where
  data : ℕ → UInt8
  pktCtr : ℕ
  nevents : ℕ
  fdf_ne : AmdtpReceive.fdf data ≠ 0xFF
  fmt_eq : AmdtpReceive.fmt data = 0x10
  dbs_eq : AmdtpReceive.dbs data = dimension

namespace OxfordPacket

variable {dimension : ℕ} (packet : OxfordPacket dimension)

def length : ℕ := 8 + packet.nevents * (4 * dimension)

def payload : List UInt8 := slice (pointer packet.data 8) 0 (packet.nevents * (4 * dimension))

end OxfordPacket

/-- A processor with what it received and the payloads it made available. -/
structure OxfordSession (dimension : ℕ) where
  processor : AmdtpOxfordReceive dimension
  received : List UInt8
  delivered : List (List UInt8)

namespace OxfordSession

variable {dimension : ℕ} (s : OxfordSession dimension)

def start (processor : AmdtpOxfordReceive dimension) : OxfordSession dimension :=
  ⟨processor, [], []⟩

/-- A payload is available after each `eCRV_OK`. -/
def step (packet : OxfordPacket dimension) : Option (OxfordSession dimension) := do
  let (processor, result) ← s.processor.processPacketHeader packet.data packet.length
    packet.pktCtr
  some {
    processor := processor
    received := s.received ++ packet.payload
    delivered :=
      if result = .ok then
        s.delivered ++ [slice processor.payloadBuffer 0 processor.packetSizeBytes]
      else s.delivered }

/-- Payloads and the bytes in the ring are what has been received, and each payload has the frames
of an interval. -/
structure Lossless : Prop where
  bytes : s.delivered.flatten ++ s.processor.tempBuffer.contents = s.received
  frames : ∀ payload ∈ s.delivered, payload.length = s.processor.sytInterval * (4 * dimension)

/-- The packet fits into the ring, and if the test for sufficient frames says yes there are that
many, with those of the packet. -/
structure Suffices (packet : OxfordPacket dimension) : Prop where
  fits : packet.nevents * (4 * dimension) ≤ s.processor.tempBuffer.writeSpace
  enough : s.processor.sytInterval * dimension ≤ s.processor.framesInTempbuffer * 4 →
    s.processor.sytInterval ≤ s.processor.framesInTempbuffer + packet.nevents

instance (packet : OxfordPacket dimension) : Decidable (s.Suffices packet) :=
  decidable_of_iff (packet.nevents * (4 * dimension) ≤ s.processor.tempBuffer.writeSpace ∧
    (s.processor.sytInterval * dimension ≤ s.processor.framesInTempbuffer * 4 →
      s.processor.sytInterval ≤ s.processor.framesInTempbuffer + packet.nevents))
    ⟨fun h => ⟨h.1, h.2⟩, fun h => ⟨h.1, h.2⟩⟩

/-- The ring holds whole frames. -/
def Aligned : Prop := 4 * dimension ∣ s.processor.tempBuffer.readSpace

variable {s} {s' : OxfordSession dimension} {packet : OxfordPacket dimension}

theorem processPacketHeader_eq (o : AmdtpOxfordReceive dimension)
    (packet : OxfordPacket dimension) : ∃ o₁ : AmdtpOxfordReceive dimension,
      o₁.tempBuffer = o.tempBuffer ∧ o₁.sytInterval = o.sytInterval ∧
      o.processPacketHeader packet.data packet.length packet.pktCtr =
        some (o₁.convert (pointer packet.data 8) packet.nevents o.framesInTempbuffer) := by
  have hpos := o.dimension_pos
  have hok : AmdtpReceive.fdf packet.data ≠ 0xFF ∧ AmdtpReceive.fmt packet.data = 0x10 ∧
      AmdtpReceive.dbs packet.data > 0 ∧ packet.length ≥ 2 * 4 := by
    refine ⟨packet.fdf_ne, packet.fmt_eq, ?_, Nat.le_add_right 8 _⟩
    rw [packet.dbs_eq]
    exact hpos
  have hevents : (packet.length / 4 - 2) / dimension = packet.nevents := by
    have hquadlets : packet.length / 4 - 2 = packet.nevents * dimension := by
      rw [OxfordPacket.length, show 8 + packet.nevents * (4 * dimension) =
        4 * (2 + packet.nevents * dimension) by ring, Nat.mul_div_cancel_left _ (by norm_num)]
      omega
    rw [hquadlets, Nat.mul_div_cancel _ hpos]
  refine ⟨if o.nextPacketTimestamp = noTimestamp then
    o.generateTimestamp packet.pktCtr o.framesInTempbuffer else o, ?_, ?_, ?_⟩
  · split_ifs <;> rfl
  · split_ifs <;> rfl
  · simp only [AmdtpOxfordReceive.processPacketHeader]
    rw [if_pos hok, if_pos packet.dbs_eq.symm, hevents]

def written (s : OxfordSession dimension) (packet : OxfordPacket dimension) : Ringbuffer :=
  (s.processor.tempBuffer.write (pointer packet.data 8) (packet.nevents * (4 * dimension))).1

theorem written_of_fits
    (h : packet.nevents * (4 * dimension) ≤ s.processor.tempBuffer.writeSpace) :
    (s.written packet).contents = s.processor.tempBuffer.contents ++ packet.payload ∧
      (s.written packet).readSpace =
        s.processor.tempBuffer.readSpace + packet.nevents * (4 * dimension) := by
  have happended := s.processor.tempBuffer.write_appended (pointer packet.data 8)
    (packet.nevents * (4 * dimension))
  rw [Nat.min_eq_left h] at happended
  exact ⟨happended.contents_eq h, happended.readSpace_eq h⟩

theorem written_of_full
    (h : s.processor.tempBuffer.writeSpace < packet.nevents * (4 * dimension)) :
    (s.written packet).readSpace =
      s.processor.tempBuffer.readSpace + s.processor.tempBuffer.writeSpace := by
  have happended := s.processor.tempBuffer.write_appended (pointer packet.data 8)
    (packet.nevents * (4 * dimension))
  rw [Nat.min_eq_right h.le] at happended
  exact happended.readSpace_eq (Nat.le_refl _)

/-- What a packet does to the ring and to the payloads. -/
inductive Effect (s : OxfordSession dimension) (packet : OxfordPacket dimension)
    (s' : OxfordSession dimension) : Prop
  | full (hfull : s.processor.tempBuffer.writeSpace < packet.nevents * (4 * dimension))
      (hring : s'.processor.tempBuffer = s.written packet) (hkept : s'.delivered = s.delivered)
  | waits (hfits : packet.nevents * (4 * dimension) ≤ s.processor.tempBuffer.writeSpace)
      (htest : ¬ s.processor.sytInterval * dimension ≤ s.processor.framesInTempbuffer * 4)
      (hring : s'.processor.tempBuffer = s.written packet) (hkept : s'.delivered = s.delivered)
  | delivers (hfits : packet.nevents * (4 * dimension) ≤ s.processor.tempBuffer.writeSpace)
      (htest : s.processor.sytInterval * dimension ≤ s.processor.framesInTempbuffer * 4)
      (buffer : ℕ → UInt8)
      (hring : s'.processor.tempBuffer =
        ((s.written packet).read buffer s.processor.packetSizeBytes).2.1)
      (hpayload : s'.delivered = s.delivered ++ [slice
        ((s.written packet).read buffer s.processor.packetSizeBytes).1 0
        s.processor.packetSizeBytes])

theorem step_effect (h : s.step packet = some s') :
    s'.processor.sytInterval = s.processor.sytInterval ∧
      s'.received = s.received ++ packet.payload ∧ Effect s packet s' := by
  obtain ⟨o₁, hring, hsyt, heq⟩ := processPacketHeader_eq s.processor packet
  have hsize : packet.nevents * 4 * dimension = packet.nevents * (4 * dimension) :=
    Nat.mul_assoc _ _ _
  simp only [step, heq, Option.bind_eq_bind, Option.bind_some, Option.some.injEq] at h
  subst h
  rcases Nat.lt_or_ge s.processor.tempBuffer.writeSpace (packet.nevents * (4 * dimension)) with
    hfull | hfits
  · rw [o₁.convert_of_full (by rw [hring, hsize]; exact hfull), hring, hsize]
    exact ⟨hsyt, rfl, .full hfull rfl rfl⟩
  by_cases htest : s.processor.sytInterval * dimension ≤ s.processor.framesInTempbuffer * 4
  · have hbytes : o₁.packetSizeBytes = s.processor.packetSizeBytes := by
      rw [AmdtpOxfordReceive.packetSizeBytes, hsyt]
      rfl
    rw [o₁.convert_of_sufficient (by rw [hring, hsize]; exact hfits) (by rw [hsyt]; exact htest)]
    refine ⟨hsyt, rfl, ?_⟩
    simp only [hring, hsize, hbytes, if_true]
    refine .delivers hfits htest o₁.payloadBuffer rfl ?_
    rw [← hbytes]
    rfl
  · rw [o₁.convert_of_insufficient (by rw [hring, hsize]; exact hfits) (by rw [hsyt]; exact htest),
      hring, hsize]
    exact ⟨hsyt, rfl, .waits hfits htest rfl rfl⟩

/-- What holds as long as nothing is lost. -/
structure Tracks (s : OxfordSession dimension) : Prop where
  lossless : s.Lossless
  aligned : s.Aligned

theorem Aligned.readSpace_eq (h : s.Aligned) :
    s.processor.tempBuffer.readSpace = s.processor.framesInTempbuffer * (4 * dimension) := by
  rw [AmdtpOxfordReceive.framesInTempbuffer, Nat.div_div_eq_div_mul]
  exact (Nat.div_mul_cancel h).symm

theorem packetSizeBytes_eq (o : AmdtpOxfordReceive dimension) :
    o.packetSizeBytes = o.sytInterval * (4 * dimension) := by
  rw [AmdtpOxfordReceive.packetSizeBytes, Nat.mul_assoc, Nat.mul_comm dimension 4]

/-- The test speaks of the frames before the packet; with those of the packet they make up an
interval. -/
theorem Suffices.packetSizeBytes_le (h : s.Suffices packet) (haligned : s.Aligned)
    (htest : s.processor.sytInterval * dimension ≤ s.processor.framesInTempbuffer * 4) :
    s.processor.packetSizeBytes ≤ (s.written packet).readSpace := by
  rw [(written_of_fits h.fits).2, haligned.readSpace_eq, ← Nat.add_mul, packetSizeBytes_eq]
  exact Nat.mul_le_mul_right _ (h.enough htest)

theorem Tracks.step (h : s.Tracks) (hguard : s.Suffices packet)
    (hstep : s.step packet = some s') : s'.Tracks := by
  obtain ⟨hsyt, hreceived, heffect⟩ := step_effect hstep
  obtain ⟨hcontents, hspace⟩ := written_of_fits hguard.fits
  have hwhole : 4 * dimension ∣ (s.written packet).readSpace := by
    rw [hspace]
    exact Nat.dvd_add h.aligned (Nat.dvd_mul_left _ _)
  cases heffect with
  | full hfull => exact absurd hguard.fits (by omega)
  | waits hfits htest hring hkept =>
    refine ⟨⟨?_, ?_⟩, ?_⟩
    · rw [hkept, hring, hcontents, hreceived, ← h.lossless.bytes, List.append_assoc]
    · rw [hkept, hsyt]
      exact h.lossless.frames
    · rw [Aligned, hring]
      exact hwhole
  | delivers hfits htest buffer hring hpayload =>
    have hle := hguard.packetSizeBytes_le h.aligned htest
    have hpopped := (s.written packet).read_popped buffer s.processor.packetSizeBytes
    have hslice := (s.written packet).slice_read buffer s.processor.packetSizeBytes
    rw [Nat.min_eq_left hle] at hpopped hslice
    refine ⟨⟨?_, ?_⟩, ?_⟩
    · rw [hpayload, hring, hpopped.contents_eq hle, hslice, hreceived, List.flatten_append,
        List.flatten_singleton, List.append_assoc, List.take_append_drop, hcontents,
        ← h.lossless.bytes, List.append_assoc]
    · rw [hpayload, hsyt, List.forall_mem_append]
      refine ⟨h.lossless.frames, ?_⟩
      rw [List.forall_mem_singleton, length_slice, packetSizeBytes_eq]
    · rw [Aligned, hring, hpopped.readSpace_eq hle]
      apply Nat.dvd_sub hwhole
      rw [packetSizeBytes_eq]
      exact Nat.dvd_mul_left _ _

theorem Tracks.not_lossless_of_not_suffices (h : s.Tracks) (hstep : s.step packet = some s')
    (hguard : ¬ s.Suffices packet) : ¬ s'.Lossless := by
  intro hlossless
  obtain ⟨-, hreceived, heffect⟩ := step_effect hstep
  have hbefore := congrArg List.length h.lossless.bytes
  have hafter := congrArg List.length hlossless.bytes
  rw [hreceived] at hafter
  simp only [List.length_append, Ringbuffer.length_contents, OxfordPacket.payload, length_slice]
    at hbefore hafter
  cases heffect with
  | full hfull hring hkept =>
    rw [hkept, hring, written_of_full hfull] at hafter
    omega
  | waits hfits htest hring hkept =>
    exact hguard ⟨hfits, fun h => absurd h htest⟩
  | delivers hfits htest buffer hring hpayload =>
    have hshort : ¬ s.processor.sytInterval ≤
        s.processor.framesInTempbuffer + packet.nevents := by
      intro henough
      exact hguard ⟨hfits, fun _ => henough⟩
    have hspace := (written_of_fits hfits).2
    have hlt : (s.written packet).readSpace < s.processor.packetSizeBytes := by
      rw [hspace, h.aligned.readSpace_eq, ← Nat.add_mul, packetSizeBytes_eq]
      exact Nat.mul_lt_mul_of_pos_right (not_le.mp hshort)
        (Nat.mul_pos (by norm_num) s.processor.dimension_pos)
    have hpopped := (s.written packet).read_popped buffer s.processor.packetSizeBytes
    rw [Nat.min_eq_right hlt.le] at hpopped
    rw [hpayload, hring, hpopped.readSpace_eq (Nat.le_refl _)] at hafter
    simp only [List.flatten_append, List.flatten_singleton, List.length_append, length_slice]
      at hafter
    omega

theorem tracks_start {sytInterval nominalRate : ℕ} {hpos : 0 < dimension}
    {ringMemory payloadMemory : ℕ → UInt8} {o : AmdtpOxfordReceive dimension}
    (h : AmdtpOxfordReceive.prepareChild sytInterval nominalRate hpos ringMemory payloadMemory =
      some o) : (start o).Tracks := by
  obtain ⟨ring, hring, h⟩ := Option.bind_eq_some_iff.mp h
  have hempty := (ring.create_spec hring).1
  dsimp only at h
  split_ifs at h
  cases h
  have hcontents : ring.contents = [] := by
    rw [← List.length_eq_zero_iff, Ringbuffer.length_contents, hempty]
  refine ⟨⟨hcontents, by simp [start]⟩, ?_⟩
  show 4 * dimension ∣ ring.readSpace
  rw [hempty]
  exact Nat.dvd_zero _

/-- In a run of accepted packets nothing is lost, duplicated or made up, in any state reached,
exactly if every packet suffices. -/
theorem lossless_iff_suffices {sytInterval nominalRate : ℕ} {hpos : 0 < dimension}
    {ringMemory payloadMemory : ℕ → UInt8} {o : AmdtpOxfordReceive dimension}
    (hprepared : AmdtpOxfordReceive.prepareChild sytInterval nominalRate hpos ringMemory
      payloadMemory = some o) {packets : List (OxfordPacket dimension)}
    (hrun : Run (Guarded Always step) (start o) packets s) :
    (∀ packets₁ s₁, packets₁ <+: packets → Run (Guarded Always step) (start o) packets₁ s₁ →
      s₁.Lossless) ↔ Run (Guarded Suffices step) (start o) packets s :=
  run_stays_iff_guarded (fun _ h => h.lossless) (fun _ _ _ h hR => h.step hR.1 hR.2)
    (fun _ _ _ h => h.not_lossless_of_not_suffices) hrun (tracks_start hprepared)

/-- The header of a packet, followed by a payload of ones. -/
def oxfordData (dbs : UInt8) : ℕ → UInt8 := fun i => [0, dbs, 0, 0, 0x90, 2, 0, 0].getD i 1

def eightFrames : OxfordPacket 4 := ⟨oxfordData 4, 0, 8, by decide, by decide, by decide⟩
def oneFrame : OxfordPacket 1 := ⟨oxfordData 1, 0, 1, by decide, by decide, by decide⟩

theorem lossless_iff_suffices_fourQuadlets : ∃ o s,
    AmdtpOxfordReceive.prepareChild 8 48000 (show 0 < 4 by decide) (fun _ => 0) (fun _ => 0) =
      some o ∧
    Run (Guarded Always step) (start o) [eightFrames, eightFrames] s ∧ s.delivered.length = 1 ∧
      s.Lossless := by
  have heval : ((AmdtpOxfordReceive.prepareChild 8 48000 (show 0 < 4 by decide) (fun _ => 0)
      (fun _ => 0)).bind fun o => [eightFrames, eightFrames].foldlM (checked Suffices step)
        (start o)).map (fun s => s.delivered.length) = some 1 := by decide +kernel
  obtain ⟨s, hs, hdelivered⟩ := Option.map_eq_some_iff.mp heval
  obtain ⟨o, ho, hsteps⟩ := Option.bind_eq_some_iff.mp hs
  have hguarded := run_of_checked hsteps
  have hrun := hguarded.always
  exact ⟨o, s, ho, hrun, hdelivered,
    (lossless_iff_suffices ho hrun).mpr hguarded _ _ (List.prefix_refl _) hrun⟩

/-- With one quadlet per frame a payload of eight is delivered when three frames have come. -/
theorem three_frames_delivered_as_eight : ∃ o s,
    AmdtpOxfordReceive.prepareChild 8 48000 (show 0 < 1 by decide) (fun _ => 0) (fun _ => 0) =
      some o ∧
    Run (Guarded Always step) (start o) [oneFrame, oneFrame, oneFrame] s ∧
      s.delivered.flatten.length = 32 ∧ s.received.length = 12 ∧ ¬ s.Lossless := by
  have heval : ((AmdtpOxfordReceive.prepareChild 8 48000 (show 0 < 1 by decide) (fun _ => 0)
      (fun _ => 0)).bind fun o => [oneFrame, oneFrame, oneFrame].foldlM step (start o)).map
        (fun s => (s.delivered.flatten.length, s.received.length)) = some (32, 12) := by
    decide +kernel
  obtain ⟨s, hs, hlengths⟩ := Option.map_eq_some_iff.mp heval
  obtain ⟨o, ho, hsteps⟩ := Option.bind_eq_some_iff.mp hs
  obtain ⟨hdelivered, hreceived⟩ := Prod.mk.inj hlengths
  refine ⟨o, s, ho, run_of_foldlM hsteps, hdelivered, hreceived, ?_⟩
  intro hlossless
  have hlength := congrArg List.length hlossless.bytes
  rw [List.length_append, hdelivered, hreceived] at hlength
  omega

end OxfordSession

end Ffado
