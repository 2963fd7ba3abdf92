import Ffado.Lib.ChunkedTransfer
import Ffado.Lib.CircularMemory
import Ffado.Util.ByteSwap

/-!
# Settings of the Fireface devices

The driver keeps the settings of a device in a structure of its own. They are applied by writing
three configuration registers, and are kept in the flash of the device in a second structure, whose
layout is fixed. The flash of the FF800 is mapped into the address space of the bus, that of the
FF400 is reached through a buffer of the device.
-/
namespace Ffado.Rme

open ChunkedTransfer CircularMemory

inductive Model
  | fireface400
  | fireface800
  deriving DecidableEq

/-- The fields of `FF_software_settings_t` that are applied or kept in the flash. -/
@[ext] structure SoftwareSettings where
  micPhantom : Fin 4 → Quadlet
  spdifInputMode : Quadlet
  spdifOutputEmphasis : Quadlet
  spdifOutputPro : Quadlet
  spdifOutputNonaudio : Quadlet
  spdifOutputMode : Quadlet
  clockMode : Quadlet
  syncRef : Quadlet
  tms : Quadlet
  limitBandwidth : Quadlet
  stopOnDropout : Quadlet
  inputLevel : Quadlet
  outputLevel : Quadlet
  filter : Quadlet
  fuzz : Quadlet
  limiter : Quadlet
  sampleRate : Quadlet
  wordClockSingleSpeed : Quadlet
  ff400InputPad : Fin 2 → Quadlet
  ff400InstrInput : Fin 2 → Quadlet
  phonesLevel : Quadlet
  inputOpt : Fin 3 → Quadlet
  deriving DecidableEq

/-- The fields of `FF_device_flash_settings_t` that are used. -/
@[ext] structure FlashSettings where
  spdifInputMode : Quadlet
  spdifOutputEmphasis : Quadlet
  spdifOutputPro : Quadlet
  clockMode : Quadlet
  spdifOutputNonaudio : Quadlet
  syncRef : Quadlet
  spdifOutputMode : Quadlet
  tms : Quadlet
  limitBandwidth : Quadlet
  stopOnDropout : Quadlet
  inputLevel : Quadlet
  outputLevel : Quadlet
  micPlugSelect : Fin 2 → Quadlet
  micPhantom : Fin 4 → Quadlet
  instrumentPlugSelect : Quadlet
  filter : Quadlet
  fuzz : Quadlet
  sampleRate : Quadlet
  wordClockSingleSpeed : Quadlet
  p12dbAn0 : Quadlet

namespace FlashSettings

/-- The structure in memory, with zeros in the fields that are not used. -/
def quadlets (h : FlashSettings) : List Quadlet :=
  [0, 0, 0, 0, h.spdifInputMode, h.spdifOutputEmphasis, h.spdifOutputPro, h.clockMode,
    h.spdifOutputNonaudio, h.syncRef, h.spdifOutputMode, 0, 0, 0, 0, 0, 0, 0, 0, 0, 0, 0,
    h.tms, 0, 0, 0, h.limitBandwidth, 0, h.stopOnDropout, h.inputLevel, h.outputLevel,
    h.micPlugSelect 0, h.micPlugSelect 1, h.micPhantom 0, h.micPhantom 1, h.micPhantom 2,
    h.micPhantom 3, h.instrumentPlugSelect, h.filter, h.fuzz, 0, 0, 0, h.sampleRate, 0, 0,
    h.wordClockSingleSpeed, 0, 0, h.p12dbAn0, 0, 0, 0, 0, 0, 0, 0, 0, 0]

def size : ℕ := 59

def ofMemory (m : ℕ → Quadlet) : FlashSettings where
  spdifInputMode := m 4
  spdifOutputEmphasis := m 5
  spdifOutputPro := m 6
  clockMode := m 7
  spdifOutputNonaudio := m 8
  syncRef := m 9
  spdifOutputMode := m 10
  tms := m 22
  limitBandwidth := m 26
  stopOnDropout := m 28
  inputLevel := m 29
  outputLevel := m 30
  micPlugSelect i := m (31 + i)
  micPhantom i := m (33 + i)
  instrumentPlugSelect := m 37
  filter := m 38
  fuzz := m 39
  sampleRate := m 43
  wordClockSingleSpeed := m 46
  p12dbAn0 := m 49

end FlashSettings

structure Hardware where
  flash : ℕ → Quadlet
  buffer : ℕ → Quadlet
  conf : Fin 3 → Quadlet

/-- `revision` is what the device reports as such, `settingsBlock` the number of quadlets that it
clears when the settings are erased. -/
structure Device where
  model : Model
  order : ByteOrder
  provideMidi : Bool
  revision : Quadlet
  settingsBlock : ℕ

namespace Device

variable (d : Device)

def byteSwapToDevice32 (q : Quadlet) : Quadlet :=
  match d.order with
  | .littleEndian => q
  | .bigEndian => byteSwap32 q

def byteSwapFromDevice32 (q : Quadlet) : Quadlet := d.byteSwapToDevice32 q

/-- Bits that are set on a condition. -/
def flag (c : Prop) [Decidable c] (bits : Quadlet) : Quadlet := if c then bits else 0

def inputOptB : Quadlet := 1

def inputOptA : Quadlet := 2

def phantomBits (s : SoftwareSettings) : Quadlet :=
  flag (s.micPhantom 0 ≠ 0) 0x1 ||| flag (s.micPhantom 1 ≠ 0) 0x80 |||
    match d.model with
    | .fireface800 => flag (s.micPhantom 2 ≠ 0) 0x2 ||| flag (s.micPhantom 3 ≠ 0) 0x100
    | .fireface400 => flag (s.ff400InputPad 0 ≠ 0) 0x100 ||| flag (s.ff400InputPad 1 ≠ 0) 0x2

/-- High gain, +4 dBu and -10 dBV. -/
def phonesBits (s : SoftwareSettings) : Quadlet :=
  match d.model with
  | .fireface800 => 0
  | .fireface400 =>
    if s.phonesLevel = 0 then 0x20000
    else if s.phonesLevel = 1 then 0
    else if s.phonesLevel = 2 then 0x10000
    else 0

/-- Low gain, +4 dBu and -10 dBV, as bits of the first two registers. -/
def inputLevelBits (s : SoftwareSettings) : Quadlet × Quadlet :=
  if s.inputLevel = 0 then (0x8, 0)
  else if s.inputLevel = 2 then (0x10, 0x2)
  else if s.inputLevel = 1 then (0x20, 0x3)
  else (0, 0)

/-- High gain, +4 dBu and -10 dBV, as bits of the first two registers. -/
def outputLevelBits (s : SoftwareSettings) : Quadlet × Quadlet :=
  if s.outputLevel = 2 then (0x400, 0x10)
  else if s.outputLevel = 1 then (0x800, 0x18)
  else if s.outputLevel = 0 then (0x1000, 0x8)
  else (0, 0)

def instrumentBits (s : SoftwareSettings) : Quadlet × Quadlet :=
  match d.model with
  | .fireface800 =>
    (flag (s.filter ≠ 0) 0x4 ||| flag (s.fuzz ≠ 0) 0x200, flag (s.fuzz = 0) 0x200)
  | .fireface400 =>
    (flag (s.ff400InstrInput 1 ≠ 0) 0x4 ||| flag (s.ff400InstrInput 0 ≠ 0) 0x200, 0)

def inputOptionBits (s : SoftwareSettings) : Quadlet :=
  flag (s.inputOpt 1 &&& inputOptA ≠ 0) 0x20 ||| flag (s.inputOpt 1 &&& inputOptB ≠ 0) 0x40 |||
  flag (s.inputOpt 2 &&& inputOptA ≠ 0) 0x80 ||| flag (s.inputOpt 2 &&& inputOptB ≠ 0) 0x100 |||
  flag (s.inputOpt 0 &&& inputOptB ≠ 0) 0x4 |||
  flag (s.inputOpt 0 &&& inputOptA ≠ 0) (if s.filter ≠ 0 then 0x400 else 0x800)

def spdifAndClockBits (s : SoftwareSettings) : Quadlet :=
  flag (s.spdifOutputEmphasis = 1) 0x40 ||| flag (s.spdifOutputPro = 1) 0x20 |||
  flag (s.spdifOutputNonaudio = 1) 0x80 ||| flag (s.spdifOutputMode = 1) 0x100 |||
  flag (s.clockMode ≠ 1) 0x1 ||| flag (s.spdifInputMode ≠ 1) 0x200

/-- Word clock, ADAT1, ADAT2, S/PDIF and TCO. -/
def syncRefBits (s : SoftwareSettings) : Quadlet :=
  if s.syncRef = 3 then 0x1000
  else if s.syncRef = 0 then 0
  else if s.syncRef = 1 then 0x400
  else if s.syncRef = 2 then 0xc00
  else if s.syncRef = 4 then 0x1400
  else 0

def midiBits (cr2 : Quadlet) : Quadlet :=
  if d.model = .fireface400 ∧ !d.provideMidi then (cr2 &&& ~~~0x03000000) ||| 0x04000000 else cr2

/-- The settings that the function leaves, the device and whether it succeeded. The word clock is
set by the condition that should look at it; `written` tells if the registers can be written. -/
def setHardwareParams (written : Bool) (s : SoftwareSettings) (hw : Hardware) :
    SoftwareSettings × Hardware × Bool :=
  let cr0 := d.phantomBits s ||| d.phonesBits s ||| (inputLevelBits s).1 |||
    (outputLevelBits s).1 ||| (d.instrumentBits s).1
  let cr1 := (inputLevelBits s).2 ||| (outputLevelBits s).2 ||| inputOptionBits s |||
    (d.instrumentBits s).2
  let cr2 := spdifAndClockBits s
  let s := { s with wordClockSingleSpeed := 1 }
  let cr2 := cr2 ||| flag (s.wordClockSingleSpeed ≠ 0) 0x2000 ||| 0x80000000
  let cr2 := d.midiBits cr2 ||| syncRefBits s ||| (0x2 + 0x4 + 0x8 + 0x10) |||
    flag (s.limiter = 0 ∧ s.inputOpt 0 = inputOptA) 0x10000
  if written then (s, { hw with conf := fun i => d.byteSwapToDevice32 (![cr0, cr1, cr2] i) }, true)
  else (s, hw, false)

def settingsAddr : ℕ :=
  match d.model with
  | .fireface400 => 0x00060000
  | .fireface800 => 0x3000f0000

/-- The quadlet of the flash with the settings. -/
def settingsIndex : ℕ := d.settingsAddr / 4

def getRevision (hw : Hardware) : Hardware :=
  match d.model with
  | .fireface800 => hw
  | .fireface400 => { hw with buffer := Function.update hw.buffer 0 d.revision }

def eraseSettings (hw : Hardware) : Hardware :=
  { hw with flash := memcpy hw.flash d.settingsIndex (fun _ => 0xffffffff) d.settingsBlock }

/-- The number of quadlets in a transfer. -/
def xferSize : ℕ :=
  match d.model with
  | .fireface400 => 32
  | .fireface800 => 64

def writePart (addr : ℕ) (buf : ℕ → Quadlet) (done todo : ℕ) (hw : Hardware) : Hardware :=
  let data := fun i => d.byteSwapToDevice32 (buf (done + i))
  match d.model with
  | .fireface800 => { hw with flash := memcpy hw.flash (addr / 4 + done) data todo }
  | .fireface400 =>
    let hw := { hw with buffer := memcpy hw.buffer 0 data todo }
    { hw with flash := memcpy hw.flash (addr / 4 + done) hw.buffer todo }

/-- `granted` tells which of the transfers succeed; one that fails moves nothing. The number of
quadlets is not zero. -/
def writeFlash (granted : ℕ → Bool) (addr : ℕ) (buf : ℕ → Quadlet) (nQuads : ℕ) (hw : Hardware) :
    Option (Hardware × Bool) :=
  transfer d.xferSize (2 ^ 32) nQuads (d.writePart addr buf) granted hw

def readPart (addr done todo : ℕ) (s : Hardware × (ℕ → Quadlet)) : Hardware × (ℕ → Quadlet) :=
  match d.model with
  | .fireface800 =>
    (s.1, memcpy s.2 done (fun i => d.byteSwapFromDevice32 (s.1.flash (addr / 4 + done + i))) todo)
  | .fireface400 =>
    let hw := { s.1 with buffer := memcpy s.1.buffer 0 (pointer s.1.flash (addr / 4 + done)) todo }
    (hw, memcpy s.2 done (fun i => d.byteSwapFromDevice32 (hw.buffer i)) todo)

def readFlash (granted : ℕ → Bool) (addr nQuads : ℕ) (hw : Hardware) (buf : ℕ → Quadlet) :
    Option ((Hardware × (ℕ → Quadlet)) × Bool) :=
  transfer d.xferSize (2 ^ 32) nQuads (d.readPart addr) granted (hw, buf)

def toFlash (s : SoftwareSettings) : FlashSettings where
  micPhantom := s.micPhantom
  spdifInputMode := s.spdifInputMode
  spdifOutputEmphasis := s.spdifOutputEmphasis
  spdifOutputPro := s.spdifOutputPro
  spdifOutputNonaudio := s.spdifOutputNonaudio
  spdifOutputMode := s.spdifOutputMode
  clockMode := s.clockMode
  syncRef := s.syncRef
  tms := s.tms
  limitBandwidth := s.limitBandwidth
  stopOnDropout := s.stopOnDropout
  inputLevel := s.inputLevel
  outputLevel := s.outputLevel
  filter := s.filter
  fuzz := s.fuzz
  -- the limiter can only be disabled if channel 1 uses the "front" input
  p12dbAn0 := if d.model = .fireface800 ∧ s.limiter = 0 ∧ s.inputOpt 0 = inputOptA then 1 else 0
  sampleRate := s.sampleRate
  wordClockSingleSpeed := s.wordClockSingleSpeed
  micPlugSelect := match d.model with
    | .fireface400 => ![s.phonesLevel, 0]
    | .fireface800 => ![s.inputOpt 1 - 1, s.inputOpt 2 - 1]
  instrumentPlugSelect := match d.model with
    | .fireface400 => 0
    | .fireface800 => s.inputOpt 0 - 1

/-- Nothing is written if the block could not be erased. -/
def writeDeviceFlashSettings (erased : Bool) (granted : ℕ → Bool) (s : SoftwareSettings)
    (hw : Hardware) : Option (Hardware × Bool) :=
  if erased then
    d.writeFlash granted d.settingsAddr (fun i => (d.toFlash s).quadlets.getD i 0)
      FlashSettings.size (d.eraseSettings hw)
  else some (hw, false)

def bwlimitAnalogOnly : Quadlet := 3

/-- What is not assigned has been set to zero. -/
def ofFlash (h : FlashSettings) : SoftwareSettings where
  micPhantom := match d.model with
    | .fireface800 => h.micPhantom
    | .fireface400 => ![h.micPhantom 0, h.micPhantom 1, 0, 0]
  ff400InputPad := match d.model with
    | .fireface800 => 0
    | .fireface400 => ![h.micPhantom 2, h.micPhantom 3]
  spdifInputMode := h.spdifInputMode
  spdifOutputEmphasis := h.spdifOutputEmphasis
  spdifOutputPro := h.spdifOutputPro
  spdifOutputNonaudio := h.spdifOutputNonaudio
  spdifOutputMode := h.spdifOutputMode
  clockMode := h.clockMode
  syncRef := h.syncRef
  tms := h.tms
  limitBandwidth := h.limitBandwidth
  stopOnDropout := h.stopOnDropout
  inputLevel := h.inputLevel
  outputLevel := h.outputLevel
  filter := match d.model with
    | .fireface800 => h.filter
    | .fireface400 => 0
  fuzz := match d.model with
    | .fireface800 => h.fuzz
    | .fireface400 => 0
  ff400InstrInput := match d.model with
    | .fireface800 => 0
    | .fireface400 => ![h.fuzz, h.filter]
  limiter := if h.p12dbAn0 = 0 then 1 else 0
  sampleRate := h.sampleRate
  wordClockSingleSpeed := h.wordClockSingleSpeed
  phonesLevel := match d.model with
    | .fireface800 => 0
    | .fireface400 => h.micPlugSelect 0
  inputOpt := match d.model with
    | .fireface800 => ![h.instrumentPlugSelect + 1, h.micPlugSelect 0 + 1, h.micPlugSelect 1 + 1]
    | .fireface400 => 0

def sane (h : FlashSettings) : FlashSettings :=
  if bwlimitAnalogOnly < h.limitBandwidth then { h with limitBandwidth := 0 } else h

def readDeviceFlashSettings (granted : ℕ → Bool) (hwSettings : ℕ → Quadlet) (hw : Hardware) :
    Option SoftwareSettings :=
  match d.readFlash granted d.settingsAddr FlashSettings.size (d.getRevision hw) hwSettings with
  | some (s, true) => some (d.ofFlash (sane (.ofMemory s.2)))
  | some (_, false) => none
  | none => none

end Device

end Ffado.Rme
