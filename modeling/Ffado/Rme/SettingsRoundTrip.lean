import Ffado.Rme.Fireface

/-!
# Settings that are applied, saved and loaded

The transfers are faithful: what is loaded is the structure that was saved. The two mappings between
the structures are inverse to each other on the FF800. On the FF400 the settings are saved from the
fields of the FF800 and loaded into its own, and on both models the word clock has been changed
when the settings were applied.
-/
namespace Ffado.Rme

open ChunkedTransfer CircularMemory

namespace Device

variable (d : Device)

@[simp] theorem byteSwapFromDevice32_byteSwapToDevice32 (q : Quadlet) :
    d.byteSwapFromDevice32 (d.byteSwapToDevice32 q) = q := by
  unfold byteSwapFromDevice32 byteSwapToDevice32
  cases d.order with
  | littleEndian => rfl
  | bigEndian => exact byteSwap32_byteSwap32 q

theorem xferSize_pos : 0 < d.xferSize := by
  unfold xferSize
  cases d.model with
  | _ => decide

theorem writePart_flash (addr : ℕ) (buf : ℕ → Quadlet) (done todo : ℕ) (hw : Hardware) :
    (d.writePart addr buf done todo hw).flash =
      memcpy hw.flash (addr / 4 + done) (fun i => d.byteSwapToDevice32 (buf (done + i))) todo := by
  unfold writePart
  cases d.model with
  | fireface800 => rfl
  | fireface400 =>
    -- what is taken from the buffer has just been put there
    funext i
    simp only [memcpy]
    split_ifs
    · rfl
    · omega
    · rfl

theorem readPart_flash (addr done todo : ℕ) (s : Hardware × (ℕ → Quadlet)) :
    (d.readPart addr done todo s).1.flash = s.1.flash := by
  unfold readPart
  cases d.model with
  | _ => rfl

theorem readPart_buf (addr done todo : ℕ) (s : Hardware × (ℕ → Quadlet)) :
    (d.readPart addr done todo s).2 =
      memcpy s.2 done (fun i => d.byteSwapFromDevice32 (s.1.flash (addr / 4 + done + i))) todo := by
  unfold readPart
  cases d.model with
  | fireface800 => rfl
  | fireface400 =>
    funext i
    simp only [memcpy, pointer]
    split_ifs
    · rfl
    · omega
    · rfl

variable {n : ℕ}

theorem writeFlash_spec (hn : n ≤ 2 ^ 32) (addr : ℕ) (buf : ℕ → Quadlet) (hw : Hardware) :
    ∃ hw', d.writeFlash (fun _ => true) addr buf n hw = some (hw', true) ∧
      ∀ i < n, hw'.flash (addr / 4 + i) = d.byteSwapToDevice32 (buf i) := by
  unfold writeFlash
  apply transfer_spec (fun done (hw : Hardware) => ∀ i < done, hw.flash (addr / 4 + i) =
    d.byteSwapToDevice32 (buf i)) d.xferSize_pos hn
  · intro done hw _ hdone i hi
    rw [writePart_flash, memcpy]
    by_cases hlt : i < done
    · rw [if_neg (by omega)]
      exact hdone i hlt
    · rw [if_pos (by omega)]
      congr 2
      omega
  · intro i hi
    omega

theorem readFlash_spec (hn : n ≤ 2 ^ 32) (addr : ℕ) (hw : Hardware) (buf : ℕ → Quadlet) :
    ∃ s', d.readFlash (fun _ => true) addr n hw buf = some (s', true) ∧ s'.1.flash = hw.flash ∧
      ∀ i < n, s'.2 i = d.byteSwapFromDevice32 (hw.flash (addr / 4 + i)) := by
  unfold readFlash
  apply transfer_spec (fun done (s : Hardware × (ℕ → Quadlet)) => s.1.flash = hw.flash ∧
    ∀ i < done, s.2 i = d.byteSwapFromDevice32 (hw.flash (addr / 4 + i))) d.xferSize_pos hn
  · intro done s _ hdone
    constructor
    · rw [readPart_flash, hdone.1]
    · intro i hi
      rw [readPart_buf, memcpy]
      by_cases hlt : i < done
      · rw [if_neg (by omega)]
        exact hdone.2 i hlt
      · rw [if_pos (by omega), hdone.1]
        congr 2
        omega
  · constructor
    · rfl
    · intro i hi
      omega

theorem getRevision_flash (hw : Hardware) : (d.getRevision hw).flash = hw.flash := by
  unfold getRevision
  cases d.model with
  | _ => rfl

end Device

/-- The layout of the structure is the same for both directions. -/
theorem FlashSettings.ofMemory_eq {h : FlashSettings} {m : ℕ → Quadlet}
    (hm : ∀ i < FlashSettings.size, m i = h.quadlets.getD i 0) : FlashSettings.ofMemory m = h := by
  have hget := hm
  ext1
  case micPlugSelect =>
    funext i
    fin_cases i
    · exact hget 31 (by decide)
    · exact hget 32 (by decide)
  case micPhantom =>
    funext i
    fin_cases i
    · exact hget 33 (by decide)
    · exact hget 34 (by decide)
    · exact hget 35 (by decide)
    · exact hget 36 (by decide)
  all_goals exact hget _ (by decide)

namespace Device

variable (d : Device)

/-- What has been saved is what is loaded, whatever was in the flash. -/
theorem exists_write_read (s : SoftwareSettings) (hw : Hardware) :
    ∃ hw', d.writeDeviceFlashSettings true (fun _ => true) s hw = some (hw', true) ∧
      ∀ mem, d.readDeviceFlashSettings (fun _ => true) mem hw' =
        some (d.ofFlash (sane (d.toFlash s))) := by
  have hsize : FlashSettings.size ≤ 2 ^ 32 := by decide
  obtain ⟨hw', hwrite, hflash⟩ := d.writeFlash_spec hsize d.settingsAddr
    (fun i => (d.toFlash s).quadlets.getD i 0) (d.eraseSettings hw)
  refine ⟨hw', hwrite, fun mem => ?_⟩
  obtain ⟨s', hread, -, hbuf⟩ := d.readFlash_spec hsize d.settingsAddr (d.getRevision hw') mem
  have hmem : FlashSettings.ofMemory s'.2 = d.toFlash s := by
    apply FlashSettings.ofMemory_eq
    intro i hi
    rw [hbuf i hi, getRevision_flash, hflash i hi, byteSwapFromDevice32_byteSwapToDevice32]
  rw [readDeviceFlashSettings, hread]
  dsimp only
  rw [hmem]

/-- The settings are applied, saved and loaded again, and every transfer succeeds. -/
def applySaveLoad (mem : ℕ → Quadlet) (s : SoftwareSettings) (hw : Hardware) :
    Option SoftwareSettings :=
  let applied := d.setHardwareParams true s hw
  match d.writeDeviceFlashSettings true (fun _ => true) applied.1 applied.2.1 with
  | some (hw, true) => d.readDeviceFlashSettings (fun _ => true) mem hw
  | _ => none

theorem applySaveLoad_eq (mem : ℕ → Quadlet) (s : SoftwareSettings) (hw : Hardware) :
    d.applySaveLoad mem s hw =
      some (d.ofFlash (sane (d.toFlash { s with wordClockSingleSpeed := 1 }))) := by
  obtain ⟨hw', hwrite, hread⟩ := d.exists_write_read { s with wordClockSingleSpeed := 1 }
    (d.setHardwareParams true s hw).2.1
  change (match d.writeDeviceFlashSettings true (fun _ => true) { s with wordClockSingleSpeed := 1 }
    (d.setHardwareParams true s hw).2.1 with
  | some (hw, true) => d.readDeviceFlashSettings (fun _ => true) mem hw
  | _ => none) = _
  rw [hwrite]
  exact hread mem

/-- The fields that both models have. -/
structure SameCommonFields (s r : SoftwareSettings) : Prop where
  spdifInputMode : r.spdifInputMode = s.spdifInputMode
  spdifOutputEmphasis : r.spdifOutputEmphasis = s.spdifOutputEmphasis
  spdifOutputPro : r.spdifOutputPro = s.spdifOutputPro
  spdifOutputNonaudio : r.spdifOutputNonaudio = s.spdifOutputNonaudio
  spdifOutputMode : r.spdifOutputMode = s.spdifOutputMode
  clockMode : r.clockMode = s.clockMode
  syncRef : r.syncRef = s.syncRef
  tms : r.tms = s.tms
  limitBandwidth : r.limitBandwidth = s.limitBandwidth
  stopOnDropout : r.stopOnDropout = s.stopOnDropout
  inputLevel : r.inputLevel = s.inputLevel
  outputLevel : r.outputLevel = s.outputLevel
  sampleRate : r.sampleRate = s.sampleRate
  wordClockSingleSpeed : r.wordClockSingleSpeed = s.wordClockSingleSpeed
  micPhantom0 : r.micPhantom 0 = s.micPhantom 0
  micPhantom1 : r.micPhantom 1 = s.micPhantom 1

def SameModelFields (s r : SoftwareSettings) : Prop :=
  match d.model with
  | .fireface800 => r.micPhantom 2 = s.micPhantom 2 ∧ r.micPhantom 3 = s.micPhantom 3 ∧
      r.filter = s.filter ∧ r.fuzz = s.fuzz ∧ r.inputOpt = s.inputOpt
  | .fireface400 => r.ff400InputPad = s.ff400InputPad ∧ r.ff400InstrInput = s.ff400InstrInput ∧
      r.phonesLevel = s.phonesLevel

/-- On the FF400 the fields of the FF800 that share a place in the flash have to agree with its
own. -/
def FieldsAgree (s : SoftwareSettings) : Prop :=
  match d.model with
  | .fireface800 => True
  | .fireface400 => s.ff400InputPad 0 = s.micPhantom 2 ∧ s.ff400InputPad 1 = s.micPhantom 3 ∧
      s.ff400InstrInput 0 = s.fuzz ∧ s.ff400InstrInput 1 = s.filter

theorem sane_limitBandwidth_eq_iff (h : FlashSettings) :
    (sane h).limitBandwidth = h.limitBandwidth ↔ h.limitBandwidth ≤ bwlimitAnalogOnly := by
  unfold sane
  split_ifs with hlt
  · constructor
    · intro heq
      change 0 = h.limitBandwidth at heq
      rw [← heq] at hlt
      exact absurd hlt (by decide)
    · intro hle
      exact absurd hlt (BitVec.not_lt.mpr hle)
  · exact iff_of_true rfl (BitVec.not_lt.mp hlt)

theorem sane_eq (h : FlashSettings) :
    sane h = { h with limitBandwidth := (sane h).limitBandwidth } := by
  unfold sane
  split_ifs <;> rfl

theorem sameCommonFields_iff (s : SoftwareSettings) :
    SameCommonFields s (d.ofFlash (sane (d.toFlash { s with wordClockSingleSpeed := 1 }))) ↔
      s.limitBandwidth ≤ bwlimitAnalogOnly ∧ s.wordClockSingleSpeed = 1 := by
  have hlimit := sane_limitBandwidth_eq_iff (d.toFlash { s with wordClockSingleSpeed := 1 })
  rw [sane_eq]
  constructor
  · intro h
    exact ⟨hlimit.mp h.limitBandwidth, h.wordClockSingleSpeed.symm⟩
  · rintro ⟨hle, hclock⟩
    have hphantom : ∀ h : FlashSettings, (d.ofFlash h).micPhantom 0 = h.micPhantom 0 ∧
        (d.ofFlash h).micPhantom 1 = h.micPhantom 1 := by
      intro h
      unfold ofFlash
      cases d.model with
      | _ => exact ⟨rfl, rfl⟩
    constructor
    case limitBandwidth => exact hlimit.mpr hle
    case wordClockSingleSpeed => exact hclock.symm
    case micPhantom0 => exact (hphantom _).1
    case micPhantom1 => exact (hphantom _).2
    all_goals rfl

theorem sameModelFields_iff (s : SoftwareSettings) :
    d.SameModelFields s (d.ofFlash (sane (d.toFlash { s with wordClockSingleSpeed := 1 }))) ↔
      d.FieldsAgree s := by
  rw [sane_eq]
  unfold SameModelFields FieldsAgree ofFlash toFlash
  cases d.model with
  | fireface800 =>
    refine iff_of_true ⟨rfl, rfl, rfl, rfl, ?_⟩ trivial
    funext i
    fin_cases i
    · exact BitVec.sub_add_cancel _ _
    · exact BitVec.sub_add_cancel _ _
    · exact BitVec.sub_add_cancel _ _
  | fireface400 =>
    constructor
    · rintro ⟨hpad, hinstr, -⟩
      exact ⟨(congrFun hpad 0).symm, (congrFun hpad 1).symm, (congrFun hinstr 0).symm,
        (congrFun hinstr 1).symm⟩
    · rintro ⟨hpad0, hpad1, hinstr0, hinstr1⟩
      refine ⟨?_, ?_, rfl⟩
      · funext i
        fin_cases i
        · exact hpad0.symm
        · exact hpad1.symm
      · funext i
        fin_cases i
        · exact hinstr0.symm
        · exact hinstr1.symm

/-- Which settings come back as they were. -/
theorem applySaveLoad_iff (mem : ℕ → Quadlet) (s : SoftwareSettings) (hw : Hardware) :
    (∃ r, d.applySaveLoad mem s hw = some r ∧ SameCommonFields s r ∧ d.SameModelFields s r) ↔
      s.limitBandwidth ≤ bwlimitAnalogOnly ∧ s.wordClockSingleSpeed = 1 ∧ d.FieldsAgree s := by
  rw [applySaveLoad_eq, ← and_assoc, ← d.sameCommonFields_iff, ← d.sameModelFields_iff]
  constructor
  · rintro ⟨r, hr, hsame⟩
    rw [Option.some.inj hr]
    exact hsame
  · intro hsame
    exact ⟨_, rfl, hsame⟩

def allOff : SoftwareSettings where
  micPhantom := 0
  spdifInputMode := 0
  spdifOutputEmphasis := 0
  spdifOutputPro := 0
  spdifOutputNonaudio := 0
  spdifOutputMode := 0
  clockMode := 0
  syncRef := 0
  tms := 0
  limitBandwidth := 0
  stopOnDropout := 0
  inputLevel := 0
  outputLevel := 0
  filter := 0
  fuzz := 0
  limiter := 0
  sampleRate := 0
  wordClockSingleSpeed := 0
  ff400InputPad := 0
  ff400InstrInput := 0
  phonesLevel := 0
  inputOpt := fun _ => 1

def fireface (model : Model) : Device where
  model := model
  order := .littleEndian
  provideMidi := false
  revision := 0
  settingsBlock := 64

def blank : Hardware where
  flash := fun _ => 0xffffffff
  buffer := fun _ => 0
  conf := 0

/-- The word clock of an FF800 comes back at single speed, and the pad of an FF400 is lost. -/
theorem word_clock_and_pad_lost :
    ((fireface .fireface800).applySaveLoad 0 allOff blank).map (·.wordClockSingleSpeed) = some 1 ∧
    allOff.wordClockSingleSpeed = 0 ∧
    ((fireface .fireface400).applySaveLoad 0
      { allOff with
        wordClockSingleSpeed := 1
        ff400InputPad := ![1, 0] } blank).map (·.ff400InputPad 0) = some 0 := by
  decide +kernel

end Device

end Ffado.Rme
