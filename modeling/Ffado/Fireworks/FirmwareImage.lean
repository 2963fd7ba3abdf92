import Ffado.Util.ByteSwap
import Ffado.Lib.MachineInt

/-!
# Firmware images of FireWorks devices

A firmware file has a header and the payload as lines of hexadecimal numbers. When the firmware is
written to the device, the version and the CRC can be put to the end of a larger footprint.
-/
namespace Ffado.Fireworks

open MachineInt

structure HexStream where
  fromString : List Char → Option Quadlet
  empty : fromString [] = none

structure Firmware where
  flashOffsetAddress : Quadlet
  lengthQuads : Quadlet
  crc32 : Quadlet
  version : Quadlet
  appendCrc : Bool
  footprintQuads : Quadlet
  data : List Quadlet
deriving DecidableEq

namespace Firmware

def fileMaxLengthBytes : ℕ := 384 * 1024 / 4 * 12 + 12 * 64

def magic : List Char := "1651 1 0 0 0".toList

/-- A line without its end, and the rest of the file. -/
def getline (file : List Char) : List Char × List Char :=
  ((file.takeWhile (· ≠ '\n')).takeWhile (· ≠ '\r'), (file.dropWhile (· ≠ '\n')).drop 1)

def readQuads (hex : HexStream) : ℕ → List Char → Option (List Quadlet × List Char)
  | 0, file => some ([], file)
  | n + 1, file => do
    let next := getline file
    let quad ← hex.fromString next.1
    let (quads, rest) ← readQuads hex n next.2
    return (quad :: quads, rest)

def loadFile (hex : HexStream) (file : List Char) : Option Firmware :=
  if file.length > fileMaxLengthBytes then none
  else if file.length < 14 then none
  else
    let (line, rest) := getline file
    if line ≠ magic then none
    else if file.length < 14 + 12 * 64 then none
    else do
      let (header, rest) ← readQuads hex 64 rest
      let lengthQuads := header.getD 2 0
      let (data, _) ← readQuads hex lengthQuads.toNat rest
      return ⟨header.getD 1 0, lengthQuads, header.getD 3 0, header.getD 5 0,
        header.getD 6 0 ≠ 0, header.getD 7 0, data⟩

variable (f : Firmware)

def Appends : Prop := f.appendCrc ∧ f.lengthQuads < f.footprintQuads

instance : Decidable f.Appends := inferInstanceAs (Decidable (_ ∧ _))

def getWriteDataLen : Quadlet := if f.Appends then f.footprintQuads else f.lengthQuads

/-- What a store leaves in a buffer of a length, if it is inside. -/
def store (length : ℕ) (i : Quadlet) (v : Quadlet) (buff : ℕ → Quadlet) : Option (ℕ → Quadlet) :=
  if i.toNat < length then some (Function.update buff i.toNat v) else none

def getWriteData (length : ℕ) (buff : ℕ → Quadlet) : Option (ℕ → Quadlet) :=
  if length < f.lengthQuads.toNat then none
  else
    let buff i := if i < f.lengthQuads.toNat then f.data.getD i 0 else buff i
    if f.Appends then
      (store length (f.footprintQuads - 1) f.crc32 buff).bind
        (store length (f.footprintQuads - 2) f.version)
    else some buff

def writeFirmwareToDevice (memory : ℕ → Quadlet) : Option (List Quadlet) :=
  (f.getWriteData (u32 (f.getWriteDataLen.toNat * 4)) memory).map fun buff =>
    (List.range f.getWriteDataLen.toNat).map buff

/-- The quadlets are those of the payload. If the CRC is appended, the version and the CRC are in
the last two, where no payload is. -/
def IsImage (quads : List Quadlet) : Prop :=
  if f.Appends then
    quads.length = f.footprintQuads.toNat ∧ quads.take f.lengthQuads.toNat = f.data ∧
      f.lengthQuads.toNat + 2 ≤ f.footprintQuads.toNat ∧
      quads[f.footprintQuads.toNat - 2]? = some f.version ∧
      quads[f.footprintQuads.toNat - 1]? = some f.crc32
  else quads = f.data

variable {f : Firmware} {hex : HexStream}

/-- A line that is not empty is taken from the file. -/
theorem length_getline {file : List Char} (h : (getline file).1 ≠ []) :
    (getline file).2.length < file.length := by
  cases file with
  | nil => exact absurd rfl h
  | cons c file =>
    by_cases hc : c = '\n'
    · subst hc
      exact absurd rfl h
    · have hdrop : (c :: file).dropWhile (· ≠ '\n') = file.dropWhile (· ≠ '\n') :=
        List.dropWhile_cons_of_pos (by simpa using hc)
      have hle := (List.dropWhile_sublist (l := file) (p := (· ≠ '\n'))).length_le
      rw [getline, hdrop, List.length_drop, List.length_cons]
      omega

theorem length_readQuads {n : ℕ} {file rest : List Char} {quads : List Quadlet}
    (h : readQuads hex n file = some (quads, rest)) :
    quads.length = n ∧ n + rest.length ≤ file.length := by
  induction n generalizing file quads with
  | zero =>
    cases h
    exact ⟨rfl, by omega⟩
  | succ n ih =>
    obtain ⟨quad, hquad, h⟩ := Option.bind_eq_some_iff.mp h
    obtain ⟨⟨tail, rest'⟩, htail, h⟩ := Option.bind_eq_some_iff.mp h
    cases h
    have hline : (getline file).1 ≠ [] := by
      intro hnil
      rw [hnil, hex.empty] at hquad
      cases hquad
    obtain ⟨hlength, hle⟩ := ih htail
    have hlt := length_getline hline
    exact ⟨congrArg (· + 1) hlength, by omega⟩

/-- A firmware that was loaded has as many quadlets as it says, and they fit into a buffer. -/
theorem length_of_loadFile {file : List Char} (h : loadFile hex file = some f) :
    f.data.length = f.lengthQuads.toNat ∧ f.lengthQuads.toNat ≤ fileMaxLengthBytes := by
  unfold loadFile at h
  dsimp only at h
  split_ifs at h with hmax
  obtain ⟨⟨header, rest⟩, hheader, h⟩ := Option.bind_eq_some_iff.mp h
  obtain ⟨⟨data, rest'⟩, hdata, h⟩ := Option.bind_eq_some_iff.mp h
  cases h
  obtain ⟨hlength, hle⟩ := length_readQuads hdata
  have hheaderLe := (length_readQuads hheader).2
  have hrest : (getline file).2.length ≤ file.length := by
    rw [getline, List.length_drop]
    exact (Nat.sub_le _ _).trans (List.dropWhile_sublist _).length_le
  exact ⟨hlength, (Nat.le_add_right _ _).trans (hle.trans (by dsimp only; omega))⟩

theorem map_payload {n : ℕ} (hn : f.data.length = n) (buff : ℕ → Quadlet) :
    (List.range n).map (fun i => if i < n then f.data.getD i 0 else buff i) = f.data := by
  apply List.ext_getElem
  · simp [hn]
  · intro i hi hi'
    simp [hn ▸ hi', hi']

theorem write_of_not_appends (h : ¬ f.Appends) (hlen : f.data.length = f.lengthQuads.toNat)
    (hle : f.lengthQuads.toNat ≤ fileMaxLengthBytes) (memory : ℕ → Quadlet) :
    f.writeFirmwareToDevice memory = some f.data := by
  have hsize : u32 (f.lengthQuads.toNat * 4) = f.lengthQuads.toNat * 4 :=
    u32_of_lt (by rw [fileMaxLengthBytes] at hle; omega)
  rw [writeFirmwareToDevice, getWriteDataLen, if_neg h, hsize, getWriteData,
    if_neg (by omega), if_neg h]
  exact congrArg some (map_payload hlen memory)

def appended (f : Firmware) (memory : ℕ → Quadlet) (i : ℕ) : Quadlet :=
  if i = f.footprintQuads.toNat - 2 then f.version
  else if i = f.footprintQuads.toNat - 1 then f.crc32
  else if i < f.lengthQuads.toNat then f.data.getD i 0 else memory i

/-- Both stores have to be inside of the buffer. -/
theorem write_of_appends (h : f.Appends) (hfoot : f.lengthQuads.toNat + 2 ≤ f.footprintQuads.toNat)
    (memory : ℕ → Quadlet) : f.writeFirmwareToDevice memory =
      if f.footprintQuads.toNat ≤ u32 (f.footprintQuads.toNat * 4) then
        some ((List.range f.footprintQuads.toNat).map (f.appended memory))
      else none := by
  have hone : (f.footprintQuads - 1).toNat = f.footprintQuads.toNat - 1 :=
    BitVec.toNat_sub_of_le (BitVec.le_def.mpr (by simp; omega))
  have htwo : (f.footprintQuads - 2).toNat = f.footprintQuads.toNat - 2 :=
    BitVec.toNat_sub_of_le (BitVec.le_def.mpr (by simp; omega))
  rw [writeFirmwareToDevice, getWriteDataLen, if_pos h, getWriteData]
  generalize u32 (f.footprintQuads.toNat * 4) = size
  dsimp only
  rw [if_pos h, store, hone]
  split_ifs with hpayload hstore hle hle
  · omega
  · rfl
  · rw [Option.bind_some, store, htwo, if_pos (by omega)]
    refine congrArg (fun buff => some ((List.range f.footprintQuads.toNat).map buff)) ?_
    funext i
    rw [Function.update_apply, Function.update_apply, appended]
  · omega
  · omega
  · rfl

theorem image_of_appends (hlen : f.data.length = f.lengthQuads.toNat)
    (hfoot : f.footprintQuads.toNat = f.lengthQuads.toNat + 2) (memory : ℕ → Quadlet) :
    (List.range f.footprintQuads.toNat).map (f.appended memory) = f.data ++
      [f.version, f.crc32] := by
  have hpayload : (List.range f.lengthQuads.toNat).map (f.appended memory) = f.data := by
    rw [← map_payload hlen memory]
    apply List.map_congr_left
    intro i hi
    have hlt := List.mem_range.mp hi
    rw [appended, if_neg (by omega), if_neg (by omega)]
  rw [hfoot, List.range_succ, List.range_succ, List.map_append, List.map_append, hpayload]
  simp [appended, hfoot]

/-- What is written is determined by the file and is its image just if no CRC is appended, or the
footprint has room for exactly the version and the CRC. -/
theorem writeFirmwareToDevice_iff (hex : HexStream) (file : List Char) (f : Firmware)
    (hload : loadFile hex file = some f) :
    (∃ quads, (∀ memory, f.writeFirmwareToDevice memory = some quads) ∧ f.IsImage quads) ↔
      (f.Appends → f.footprintQuads.toNat = f.lengthQuads.toNat + 2) := by
  obtain ⟨hlen, hle⟩ := length_of_loadFile hload
  by_cases h : f.Appends
  · constructor
    · rintro ⟨quads, hwrite, himage⟩ -
      rw [IsImage, if_pos h] at himage
      obtain ⟨-, -, hfoot, -⟩ := himage
      by_contra hne
      have hzero := hwrite fun _ => 0
      have hones := hwrite fun _ => 1
      rw [write_of_appends h hfoot] at hzero hones
      split_ifs at hzero hones
      have heq := congrArg (·[f.lengthQuads.toNat]?) (Option.some.inj (hzero.trans hones.symm))
      have hlt : f.lengthQuads.toNat < f.footprintQuads.toNat := by omega
      simp [appended, hlt, show f.lengthQuads.toNat ≠ f.footprintQuads.toNat - 2 by omega,
        show f.lengthQuads.toNat ≠ f.footprintQuads.toNat - 1 by omega] at heq
    · intro hfoot
      have hfoot := hfoot h
      refine ⟨f.data ++ [f.version, f.crc32], fun memory => ?_, ?_⟩
      · rw [write_of_appends h hfoot.ge, if_pos, image_of_appends hlen hfoot]
        rw [fileMaxLengthBytes] at hle
        rw [u32_of_lt (by omega)]
        omega
      · rw [IsImage, if_pos h, hfoot]
        simp [← hlen]
  · refine iff_of_true ⟨f.data, write_of_not_appends h hlen hle, ?_⟩ fun hf => absurd hf h
    rw [IsImage, if_neg h]

/-- A stream for numbers below ten. -/
def lastDigit : HexStream :=
  ⟨fun line => line.getLast?.map fun c => BitVec.ofNat 32 (c.toNat - 48), rfl⟩

/-- A file with one quadlet of payload, a CRC to append and a footprint. -/
def sampleFile (footprint : Char) : List Char :=
  magic ++ "\r\n".toList ++
    ("001502".toList ++ ['1', footprint] ++ List.replicate 56 '0' ++ ['3']).flatMap fun c =>
      "0x0000000".toList ++ [c, '\r', '\n']

theorem writeFirmwareToDevice_iff_sample :
    loadFile lastDigit (sampleFile '3') = some ⟨0, 1, 5, 2, true, 3, [3]⟩ ∧
      ∃ quads, ∀ memory, writeFirmwareToDevice ⟨0, 1, 5, 2, true, 3, [3]⟩ memory = some quads := by
  have hload : loadFile lastDigit (sampleFile '3') = some ⟨0, 1, 5, 2, true, 3, [3]⟩ := by
    decide +kernel
  obtain ⟨quads, hwrite, -⟩ := (writeFirmwareToDevice_iff _ _ _ hload).mpr fun _ => by decide
  exact ⟨hload, quads, hwrite⟩

/-- The quadlet between the payload and the version is what was in memory. -/
theorem writeFirmwareToDevice_leaks :
    loadFile lastDigit (sampleFile '4') = some ⟨0, 1, 5, 2, true, 4, [3]⟩ ∧
      writeFirmwareToDevice ⟨0, 1, 5, 2, true, 4, [3]⟩ (fun _ => 7) = some [3, 7, 2, 5] ∧
      writeFirmwareToDevice ⟨0, 1, 5, 2, true, 4, [3]⟩ (fun _ => 8) = some [3, 8, 2, 5] := by
  decide +kernel

end Firmware

end Ffado.Fireworks
