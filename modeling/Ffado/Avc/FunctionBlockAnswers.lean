import Ffado.Avc.FrameReads
import Ffado.Avc.FunctionBlock

/-!
# The answers to function block commands

A command that was written, with zero bytes up to a whole quadlet, is read back by a command that
was prepared for the same control, except that the selectors of an enhanced mixer are not taken
over. A response of another type makes the command use a part that it was not prepared with: a
selector is just created and read, and a feature has none of its parts.
-/
namespace Ffado.Avc.FunctionBlock

open CircularMemory Cmd Decoding Decoding.Cursor Deserializer FunctionBlockProcessingEnhancedMixer
open Lockstep

/-- The part of a command with what it was prepared with. -/
inductive Block
  | selector (part : FunctionBlockSelector)
  | volume (selectorLength audioChannelNumber : UInt8) (part : FunctionBlockFeatureVolume)
  | lrBalance (selectorLength audioChannelNumber : UInt8) (part : FunctionBlockFeatureLRBalance)
  | mixer (selectorLength fbInputPlugNumber inputAudioChannelNumber
      outputAudioChannelNumber : UInt8) (part : FunctionBlockProcessingMixer)
  | enhancedMixer
      (selectorLength fbInputPlugNumber inputAudioChannelNumber outputAudioChannelNumber : UInt8)
      (part : FunctionBlockProcessingEnhancedMixer)
  deriving DecidableEq

structure Header where
  command : AVCCommand
  functionBlockId : UInt8
  controlAttribute : UInt8
  deriving DecidableEq

variable {block block' : Block} {header : Header} {junk : Locals} {s t : Reader}

namespace Block

def functionBlockType : Block → UInt8
  | selector _ => typeSelector
  | volume _ _ _ | lrBalance _ _ _ => typeFeature
  | mixer _ _ _ _ _ | enhancedMixer _ _ _ _ _ => typeProcessing

def selectorPart : Block → Option FunctionBlockSelector
  | selector part => some part
  | _ => none

def featurePart : Block → Option FunctionBlockFeature
  | volume a b part => some ⟨a, b, featureVolume, some part, none⟩
  | lrBalance a b part => some ⟨a, b, featureLRBalance, none, some part⟩
  | _ => none

def processingPart : Block → Option FunctionBlockProcessing
  | mixer a b c d part => some ⟨a, b, c, d, some part, none⟩
  | enhancedMixer a b c d part => some ⟨a, b, c, d, none, some part⟩
  | _ => none

end Block

def FunctionBlockCmd.of (header : Header) (block : Block) : FunctionBlockCmd :=
  ⟨header.command, block.functionBlockType, header.functionBlockId, header.controlAttribute,
    block.selectorPart, block.featurePart, block.processingPart, none⟩

inductive SameControl : Block → Block → Prop
  | selector (part part' : FunctionBlockSelector) : SameControl (.selector part) (.selector part')
  | volume (a b a' b' : UInt8) (part part' : FunctionBlockFeatureVolume) :
      SameControl (.volume a b part) (.volume a' b' part')
  | lrBalance (a b a' b' : UInt8) (part part' : FunctionBlockFeatureLRBalance) :
      SameControl (.lrBalance a b part) (.lrBalance a' b' part')
  | mixer (a b c d a' b' c' d' : UInt8) (part part' : FunctionBlockProcessingMixer) :
      SameControl (.mixer a b c d part) (.mixer a' b' c' d' part')
  | enhancedMixer (a b c d a' b' c' d' : UInt8)
      (part part' : FunctionBlockProcessingEnhancedMixer) :
        SameControl (.enhancedMixer a b c d part) (.enhancedMixer a' b' c' d' part')

namespace FunctionBlockProcessingEnhancedMixer

def bytes (x : FunctionBlockProcessingEnhancedMixer) : List UInt8 :=
  [x.controlSelector, x.statusSelector] ++ x.data

end FunctionBlockProcessingEnhancedMixer

def Block.bytes : Block → List UInt8
  | selector part => [part.selectorLength, part.inputFbPlugNumber, part.controlSelector]
  | volume a b part => [a, b, featureVolume] ++
      [part.controlDataLength, upperByte part.volume, lowerByte part.volume]
  | lrBalance a b part => [a, b, featureLRBalance] ++
      [part.controlDataLength, upperByte part.lrBalance, lowerByte part.lrBalance]
  | mixer a b c d part => [a, b, c, d] ++
      ([part.controlSelector, part.controlDataLength] ++ word part.mixerSetting)
  | enhancedMixer a b c d part => [a, b, c, d] ++ part.bytes

def headBytes (header : Header) (block : Block) : List UInt8 :=
  header.command.fields ++
    [block.functionBlockType, header.functionBlockId, header.controlAttribute]

def bytes (header : Header) (block : Block) : List UInt8 := headBytes header block ++ block.bytes

@[simp] theorem length_headBytes (header : Header) (block : Block) :
    (headBytes header block).length = 6 := rfl

/-- The part is written as its bytes, whether there is room or not. -/
theorem serialize_eq (header : Header) (block : Block) (w : Writer) :
    (FunctionBlockCmd.of header block).serialize w =
      some (((FunctionBlockCmd.of header block).serializeHead w).recordBytes block.bytes) := by
  generalize hhead : (FunctionBlockCmd.of header block).serializeHead w = v
  rw [FunctionBlockCmd.serialize, hhead]
  cases block with
  | selector part => rfl
  | mixer a b c d part =>
    rw [Block.bytes, Writer.recordBytes_append, Writer.recordBytes_append, ← Writer.recordWord_eq]
    rfl
  | enhancedMixer a b c d part =>
    rw [Block.bytes, FunctionBlockProcessingEnhancedMixer.bytes, Writer.recordBytes_append,
      Writer.recordBytes_append]
    rfl
  | _ =>
    rw [Block.bytes, Writer.recordBytes_append]
    rfl

theorem serialize_of_room {w : Writer} (hresult : w.result = true)
    (hroom : w.se.curPos + (bytes header block).length ≤ w.se.length) :
    (FunctionBlockCmd.of header block).serialize w = some (w.put (bytes header block)) := by
  have hemits := (emitsWith_writeBytes header.command.fields).comp (emitsWith_recordBytes
    ([block.functionBlockType, header.functionBlockId, header.controlAttribute] ++ block.bytes))
  have hwriter : { header.command.serialize w with result := true } =
      w.writeBytes header.command.fields := by
    rw [← hresult, ← w.writeBytes_result header.command.fields]
    rfl
  have hbytes : bytes header block = header.command.fields ++
      ([block.functionBlockType, header.functionBlockId, header.controlAttribute] ++
        block.bytes) := List.append_assoc _ _ _
  rw [serialize_eq, FunctionBlockCmd.serializeHead, ← Writer.recordBytes_append, hbytes]
  exact congrArg some ((congrArg (fun w => Writer.recordBytes w _) hwriter).trans (hemits w hroom))

theorem upperByte_eq (value : UInt16) : upperByte value = hiByte value := by
  apply UInt8.toBitVec_inj.mp
  apply BitVec.eq_of_getLsbD_eq
  intro i hi
  simp only [upperByte, hiByte, UInt16.toBitVec_toUInt8, UInt16.toBitVec_shiftRight,
    UInt16.toBitVec_and]
  interval_cases i <;> simp

theorem ofBytes_upperByte_lowerByte (value : UInt16) :
    ofBytes (upperByte value) (lowerByte value) = value := by
  rw [upperByte_eq]
  exact ofBytes_hiByte_loByte value

theorem shift_add (upper lower : UInt8) :
    (upper.toUInt16 <<< 8) + lower.toUInt16 = ofBytes upper lower := by
  apply UInt16.toBitVec_inj.mp
  apply BitVec.add_eq_or_of_and_eq_zero
  apply BitVec.eq_of_getLsbD_eq
  intro i hi
  interval_cases i <;> simp

theorem decodes_readControl (junk : Locals) (old length : UInt8) (value : UInt16) :
    Decodes (readControl junk old) [length, upperByte value, lowerByte value] (length, value) := by
  have hread : Decodes (readControl junk old) [length, upperByte value, lowerByte value]
      (length, ofBytes (upperByte value) (lowerByte value)) :=
    (decodes_byte old length).bind ((decodes_byte junk.val (upperByte value)).bind
      ((decodes_byte (upperByte value) (lowerByte value)).bindPure _))
  rwa [ofBytes_upperByte_lowerByte] at hread

theorem FunctionBlockFeature.decodes_volume (junk : Locals) (a b a' b' : UInt8)
    (part old : FunctionBlockFeatureVolume) :
    Decodes (FunctionBlockFeature.deserialize ⟨a', b', featureVolume, some old, none⟩ junk)
      (Block.volume a b part).bytes ⟨a, b, featureVolume, some part, none⟩ :=
  (decodes_byte a' a).bind ((decodes_byte b' b).bind
    ((decodes_byte featureVolume featureVolume).bind
      (((decodes_readControl junk old.controlDataLength part.controlDataLength part.volume).bindPure
        _).bindPure _)))

theorem FunctionBlockFeature.decodes_lrBalance (junk : Locals) (a b a' b' : UInt8)
    (part old : FunctionBlockFeatureLRBalance) :
    Decodes (FunctionBlockFeature.deserialize ⟨a', b', featureLRBalance, none, some old⟩ junk)
      (Block.lrBalance a b part).bytes ⟨a, b, featureLRBalance, none, some part⟩ :=
  (decodes_byte a' a).bind ((decodes_byte b' b).bind
    ((decodes_byte featureLRBalance featureLRBalance).bind
      (((decodes_readControl junk old.controlDataLength part.controlDataLength
      part.lrBalance).bindPure _).bindPure _)))

theorem FunctionBlockProcessingMixer.decodes (x old : FunctionBlockProcessingMixer) (p q : UInt8) :
    Decodes old.deserialize
      ([x.controlSelector] ++ ([x.controlDataLength] ++ (word x.mixerSetting ++ ([p] ++ [q])))) x :=
  (decodes_byte old.controlSelector x.controlSelector).bind
    ((decodes_byte old.controlDataLength x.controlDataLength).bind
      ((decodes_word old.mixerSetting x.mixerSetting).bind ((decodes_byte 0 p).bind
        ((decodes_byte 0 q).bindPure _))))

namespace FunctionBlockProcessingEnhancedMixer

variable {x : FunctionBlockProcessingEnhancedMixer}

theorem decodes_readLevel (value : UInt16) :
    Decodes readLevel [upperByte value, lowerByte value] value := by
  have hread : Decodes readLevel [upperByte value, lowerByte value]
      ((upperByte value).toUInt16 <<< 8 + (lowerByte value).toUInt16) :=
    (decodes_byte 0 (upperByte value)).bind ((decodes_byte 0 (lowerByte value)).bindPure _)
  rwa [shift_add, ofBytes_upperByte_lowerByte] at hread

theorem sent_of_level (h : x.statusSelector = statusLevel) :
    x.sent = { x with controlDataLength := UInt16.ofNat (x.levelData.length * 2) } := by
  have hstate : ¬ x.statusSelector = statusProgramableState := by
    rw [h]
    decide
  rw [sent, if_neg hstate, if_pos h]

theorem length_of_level (h : x.statusSelector = statusLevel) (hfits : x.levelData.length ≤ 249) :
    x.sent.controlDataLength.toNat / 2 = x.levelData.length := by
  rw [sent_of_level h]
  rw [UInt16.toNat_ofNat_of_lt' (by rw [UInt16.size]; omega)]
  omega

theorem data_of_level (h : x.statusSelector = statusLevel) (hfits : x.levelData.length ≤ 249) :
    x.data = [upperByte x.sent.controlDataLength, lowerByte x.sent.controlDataLength] ++
      x.levelData.flatMap fun value => [upperByte value, lowerByte value] := by
  have hstate : ¬ x.statusSelector = statusProgramableState := by
    rw [h]
    decide
  rw [data, if_neg hstate, if_pos h, length_of_level h hfits, List.take_length]

/-- The levels are read back, and the selectors are those that are put in their place. -/
theorem decodes (h : x.statusSelector = statusLevel) (hfits : x.levelData.length ≤ 249)
    (junk : Locals) (old : FunctionBlockProcessingEnhancedMixer) :
    Decodes (old.deserialize junk) x.bytes ⟨processingEnhancedMixer, statusLevel,
      x.sent.controlDataLength, old.programableStateData, x.levelData⟩ := by
  have hlevels := Decodes.times fun value (_ : value ∈ x.levelData) => decodes_readLevel value
  rw [List.map_id', ← length_of_level h hfits] at hlevels
  rw [bytes, data_of_level h hfits]
  generalize x.sent.controlDataLength = length at hlevels ⊢
  have hlength : (upperByte length).toUInt16 <<< 8 + (lowerByte length).toUInt16 = length := by
    rw [shift_add, ofBytes_upperByte_lowerByte]
  rw [← hlength] at hlevels
  have hread : Decodes (old.deserialize junk) ([x.controlSelector, x.statusSelector] ++
      ([upperByte length, lowerByte length] ++
        x.levelData.flatMap fun value => [upperByte value, lowerByte value]))
      ⟨processingEnhancedMixer, statusLevel,
        (upperByte length).toUInt16 <<< 8 + (lowerByte length).toUInt16, old.programableStateData,
        x.levelData⟩ :=
    (decodes_byte _ x.controlSelector).bind ((decodes_byte _ x.statusSelector).bind
      ((decodes_byte _ (upperByte length)).bind ((decodes_byte _ (lowerByte length)).bind
        (hlevels.bindPure _))))
  rwa [hlength] at hread

end FunctionBlockProcessingEnhancedMixer

def Succeeds {α : Type} (q : Deserializer α) (s : Reader) (a : α) : Prop :=
  ∃ t, q s = some (a, t) ∧ t.result = true

section Succeeds

variable {α β : Type} {q : Deserializer α} {f : α → Deserializer β}
    {cells : List UInt8} {s : Reader}
  {a : α} {b : β}

theorem succeeds_of_decodes (h : Decodes q cells a) (hs : Holds s cells) : Succeeds q s a :=
  ⟨_, h s hs, hs.result⟩

theorem succeeds_bind (h : Decodes q cells a) (hs : Holds s cells)
    (hf : Succeeds (f a) (advance s cells.length) b) : Succeeds (q >>= f) s b := by
  obtain ⟨t, hrun, hresult⟩ := hf
  exact ⟨t, (h.run_bind hs).trans hrun, hresult⟩

theorem Succeeds.bindPure (h : Succeeds q s a) (g : α → β) :
    Succeeds (q >>= fun a => pure (g a)) s (g a) := by
  obtain ⟨t, hrun, hresult⟩ := h
  exact ⟨t, run_bind_of_some hrun, hresult⟩

end Succeeds

namespace FunctionBlockProcessing

variable {junk : Locals} {a b c d a' b' c' d' : UInt8} {mixer : Option FunctionBlockProcessingMixer}
  {enhancedMixer : Option FunctionBlockProcessingEnhancedMixer} {x : FunctionBlockProcessing}
  {cells : List UInt8} {s : Reader}

theorem decodes_peek {α : Type} {q : Deserializer α} {cell : UInt8} {y : α}
    (h : Decodes q (cell :: cells) y) :
    Decodes (read BufferDeserialize.peekByte 0 >>= fun _ => q) (cell :: cells) y := by
  intro s hs
  have hle := hs.le
  rw [List.length_cons] at hle
  have hvalid : s.de.isCurPosValid = true := s.de.isCurPosValid_iff.mpr (by omega)
  have hpeek : read BufferDeserialize.peekByte 0 s = some (s.de.memory s.de.curPos, s) := by
    rw [Deserializer.read, BufferDeserialize.peekByte, if_pos hvalid]
    simp
  rw [run_bind_of_some hpeek]
  exact h s hs

theorem succeeds_of_part
    (h : Decodes (deserializePart ⟨a, b, c, d, mixer, enhancedMixer⟩ junk) cells x)
    (hs : Holds s ([a, b, c, d] ++ cells)) :
    Succeeds (deserialize ⟨a', b', c', d', mixer, enhancedMixer⟩ junk) s x := by
  change Holds s ([a] ++ ([b] ++ ([c] ++ ([d] ++ cells)))) at hs
  obtain ⟨ha, hs⟩ := holds_append.mp hs
  obtain ⟨hb, hs⟩ := holds_append.mp hs
  obtain ⟨hc, hs⟩ := holds_append.mp hs
  obtain ⟨hd, hs⟩ := holds_append.mp hs
  refine succeeds_bind (decodes_byte a' a) ha (succeeds_bind (decodes_byte b' b) hb
    (succeeds_bind (decodes_byte c' c) hc (succeeds_bind (decodes_byte d' d) hd
      (succeeds_bind h hs ?_))))
  exact ⟨_, rfl, hs.result⟩

theorem succeeds_mixer (a' b' c' d' : UInt8) (junk : Locals)
    (part old : FunctionBlockProcessingMixer) {p q : UInt8}
    (hs : Holds s ((Block.mixer a b c d part).bytes ++ [p, q])) :
    Succeeds (deserialize ⟨a', b', c', d', some old, none⟩ junk) s ⟨a, b, c, d, some part, none⟩ :=
  succeeds_of_part (decodes_peek ((part.decodes old p q).bindPure _)) hs

theorem succeeds_enhancedMixer (a' b' c' d' : UInt8) (junk : Locals)
    {part : FunctionBlockProcessingEnhancedMixer}
    (h : part.statusSelector = statusLevel) (hfits : part.levelData.length ≤ 249)
    (old : FunctionBlockProcessingEnhancedMixer)
    (hs : Holds s (Block.enhancedMixer a b c d part).bytes) :
    Succeeds (deserialize ⟨a', b', c', d', none, some old⟩ junk) s ⟨a, b, c, d, none,
      some ⟨processingEnhancedMixer, statusLevel, part.sent.controlDataLength,
        old.programableStateData, part.levelData⟩⟩ :=
  succeeds_of_part (decodes_peek
    ((FunctionBlockProcessingEnhancedMixer.decodes h hfits junk old).bindPure _)) hs

end FunctionBlockProcessing

/-- What is sent fits into an AV/C frame of 512 bytes. -/
def Block.Fits : Block → Prop
  | enhancedMixer _ _ _ _ part =>
    (part.statusSelector = statusLevel → part.levelData.length ≤ 249) ∧
      (part.statusSelector = statusProgramableState → part.programableStateData.length / 8 ≤ 498)
  | _ => True

/-- Whole quadlets. -/
def padded (length : ℕ) : ℕ := (length + 3) / 4 * 4

/-- The frame of a request before it is written. -/
def emptyFrame : Writer := ⟨⟨fun _ => 0, 0, 512, by norm_num⟩, true⟩

/-- A reader of what was written, up to a whole quadlet. -/
def answer (w : Writer) : Reader := ⟨.create w.se.memory (padded w.se.curPos), 512, true⟩

/-- The command is written, and the prepared command gets the same members from the frame. -/
def RoundTrips (junk : Locals) (header header' : Header) (block block' : Block) : Prop :=
  ∃ w, (FunctionBlockCmd.of header block).serialize emptyFrame = some w ∧ w.result = true ∧
    Succeeds ((FunctionBlockCmd.of header' block').deserialize junk) (answer w)
      (FunctionBlockCmd.of header block).sent

/-- The selectors of an enhanced mixer are those that the parser puts in their place, and the
states, which are not sent, are those of the prepared command. -/
def SelectorsKept : Block → Block → Prop
  | .enhancedMixer _ _ _ _ part, .enhancedMixer _ _ _ _ part' =>
    part.controlSelector = processingEnhancedMixer ∧ part.statusSelector = statusLevel ∧
      part.programableStateData = part'.programableStateData
  | _, _ => True

theorem length_data_le {part : FunctionBlockProcessingEnhancedMixer} {a b c d : UInt8}
    (h : (Block.enhancedMixer a b c d part).Fits) : part.data.length ≤ 500 := by
  obtain ⟨hlevel, hstate⟩ := h
  by_cases hl : part.statusSelector = statusLevel
  · have hlength := hlevel hl
    rw [data_of_level hl hlength]
    simp only [List.length_append, List.length_cons, List.length_nil, List.length_flatMap,
      List.map_const', List.sum_replicate, smul_eq_mul]
    omega
  · rw [data, if_neg hl]
    split_ifs with hs
    · have hlength := hstate hs
      have hsent : part.sent.controlDataLength.toNat ≤ part.programableStateData.length / 8 := by
        rw [sent, if_pos hs]
        exact (UInt16.toNat_ofNat' (n := _)).trans_le (Nat.mod_le _ _)
      simp only [List.length_append, List.length_cons, List.length_nil, List.length_map,
        List.length_range]
      omega
    · exact Nat.zero_le _

theorem length_bytes_le (h : block.Fits) :
    (bytes header block).length ≤ 512 := by
  rw [bytes, List.length_append, length_headBytes]
  cases block with
  | enhancedMixer a b c d part =>
    have hdata := length_data_le h
    simp only [Block.bytes, FunctionBlockProcessingEnhancedMixer.bytes, List.length_append,
      List.length_cons, List.length_nil]
    omega
  | _ => simp [Block.bytes]

theorem written_eq (header : Header) (h : block.Fits) :
    (FunctionBlockCmd.of header block).serialize emptyFrame =
      some (emptyFrame.put (bytes header block)) := by
  apply serialize_of_room rfl
  change 0 + _ ≤ 512
  rw [Nat.zero_add]
  exact length_bytes_le h

theorem contains_zeros {p : ℕ} {cells : List UInt8} (k : ℕ) :
    Contains (storeAt (fun _ => 0) p cells) (p + cells.length) (List.replicate k 0) := by
  rw [Contains, List.length_replicate, List.eq_replicate_iff]
  refine ⟨length_slice _ _ _, ?_⟩
  intro cell hcell
  obtain ⟨i, -, rfl⟩ := List.mem_map.mp hcell
  exact storeAt_behind _ (Nat.le_add_right _ _)

theorem holds_answer (header : Header) (h : block.Fits) :
    Holds (answer (emptyFrame.put (bytes header block)))
      (bytes header block ++ List.replicate (padded (bytes header block).length -
        (bytes header block).length) 0) := by
  have hle : (bytes header block).length ≤ 512 := length_bytes_le h
  generalize bytes header block = cells at hle ⊢
  have hpadded : cells.length ≤ padded cells.length ∧ padded cells.length ≤ 512 := by
    rw [padded]
    omega
  refine ⟨?_, ?_, rfl⟩
  · change Contains (storeAt (fun _ => 0) 0 cells) 0 _
    exact contains_append.mpr ⟨contains_storeAt _ _ _, contains_zeros _⟩
  · change 0 + _ ≤ MachineInt.u64 (padded (0 + cells.length))
    rw [Nat.zero_add, Nat.zero_add, MachineInt.u64_of_lt (by omega), List.length_append,
      List.length_replicate]
    omega

theorem SameControl.functionBlockType_eq (h : SameControl block block') :
    block'.functionBlockType = block.functionBlockType := by
  cases h <;> rfl

theorem decodes_accept : Decodes FunctionBlockCmd.accept ([] : List UInt8) () := by
  intro s hs
  have hs' : { s with result := true } = s := by rw [← hs.result]
  rw [FunctionBlockCmd.accept, hs', List.length_nil, advance_zero]

theorem decodes_head (header header' : Header) (block : Block) :
    Decodes (FunctionBlockCmd.of header' block).deserializeHead (headBytes header block)
      (FunctionBlockCmd.of header block) :=
  (decodes_readThree AVCCommand.mk _ _ _ _ _ _).bind (decodes_accept.bind
    ((decodes_byte _ block.functionBlockType).bind ((decodes_byte _ header.functionBlockId).bind
      ((decodes_byte _ header.controlAttribute).bindPure _))))

theorem succeeds_part (h : SameControl block block') (hfits : block.Fits)
    (hkept : SelectorsKept block block')
    (hs : Holds s (block.bytes ++ List.replicate
      (padded (6 + block.bytes.length) - (6 + block.bytes.length)) 0))
    :
    Succeeds ((FunctionBlockCmd.of header block').deserializePart junk) s
      (FunctionBlockCmd.of header block).sent := by
  have hbytes := (holds_append.mp hs).1
  cases h with
  | selector part part' =>
    exact succeeds_of_decodes ((decodes_readThree FunctionBlockSelector.mk _ _ _ _ _ _).bindPure
      _) hbytes
  | volume a b a' b' part part' =>
    exact succeeds_of_decodes ((FunctionBlockFeature.decodes_volume junk a b a' b' part
      part').bindPure _) hbytes
  | lrBalance a b a' b' part part' =>
    exact succeeds_of_decodes ((FunctionBlockFeature.decodes_lrBalance junk a b a' b' part
      part').bindPure _) hbytes
  | mixer a b c d a' b' c' d' part part' =>
    -- the 14 bytes of the command end in the middle of a quadlet
    have hlength : (Block.mixer a b c d part).bytes.length = 8 := rfl
    rw [hlength] at hs
    have hprocessing := FunctionBlockProcessing.succeeds_mixer a' b' c' d' junk part part' hs
    exact hprocessing.bindPure _
  | enhancedMixer a b c d a' b' c' d' part part' =>
    obtain ⟨hselector, hstatus, hstates⟩ := hkept
    have hprocessing := FunctionBlockProcessing.succeeds_enhancedMixer a' b' c' d' junk hstatus
      (hfits.1 hstatus) part' hbytes
    have hpart : (⟨processingEnhancedMixer, statusLevel, part.sent.controlDataLength,
        part'.programableStateData, part.levelData⟩ : FunctionBlockProcessingEnhancedMixer) =
          part.sent := by
      rw [sent_of_level hstatus, ← hselector, ← hstatus, ← hstates]
    rw [hpart] at hprocessing
    exact hprocessing.bindPure _

theorem FunctionBlockProcessingEnhancedMixer.of_deserialize
    {x y : FunctionBlockProcessingEnhancedMixer} (h : x.deserialize junk s = some (y, t)) :
    y.controlSelector = processingEnhancedMixer ∧ y.statusSelector = statusLevel ∧
      y.programableStateData = x.programableStateData := by
  obtain ⟨_, s₁, -, h⟩ := exists_of_bind h
  obtain ⟨_, s₂, -, h⟩ := exists_of_bind h
  obtain ⟨_, s₃, -, h⟩ := exists_of_bind h
  obtain ⟨_, s₄, -, h⟩ := exists_of_bind h
  obtain ⟨levelData, s₅, -, h⟩ := exists_of_bind h
  cases h
  exact ⟨rfl, rfl, rfl⟩

theorem FunctionBlockProcessing.of_deserialize {a b c d : UInt8} {y : FunctionBlockProcessing}
    {x : FunctionBlockProcessingEnhancedMixer}
    (h : deserialize ⟨a, b, c, d, none, some x⟩ junk s = some (y, t)) :
    ∃ part, y.enhancedMixer = some part ∧ part.controlSelector = processingEnhancedMixer ∧
      part.statusSelector = statusLevel ∧ part.programableStateData = x.programableStateData := by
  obtain ⟨_, s₁, -, h⟩ := exists_of_bind h
  obtain ⟨_, s₂, -, h⟩ := exists_of_bind h
  obtain ⟨_, s₃, -, h⟩ := exists_of_bind h
  obtain ⟨_, s₄, -, h⟩ := exists_of_bind h
  obtain ⟨z, s₅, hpart, h⟩ := exists_of_bind h
  cases h
  obtain ⟨_, s₇, -, hpart⟩ := exists_of_bind hpart
  obtain ⟨part, s₈, hread, hpart⟩ := exists_of_bind hpart
  cases hpart
  exact ⟨part, rfl, FunctionBlockProcessingEnhancedMixer.of_deserialize hread⟩

theorem selectorsKept_of_succeeds (h : SameControl block block')
    (hrun : Succeeds ((FunctionBlockCmd.of header block').deserializePart junk) s
      (FunctionBlockCmd.of header block).sent)
    : SelectorsKept block block' := by
  cases h with
  | enhancedMixer a b c d a' b' c' d' part part' =>
    obtain ⟨t, hrun, -⟩ := hrun
    obtain ⟨processing, s₁, hread, hrun⟩ := exists_of_bind hrun
    obtain ⟨y, hy, hselector, hstatus, hstates⟩ := FunctionBlockProcessing.of_deserialize hread
    have hprocessing := Option.some.inj (congrArg FunctionBlockCmd.processing
      (Prod.mk.inj (Option.some.inj hrun)).1)
    rw [hprocessing] at hy
    obtain rfl := Option.some.inj hy
    rw [sent] at hselector hstatus hstates
    split_ifs at hselector hstatus hstates
    · exact ⟨hselector, hstatus, hstates⟩
    · exact ⟨hselector, hstatus, hstates⟩
    · exact ⟨hselector, hstatus, hstates⟩
  | _ => trivial

/-- A command is read back just if the selectors of its enhanced mixer can be. -/
theorem roundTrips_iff_selectorsKept (junk : Locals) (header header' : Header)
    (h : SameControl block block') (hfits : block.Fits) :
    RoundTrips junk header header' block block' ↔ SelectorsKept block block' := by
  have hholds := holds_answer header hfits
  have hlength : (bytes header block).length = 6 + block.bytes.length := List.length_append
  rw [hlength, bytes, List.append_assoc] at hholds
  obtain ⟨hhead, hpart⟩ := holds_append.mp hholds
  have hheadBytes : headBytes header block' = headBytes header block := by
    rw [headBytes, headBytes, h.functionBlockType_eq]
  have hrun : (FunctionBlockCmd.of header' block').deserialize junk
      (answer (emptyFrame.put (bytes header block))) =
        (FunctionBlockCmd.of header block').deserializePart junk
          (advance (answer (emptyFrame.put (bytes header block))) 6) := by
    have hdecodes := decodes_head header header' block'
    rw [hheadBytes] at hdecodes
    exact hdecodes.run_bind hhead
  rw [RoundTrips, written_eq header hfits]
  constructor
  · rintro ⟨w, hw, -, hsucceeds⟩
    obtain rfl := Option.some.inj hw
    rw [Succeeds, hrun] at hsucceeds
    exact selectorsKept_of_succeeds h hsucceeds
  · intro hkept
    refine ⟨_, rfl, rfl, ?_⟩
    rw [Succeeds, hrun]
    exact succeeds_part h hfits hkept hpart

section After

variable (f : ResponseFrame)

/-- The reader after so many bytes were read, in the frame or not. -/
def after (k : ℕ) : Reader := { f.reader (min k f.length) with result := decide (k ≤ f.length) }

/-- A byte of the frame, or what was there if the frame has ended. -/
def byteOr (k : ℕ) (old : UInt8) : UInt8 := if k < f.length then f.memory k else old

theorem readMember_from (k : ℕ) (ok : Bool) (old : UInt8) :
    readMember old { after f k with result := ok } =
      some (byteOr f k old, { after f (k + 1) with result := ok && decide (k < f.length) }) := by
  rw [readMember, Deserializer.read, after, after, byteOr]
  rcases Nat.lt_or_ge k f.length with hlt | hge
  · have hnext : min (k + 1) f.length = k + 1 := Nat.min_eq_left hlt
    rw [Nat.min_eq_left hlt.le, hnext, readByte_inside f hlt, if_pos hlt, decide_eq_true hlt,
      ← f.reader_advance]
    rfl
  · have hnext : min (k + 1) f.length = f.length := Nat.min_eq_right (by omega)
    have hnot : ¬ k < f.length := by omega
    rw [Nat.min_eq_right hge, hnext, readByte_end, if_neg hnot, decide_eq_false hnot]
    rfl

theorem readMember_after (k : ℕ) (old : UInt8) :
    readMember old (after f k) = some (byteOr f k old, after f (k + 1)) := by
  have hresult : (decide (k ≤ f.length) && decide (k < f.length)) = decide (k + 1 ≤ f.length) := by
    rw [← Bool.decide_and]
    exact decide_eq_decide.mpr ⟨fun h => h.2, fun h => ⟨Nat.le_of_succ_le h, h⟩⟩
  have hread := readMember_from f k (decide (k ≤ f.length)) old
  rwa [hresult] at hread

theorem readThree_after {α : Type} (mk : UInt8 → UInt8 → UInt8 → α) (k : ℕ) (a b c : UInt8) :
    readThree mk a b c (after f k) =
      some (mk (byteOr f k a) (byteOr f (k + 1) b) (byteOr f (k + 2) c), after f (k + 3)) := by
  rw [readThree, run_bind_of_some (readMember_after f k a),
    run_bind_of_some (readMember_after f (k + 1) b),
    run_bind_of_some (readMember_after f (k + 2) c)]
  rfl

theorem after_zero : after f 0 = f.start := by
  rw [after, Nat.zero_min, f.reader_zero]
  rfl

end After

def headRead (f : ResponseFrame) (x : FunctionBlockCmd) : FunctionBlockCmd :=
  ⟨⟨byteOr f 0 x.command.ctype, byteOr f 1 x.command.subunit, byteOr f 2 x.command.opcode⟩,
    byteOr f 3 x.functionBlockType, byteOr f 4 x.functionBlockId, byteOr f 5 x.controlAttribute,
    x.selector, x.feature, x.processing, x.codec⟩

theorem deserializeHead_run (f : ResponseFrame) (x : FunctionBlockCmd) :
    x.deserializeHead f.start = some (headRead f x, after f 6) := by
  have hcommand : x.command.deserialize f.start = some (⟨byteOr f 0 x.command.ctype,
      byteOr f 1 x.command.subunit, byteOr f 2 x.command.opcode⟩, after f 3) := by
    rw [← after_zero]
    exact readThree_after f AVCCommand.mk 0 _ _ _
  have haccept : FunctionBlockCmd.accept (after f 3) =
    some ((), { after f 3 with result := true }) := rfl
  have hfourth : readMember x.functionBlockType { after f 3 with result := true } =
      some (byteOr f 3 x.functionBlockType, after f 4) := readMember_from f 3 true _
  rw [FunctionBlockCmd.deserializeHead, run_bind_of_some hcommand, run_bind_of_some haccept,
    run_bind_of_some hfourth, run_bind_of_some (readMember_after f 4 _),
    run_bind_of_some (readMember_after f 5 _)]
  rfl

/-- The parser returns from every state. -/
def Ends {α : Type} (q : Deserializer α) : Prop := ∀ s, (q s).isSome

section Ends

variable {α β : Type} {q : Deserializer α} {g : α → Deserializer β}

theorem ends_pure (a : α) : Ends (Pure.pure a : Deserializer α) := fun _ => rfl

theorem ends_read {r : BufferDeserialize → BufferDeserialize × Option α} {old : α}
    (hg : ∀ a, Ends (g a)) : Ends (Deserializer.read r old >>= g) := fun _ => hg _ _

theorem Ends.bind (h : Ends q) (hg : ∀ a, Ends (g a)) : Ends (q >>= g) := by
  intro s
  obtain ⟨⟨a, t⟩, hrun⟩ := Option.isSome_iff_exists.mp (h s)
  rw [run_bind_of_some hrun]
  exact hg a t

theorem Ends.times (h : Ends q) (n : ℕ) : Ends (times n q) := by
  induction n with
  | zero => exact ends_pure []
  | succ n ih => exact h.bind fun a => ih.bind fun as => ends_pure (a :: as)

end Ends

theorem FunctionBlockProcessing.ends (x : FunctionBlockProcessing) (junk : Locals) :
    Ends (x.deserialize junk) := by
  obtain ⟨a, b, c, d, mixer, enhancedMixer⟩ := x
  cases mixer with
  | some mixer => exact fun _ => rfl
  | none =>
    cases enhancedMixer with
    | some mixer =>
      have hmixer : Ends (mixer.deserialize junk) :=
        ends_read fun _ => ends_read fun _ => ends_read fun _ => ends_read fun _ =>
          (Ends.times (fun _ => rfl) _).bind fun _ _ => rfl
      exact ends_read fun _ => ends_read fun _ => ends_read fun _ => ends_read fun _ =>
        (ends_read fun _ => hmixer.bind fun _ _ => rfl).bind fun _ _ => rfl
    | none => exact fun _ => rfl

def Foreign (x : FunctionBlockCmd) (f : ResponseFrame) : Prop :=
  (3 < f.length ∧ f.memory 3 ≠ x.functionBlockType) ∨
    ∃ feature, x.feature = some feature ∧ 8 < f.length ∧ f.memory 8 ≠ feature.controlSelector

/-- The parser ends, and a response that is not for the command is not accepted. -/
def RejectsForeign (junk : Locals) (x : FunctionBlockCmd) (f : ResponseFrame) : Prop :=
  ∃ y t, x.deserialize junk f.start = some (y, t) ∧ (Foreign x f → t.result = false)

/-- A response with the type of a selector is for a command with that type, or too short, and one
with the type of a feature does not need a part that is not there. -/
def PartsThere (block : Block) (f : ResponseFrame) : Prop :=
  let functionBlockType := byteOr f 3 block.functionBlockType
  if functionBlockType = typeSelector then block.functionBlockType = typeSelector ∨ f.length ≤ 8
  else if functionBlockType = typeFeature then
    8 < f.length →
      (f.memory 8 = featureVolume → (block.featurePart.bind FunctionBlockFeature.volume).isSome) ∧
      (f.memory 8 = featureLRBalance → (block.featurePart.bind
        FunctionBlockFeature.lrBalance).isSome)
  else True

namespace FunctionBlockFeature

variable (x : FunctionBlockFeature)

structure HasPart : Prop where
  volume : x.controlSelector = featureVolume → x.volume.isSome
  lrBalance : x.controlSelector = featureLRBalance → x.lrBalance.isSome

theorem isSome_part_iff (junk : Locals) (s : Reader) :
    (x.deserializePart junk s).isSome ↔ x.HasPart := by
  obtain ⟨a, b, controlSelector, volume, lrBalance⟩ := x
  have hbalance : featureLRBalance ≠ featureVolume := by decide
  rw [deserializePart]
  split_ifs with hvolume hlr
  · cases volume with
    | none => exact iff_of_false Bool.false_ne_true fun h => Bool.false_ne_true (h.volume hvolume)
    | some part =>
      exact iff_of_true rfl ⟨fun _ => rfl, fun hlr => absurd (hlr.symm.trans hvolume) hbalance⟩
  · cases lrBalance with
    | none => exact iff_of_false Bool.false_ne_true fun h => Bool.false_ne_true (h.lrBalance hlr)
    | some part => exact iff_of_true rfl ⟨fun hvolume' => absurd hvolume' hvolume, fun _ => rfl⟩
  · exact iff_of_true rfl ⟨fun h => absurd h hvolume, fun h => absurd h hlr⟩

theorem result_of_other {junk : Locals} {s t : Reader} {x y : FunctionBlockFeature}
    (hvolume : x.controlSelector ≠ featureVolume) (hlr : x.controlSelector ≠ featureLRBalance)
    (h : x.deserializePart junk s = some (y, t)) : t.result = false := by
  rw [deserializePart, if_neg hvolume, if_neg hlr] at h
  cases h
  rfl

def selectorRead (f : ResponseFrame) : FunctionBlockFeature :=
  ⟨byteOr f 6 x.selectorLength, byteOr f 7 x.audioChannelNumber,
    byteOr f 8 x.controlSelector, x.volume, x.lrBalance⟩

theorem deserialize_run (f : ResponseFrame) (junk : Locals) :
    x.deserialize junk (after f 6) = (x.selectorRead f).deserializePart junk (after f 9) := by
  rw [deserialize, run_bind_of_some (readMember_after f 6 _),
    run_bind_of_some (readMember_after f 7 _), run_bind_of_some (readMember_after f 8 _)]
  rfl

variable {x} in
theorem HasPart.selectorRead_iff (h : x.HasPart) (f : ResponseFrame) :
    (x.selectorRead f).HasPart ↔ (8 < f.length →
      (f.memory 8 = featureVolume → x.volume.isSome) ∧
      (f.memory 8 = featureLRBalance → x.lrBalance.isSome)) := by
  have hread : (x.selectorRead f).controlSelector = byteOr f 8 x.controlSelector := rfl
  rw [byteOr] at hread
  split_ifs at hread with hlt
  · constructor
    · intro hpart _
      exact ⟨fun hm => hpart.volume (hread.trans hm), fun hm => hpart.lrBalance (hread.trans hm)⟩
    · intro hparts
      obtain ⟨hvolume, hbalance⟩ := hparts hlt
      exact ⟨fun hc => hvolume (hread.symm.trans hc), fun hc => hbalance (hread.symm.trans hc)⟩
  · refine iff_of_true ?_ fun hlt' => absurd hlt' hlt
    exact ⟨fun hc => h.volume (hread.symm.trans hc), fun hc => h.lrBalance (hread.symm.trans hc)⟩

end FunctionBlockFeature

/-- A processing block without a mixer does not accept anything. -/
theorem FunctionBlockProcessing.result_of_fresh {y : FunctionBlockProcessing}
    (h : FunctionBlockProcessing.fresh.deserialize junk s = some (y, t)) :
    t.result = false := by
  obtain ⟨_, s₁, -, h⟩ := exists_of_bind h
  obtain ⟨_, s₂, -, h⟩ := exists_of_bind h
  obtain ⟨_, s₃, -, h⟩ := exists_of_bind h
  obtain ⟨_, s₄, -, h⟩ := exists_of_bind h
  obtain ⟨z, s₅, hpart, h⟩ := exists_of_bind h
  cases hpart
  cases h
  rfl

section Foreign

variable {junk : Locals} {header : Header} {block : Block} {f : ResponseFrame}

theorem rejectsForeign_iff_part : RejectsForeign junk (.of header block) f ↔
    ∃ y t, (headRead f (.of header block)).deserializePart junk (after f 6) = some (y, t) ∧
      (Foreign (.of header block) f → t.result = false) := by
  rw [RejectsForeign, FunctionBlockCmd.deserialize, run_bind_of_some (deserializeHead_run f _)]

theorem headRead_type : (headRead f (.of header block)).functionBlockType =
    byteOr f 3 block.functionBlockType := rfl

theorem foreign_of_type_ne {type : UInt8} (htype : byteOr f 3 block.functionBlockType = type)
    (hne : block.functionBlockType ≠ type) : Foreign (.of header block) f := by
  rw [byteOr] at htype
  split_ifs at htype with hlt
  · left
    exact ⟨hlt, fun h => hne (h.symm.trans htype)⟩
  · exact absurd htype hne

theorem type_ne_of_foreign (hfeature : block.featurePart = none)
    (h : Foreign (.of header block) f) :
    byteOr f 3 block.functionBlockType ≠ block.functionBlockType := by
  rcases h with ⟨hlt, hne⟩ | ⟨feature, hsome, -⟩
  · rw [byteOr, if_pos hlt]
    exact hne
  · exact absurd (hsome.symm.trans hfeature) (by simp)

theorem Block.featurePart_of_type_ne (h : block.functionBlockType ≠ typeFeature) :
    block.featurePart = none := by
  cases block with
  | volume a b part => exact absurd rfl h
  | lrBalance a b part => exact absurd rfl h
  | _ => rfl

theorem Block.processingPart_of_type_ne (h : block.functionBlockType ≠ typeProcessing) :
    block.processingPart = none := by
  cases block with
  | mixer a b c d part => exact absurd rfl h
  | enhancedMixer a b c d part => exact absurd rfl h
  | _ => rfl

theorem rejectsForeign_selector (htype : byteOr f 3 block.functionBlockType = typeSelector) :
    RejectsForeign junk (.of header block) f ↔
      block.functionBlockType = typeSelector ∨ f.length ≤ 8 := by
  obtain ⟨part, hread⟩ : ∃ part,
      (block.selectorPart.getD .fresh).deserialize (after f 6) = some (part, after f 9) :=
    ⟨_, readThree_after f FunctionBlockSelector.mk 6 _ _ _⟩
  have hrun : (headRead f (.of header block)).deserializePart junk (after f 6) =
      some ({ headRead f (.of header block) with selector := some part }, after f 9) := by
    rw [FunctionBlockCmd.deserializePart, headRead_type, if_pos htype]
    exact run_bind_of_some hread
  rw [rejectsForeign_iff_part, hrun]
  have hresult : (after f 9).result = false ↔ f.length ≤ 8 := by
    change decide (9 ≤ f.length) = false ↔ _
    rw [decide_eq_false_iff_not]
    omega
  by_cases hown : block.functionBlockType = typeSelector
  · have hfeature : block.featurePart = none := Block.featurePart_of_type_ne (by rw [hown]; decide)
    refine iff_of_true ⟨_, _, rfl, ?_⟩ (Or.inl hown)
    intro hforeign
    exact absurd (htype.trans hown.symm) (type_ne_of_foreign hfeature hforeign)
  · rw [or_iff_right hown, ← hresult]
    constructor
    · rintro ⟨y, t, hrun, hfalse⟩
      cases hrun
      exact hfalse (foreign_of_type_ne htype hown)
    · intro hfalse
      exact ⟨_, _, rfl, fun _ => hfalse⟩

theorem rejectsForeign_processing (htype : byteOr f 3 block.functionBlockType = typeProcessing) :
    RejectsForeign junk (.of header block) f := by
  have hselector : byteOr f 3 block.functionBlockType ≠ typeSelector := by
    rw [htype]
    decide
  have hfeature : byteOr f 3 block.functionBlockType ≠ typeFeature := by
    rw [htype]
    decide
  rw [rejectsForeign_iff_part, FunctionBlockCmd.deserializePart, headRead_type, if_neg hselector,
    if_neg hfeature, if_pos htype]
  obtain ⟨⟨y, t⟩, hrun⟩ := Option.isSome_iff_exists.mp
    ((block.processingPart.getD .fresh).ends junk (after f 6))
  refine ⟨_, t, run_bind_of_some hrun, ?_⟩
  intro hforeign
  by_cases hown : block.functionBlockType = typeProcessing
  · have hnone : block.featurePart = none := Block.featurePart_of_type_ne (by rw [hown]; decide)
    exact absurd (htype.trans hown.symm) (type_ne_of_foreign hnone hforeign)
  · rw [Block.processingPart_of_type_ne hown] at hrun
    exact FunctionBlockProcessing.result_of_fresh hrun

theorem rejectsForeign_other (hselector : byteOr f 3 block.functionBlockType ≠ typeSelector)
    (hfeature : byteOr f 3 block.functionBlockType ≠ typeFeature)
    (hprocessing : byteOr f 3 block.functionBlockType ≠ typeProcessing) :
    RejectsForeign junk (.of header block) f := by
  rw [rejectsForeign_iff_part, FunctionBlockCmd.deserializePart, headRead_type, if_neg hselector,
    if_neg hfeature, if_neg hprocessing]
  split_ifs
  · exact ⟨_, _, rfl, fun _ => rfl⟩
  · exact ⟨_, _, rfl, fun _ => rfl⟩

theorem Block.hasPart (block : Block) : (block.featurePart.getD .fresh).HasPart := by
  have hfresh : FunctionBlockFeature.fresh.HasPart :=
    ⟨fun h => absurd h (by decide), fun h => absurd h (by decide)⟩
  have hne : featureVolume ≠ featureLRBalance := by decide
  cases block with
  | volume a b part => exact ⟨fun _ => rfl, fun h => absurd h hne⟩
  | lrBalance a b part => exact ⟨fun h => absurd h hne.symm, fun _ => rfl⟩
  | _ => exact hfresh

theorem Block.controlSelector_of_part (block : Block) :
    ((block.featurePart.getD .fresh).volume.isSome →
      block.featurePart.map FunctionBlockFeature.controlSelector = some featureVolume) ∧
    ((block.featurePart.getD .fresh).lrBalance.isSome →
      block.featurePart.map FunctionBlockFeature.controlSelector = some featureLRBalance) := by
  cases block with
  | volume a b part => simp [featurePart]
  | lrBalance a b part => simp [featurePart]
  | _ => simp [featurePart, FunctionBlockFeature.fresh]

theorem not_foreign_of_selector {selector : UInt8}
    (htype : byteOr f 3 block.functionBlockType = typeFeature)
    (hfeature : block.featurePart.map FunctionBlockFeature.controlSelector = some selector)
    (hread : byteOr f 8 (block.featurePart.getD .fresh).controlSelector = selector) :
    ¬ Foreign (.of header block) f := by
  obtain ⟨feature, hsome, rfl⟩ := Option.map_eq_some_iff.mp hfeature
  have hown : block.functionBlockType = typeFeature := by
    by_contra hne
    rw [Block.featurePart_of_type_ne hne] at hsome
    cases hsome
  rintro (⟨hlt, hne⟩ | ⟨feature', hsome', hlt, hne⟩)
  · rw [byteOr, if_pos hlt] at htype
    exact hne (htype.trans hown.symm)
  · obtain rfl := Option.some.inj (hsome.symm.trans hsome')
    rw [byteOr, if_pos hlt] at hread
    exact hne hread

theorem rejectsForeign_feature (htype : byteOr f 3 block.functionBlockType = typeFeature) :
    RejectsForeign junk (.of header block) f ↔ (8 < f.length →
      (f.memory 8 = featureVolume → (block.featurePart.bind FunctionBlockFeature.volume).isSome) ∧
      (f.memory 8 = featureLRBalance →
        (block.featurePart.bind FunctionBlockFeature.lrBalance).isSome)) := by
  have hselector : byteOr f 3 block.functionBlockType ≠ typeSelector := by
    rw [htype]
    decide
  have hvolume : block.featurePart.bind FunctionBlockFeature.volume =
      (block.featurePart.getD .fresh).volume := by
    cases block.featurePart <;> rfl
  have hbalance : block.featurePart.bind FunctionBlockFeature.lrBalance =
      (block.featurePart.getD .fresh).lrBalance := by
    cases block.featurePart <;> rfl
  rw [rejectsForeign_iff_part, FunctionBlockCmd.deserializePart, headRead_type, if_neg hselector,
    if_pos htype, hvolume, hbalance, ← block.hasPart.selectorRead_iff f,
    ← FunctionBlockFeature.isSome_part_iff _ junk (after f 9)]
  constructor
  · rintro ⟨y, t, hrun, -⟩
    obtain ⟨part, u, hpart, -⟩ := exists_of_bind hrun
    rw [FunctionBlockFeature.deserialize_run] at hpart
    exact Option.isSome_of_eq_some hpart
  · intro hsome
    obtain ⟨⟨part, t⟩, hpart⟩ := Option.isSome_iff_exists.mp hsome
    have hhas := (FunctionBlockFeature.isSome_part_iff _ junk (after f 9)).mp hsome
    refine ⟨_, t, run_bind_of_some ((FunctionBlockFeature.deserialize_run _ f junk).trans hpart),
      ?_⟩
    intro hforeign
    -- the control selector is that of a part that is there, or none of the two
    apply FunctionBlockFeature.result_of_other _ _ hpart
    · intro hread
      exact not_foreign_of_selector htype (block.controlSelector_of_part.1 (hhas.volume hread))
        hread hforeign
    · intro hread
      exact not_foreign_of_selector htype (block.controlSelector_of_part.2 (hhas.lrBalance hread))
        hread hforeign

end Foreign

/-- A response for another command is refused just if it does not need a part that is not there. -/
theorem rejectsForeign_iff (junk : Locals) (header : Header) (block : Block) (f : ResponseFrame) :
    RejectsForeign junk (.of header block) f ↔ PartsThere block f := by
  rw [PartsThere]
  split_ifs with hselector hfeature
  · exact rejectsForeign_selector hselector
  · exact rejectsForeign_feature hfeature
  · apply iff_of_true _ trivial
    by_cases hprocessing : byteOr f 3 block.functionBlockType = typeProcessing
    · exact rejectsForeign_processing hprocessing
    · exact rejectsForeign_other hselector hfeature hprocessing

/-- Which commands read back what they have sent, and which responses they refuse. -/
theorem functionBlock_answers_iff (junk : Locals) (header header' : Header)
    (h : SameControl block block') (hfits : block.Fits) (f : ResponseFrame) :
    (RoundTrips junk header header' block block' ↔ SelectorsKept block block') ∧
      (RejectsForeign junk (FunctionBlockCmd.of header' block') f ↔ PartsThere block' f) :=
  ⟨roundTrips_iff_selectorsKept junk header header' h hfits,
    rejectsForeign_iff junk header' block' f⟩

def frameOf (values : List UInt8) (h : values.length < 2 ^ 32) : ResponseFrame :=
  ⟨fun i => values.getD i 0, values.length, values.length, h, le_rfl⟩

/-- A volume of -6 dB, and its response with the volume of the device. -/
theorem volume_answered :
    RoundTrips ⟨0, 0, 0⟩ ⟨⟨0x00, 0x08, 0xB8⟩, 0x01, 0x10⟩ ⟨⟨0x00, 0x08, 0xB8⟩, 0x01, 0x10⟩
        (.volume 0x02 0x01 ⟨0x02, 0xFA00⟩) (.volume 0x02 0x00 ⟨0x02, 0⟩) ∧
      RejectsForeign ⟨0, 0, 0⟩ (.of ⟨⟨0x00, 0x08, 0xB8⟩, 0x01, 0x10⟩ (.volume 0x02 0x00 ⟨0x02, 0⟩))
        (frameOf [0x09, 0x08, 0xB8, 0x81, 0x01, 0x10, 0x02, 0x01, 0x02, 0x02, 0xFA, 0x00]
          (by decide)) := by
  have hanswers := functionBlock_answers_iff ⟨0, 0, 0⟩ ⟨⟨0x00, 0x08, 0xB8⟩, 0x01, 0x10⟩
    ⟨⟨0x00, 0x08, 0xB8⟩, 0x01, 0x10⟩ (.volume 0x02 0x01 0x02 0x00 ⟨0x02, 0xFA00⟩ ⟨0x02, 0⟩) trivial
  refine ⟨(hanswers (frameOf [] (by decide))).1.mpr trivial, (hanswers _).2.mpr ?_⟩
  intro _
  exact ⟨fun _ => rfl, fun h => absurd h (by decide)⟩

/-- The states of an enhanced mixer come back as levels. A volume command accepts the response of a
selector, and has no part for that of a balance. -/
theorem answers_mixed_up :
    ¬ RoundTrips ⟨0, 0, 0⟩ ⟨⟨0x00, 0x08, 0xB8⟩, 0x01, 0x10⟩ ⟨⟨0x00, 0x08, 0xB8⟩, 0x01, 0x10⟩
        (.enhancedMixer 0x04 0 0 0 ⟨0xF1, 0x00, 0, [1, 0, 1, 0, 1, 0, 1, 0], []⟩)
        (.enhancedMixer 0x04 0 0 0 ⟨0xF1, 0x01, 0, [], []⟩) ∧
      ¬ RejectsForeign ⟨0, 0, 0⟩ (.of ⟨⟨0x00, 0x08, 0xB8⟩, 0x01, 0x10⟩
        (.volume 0x02 0x00 ⟨0x02, 0⟩)) (frameOf [0x09, 0x08, 0xB8, 0x80, 0x01, 0x10, 0x02, 0x01,
          0x01] (by decide)) ∧
      ¬ RejectsForeign ⟨0, 0, 0⟩ (.of ⟨⟨0x00, 0x08, 0xB8⟩, 0x01, 0x10⟩
        (.volume 0x02 0x00 ⟨0x02, 0⟩)) (frameOf [0x09, 0x08, 0xB8, 0x81, 0x01, 0x10, 0x02, 0x01,
          0x03, 0x02, 0xFA, 0x00] (by decide)) := by
  refine ⟨?_, ?_, ?_⟩
  · rw [roundTrips_iff_selectorsKept _ _ _ (.enhancedMixer _ _ _ _ _ _ _ _ _ _)
      ⟨fun _ => Nat.zero_le _, fun _ => by decide⟩]
    rintro ⟨-, hstatus, -⟩
    exact absurd hstatus (by decide)
  · rw [rejectsForeign_iff]
    rintro (htype | hlength)
    · exact absurd htype (by decide)
    · exact absurd hlength (by decide)
  · rw [rejectsForeign_iff]
    intro hparts
    have hbalance := (hparts (by decide)).2 rfl
    cases hbalance

end Ffado.Avc.FunctionBlock
