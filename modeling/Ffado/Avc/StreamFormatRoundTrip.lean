import Ffado.Avc.StreamFormat

/-!
# Stream formats written and read back

A format of one of the two hierarchies that are parsed, and the address of a plug, are read from the
bytes that were written, whatever follows them. The members of a sync stream may differ from those
that were written, as just four bits of the frequency and one of the rate control are on the wire,
but the bytes are the same again.
-/
namespace Ffado.Avc

open CircularMemory Cmd Decoding Deserializer

variable {w : Writer}

def writtenBytes (f : Writer → Writer) (w : Writer) : List UInt8 :=
  slice (f w).se.memory w.se.curPos ((f w).se.curPos - w.se.curPos)

theorem EmitsWith.writtenBytes_eq {f : Writer → Writer} {bytes : List UInt8}
    (h : EmitsWith 0 f bytes) (hroom : w.se.curPos + bytes.length ≤ w.se.length) :
    writtenBytes f w = bytes := by
  have hcur : (w.put bytes).se.curPos - w.se.curPos = bytes.length := Nat.add_sub_cancel_left _ _
  rw [writtenBytes, h w hroom, hcur]
  exact contains_storeAt w.se.memory w.se.curPos bytes

/-- In front of what was written for `x` a parser returns true, consumes it, and has an object that
is written like `x`. -/
def RereadsSame {α : Type} (serialize : α → Writer → Writer) (deserialize : Deserializer (α × Bool))
    (x : α) (w : Writer) : Prop :=
  ∀ s : Reader, s.Before (writtenBytes (serialize x) w) → ∃ y t,
    deserialize s = some ((y, true), t) ∧ t.de.curPos =
    s.de.curPos + (writtenBytes (serialize x) w).length ∧ ∀ w', serialize y w' = serialize x w'

theorem rereadsSame_of_decodes {α : Type} {serialize : α → Writer → Writer}
    {deserialize : Deserializer (α × Bool)} {x y : α} {bytes : List UInt8}
    (hemits : EmitsWith 0 (serialize x) bytes) (hroom : w.se.curPos + bytes.length ≤ w.se.length)
    (hdecodes : Decodes deserialize bytes (y, true))
    (hsame : ∀ w', serialize y w' = serialize x w') : RereadsSame serialize deserialize x w := by
  intro s hs
  rw [hemits.writtenBytes_eq hroom] at hs ⊢
  exact ⟨y, _, hdecodes s hs, s.de.advance_curPos_of_le hs.le, hsame⟩

namespace StreamFormat

namespace FormatInformationStreamsSync

/-- The members that are found in the byte that they share. -/
def readBack (x : FormatInformationStreamsSync) : FormatInformationStreamsSync :=
  { x with samplingFrequency := x.operand >>> 4, rateControl := x.operand &&& 0x01 }

theorem decodes (old x : FormatInformationStreamsSync) :
    Decodes old.deserialize x.fields x.readBack :=
  (decodes_byte _ x.reserved0).bind ((decodes_localByte x.operand).bind
    ((decodes_byte _ x.reserved1).bindPure _))

/-- The lower half of the shared byte. -/
def low (rateControl : UInt8) : UInt8 := if rateControl = dontCareRateControl then 0x0F else 0x0E

theorem operand_eq (x : FormatInformationStreamsSync) :
    x.operand = (x.samplingFrequency <<< 4) ||| low x.rateControl := by
  rw [operand, low]
  split_ifs
  · rw [UInt8.or_assoc]
    rfl
  · rfl

theorem shift_back (frequency low : UInt8) :
    ((((frequency <<< 4) ||| low) >>> 4) <<< 4) ||| low = (frequency <<< 4) ||| low := by
  apply UInt8.toBitVec_inj.mp
  apply BitVec.eq_of_getLsbD_eq
  intro i hi
  simp only [UInt8.toBitVec_or, UInt8.toBitVec_shiftLeft, UInt8.toBitVec_shiftRight,
    BitVec.getLsbD_or]
  interval_cases i <;> simp

theorem and_one_back (frequency low : UInt8) :
    ((frequency <<< 4) ||| low) &&& 0x01 = low &&& 0x01 := by
  apply UInt8.toBitVec_inj.mp
  apply BitVec.eq_of_getLsbD_eq
  intro i hi
  simp only [UInt8.toBitVec_or, UInt8.toBitVec_and, UInt8.toBitVec_shiftLeft, BitVec.getLsbD_or,
    BitVec.getLsbD_and]
  interval_cases i <;> simp

theorem low_and_one (rateControl : UInt8) : low (low rateControl &&& 0x01) = low rateControl := by
  unfold low
  split_ifs with hrate hlow hlow
  · rfl
  · exact absurd (by decide) hlow
  · exact absurd hlow (by decide)
  · rfl

theorem operand_readBack (x : FormatInformationStreamsSync) : x.readBack.operand = x.operand := by
  rw [operand_eq, readBack, operand_eq, and_one_back, low_and_one, shift_back]

theorem fields_readBack (x : FormatInformationStreamsSync) : x.readBack.fields = x.fields := by
  rw [fields, operand_readBack]
  rfl

end FormatInformationStreamsSync

theorem StreamFormatInfo.decodes (junk x : StreamFormatInfo) :
    Decodes junk.deserialize x.fields x :=
  (decodes_byte _ x.numberOfChannels).bind ((decodes_byte _ x.streamFormat).bindPure _)

namespace FormatInformationStreamsCompound

def bytes (x : FormatInformationStreamsCompound) : List UInt8 :=
  [x.samplingFrequency, x.rateControl, x.numberOfStreamFormatInfos] ++
    x.streamFormatInfos.flatMap StreamFormatInfo.fields

def Counted (x : FormatInformationStreamsCompound) : Prop :=
  x.numberOfStreamFormatInfos.toNat = x.streamFormatInfos.length

theorem emits (x : FormatInformationStreamsCompound) : EmitsWith 0 x.serialize x.bytes :=
  (emitsWith_writeBytes [x.samplingFrequency, x.rateControl, x.numberOfStreamFormatInfos]).comp
    (EmitsWith.foldl fun info _ => emitsWith_writeBytes info.fields)

theorem Counted.decodes {x : FormatInformationStreamsCompound} (h : x.Counted)
    (junk : StreamFormatInfo) :
    Decodes (FormatInformationStreamsCompound.fresh.deserialize junk) x.bytes x := by
  have hinfos := Decodes.times fun info (_ : info ∈ x.streamFormatInfos) => junk.decodes info
  rw [List.map_id', ← h] at hinfos
  exact (decodes_byte _ x.samplingFrequency).bind ((decodes_byte _ x.rateControl).bind
    ((decodes_byte _ x.numberOfStreamFormatInfos).bind (hinfos.bindPure _)))

end FormatInformationStreamsCompound

namespace FormatInformation

/-- The two hierarchies that are parsed. -/
inductive Known : FormatInformation → Prop
  | sync (streams : FormatInformationStreamsSync) :
      Known ⟨rootAudioMusic, level1Am824, level2SyncStream, some (.sync streams)⟩
  | compound (streams : FormatInformationStreamsCompound) (h : streams.Counted) :
      Known ⟨rootAudioMusic, level1Am824Compound, level2DontCare, some (.compound streams)⟩

def bytes (x : FormatInformation) : List UInt8 :=
  match x.streams with
  | some (.sync streams) => x.hierarchy ++ streams.fields
  | some (.compound streams) => x.hierarchy ++ streams.bytes
  | none => x.hierarchy

theorem emits (x : FormatInformation) : EmitsWith 0 x.serialize x.bytes := by
  obtain ⟨root, level1, level2, streams⟩ := x
  have hhierarchy := emitsWith_writeBytes (FormatInformation.mk root level1 level2
    streams).hierarchy
  cases streams with
  | none => exact hhierarchy
  | some streams =>
    cases streams with
    | sync streams => exact hhierarchy.comp (emitsWith_writeBytes streams.fields)
    | compound streams => exact hhierarchy.comp streams.emits

theorem Known.rereadsSame {x : FormatInformation} (h : x.Known)
    (junk : StreamFormatInfo) {w : Writer} (hroom : w.se.curPos + x.bytes.length ≤ w.se.length) :
    RereadsSame serialize (fresh.deserialize junk) x w := by
  have hemits := x.emits
  cases h with
  | sync streams =>
    refine rereadsSame_of_decodes hemits hroom ((decodes_byte _ rootAudioMusic).bind
      ((decodes_byte _ level1Am824).bind ((decodes_byte _ level2SyncStream).bind
        ((FormatInformationStreamsSync.decodes .fresh streams).bindPure _)))) fun w' => ?_
    exact congrArg (Writer.writeBytes (w'.writeBytes [rootAudioMusic, level1Am824,
      level2SyncStream])) streams.fields_readBack
  | compound streams h =>
    exact rereadsSame_of_decodes hemits hroom ((decodes_byte _ rootAudioMusic).bind
      ((decodes_byte _ level1Am824Compound).bind ((h.decodes junk).bindPure _))) fun _ => rfl

end FormatInformation

end StreamFormat

def PlugAddressSpecificData.deserializeResult (x : PlugAddressSpecificData) :
    Deserializer (PlugAddressSpecificData × Bool) := do
  let x ← x.deserialize
  return (x, true)

theorem PlugAddressSpecificData.Matches.rereadsSame {x : PlugAddressSpecificData} (h : x.Matches)
    (old : PlugAddressSpecificData) (hroom : w.se.curPos + x.bytes.length ≤ w.se.length) :
    RereadsSame serialize old.deserializeResult x w :=
  rereadsSame_of_decodes x.emits hroom ((h.decodes old).bindPure _) fun _ => rfl

open StreamFormat

/-- Formats of a known hierarchy and addresses of the class of their mode are read back. -/
theorem format_and_address_reread {format : FormatInformation} (hformat : format.Known)
    {address : PlugAddressSpecificData} (haddress : address.Matches) (junk : StreamFormatInfo)
    (old : PlugAddressSpecificData) (w w' : Writer)
    (hroom : w.se.curPos + format.bytes.length ≤ w.se.length)
    (hroom' : w'.se.curPos + address.bytes.length ≤ w'.se.length) :
    RereadsSame FormatInformation.serialize (FormatInformation.fresh.deserialize junk) format w ∧
      RereadsSame PlugAddressSpecificData.serialize old.deserializeResult address w' :=
  ⟨hformat.rereadsSame junk hroom, haddress.rereadsSame old hroom'⟩

/-- A compound stream of two infos, and a plug of a function block. -/
theorem compound_and_functionBlock_reread :
    RereadsSame FormatInformation.serialize (FormatInformation.fresh.deserialize ⟨0, 0⟩)
        ⟨rootAudioMusic, level1Am824Compound, level2DontCare,
          some (.compound ⟨0x04, 0x00, 2, [⟨2, 0x06⟩, ⟨1, 0x0D⟩]⟩)⟩
        ⟨⟨fun _ => 0, 0, 64, by decide⟩, true⟩ ∧
      RereadsSame PlugAddressSpecificData.serialize PlugAddressSpecificData.output.deserializeResult
        ⟨0x01, 0x02, .functionBlock 0x01 0x00 0x80 0x01 0x00⟩
        ⟨⟨fun _ => 0, 0, 64, by decide⟩, true⟩ := by
  have hcounted : FormatInformationStreamsCompound.Counted
    ⟨0x04, 0x00, 2, [⟨2, 0x06⟩, ⟨1, 0x0D⟩]⟩ := rfl
  have hmatches : PlugAddressSpecificData.Matches
      ⟨0x01, 0x02, .functionBlock 0x01 0x00 0x80 0x01 0x00⟩ := rfl
  exact format_and_address_reread (.compound _ hcounted) hmatches ⟨0, 0⟩ .output _ _ (by decide)
    (by decide)

end Ffado.Avc
