import Ffado.Avc.FrameReads
import Ffado.Avc.TextRoundTrip

/-!
# Truncated responses

The parsers of extended stream format and extended plug info responses do not look at the results of
their reads. Whether all bytes of a response are in the frame can be told from the frame itself; a
response that is cut off is taken for a complete one, unless its info type is not known.
-/
namespace Ffado.Avc

open CircularMemory Cmd Decoding Deserializer Lockstep

/-- The parser ends, and returns true just if all its reads were in the frame. -/
def RejectsTruncated {α : Type} (q : Deserializer (α × Bool)) (f : ResponseFrame) : Prop :=
  ∃ a t, q f.start = some (a, t) ∧ (a.2 = true → t.result = true)

theorem exists_run_bind_pure {α β : Type} {q : Deserializer α} {g : α → β} {s : Reader}
    {P : β → Reader → Prop} :
    (∃ b t, (q >>= fun a => pure (g a)) s = some (b, t) ∧ P b t) ↔
      ∃ a t, q s = some (a, t) ∧ P (g a) t := by
  constructor
  · rintro ⟨b, t, hrun, h⟩
    obtain ⟨a, u, hq, hpure⟩ := exists_of_bind hrun
    cases hpure
    exact ⟨a, t, hq, h⟩
  · rintro ⟨a, t, hq, h⟩
    exact ⟨_, t, run_bind_of_some hq, h⟩

variable (f : ResponseFrame)

theorem AVCCommand.steady (x : AVCCommand) : ∃ value, Steady f x.deserialize (· + 3) value :=
  steady_readThree f _ _ _ _

theorem PlugAddressData.steady (x : PlugAddressData) :
    ∃ value, Steady f x.deserialize (· + 3) value := by
  cases x with
  | unit a b c => exact steady_readThree f unit a b c
  | subunit a b c => exact steady_readThree f subunit a b c
  | functionBlock a b c => exact steady_readThree f functionBlock a b c
  | undefined a b c => exact steady_readThree f undefined a b c

theorem PlugAddress.steady (x : PlugAddress) : ∃ value, Steady f x.deserialize (· + 5) value := by
  obtain ⟨data, hdata⟩ := x.plugAddressData.steady f
  exact ⟨_, (steady_readMember f _).bind fun _ => (steady_readMember f _).bind fun _ =>
    hdata.bind fun _ => Steady.pure f _⟩

theorem SpecificData.PlugAddressData.readsTo (x : SpecificData.PlugAddressData) :
    ∃ value, ReadsTo f x.deserialize (· + 5) value := by
  cases x with
  | unit a b c d e => exact readsTo_readFive f unit a b c d e
  | subunit a b c d e => exact readsTo_readFive f subunit a b c d e
  | functionBlock a b c d e => exact readsTo_readFive f functionBlock a b c d e
  | undefined a b c d e => exact readsTo_readFive f undefined a b c d e

theorem PlugAddressSpecificData.readsTo (x : PlugAddressSpecificData) :
    ∃ value, ReadsTo f x.deserialize (· + 7) value := by
  choose data hdata using fun mode => (SpecificData.PlugAddressData.ofMode mode).readsTo f
  exact ⟨_, (readsTo_readMember f _).bind fun _ => (readsTo_readMember f _).bind fun mode =>
    (hdata mode).bind fun _ => ReadsTo.pure f _⟩

namespace StreamFormat

theorem StreamFormatInfo.readsTo (x : StreamFormatInfo) :
    ∃ value, ReadsTo f x.deserialize (· + 2) value :=
  ⟨_, (readsTo_readMember f _).bind fun _ => (readsTo_readMember f _).bind fun _ =>
    ReadsTo.pure f _⟩

theorem FormatInformationStreamsSync.readsTo (x : FormatInformationStreamsSync) :
    ∃ value, ReadsTo f x.deserialize (· + 3) value :=
  ⟨_, (readsTo_readMember f _).bind fun _ => (readsTo_readVariable f).bind fun _ =>
    (readsTo_readMember f _).bind fun _ => ReadsTo.pure f _⟩

theorem iterate_add (k n p : ℕ) : (· + k)^[n] p = p + n * k := by
  rw [add_right_iterate, smul_eq_mul]

theorem FormatInformationStreamsCompound.readsTo (x : FormatInformationStreamsCompound)
    (junk : StreamFormatInfo) : ∃ value, ReadsTo f (x.deserialize junk)
      (fun p => p + 3 + (f.memory (p + 2)).toNat * 2) value := by
  obtain ⟨info, hinfo⟩ := junk.readsTo f
  have h := (readsTo_readMember f x.samplingFrequency).bind fun frequency =>
    (readsTo_readMember f x.rateControl).bind fun rate =>
    (readsTo_readMember f x.numberOfStreamFormatInfos).bind fun number =>
    (hinfo.times number.toNat).bind fun infos => ReadsTo.pure f
      (⟨frequency, rate, number, x.streamFormatInfos ++ infos⟩ : FormatInformationStreamsCompound)
  exact ⟨_, h.congr fun p => iterate_add _ _ _⟩

def FormatInformation.endOf (m : ℕ → UInt8) (p : ℕ) : ℕ :=
  if m p = rootAudioMusic then
    if m (p + 1) = level1Am824 then if m (p + 2) = level2SyncStream then p + 6 else p + 3
    else if m (p + 1) = level1Am824Compound then p + 5 + (m (p + 4)).toNat * 2
    else p + 2
  else p + 1

theorem FormatInformation.readsTo (x : FormatInformation) (junk : StreamFormatInfo) :
    ∃ value, ReadsTo f (x.deserialize junk) (endOf f.memory) value := by
  obtain ⟨sync, hsync⟩ := FormatInformationStreamsSync.fresh.readsTo f
  obtain ⟨compound, hcompound⟩ := FormatInformationStreamsCompound.fresh.readsTo f junk
  have h := (readsTo_readMember f x.root).bind fun root => ReadsTo.ite (c := root = rootAudioMusic)
    ((readsTo_readMember f x.level1).bind fun level1 => ReadsTo.ite (c := level1 = level1Am824)
      ((readsTo_readMember f x.level2).bind fun level2 =>
        ReadsTo.ite (c := level2 = level2SyncStream) (hsync.bind fun streams => ReadsTo.pure f
          ((⟨root, level1, level2, some (.sync streams)⟩, true) : FormatInformation × Bool))
        (ReadsTo.pure f (⟨root, level1, level2, none⟩, false)))
      (ReadsTo.ite (c := level1 = level1Am824Compound)
        (hcompound.bind fun streams => ReadsTo.pure f
          (⟨root, level1, x.level2, some (.compound streams)⟩, true))
        (ReadsTo.pure f (⟨root, level1, x.level2, none⟩, false))))
    (ReadsTo.pure f (⟨root, x.level1, x.level2, none⟩, false))
  refine ⟨_, h.congr fun p => ?_⟩
  simp only [endOf, ite_apply, id]

namespace ExtendedStreamFormatCmd

variable (x : ExtendedStreamFormatCmd) (junk : StreamFormatInfo)

def endOf (m : ℕ → UInt8) (p : ℕ) : ℕ :=
  FormatInformation.endOf m (if m (p + 3) = subFunctionList then p + 11 else p + 10)

theorem readsTo_deserializeFormat : ∃ value,
    ReadsTo f (x.deserializeFormat junk) (FormatInformation.endOf f.memory) value := by
  obtain ⟨value, hvalue⟩ := x.formatInformation.readsTo f junk
  exact ⟨_, hvalue.bind fun _ => ReadsTo.pure f _⟩

theorem readsTo : ∃ value, ReadsTo f (x.deserialize junk) (endOf f.memory) value := by
  obtain ⟨command, hcommand⟩ := x.command.steady f
  obtain ⟨address, haddress⟩ := x.plugAddress.steady f
  choose format hformat using fun y => readsTo_deserializeFormat f y junk
  have h := hcommand.readsTo.bind fun command =>
    (readsTo_readMember f x.subFunction).bind fun subFunction =>
    haddress.readsTo.bind fun plugAddress => (readsTo_readMember f x.status).bind fun status =>
    ReadsTo.ite (c := subFunction = subFunctionList)
      ((readsTo_readMember f x.indexInStreamFormat).bind fun indexInStreamFormat =>
        hformat { x with command, subFunction, plugAddress, status, indexInStreamFormat })
      (hformat { x with command, subFunction, plugAddress, status })
  refine ⟨_, h.congr fun p => ?_⟩
  simp only [endOf, ite_apply]
  split_ifs with hlist
  · rfl
  · rfl

theorem returns_true {s t : Reader} {a : ExtendedStreamFormatCmd × Bool}
    (h : x.deserialize junk s = some (a, t)) : a.2 = true := by
  obtain ⟨command, s₁, -, h⟩ := exists_of_bind h
  obtain ⟨subFunction, s₂, -, h⟩ := exists_of_bind h
  obtain ⟨plugAddress, s₃, -, h⟩ := exists_of_bind h
  obtain ⟨status, s₄, -, h⟩ := exists_of_bind h
  split_ifs at h with hlist
  · obtain ⟨index, s₅, -, h⟩ := exists_of_bind h
    obtain ⟨format, s₆, -, h⟩ := exists_of_bind h
    cases h
    rfl
  · obtain ⟨format, s₆, -, h⟩ := exists_of_bind h
    cases h
    rfl

theorem rejectsTruncated_iff :
    RejectsTruncated (x.deserialize junk) f ↔ endOf f.memory 0 ≤ f.length := by
  obtain ⟨value, hvalue⟩ := x.readsTo f junk
  rw [← hvalue.exists_ok_iff (Nat.zero_le _), RejectsTruncated, f.reader_zero]
  constructor
  · rintro ⟨a, t, hrun, hok⟩
    exact ⟨a, t, hrun, hok (x.returns_true junk hrun)⟩
  · rintro ⟨a, t, hrun, hok⟩
    exact ⟨a, t, hrun, fun _ => hok⟩

end ExtendedStreamFormatCmd

end StreamFormat

namespace PlugInfo

theorem PlugTypeSpecificData.readsTo (x : PlugTypeSpecificData) :
    ∃ value, ReadsTo f x.deserialize (· + 1) value :=
  ⟨_, (readsTo_readMember f _).bind fun _ => ReadsTo.pure f _⟩

theorem PlugNumberOfChannelsSpecificData.readsTo (x : PlugNumberOfChannelsSpecificData) :
    ∃ value, ReadsTo f x.deserialize (· + 1) value :=
  ⟨_, (readsTo_readMember f _).bind fun _ => ReadsTo.pure f _⟩

theorem ChannelInfo.readsTo (x : ChannelInfo) : ∃ value, ReadsTo f x.deserialize (· + 2) value :=
  ⟨_, (readsTo_readMember f _).bind fun _ => (readsTo_readMember f _).bind fun _ =>
    ReadsTo.pure f _⟩

def ClusterInfo.endOf (m : ℕ → UInt8) (p : ℕ) : ℕ := p + 1 + (m p).toNat * 2

theorem ClusterInfo.readsTo (junk : ChannelInfo) :
    ∃ value, ReadsTo f (ClusterInfo.deserialize junk) (endOf f.memory) value := by
  obtain ⟨info, hinfo⟩ := junk.readsTo f
  have h := (readsTo_readVariable f).bind fun number => (hinfo.times number.toNat).bind fun infos =>
    ReadsTo.pure f (⟨number, infos⟩ : ClusterInfo)
  exact ⟨_, h.congr fun p => StreamFormat.iterate_add _ _ _⟩

theorem PlugChannelPositionSpecificData.readsTo (x : PlugChannelPositionSpecificData)
    (junk : ChannelInfo) : ∃ value, ReadsTo f (x.deserialize junk)
      (fun p => (ClusterInfo.endOf f.memory)^[(f.memory p).toNat] (p + 1)) value := by
  obtain ⟨cluster, hcluster⟩ := ClusterInfo.readsTo f junk
  exact ⟨_, (readsTo_readMember f _).bind fun number => (hcluster.times number.toNat).bind fun _ =>
    ReadsTo.pure f _⟩

theorem readsTo_readChars (stringLength : UInt8) :
    ∃ value, ReadsTo f (readChars stringLength) (· + stringLength.toNat) value := by
  have h := ((readsTo_readVariable f).times stringLength.toNat).bind fun chars =>
    ReadsTo.pure f ((chars.map encodeChar).takeWhile (· ≠ 0))
  refine ⟨_, h.congr fun p => ?_⟩
  rw [← Nat.mul_one stringLength.toNat, ← StreamFormat.iterate_add, Nat.mul_one]
  rfl

theorem PlugChannelNameSpecificData.readsTo (x : PlugChannelNameSpecificData) : ∃ value,
    ReadsTo f x.deserialize (fun p => p + 2 + (f.memory (p + 1)).toNat) value := by
  choose name hname using readsTo_readChars f
  exact ⟨_, (readsTo_readMember f _).bind fun _ => (readsTo_readMember f _).bind fun length =>
    (hname length).bind fun _ => ReadsTo.pure f _⟩

theorem PlugInputSpecificData.readsTo (x : PlugInputSpecificData) :
    ∃ value, ReadsTo f x.deserialize (· + 7) value := by
  obtain ⟨address, haddress⟩ := x.plugAddress.readsTo f
  exact ⟨_, haddress.bind fun _ => ReadsTo.pure f _⟩

theorem PlugOutputSpecificData.readsTo (x : PlugOutputSpecificData) : ∃ value,
    ReadsTo f x.deserialize (fun p => p + 1 + (f.memory p).toNat * 7) value := by
  obtain ⟨address, haddress⟩ := PlugAddressSpecificData.output.readsTo f
  have h := (readsTo_readMember f x.nrOfOutputPlugs).bind fun number =>
    (haddress.times number.toNat).bind fun addresses =>
    ReadsTo.pure f (⟨number, x.outputPlugAddresses ++ addresses⟩ : PlugOutputSpecificData)
  exact ⟨_, h.congr fun p => StreamFormat.iterate_add _ _ _⟩

theorem ClusterInfoSpecificData.readsTo (x : ClusterInfoSpecificData) : ∃ value,
    ReadsTo f x.deserialize (fun p => p + 3 + (f.memory (p + 2)).toNat) value := by
  choose name hname using readsTo_readChars f
  exact ⟨_, (readsTo_readMember f _).bind fun _ => (readsTo_readMember f _).bind fun _ =>
    (readsTo_readMember f _).bind fun length => (hname length).bind fun _ => ReadsTo.pure f _⟩

theorem exists_cString {m : ℕ → UInt8} {mapped d p : ℕ} (hlt : p + d < mapped)
    (hm : m (p + d) = 0) : ∃ text, cString m p mapped = some text ∧ text.length ≤ d := by
  obtain ⟨text, htext⟩ := Option.isSome_iff_exists.mp
    (isSome_cString_iff.mpr ⟨p + d, Nat.le_add_right p d, hlt, hm⟩)
  refine ⟨text, htext, ?_⟩
  by_contra hlong
  obtain ⟨hcontains, hnul, -⟩ := cString_eq_some_iff.mp htext
  apply hnul
  rw [← hcontains, slice, List.mem_map]
  exact ⟨d, List.mem_range.mpr (by omega), hm⟩

/-- The bytes of the name are in the frame, and so is a zero byte from its start on. -/
def NameInside (p n : ℕ) : Prop :=
  p < f.length ∧ p + n ≤ f.length ∧ ∃ z, p ≤ z ∧ z < f.length ∧ f.memory z = 0

theorem readName_ok_iff {p n : ℕ} (hpos : 0 < p) (hp : p ≤ f.length) (hn : n < 2 ^ 32) :
    (∃ name t, readName n (f.reader p) = some (name, t) ∧ t.result = true) ↔ NameInside f p n := by
  have hlength := f.length_lt
  have hmax := MachineInt.sizeMax_add_one
  have hcases := BufferDeserialize.readChars_cases (f.reader p).de n
  rw [f.reader_length, f.reader_curPos hp] at hcases
  obtain ⟨hend, heq⟩ | ⟨hlt, hout, heq⟩ | ⟨hlt, hin, heq⟩ := hcases
  · apply iff_of_false
    · rintro ⟨name, t, hrun, -⟩
      rw [readName, heq] at hrun
      cases hrun
    · rintro ⟨hlt, -⟩
      omega
  · apply iff_of_false
    · rintro ⟨name, t, hrun, hok⟩
      rw [readName, heq] at hrun
      obtain ⟨text, -, hrun⟩ := Option.map_eq_some_iff.mp hrun
      cases hrun
      cases hok
    · rintro ⟨-, hle, -⟩
      rw [MachineInt.u64] at hout
      omega
  · have hle : p + n ≤ f.length := by
      rw [MachineInt.u64] at hin
      omega
    constructor
    · rintro ⟨name, t, hrun, hok⟩
      rw [readName, heq] at hrun
      obtain ⟨text, htext, hrun⟩ := Option.map_eq_some_iff.mp hrun
      cases hrun
      rw [f.reader_memory] at htext
      simp only [f.reader_result, f.reader_length, Bool.true_and, decide_eq_true_eq] at hok
      exact ⟨hlt, hle, p + name.length, Nat.le_add_right _ _, hok,
        (cString_eq_some_iff.mp htext).2.2.2⟩
    · rintro ⟨-, -, z, hz, hzlt, hzero⟩
      have hmapped := f.length_le
      obtain ⟨d, rfl⟩ := Nat.exists_eq_add_of_le hz
      obtain ⟨text, htext, hlen⟩ := @exists_cString _ f.mapped _ _ (by omega) hzero
      have hrun : readName n (f.reader p) = some (text, { f.reader p with
          de := (f.reader p).de.advance n
          result := true && (true && decide (p + text.length < f.length)) }) := by
        rw [readName, heq]
        simp only [f.reader_memory, f.reader_mapped, f.reader_length, htext, Option.map_some]
        rfl
      refine ⟨text, _, hrun, ?_⟩
      simp only [Bool.true_and, decide_eq_true_eq]
      omega

theorem plugName_ok_iff {p : ℕ} (hp : p ≤ f.length) :
    (∃ a t, PlugNameSpecificData.deserialize (f.reader p) = some (a, t) ∧ t.result = true) ↔
      p < f.length ∧ NameInside f (p + 1) (f.memory p).toNat := by
  have hvariable := readsTo_readVariable f
  rcases Nat.lt_or_ge p f.length with hlt | hge
  · have hlength := (f.memory p).toNat_lt
    rw [PlugNameSpecificData.deserialize, run_bind_of_some (hvariable.inside p hlt),
      and_iff_right hlt, ← readName_ok_iff f (Nat.succ_pos p) hlt (by omega)]
    exact exists_run_bind_pure
  · apply iff_of_false
    · rintro ⟨a, t, hrun, hok⟩
      obtain ⟨length, u, hfirst, -⟩ := exists_of_bind hrun
      obtain rfl : p = f.length := by omega
      rw [readVariable, readLocal, readByte_end] at hfirst
      cases hfirst
    · omega

namespace ExtendedPlugInfoInfoType

variable (x : ExtendedPlugInfoInfoType) (junk : ChannelInfo)

def Known (infoType : UInt8) : Prop := infoType ∈ [0x00, 0x01, 0x02, 0x03, 0x04, 0x05, 0x06, 0x07]

def endOf (m : ℕ → UInt8) (infoType : UInt8) (p : ℕ) : ℕ :=
  if infoType = 0x00 then p + 1
  else if infoType = 0x01 then p + 1 + (m p).toNat
  else if infoType = 0x02 then p + 1
  else if infoType = 0x03 then (ClusterInfo.endOf m)^[(m p).toNat] (p + 1)
  else if infoType = 0x04 then p + 2 + (m (p + 1)).toNat
  else if infoType = 0x05 then p + 7
  else if infoType = 0x06 then p + 1 + (m p).toNat * 7
  else if infoType = 0x07 then p + 3 + (m (p + 2)).toNat
  else p

variable {f} in
theorem readsTo_part {α : Type} {q : Deserializer α} {g : α → ExtendedPlugInfoInfoType × Bool}
    {next : ℕ → ℕ} (h : ∃ value, ReadsTo f q next value) :
    ∃ value, ReadsTo f (q >>= fun part => pure (g part)) next value := by
  obtain ⟨part, hpart⟩ := h
  exact ⟨_, hpart.bind fun _ => ReadsTo.pure f _⟩

theorem readsTo_deserializePart (h : x.infoType ≠ 0x01) :
    ∃ value, ReadsTo f (x.deserializePart junk) (endOf f.memory x.infoType) value := by
  unfold deserializePart endOf
  split_ifs
  · exact readsTo_part ((x.plugType.getD .fresh).readsTo f)
  · exact readsTo_part ((x.plugNrOfChns.getD .fresh).readsTo f)
  · exact readsTo_part ((x.plugChannelPosition.getD .fresh).readsTo f junk)
  · exact readsTo_part ((x.plugChannelName.getD .fresh).readsTo f)
  · exact readsTo_part ((x.plugInput.getD .fresh).readsTo f)
  · exact readsTo_part ((x.plugOutput.getD .fresh).readsTo f)
  · exact readsTo_part ((x.plugClusterInfo.getD .fresh).readsTo f)
  · exact ⟨_, ReadsTo.pure f _⟩

def PartInside (infoType : UInt8) (p : ℕ) : Prop :=
  if infoType = 0x01 then p < f.length ∧ NameInside f (p + 1) (f.memory p).toNat
  else endOf f.memory infoType p ≤ f.length

theorem part_ok_iff {p : ℕ} (hp : p ≤ f.length) :
    (∃ a t, x.deserializePart junk (f.reader p) = some (a, t) ∧ t.result = true) ↔
      PartInside f x.infoType p := by
  rw [PartInside]
  by_cases hname : x.infoType = 0x01
  · have hzero : x.infoType ≠ 0x00 := by
      rw [hname]
      decide
    rw [if_pos hname, ← plugName_ok_iff f hp, deserializePart, if_neg hzero, if_pos hname]
    exact exists_run_bind_pure
  · obtain ⟨value, hvalue⟩ := x.readsTo_deserializePart f junk hname
    rw [if_neg hname, hvalue.exists_ok_iff hp]

theorem status_of_part {α : Type} {q : Deserializer α} {g : α → ExtendedPlugInfoInfoType}
    {s t : Reader} {a : ExtendedPlugInfoInfoType × Bool}
    (h : (q >>= fun part => pure (g part, true)) s = some (a, t)) : a.2 = true := by
  obtain ⟨part, u, -, hpure⟩ := exists_of_bind h
  cases hpure
  rfl

theorem part_status {s t : Reader} {a : ExtendedPlugInfoInfoType × Bool} (hknown : Known x.infoType)
    (h : x.deserializePart junk s = some (a, t)) : a.2 = true := by
  simp only [Known, List.mem_cons, List.not_mem_nil, or_false] at hknown
  unfold deserializePart at h
  split_ifs at h
  case neg => simp_all
  all_goals exact status_of_part h

theorem part_of_unknown (h : ¬ Known x.infoType) (s : Reader) :
    x.deserializePart junk s = some ((x, false), s) := by
  simp only [Known, List.mem_cons, List.not_mem_nil, or_false, not_or] at h
  obtain ⟨h0, h1, h2, h3, h4, h5, h6, h7⟩ := h
  rw [deserializePart, if_neg h0, if_neg h1, if_neg h2, if_neg h3, if_neg h4, if_neg h5, if_neg h6,
    if_neg h7]
  rfl

theorem keeps_readName (n : ℕ) : Keeps Reader.Ok (readName n) := by
  intro s a t h hok
  rw [readName] at h
  split at h
  · obtain ⟨name, -, heq⟩ := Option.map_eq_some_iff.mp h
    cases heq
    exact (Bool.and_eq_true_iff.mp hok).1
  · cases h

theorem keeps_deserializePart : Keeps Reader.Ok (x.deserializePart junk) := by
  by_cases hname : x.infoType = 0x01
  · have hzero : x.infoType ≠ 0x00 := by
      rw [hname]
      decide
    rw [deserializePart, if_neg hzero, if_pos hname]
    have hpart : Keeps Reader.Ok PlugNameSpecificData.deserialize :=
      (keeps_readLocal _).bind fun _ => (keeps_readName _).bind fun _ => keeps_pure _
    exact hpart.bind fun _ => keeps_pure _
  · -- the frame does not matter here
    obtain ⟨value, hvalue⟩ := x.readsTo_deserializePart ⟨fun _ => 0, 0, 0, by norm_num,
      le_rfl⟩ junk hname
    exact hvalue.keeps

/-- What a response of this type is right with, once the reader is behind the type. -/
theorem part_rejects_iff {p : ℕ} (hp : p ≤ f.length) :
    (∃ a t, x.deserializePart junk (f.reader p) = some (a, t) ∧ (a.2 = true → t.result = true)) ↔
      ¬ Known x.infoType ∨ PartInside f x.infoType p := by
  by_cases hknown : Known x.infoType
  · rw [or_iff_right (not_not.mpr hknown), ← x.part_ok_iff f junk hp]
    constructor
    · rintro ⟨a, t, hrun, hok⟩
      exact ⟨a, t, hrun, hok (x.part_status junk hknown hrun)⟩
    · rintro ⟨a, t, hrun, hok⟩
      exact ⟨a, t, hrun, fun _ => hok⟩
  · apply iff_of_true _ (Or.inl hknown)
    exact ⟨_, _, x.part_of_unknown junk hknown _, fun h => absurd h Bool.false_ne_true⟩

/-- After a read has failed, just an unknown type is refused. -/
theorem part_rejects_iff_of_failed {s : Reader} (hs : s.result = false) :
    (∃ a t, x.deserializePart junk s = some (a, t) ∧ (a.2 = true → t.result = true)) ↔
      ¬ Known x.infoType := by
  constructor
  · rintro ⟨a, t, hrun, hok⟩ hknown
    have htrue := x.keeps_deserializePart junk s a t hrun (hok (x.part_status junk hknown hrun))
    rw [Reader.Ok, hs] at htrue
    cases htrue
  · intro hknown
    exact ⟨_, _, x.part_of_unknown junk hknown _, fun h => absurd h Bool.false_ne_true⟩

end ExtendedPlugInfoInfoType

namespace ExtendedPlugInfoCmd

open ExtendedPlugInfoInfoType

variable (x : ExtendedPlugInfoCmd) (junk : ChannelInfo)

theorem steady_deserializeHead : ∃ value, Steady f x.deserializeHead (· + 9) value := by
  obtain ⟨command, hcommand⟩ := x.command.steady f
  obtain ⟨address, haddress⟩ := x.plugAddress.steady f
  exact ⟨_, hcommand.bind fun _ => (steady_readMember f x.subFunction).bind fun _ =>
    haddress.bind fun _ => Steady.pure f _⟩

theorem deserializeHead_infoType {s t : Reader} {y : ExtendedPlugInfoCmd}
    (h : x.deserializeHead s = some (y, t)) : y.infoType = x.infoType := by
  obtain ⟨command, s₁, -, h⟩ := exists_of_bind h
  obtain ⟨subFunction, s₂, -, h⟩ := exists_of_bind h
  obtain ⟨plugAddress, s₃, -, h⟩ := exists_of_bind h
  cases h
  rfl

def effectiveType : UInt8 := if 9 < f.length then f.memory 9 else x.infoType.infoType

theorem exists_behind_type : ∃ y s t, x.deserializeHead f.start = some (y, s) ∧
    readMember x.infoType.infoType s = some (x.effectiveType f, t) ∧
      if 9 < f.length then t = f.reader 10 else t.result = false := by
  obtain ⟨value, hhead⟩ := x.steady_deserializeHead f
  rw [← f.reader_zero, effectiveType]
  rcases Nat.lt_trichotomy f.length 9 with hlt | heq | hgt
  · obtain ⟨y, hy⟩ := hhead.stops 0 (Nat.zero_le _) hlt
    simp only [if_neg (show ¬ 9 < f.length by omega)]
    exact ⟨y, _, _, hy, readMember_end f _ false, rfl⟩
  · have hy := hhead.readsTo.inside 0 heq.ge
    simp only [if_neg (show ¬ 9 < f.length by omega)]
    refine ⟨_, _, f.ended, hy, ?_, rfl⟩
    simp only [Nat.zero_add, ← heq]
    exact readMember_end f _ true
  · have hy := hhead.readsTo.inside 0 hgt.le
    simp only [if_pos hgt]
    exact ⟨_, _, _, hy, (readsTo_readMember f _).inside 9 hgt, rfl⟩

theorem rejectsTruncated_iff :
    RejectsTruncated (x.deserialize junk) f ↔
      ¬ Known (x.effectiveType f) ∨ 9 < f.length ∧ PartInside f (f.memory 9) 10 := by
  obtain ⟨y, s, t, hhead, htype, ht⟩ := x.exists_behind_type f
  have hinfo := x.deserializeHead_infoType hhead
  let z : ExtendedPlugInfoInfoType := { x.infoType with infoType := x.effectiveType f }
  -- the command returns what the part returns
  have hrun : RejectsTruncated (x.deserialize junk) f ↔
      ∃ a u, z.deserializePart junk t = some (a, u) ∧ (a.2 = true → u.result = true) := by
    rw [RejectsTruncated, ExtendedPlugInfoCmd.deserialize, run_bind_of_some hhead, hinfo,
      ExtendedPlugInfoInfoType.deserialize, bind_assoc, run_bind_of_some htype]
    exact exists_run_bind_pure
  rw [hrun]
  by_cases hlt : 9 < f.length
  · rw [if_pos hlt] at ht
    rw [ht, z.part_rejects_iff f junk hlt, and_iff_right hlt]
    simp only [z, effectiveType, if_pos hlt]
  · rw [if_neg hlt] at ht
    rw [z.part_rejects_iff_of_failed junk ht, or_iff_left (fun h => hlt h.1)]

end ExtendedPlugInfoCmd

end PlugInfo

open StreamFormat PlugInfo

theorem rejectsTruncated_responses_iff (f : ResponseFrame) (x : ExtendedStreamFormatCmd)
    (junk : StreamFormatInfo) (y : ExtendedPlugInfoCmd) (junk' : PlugInfo.ChannelInfo) :
    (RejectsTruncated (x.deserialize junk) f ↔
      ExtendedStreamFormatCmd.endOf f.memory 0 ≤ f.length) ∧
    (RejectsTruncated (y.deserialize junk') f ↔
      ¬ ExtendedPlugInfoInfoType.Known (y.effectiveType f) ∨
        9 < f.length ∧ ExtendedPlugInfoInfoType.PartInside f (f.memory 9) 10) :=
  ⟨x.rejectsTruncated_iff f junk, y.rejectsTruncated_iff f junk'⟩

/-- A compound stream with one info, cut off in front of its list. -/
def cutOff : ResponseFrame where
  memory i := [0x0C, 0xFF, 0x2F, 0xC0, 0x00, 0x00, 0x00, 0x00, 0xFF, 0x00, 0x90, 0x40, 0x04, 0x00,
    0x01].getD i 0
  length := 15
  mapped := 512
  length_lt := by norm_num
  length_le := by norm_num

def statusRequest : ExtendedStreamFormatCmd :=
  ⟨⟨0x01, 0xFF, 0x2F⟩, 0xC0, ⟨0x01, 0x00, .unit 0x00 0x00 0xFF⟩, 0xFF, 0, .fresh⟩

/-- The info that is not there is returned with the response. -/
theorem cutOff_accepted :
    ((statusRequest.deserialize ⟨0, 0⟩ cutOff.start).map fun r => (r.1.2, r.2.result)) =
      some (true, false) ∧ ¬ RejectsTruncated (statusRequest.deserialize ⟨0, 0⟩) cutOff := by
  have hrun : ((statusRequest.deserialize ⟨0, 0⟩ cutOff.start).map fun r => (r.1.2, r.2.result)) =
      some (true, false) := by decide +kernel
  refine ⟨hrun, ?_⟩
  rintro ⟨a, t, h, hok⟩
  rw [h] at hrun
  obtain ⟨htrue, hfalse⟩ := Prod.mk.inj (Option.some.inj hrun)
  rw [hok htrue] at hfalse
  cases hfalse

end Ffado.Avc
