import Ffado.Avc.PlugInfo
import Ffado.Avc.TextRoundTrip
import Mathlib.Data.List.TakeWhile

/-!
# Extended plug info written and read back

Numbers, positions and addresses of plugs are read back as they were written. A name with an `&`
comes back with a `+` if it is the name of a channel or a cluster. The name of a plug is written
without a zero byte and taken up to the first zero byte, so it is read back just if the buffer had
such a byte right behind what was written.
-/
namespace Ffado.Avc.PlugInfo

open CircularMemory Cmd Decoding Decoding.Cursor Deserializer

variable {name : List UInt8}

def ChannelInfo.bytes (x : ChannelInfo) : List UInt8 := [x.streamPosition, x.location]

def ClusterInfo.bytes (x : ClusterInfo) : List UInt8 :=
  [x.nrOfChannels] ++ x.channelInfos.flatMap ChannelInfo.bytes

def ClusterInfo.Counted (x : ClusterInfo) : Prop := x.nrOfChannels.toNat = x.channelInfos.length

def PlugChannelPositionSpecificData.bytes (x : PlugChannelPositionSpecificData) : List UInt8 :=
  [x.nrOfClusters] ++ x.clusterInfos.flatMap ClusterInfo.bytes

structure PlugChannelPositionSpecificData.Counted (x : PlugChannelPositionSpecificData) : Prop where
  clusters : x.nrOfClusters.toNat = x.clusterInfos.length
  channels : ∀ cluster ∈ x.clusterInfos, cluster.Counted

def PlugChannelNameSpecificData.bytes (x : PlugChannelNameSpecificData) : List UInt8 :=
  [x.streamPosition, x.stringLength] ++ x.plugChannelName

def PlugOutputSpecificData.bytes (x : PlugOutputSpecificData) : List UInt8 :=
  [x.nrOfOutputPlugs] ++ x.outputPlugAddresses.flatMap PlugAddressSpecificData.bytes

structure PlugOutputSpecificData.Counted (x : PlugOutputSpecificData) : Prop where
  plugs : x.nrOfOutputPlugs.toNat = x.outputPlugAddresses.length
  addresses : ∀ address ∈ x.outputPlugAddresses, address.Matches

def ClusterInfoSpecificData.bytes (x : ClusterInfoSpecificData) : List UInt8 :=
  [x.clusterIndex, x.portType, x.stringLength] ++ x.clusterName

/-- A name of the announced length, without a zero byte. -/
structure Named (stringLength : UInt8) (name : List UInt8) : Prop where
  length : stringLength.toNat = name.length
  noNul : 0 ∉ name

theorem ClusterInfo.emits (x : ClusterInfo) : EmitsWith 0 x.serialize x.bytes :=
  (emitsWith_writeBytes [x.nrOfChannels]).comp
    (EmitsWith.foldl fun info _ => emitsWith_writeBytes info.bytes)

theorem PlugChannelPositionSpecificData.emits (x : PlugChannelPositionSpecificData) :
    EmitsWith 0 x.serialize x.bytes :=
  (emitsWith_writeBytes [x.nrOfClusters]).comp (EmitsWith.foldl fun cluster _ => cluster.emits)

theorem PlugChannelNameSpecificData.emits (x : PlugChannelNameSpecificData) :
    EmitsWith 0 x.serialize x.bytes :=
  (emitsWith_writeBytes [x.streamPosition, x.stringLength]).comp
    (emitsWith_writeBytes x.plugChannelName)

theorem PlugOutputSpecificData.emits (x : PlugOutputSpecificData) :
    EmitsWith 0 x.serialize x.bytes :=
  (emitsWith_writeBytes [x.nrOfOutputPlugs]).comp (EmitsWith.foldl fun address _ => address.emits)

theorem ClusterInfoSpecificData.emits (x : ClusterInfoSpecificData) :
    EmitsWith 0 x.serialize x.bytes :=
  (emitsWith_writeBytes [x.clusterIndex, x.portType, x.stringLength]).comp
    (emitsWith_writeBytes x.clusterName)

theorem ChannelInfo.decodes (junk x : ChannelInfo) : Decodes junk.deserialize x.bytes x :=
  (decodes_byte _ x.streamPosition).bind ((decodes_byte _ x.location).bindPure _)

theorem ClusterInfo.Counted.decodes {x : ClusterInfo} (h : x.Counted) (junk : ChannelInfo) :
    Decodes (ClusterInfo.deserialize junk) x.bytes x := by
  have hinfos := Decodes.times fun info (_ : info ∈ x.channelInfos) => junk.decodes info
  rw [List.map_id', ← h] at hinfos
  exact (decodes_localByte x.nrOfChannels).bind (hinfos.bindPure _)

theorem PlugChannelPositionSpecificData.Counted.decodes {x : PlugChannelPositionSpecificData}
    (h : x.Counted) (old : PlugChannelPositionSpecificData) (junk : ChannelInfo) :
    Decodes (old.deserialize junk) x.bytes x := by
  have hclusters := Decodes.times fun cluster hmem => (h.channels cluster hmem).decodes junk
  rw [List.map_id', ← h.clusters] at hclusters
  exact (decodes_byte _ x.nrOfClusters).bind (hclusters.bindPure _)

theorem PlugOutputSpecificData.Counted.decodes {x : PlugOutputSpecificData} (h : x.Counted) :
    Decodes PlugOutputSpecificData.fresh.deserialize x.bytes x := by
  have haddresses := Decodes.times fun address hmem => (h.addresses address hmem).decodes .output
  rw [List.map_id', ← h.plugs] at haddresses
  exact (decodes_byte _ x.nrOfOutputPlugs).bind (haddresses.bindPure _)

theorem encodeChar_ne_zero {c : UInt8} (h : c ≠ 0) : encodeChar c ≠ 0 := by
  rw [encodeChar]
  split_ifs
  · decide
  · exact h

theorem encodeChar_eq_self_iff {c : UInt8} : encodeChar c = c ↔ c ≠ ampersand := by
  rw [encodeChar]
  split_ifs with hc
  · subst hc
    decide
  · exact iff_of_true rfl hc

theorem map_encodeChar_eq_self_iff :
    name.map encodeChar = name ↔ ampersand ∉ name := by
  induction name with
  | nil => simp
  | cons c name ih =>
    rw [List.map_cons, List.cons_eq_cons, encodeChar_eq_self_iff, ih, List.mem_cons,
      not_or, ne_comm]

theorem Named.decodes {stringLength : UInt8} (h : Named stringLength name) :
    Decodes (readChars stringLength) name (name.map encodeChar) := by
  have hchars := Decodes.times fun c (_ : c ∈ name) => decodes_localByte c
  rw [List.map_id', List.flatMap_singleton', ← h.length] at hchars
  have hall : ∀ c ∈ name.map encodeChar, decide (c ≠ 0) = true := by
    intro c hc
    obtain ⟨c', hmem, rfl⟩ := List.mem_map.mp hc
    have hne : c' ≠ 0 := by
      rintro rfl
      exact h.noNul hmem
    exact decide_eq_true (encodeChar_ne_zero hne)
  have hread := hchars.bindPure fun chars => (chars.map encodeChar).takeWhile (· ≠ 0)
  rwa [List.takeWhile_eq_self_iff.mpr hall] at hread

theorem PlugChannelNameSpecificData.decodes {x : PlugChannelNameSpecificData}
    (h : Named x.stringLength x.plugChannelName) (old : PlugChannelNameSpecificData) :
    Decodes old.deserialize x.bytes
      { x with plugChannelName := x.plugChannelName.map encodeChar } :=
  (decodes_byte _ x.streamPosition).bind ((decodes_byte _ x.stringLength).bind
    (h.decodes.bindPure _))

theorem ClusterInfoSpecificData.decodes {x : ClusterInfoSpecificData}
    (h : Named x.stringLength x.clusterName) (old : ClusterInfoSpecificData) :
    Decodes old.deserialize x.bytes { x with clusterName := x.clusterName.map encodeChar } :=
  (decodes_byte _ x.clusterIndex).bind ((decodes_byte _ x.portType).bind
    ((decodes_byte _ x.stringLength).bind (h.decodes.bindPure _)))

namespace PlugNameSpecificData

variable {x : PlugNameSpecificData}

structure InRange (x : PlugNameSpecificData) : Prop where
  length_le : x.name.length ≤ 255
  noNul : 0 ∉ x.name

def bytes (x : PlugNameSpecificData) : List UInt8 := [x.length] ++ x.name

theorem InRange.length (h : x.InRange) : x.length.toNat = x.name.length := by
  have hall : ∀ c ∈ x.name, decide (c ≠ 0) = true := by
    intro c hc
    apply decide_eq_true
    rintro rfl
    exact h.noNul hc
  have hle := h.length_le
  rw [PlugNameSpecificData.length, List.takeWhile_eq_self_iff.mpr hall,
    UInt8.toNat_ofNat_of_lt' (by rw [UInt8.size]; omega)]

theorem InRange.emits (h : x.InRange) : EmitsWith 0 x.serialize x.bytes := by
  have hname : x.name.take x.length.toNat = x.name := by rw [h.length, List.take_length]
  have hwrites := (emitsWith_writeBytes [x.length]).comp (emitsWith_writeBytes x.name)
  intro w hroom
  rw [serialize, hname]
  exact hwrites w hroom

end PlugNameSpecificData

theorem readName_eq_iff {s : Reader} (hs : Holds s name) (hpos : 0 < s.de.curPos)
    (hnul : 0 ∉ name) : (∃ t, readName name.length s = some (name, t) ∧
      t.de.curPos = s.de.curPos + name.length) ↔ s.Terminated 0 name := by
  rw [Reader.Terminated, Nat.add_zero, ← cString_eq_iff hs.contains hnul]
  rcases Nat.lt_or_ge s.de.curPos s.de.length with hlt | hge
  · rw [readName, BufferDeserialize.readChars_of_le hlt (by omega) hs.le, and_iff_right hlt]
    constructor
    · rintro ⟨t, hrun, -⟩
      obtain ⟨text, htext, heq⟩ := Option.map_eq_some_iff.mp hrun
      rw [htext, (Prod.mk.inj heq).1]
    · intro htext
      exact ⟨_, Option.map_eq_some_iff.mpr ⟨name, htext, rfl⟩, s.de.advance_curPos_of_le hs.le⟩
  · apply iff_of_false
    · rintro ⟨t, hrun, -⟩
      rw [readName, BufferDeserialize.readChars, if_neg] at hrun
      · cases hrun
      · rw [BufferDeserialize.isCurPosValid_iff]
        omega
    · omega

inductive InfoData
  | plugType (x : PlugTypeSpecificData)
  | plugName (x : PlugNameSpecificData)
  | plugNrOfChns (x : PlugNumberOfChannelsSpecificData)
  | plugChannelPosition (x : PlugChannelPositionSpecificData)
  | plugChannelName (x : PlugChannelNameSpecificData)
  | plugInput (x : PlugInputSpecificData)
  | plugOutput (x : PlugOutputSpecificData)
  | plugClusterInfo (x : ClusterInfoSpecificData)
  deriving DecidableEq

/-- The object that has this data. -/
def ExtendedPlugInfoInfoType.of : InfoData → ExtendedPlugInfoInfoType
  | .plugType x => { fresh 0x00 with plugType := some x }
  | .plugName x => { fresh 0x01 with plugName := some x }
  | .plugNrOfChns x => { fresh 0x02 with plugNrOfChns := some x }
  | .plugChannelPosition x => { fresh 0x03 with plugChannelPosition := some x }
  | .plugChannelName x => { fresh 0x04 with plugChannelName := some x }
  | .plugInput x => { fresh 0x05 with plugInput := some x }
  | .plugOutput x => { fresh 0x06 with plugOutput := some x }
  | .plugClusterInfo x => { fresh 0x07 with plugClusterInfo := some x }

namespace InfoData

open ExtendedPlugInfoInfoType

/-- Counts and lengths are those of the lists and names, names have no zero byte, and the class of
an address is the one that its mode tells. -/
def InRange : InfoData → Prop
  | plugType _ => True
  | plugName x => x.InRange
  | plugNrOfChns _ => True
  | plugChannelPosition x => x.Counted
  | plugChannelName x => Named x.stringLength x.plugChannelName
  | plugInput x => x.plugAddress.Matches
  | plugOutput x => x.Counted
  | plugClusterInfo x => Named x.stringLength x.clusterName

def bytes : InfoData → List UInt8
  | plugType x => [0x00] ++ [x.plugType]
  | plugName x => [0x01] ++ x.bytes
  | plugNrOfChns x => [0x02] ++ [x.nrOfChannels]
  | plugChannelPosition x => [0x03] ++ x.bytes
  | plugChannelName x => [0x04] ++ x.bytes
  | plugInput x => [0x05] ++ x.plugAddress.bytes
  | plugOutput x => [0x06] ++ x.bytes
  | plugClusterInfo x => [0x07] ++ x.bytes

theorem InRange.emits {data : InfoData} (h : data.InRange) :
    EmitsWith 0 (of data).serialize data.bytes := by
  have htype : ∀ infoType : UInt8, EmitsWith 0 (fun w => w.writeBytes [infoType]) [infoType] :=
    fun infoType => emitsWith_writeBytes [infoType]
  cases data with
  | plugType x => exact (htype 0x00).comp (emitsWith_writeBytes [x.plugType])
  | plugName x => exact (htype 0x01).comp (PlugNameSpecificData.InRange.emits h)
  | plugNrOfChns x => exact (htype 0x02).comp (emitsWith_writeBytes [x.nrOfChannels])
  | plugChannelPosition x => exact (htype 0x03).comp x.emits
  | plugChannelName x => exact (htype 0x04).comp x.emits
  | plugInput x => exact (htype 0x05).comp x.plugAddress.emits
  | plugOutput x => exact (htype 0x06).comp x.emits
  | plugClusterInfo x => exact (htype 0x07).comp x.emits

def readBack : InfoData → InfoData
  | plugChannelName x =>
    plugChannelName { x with plugChannelName := x.plugChannelName.map encodeChar }
  | plugClusterInfo x => plugClusterInfo { x with clusterName := x.clusterName.map encodeChar }
  | data => data

/-- What is read back by a reader at `start`, where the buffer contained `memory` before: a name of
a plug if the next zero byte is right behind it, and other names if they have no ampersand. -/
def Kept (memory : ℕ → UInt8) (start length mapped : ℕ) : InfoData → Prop
  | plugName x => start + 2 < length ∧ start + 2 + x.name.length < mapped ∧
      memory (start + 2 + x.name.length) = 0
  | plugChannelName x => ampersand ∉ x.plugChannelName
  | plugClusterInfo x => ampersand ∉ x.clusterName
  | _ => True

end InfoData

structure InfoFrame (data : InfoData) where
  memory : ℕ → UInt8
  start : ℕ
  capacity : ℕ
  length : ℕ
  mapped : ℕ
  capacity_lt : capacity < 2 ^ 64
  length_lt : length < 2 ^ 64
  room : start + data.bytes.length ≤ capacity
  complete : start + data.bytes.length ≤ length
  length_le : length ≤ mapped

namespace InfoFrame

open ExtendedPlugInfoInfoType

variable {data : InfoData} (e : InfoFrame data) (initial : UInt8) (junk : ChannelInfo)

def written : Writer :=
  (of data).serialize ⟨⟨e.memory, e.start, e.capacity, e.capacity_lt⟩, true⟩

def reader : Reader where
  de := ⟨e.written.se.memory, e.start, e.length,
    ((Nat.le_add_right _ _).trans e.complete).trans_lt e.length_lt, e.length_lt⟩
  mapped := e.mapped
  result := true

/-- A new object reads what was written, to its end and as it was. -/
def RoundTrips : Prop :=
  e.written.result = true ∧ ∃ t, (fresh initial).deserialize junk e.reader =
    some ((of data, true), t) ∧ t.de.curPos = e.written.se.curPos

variable {e}

theorem written_eq (h : data.InRange) :
    e.written = Writer.put ⟨⟨e.memory, e.start, e.capacity, e.capacity_lt⟩, true⟩ data.bytes :=
  h.emits _ e.room

theorem holds (h : data.InRange) : Holds e.reader data.bytes := by
  refine ⟨?_, e.complete, rfl⟩
  change Contains e.written.se.memory e.start data.bytes
  rw [written_eq h]
  exact contains_storeAt e.memory e.start data.bytes

theorem roundTrips_iff_exists (h : data.InRange) : e.RoundTrips initial junk ↔
    ∃ t, (fresh initial).deserialize junk e.reader = some ((of data, true), t) ∧
      t.de.curPos = e.start + data.bytes.length := by
  rw [RoundTrips, written_eq h]
  exact and_iff_right rfl

/-- If it is known what is read, that has to be the data. -/
theorem roundTrips_iff_of_decodes (h : data.InRange) {x : ExtendedPlugInfoInfoType}
    (hdecodes : Decodes ((fresh initial).deserialize junk) data.bytes (x, true)) :
    e.RoundTrips initial junk ↔ x = of data := by
  rw [roundTrips_iff_exists initial junk h, hdecodes _ (holds h)]
  constructor
  · rintro ⟨t, heq, -⟩
    exact (Prod.mk.inj (Prod.mk.inj (Option.some.inj heq)).1).1
  · rintro rfl
    exact ⟨_, rfl, e.reader.de.advance_curPos_of_le e.complete⟩

theorem decodes_of_part {infoType : UInt8} {bytes : List UInt8} {x : ExtendedPlugInfoInfoType}
    (h : Decodes ((fresh infoType).deserializePart junk) bytes (x, true)) :
    Decodes ((fresh initial).deserialize junk) ([infoType] ++ bytes) (x, true) :=
  (decodes_byte initial infoType).bind h

theorem deserialize_plugName {x : PlugNameSpecificData} {s : Reader} (h : x.InRange)
    (hs : Holds s (InfoData.plugName x).bytes) :
    (fresh initial).deserialize junk s = (readName x.name.length (advance s 2)).map
      (Prod.map (fun name => (of (.plugName ⟨name⟩), true)) id) := by
  obtain ⟨htype, hs⟩ := holds_append.mp hs
  have hlength : Holds (advance s 1) [x.length] := (holds_append.mp hs).1
  have hpart : (fresh initial).deserialize junk s =
    (PlugNameSpecificData.deserialize >>= fun part =>
      pure (of (.plugName part), true)) (advance s 1) := (decodes_byte initial 0x01).run_bind htype
  rw [hpart, run_bind_pure, PlugNameSpecificData.deserialize, readVariable,
    (decodes_localByte x.length).run_bind hlength, h.length, run_bind_pure, Option.map_map,
    advance_advance]
  rfl

theorem plugName_roundTrips_iff {x : PlugNameSpecificData} (h : x.InRange)
    (e : InfoFrame (.plugName x)) : e.RoundTrips initial junk ↔
      (InfoData.plugName x).Kept e.memory e.start e.length e.mapped := by
  have hrange : (InfoData.plugName x).InRange := h
  have hs := holds (e := e) hrange
  have hsplit : (InfoData.plugName x).bytes = [0x01, x.length] ++ x.name := rfl
  have hbytes : (InfoData.plugName x).bytes.length = 2 + x.name.length := by
    rw [hsplit, List.length_append]
    rfl
  have hname : Holds (advance e.reader 2) x.name := by
    rw [hsplit] at hs
    exact (holds_append.mp hs).2
  have hcur : (advance e.reader 2).de.curPos = e.start + 2 :=
    curPos_advance hs (by omega)
  have hlength : (advance e.reader 2).de.length = e.length := e.reader.de.advance_length 2
  have hmapped : (advance e.reader 2).mapped = e.mapped := rfl
  have hmemory : (advance e.reader 2).de.memory (e.start + 2 + x.name.length) =
      e.memory (e.start + 2 + x.name.length) := by
    rw [advance_de, BufferDeserialize.advance_memory]
    change e.written.se.memory _ = _
    rw [written_eq hrange]
    apply storeAt_behind
    rw [hbytes]
    exact (Nat.add_assoc _ _ _).ge
  have hread := readName_eq_iff hname (by omega) h.noNul
  rw [Reader.Terminated, hcur, Nat.add_zero, hlength, hmapped, hmemory] at hread
  rw [roundTrips_iff_exists initial junk hrange, deserialize_plugName initial junk h hs,
    InfoData.Kept, ← hread, hbytes, ← Nat.add_assoc]
  constructor
  · rintro ⟨t, hrun, ht⟩
    obtain ⟨⟨name, t'⟩, hname, heq⟩ := Option.map_eq_some_iff.mp hrun
    cases heq
    exact ⟨_, hname, ht⟩
  · rintro ⟨t, hrun, ht⟩
    exact ⟨t, Option.map_eq_some_iff.mpr ⟨_, hrun, rfl⟩, ht⟩

theorem decodes_readBack (h : data.InRange) (hname : ∀ x, data ≠ .plugName x) :
    Decodes ((fresh initial).deserialize junk) data.bytes (of data.readBack, true) := by
  have hpart := @decodes_of_part initial junk
  cases data with
  | plugType x => exact hpart (((decodes_byte _ x.plugType).bindPure _).bindPure _)
  | plugName x => exact absurd rfl (hname x)
  | plugNrOfChns x => exact hpart (((decodes_byte _ x.nrOfChannels).bindPure _).bindPure _)
  | plugChannelPosition x =>
    exact hpart ((PlugChannelPositionSpecificData.Counted.decodes h _ junk).bindPure _)
  | plugChannelName x => exact hpart ((PlugChannelNameSpecificData.decodes h _).bindPure _)
  | plugInput x =>
    have haddress := PlugAddressSpecificData.Matches.decodes h
      PlugInputSpecificData.fresh.plugAddress
    exact hpart ((haddress.bindPure _).bindPure _)
  | plugOutput x => exact hpart ((PlugOutputSpecificData.Counted.decodes h).bindPure _)
  | plugClusterInfo x => exact hpart ((ClusterInfoSpecificData.decodes h _).bindPure _)

/-- An info type comes back as it was just if its data is kept. -/
theorem infoType_roundTrips_iff (h : data.InRange) :
    e.RoundTrips initial junk ↔ data.Kept e.memory e.start e.length e.mapped := by
  have hiff := fun hname => roundTrips_iff_of_decodes (e := e) initial junk h
    (decodes_readBack initial junk h hname)
  cases data with
  | plugName x => exact plugName_roundTrips_iff initial junk h e
  | plugChannelName x =>
    obtain ⟨streamPosition, stringLength, name⟩ := x
    rw [hiff (by simp), InfoData.Kept, ← map_encodeChar_eq_self_iff]
    simp [InfoData.readBack, of]
  | plugClusterInfo x =>
    obtain ⟨clusterIndex, portType, stringLength, name⟩ := x
    rw [hiff (by simp), InfoData.Kept, ← map_encodeChar_eq_self_iff]
    simp [InfoData.readBack, of]
  | _ => exact iff_of_true ((hiff (by simp)).mpr rfl) trivial

def filled (data : InfoData) (byte : UInt8) (h : data.bytes.length ≤ 64) : InfoFrame data :=
  ⟨fun _ => byte, 0, 64, 64, 64, by norm_num, by norm_num, by omega, by omega, le_rfl⟩

/-- `Line` in a buffer that was cleared. -/
theorem plugName_line_kept :
    (filled (.plugName ⟨[0x4C, 0x69, 0x6E, 0x65]⟩) 0 (by decide)).RoundTrips 0xFF ⟨0, 0⟩ := by
  have hrange : (InfoData.plugName ⟨[0x4C, 0x69, 0x6E, 0x65]⟩).InRange := ⟨by decide, by decide⟩
  exact (infoType_roundTrips_iff 0xFF ⟨0, 0⟩ hrange).mpr ⟨by decide, by decide, rfl⟩

/-- `I&O` as the name of a channel, and as the name of a plug in a buffer that was not cleared. -/
theorem name_changed :
    ¬ (filled (.plugChannelName ⟨1, 3, [0x49, 0x26, 0x4F]⟩) 0 (by decide)).RoundTrips 0xFF ⟨0, 0⟩ ∧
      ¬ (filled (.plugName ⟨[0x49, 0x26, 0x4F]⟩) 0xFF (by decide)).RoundTrips 0xFF ⟨0, 0⟩ := by
  constructor
  · have hrange : (InfoData.plugChannelName ⟨1, 3, [0x49, 0x26, 0x4F]⟩).InRange := ⟨rfl, by decide⟩
    rw [roundTrips_iff_of_decodes 0xFF ⟨0, 0⟩ hrange
      (decodes_readBack 0xFF ⟨0, 0⟩ hrange fun x => by simp)]
    decide
  · rw [plugName_roundTrips_iff 0xFF ⟨0, 0⟩ ⟨by decide, by decide⟩]
    rintro ⟨-, -, hzero⟩
    cases hzero

end InfoFrame

end Ffado.Avc.PlugInfo
