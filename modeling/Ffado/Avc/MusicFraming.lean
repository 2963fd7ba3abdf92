import Ffado.Avc.MusicWire

/-!
# The framing of the status descriptor

A descriptor is a sequence of blocks, each as long as its compound length says. The parser visits
the blocks in turn. Of a general status block it consumes the primary fields, of a routing status
block the plugs, of a block that it does not know two bytes too few, and it gives up after twelve
blocks.
-/
namespace Ffado.Avc

open CircularMemory Cmd Decoding Decoding.Cursor Deserializer MachineInt

structure Plugs where
  destPlugs : List SubunitPlugInfoBlock
  sourcePlugs : List SubunitPlugInfoBlock
  musicPlugs : List MusicPlugInfoBlock

namespace Plugs

def empty : Plugs := ⟨[], [], []⟩

def append (ps qs : Plugs) : Plugs :=
  ⟨ps.destPlugs ++ qs.destPlugs, ps.sourcePlugs ++ qs.sourcePlugs, ps.musicPlugs ++ qs.musicPlugs⟩

theorem append_empty (ps : Plugs) : ps.append empty = ps := by
  simp [append, empty]

theorem append_assoc (ps qs rs : Plugs) : (ps.append qs).append rs = ps.append (qs.append rs) := by
  simp [append]

end Plugs

/-- The plugs that have been read, without their texts. -/
def RoutingStatusInfoBlock.untexted (b : RoutingStatusInfoBlock) : Plugs :=
  ⟨b.destPlugs.map SubunitPlugInfoBlock.untexted, b.sourcePlugs.map SubunitPlugInfoBlock.untexted,
    b.musicPlugs.map MusicPlugInfoBlock.untexted⟩

namespace Wire

inductive StatusBlock
  | generalStatus (fields : List UInt8) (nested : List Block)
  | outputPlugStatus (primaryFieldLength : UInt16) (contents : List UInt8)
  | routingStatus (r : RoutingStatus)
  | other (b : Block)

namespace StatusBlock

def header : StatusBlock → InfoBlock
  | generalStatus fields nested => (Block.mk generalStatusType 6
      (fields ++ trailingBytes nested)).header
  | outputPlugStatus primaryFieldLength contents =>
    (Block.mk outputPlugStatusType primaryFieldLength contents).header
  | routingStatus r => r.header
  | other b => b.header

def compoundLength : StatusBlock → ℕ
  | generalStatus fields nested => 4 + (fields ++ trailingBytes nested).length
  | outputPlugStatus _ contents => 4 + contents.length
  | routingStatus r => r.compoundLength
  | other b => 4 + b.contents.length

def bytes : StatusBlock → List UInt8
  | generalStatus fields nested => (Block.mk generalStatusType 6
      (fields ++ trailingBytes nested)).bytes
  | outputPlugStatus primaryFieldLength contents =>
    (Block.mk outputPlugStatusType primaryFieldLength contents).bytes
  | routingStatus r => r.bytes
  | other b => b.bytes

def Fits : StatusBlock → Prop
  | generalStatus fields nested =>
    fields.length = 6 ∧ 4 + (fields ++ trailingBytes nested).length < 2 ^ 16
  | outputPlugStatus _ contents => 4 + contents.length < 2 ^ 16
  | routingStatus r => r.Fits
  | other b => 4 + b.contents.length < 2 ^ 16 ∧ b.infoBlockType ≠ generalStatusType ∧
      b.infoBlockType ≠ outputPlugStatusType ∧ b.infoBlockType ≠ routingStatusType

def plugs : StatusBlock → Plugs
  | routingStatus r => ⟨r.destPlugs.map SubunitPlug.announced,
      r.sourcePlugs.map SubunitPlug.announced, r.musicPlugs.map MusicPlug.announced⟩
  | _ => .empty

def InStep (s : Reader) : StatusBlock → Prop
  | routingStatus r => r.AllPlugs (fun s p => p.InStep s) (fun s p => p.InStep s) s
  | _ => True

def NestedOk (s : Reader) : StatusBlock → Prop
  | routingStatus r => r.AllPlugs (fun s p => p.Ok s) (fun s p => p.Ok s) s
  | _ => True

/-- The parser knows the block, and the block ends where the parser does. -/
def Filled : StatusBlock → Prop
  | generalStatus _ nested => nested = []
  | outputPlugStatus _ _ => True
  | routingStatus r => r.trailing = []
  | other _ => False

def consumed : StatusBlock → ℕ
  | generalStatus _ _ => 12
  | outputPlugStatus _ contents => 6 + contents.length
  | routingStatus r => r.announcedBytes.length
  | other b => 4 + b.contents.length

section Consumed

variable {b : StatusBlock} {s : Reader}

theorem length_bytes (b : StatusBlock) : b.bytes.length = b.compoundLength + 2 := by
  cases b with
  | routingStatus r =>
    rw [bytes, compoundLength, RoutingStatus.bytes, RoutingStatus.announcedBytes,
      List.length_append, List.length_append, RoutingStatus.length_fieldBytes,
      RoutingStatus.compoundLength]
    omega
  | other b =>
    rw [bytes, Block.length_bytes, compoundLength]
    omega
  | _ =>
    simp only [bytes, Block.length_bytes, compoundLength]
    omega

theorem consumed_spec (hfits : b.Fits) :
    b.consumed ≤ b.bytes.length ∧ (b.consumed = b.bytes.length ↔ b.Filled) := by
  cases b with
  | generalStatus fields nested =>
    rw [bytes, Block.length_bytes, List.length_append, hfits.1, consumed, Filled,
      ← length_trailingBytes_eq_zero]
    omega
  | outputPlugStatus primaryFieldLength contents =>
    rw [bytes, Block.length_bytes]
    exact ⟨le_rfl, iff_of_true rfl trivial⟩
  | routingStatus r =>
    rw [bytes, RoutingStatus.bytes, List.length_append, consumed, Filled,
      ← length_trailingBytes_eq_zero]
    omega
  | other b =>
    rw [bytes, Block.length_bytes, consumed]
    exact ⟨by omega, iff_of_false (by omega) not_false⟩

theorem inStep_iff (b : StatusBlock) (hs : Holds s b.bytes) (hfits : b.Fits) :
    b.InStep s ↔ b.NestedOk s := by
  cases b with
  | routingStatus r => exact RoutingStatus.allPlugs_inStep_iff (holds_append.mp hs).1 hfits
  | _ => exact Iff.rfl

theorem holds_header (hs : Holds s b.bytes) : Holds s b.header.bytes := by
  cases b with
  | routingStatus r => exact (holds_append.mp (holds_append.mp (holds_append.mp hs).1).1).1
  | _ => exact (holds_append.mp hs).1

end Consumed

section Turn

variable {b : StatusBlock} {s : Reader} {order : ByteOrder}

variable {h : InfoBlock}

theorem isCurPosValid_advance {k : ℕ} (hlt : s.de.curPos + k < s.de.length) :
    (advance s k).de.isCurPosValid = true := by
  rw [BufferDeserialize.isCurPosValid_iff, advance_de, s.de.advance_curPos_of_le hlt.le,
    BufferDeserialize.advance_length]
  exact hlt

theorem run_readByte {α : Type} {k : ℕ} (hlt : s.de.curPos + k < s.de.length) (old : UInt8)
    (f : UInt8 → Deserializer α) :
    (read BufferDeserialize.readByte old >>= f) (advance s k) =
      f ((advance s k).de.memory (advance s k).de.curPos) (advance s (k + 1)) := by
  have hread : (advance s k).de.readByte = ((advance s k).de.advance 1,
      some ((advance s k).de.memory (advance s k).de.curPos)) :=
    if_pos (isCurPosValid_advance hlt)
  rw [run_bind_of_some (read_of_some hread), advance_advance]

theorem generalStatus_run (hs : Holds s h.bytes) (htype : h.infoBlockType = generalStatusType)
    (hprimary : h.primaryFieldLength = 6) (hle : s.de.curPos + 12 ≤ s.de.length)
    (g : GeneralStatusInfoBlock) :
    ∃ g', g.deserialize order s = some (g', advance s 12) := by
  have hread : (advance s 8).de.readQuadlet order = ((advance s 8).de.advance 4,
      some (quadletAt order (advance s 8).de.memory (advance s 8).de.curPos)) :=
    if_pos (isCurPosValid_advance (by omega))
  rw [GeneralStatusInfoBlock.deserialize, (decodes_header g.header htype).run_bind hs,
    if_neg (not_not.mpr hprimary), InfoBlock.length_bytes, run_readByte (by omega),
    run_readByte (by omega), run_bind_of_some (read_of_some hread), advance_advance]
  exact ⟨_, rfl⟩

theorem outputPlugStatus_run (hs : Holds s h.bytes) (htype : h.infoBlockType = outputPlugStatusType)
    {n : ℕ} (hlength : h.compoundLength.toNat = 4 + n) (old : InfoBlock) :
    deserializeOutputPlugStatus old s = some (h, advance s (6 + n)) := by
  have hcast : (h.compoundLength.toNat : ℤ) - 4 = n := by omega
  have hlt := h.compoundLength.toNat_lt
  rw [deserializeOutputPlugStatus, (decodes_header old htype).run_bind hs, hcast,
    sizeOfInt_natCast (by omega), InfoBlock.length_bytes, ← advance_advance]
  rfl

theorem deserializeBlock_eq (hs : Holds s h.bytes) (blockType : UInt16)
    (desc : MusicStatusDescriptor) : desc.deserializeBlock order blockType s =
      if blockType = generalStatusType then (desc.generalStatus.deserialize order s).map
        (Prod.map (fun generalStatus => { desc with generalStatus }) id)
      else if blockType = outputPlugStatusType then
        (deserializeOutputPlugStatus desc.outputPlugStatus s).map
          (Prod.map (fun outputPlugStatus => { desc with outputPlugStatus }) id)
      else if blockType = routingStatusType then (desc.routingStatus.deserialize s).map
        (Prod.map (fun routingStatus => { desc with routingStatus }) id)
      else some (desc, advance s h.compoundLength.toNat) := by
  have hle := hs.le
  rw [h.length_bytes] at hle
  have hword := @wordAt_of_holds s [] _ _ hs
  have hpeek : peekBlockLength s = some (some h.compoundLength, s) := by
    rw [peekBlockLength, peek_wordAt (by omega), ← hword]
    rfl
  rw [MusicStatusDescriptor.deserializeBlock, run_bind_of_some hpeek]
  split_ifs
  · exact run_bind_pure _ _
  · exact run_bind_pure _ _
  · exact run_bind_pure _ _
  · rfl

theorem untexted_decodedInto (r : RoutingStatus) (old : RoutingStatusInfoBlock) :
    (r.decodedInto old s).untexted = old.untexted.append (routingStatus r).plugs := by
  have hsubunit : ∀ s ps, (mapAt SubunitPlug.bytes (fun s p => p.decoded s) s ps).map
      SubunitPlugInfoBlock.untexted = ps.map SubunitPlug.announced := by
    apply map_mapAt
    intro s p
    exact SubunitPlug.decoded_untexted _
  have hmusic : ∀ s ps, (mapAt MusicPlug.bytes (fun s p => p.decoded s) s ps).map
      MusicPlugInfoBlock.untexted = ps.map MusicPlug.announced := by
    apply map_mapAt
    intro s p
    rfl
  simp only [RoutingStatusInfoBlock.untexted, RoutingStatus.decodedInto, List.map_append, hsubunit,
    hmusic]
  rfl

/-- A turn in front of a block whose plugs are in order consumes what the parser expects of the
block, and appends the plugs. -/
theorem deserializeBlock_run (order : ByteOrder) (hs : Holds s b.bytes) (hfits : b.Fits)
    (hok : b.NestedOk s) (desc : MusicStatusDescriptor) :
    ∃ desc', desc.deserializeBlock order b.header.infoBlockType s =
      some (desc', advance s b.consumed) ∧ desc'.routingStatus.untexted =
        desc.routingStatus.untexted.append b.plugs := by
  have hheader := holds_header hs
  rw [deserializeBlock_eq hheader]
  cases b with
  | generalStatus fields nested =>
    have hle := hs.le
    rw [length_bytes, compoundLength, List.length_append, hfits.1] at hle
    obtain ⟨g, hg⟩ := @generalStatus_run s order _ hheader rfl rfl (by omega) desc.generalStatus
    have htype : (generalStatus fields nested).header.infoBlockType = generalStatusType := rfl
    rw [if_pos htype, hg]
    exact ⟨_, rfl, (Plugs.append_empty _).symm⟩
  | outputPlugStatus primaryFieldLength contents =>
    have hrun := outputPlugStatus_run hheader rfl (UInt16.toNat_ofNat_of_lt' hfits)
      desc.outputPlugStatus
    have htype : (outputPlugStatus primaryFieldLength contents).header.infoBlockType =
        outputPlugStatusType := rfl
    rw [htype, if_neg (by decide), if_pos rfl, hrun]
    exact ⟨_, rfl, (Plugs.append_empty _).symm⟩
  | routingStatus r =>
    have hrun := RoutingStatus.deserialize_of_ok (holds_append.mp hs).1 hfits hok desc.routingStatus
    have htype : (routingStatus r).header.infoBlockType = routingStatusType := rfl
    rw [htype, if_neg (by decide), if_neg (by decide), if_pos rfl, hrun]
    exact ⟨_, rfl, untexted_decodedInto r _⟩
  | other b =>
    have hlength : (other b).header.compoundLength.toNat = (other b).consumed :=
      UInt16.toNat_ofNat_of_lt' hfits.1
    have htype : (other b).header.infoBlockType = b.infoBlockType := rfl
    rw [htype, if_neg hfits.2.1, if_neg hfits.2.2.1, if_neg hfits.2.2.2, hlength]
    exact ⟨_, rfl, (Plugs.append_empty _).symm⟩

end Turn

end StatusBlock

/-- Where the blocks start and end if the first one starts at `p`. -/
def frames : ℕ → List StatusBlock → List (ℕ × ℕ)
  | _, [] => []
  | p, b :: bs => (p, p + (b.compoundLength + 2)) :: frames (p + (b.compoundLength + 2)) bs

def announcedPlugs : List StatusBlock → Plugs
  | [] => .empty
  | b :: bs => b.plugs.append (announcedPlugs bs)

end Wire

/-- Where the turns of the loop start and end. -/
def MusicStatusDescriptor.visits (order : ByteOrder) :
    ℕ → MusicStatusDescriptor → Reader → List (ℕ × ℕ)
  | 0, _, _ => []
  | turns + 1, desc, s =>
    match peekBlockType s with
    | some (some blockType, s₁) =>
      if s₁.result then
        match desc.deserializeBlock order blockType s₁ with
        | some (desc', s₂) => (s.de.curPos, s₂.de.curPos) :: visits order turns desc' s₂
        | none => []
      else []
    | _ => []

namespace Wire

open MusicStatusDescriptor StatusBlock

section Loop

variable {order : ByteOrder} {s : Reader} {turns : ℕ} {desc : MusicStatusDescriptor}

theorem peekBlockType_end (hend : s.de.length ≤ s.de.curPos) (hlt : s.de.curPos + 2 < 2 ^ 64) :
    peekBlockType s = some (none, s) := by
  rw [peekBlockType, peek, BufferDeserialize.peekUInt16_eq, u64_of_lt hlt, if_neg (by omega)]

theorem run_end (hend : s.de.length ≤ s.de.curPos) (hlt : s.de.curPos + 2 < 2 ^ 64) :
    deserializeBlocks order turns desc s = some (desc, s) ∧ visits order turns desc s = [] := by
  cases turns with
  | zero => exact ⟨rfl, rfl⟩
  | succ turns =>
    have hpeek := peekBlockType_end hend hlt
    constructor
    · rw [deserializeBlocks, run_bind_of_some hpeek]
      rfl
    · rw [visits, hpeek]

theorem run_turn (turns : ℕ) {h : InfoBlock} (hs : Holds s h.bytes)
    {desc' : MusicStatusDescriptor} {s' : Reader}
    (hturn : desc.deserializeBlock order h.infoBlockType s = some (desc', s')) :
      deserializeBlocks order (turns + 1) desc s = deserializeBlocks order turns desc' s' ∧
        visits order (turns + 1) desc s = (s.de.curPos, s'.de.curPos) :: visits order turns
          desc' s' := by
  have hpeek := peekBlockType_run hs
  constructor
  · have hget : (get : Deserializer Reader) s = some (s, s) := rfl
    rw [deserializeBlocks, run_bind_of_some hpeek]
    simp only
    rw [run_bind_of_some hget, if_pos hs.result, run_bind_of_some hturn]
  · simp only [visits, hpeek, hs.result, if_true, hturn]

/-- With the plugs in order, the loop visits all blocks just if there are few enough of them and
each ends where the parser does. -/
theorem loop_iff {blocks : List StatusBlock} (hs : Holds s (blocks.flatMap bytes))
    (hend : s.de.curPos + (blocks.flatMap bytes).length = s.de.length)
    (hlt : s.de.length + 2 < 2 ^ 64) (hfits : ∀ b ∈ blocks, b.Fits)
    (hok : AllAt bytes (fun s b => b.NestedOk s) s blocks) :
    ((∃ desc', deserializeBlocks order turns desc s =
        some (desc', advance s (blocks.flatMap bytes).length) ∧
      desc'.routingStatus.untexted = desc.routingStatus.untexted.append (announcedPlugs blocks)) ∧
      visits order turns desc s = frames s.de.curPos blocks) ↔
    blocks.length ≤ turns ∧ ∀ b ∈ blocks, b.Filled := by
  induction blocks generalizing turns desc s with
  | nil =>
    rw [List.flatMap_nil, List.length_nil] at hend
    have hrun := @run_end order s turns desc (by omega) (by omega)
    rw [List.flatMap_nil, List.length_nil, advance_zero]
    apply iff_of_true
    · exact ⟨⟨desc, hrun.1, (Plugs.append_empty _).symm⟩, hrun.2⟩
    · simp
  | cons b bs ih =>
    rw [List.flatMap_cons, List.length_append] at hend
    obtain ⟨hb, hbs⟩ := holds_append.mp hs
    have hbfits := hfits b List.mem_cons_self
    cases turns with
    | zero =>
      apply iff_of_false
      · rintro ⟨-, hvisits⟩
        contradiction
      · simp
    | succ turns =>
      obtain ⟨desc₁, hturn, hplugs⟩ := deserializeBlock_run order hb hbfits hok.1 desc
      obtain ⟨hblocks, hvisits⟩ := run_turn turns (holds_header hb) hturn
      obtain ⟨hle, hconsumed⟩ := consumed_spec hbfits
      rw [hblocks, hvisits, frames, ← length_bytes, curPos_advance hb hle]
      by_cases hfilled : b.Filled
      · have hcur := curPos_advance hb le_rfl
        have hlength : (advance s b.bytes.length).de.length = s.de.length := s.de.advance_length _
        have hrest := @ih (advance s b.bytes.length) turns desc₁ hbs (by omega) (by omega)
          (fun b' hb' => hfits b' (List.mem_cons_of_mem b hb')) hok.2
        rw [hcur, advance_advance, hplugs, Plugs.append_assoc] at hrest
        rw [hconsumed.mpr hfilled, List.flatMap_cons, List.length_append,
          announcedPlugs, List.cons_eq_cons, and_iff_right rfl, hrest]
        simp [hfilled]
      · -- the first turn ends where the block does not
        have hne := mt hconsumed.mp hfilled
        apply iff_of_false
        · rintro ⟨-, hcons⟩
          have hhead := (List.cons_eq_cons.mp hcons).1
          simp only [Prod.mk.injEq, true_and] at hhead
          omega
        · rintro ⟨-, hall⟩
          exact hfilled (hall b List.mem_cons_self)

end Loop

/-- A well formed descriptor, which lies in memory. -/
structure Descriptor where
  blocks : List StatusBlock
  fits : ∀ b ∈ blocks, b.Fits
  lt : (blocks.flatMap bytes).length + 2 < 2 ^ 64

namespace Descriptor

variable (d : Descriptor)

/-- A reader of a buffer with the descriptor in it; what is behind it, up to the end of the mapped
memory, is arbitrary. -/
def reader (m : ℕ → UInt8) (mapped : ℕ) : Reader :=
  ⟨.create (storeAt m 0 (d.blocks.flatMap bytes)) (d.blocks.flatMap bytes).length, mapped, true⟩

/-- All blocks are visited, each one at its start and up to its end, also the nested ones, and the
announced plugs have been read. -/
structure Framed (order : ByteOrder) (m : ℕ → UInt8) (mapped : ℕ) : Prop where
  deserialized : ∃ desc, MusicStatusDescriptor.fresh.deserialize order (d.reader m mapped) =
      some (desc, advance (d.reader m mapped) (d.blocks.flatMap bytes).length) ∧
    desc.routingStatus.untexted = announcedPlugs d.blocks
  visited : visits order maxTurns .fresh (d.reader m mapped) = frames 0 d.blocks
  inStep : AllAt bytes (fun s b => b.InStep s) (d.reader m mapped) d.blocks

variable {d} {m : ℕ → UInt8} {mapped : ℕ}

theorem reader_length : (d.reader m mapped).de.length = (d.blocks.flatMap bytes).length :=
  u64_of_lt (by have := d.lt; omega)

theorem holds_reader : Holds (d.reader m mapped) (d.blocks.flatMap bytes) := by
  constructor
  · exact contains_storeAt m 0 _
  · rw [reader_length]
    exact (Nat.zero_add _).le
  · rfl

/-- The descriptor is parsed as it is framed just if it has at most twelve blocks, all of them known
ones that end where the parser does, with plugs and clusters whose trailing blocks it consumes. -/
theorem framed_iff (d : Descriptor) (order : ByteOrder) (m : ℕ → UInt8) (mapped : ℕ) :
    d.Framed order m mapped ↔
      d.blocks.length ≤ 12 ∧ (∀ b ∈ d.blocks, b.Filled) ∧
        AllAt bytes (fun s b => b.NestedOk s) (d.reader m mapped) d.blocks := by
  have hs := @holds_reader d m mapped
  have hlength := @reader_length d m mapped
  have hlt := d.lt
  have hcur : (d.reader m mapped).de.curPos = 0 := rfl
  have hinStep := AllAt.congr hs fun _ b hb hs => b.inStep_iff hs (d.fits b hb)
  have hloop := fun hok => @loop_iff order _ maxTurns .fresh _ hs (by omega) (by omega) d.fits hok
  constructor
  · rintro ⟨hdeserialized, hvisited, hin⟩
    have hok := hinStep.mp hin
    obtain ⟨hcount, hfilled⟩ := (hloop hok).mp ⟨hdeserialized, hvisited⟩
    exact ⟨hcount, hfilled, hok⟩
  · rintro ⟨hcount, hfilled, hok⟩
    obtain ⟨hdeserialized, hvisited⟩ := (hloop hok).mpr ⟨hcount, hfilled⟩
    exact ⟨hdeserialized, hvisited, hinStep.mpr hok⟩

def unknownFirst : Descriptor where
  blocks := [.other ⟨0x8102, 0, []⟩, .generalStatus [0, 0, 0, 0, 0, 0] []]
  fits := by
    intro b hb
    simp only [List.mem_cons, List.not_mem_nil, or_false] at hb
    rcases hb with rfl | rfl
    · exact ⟨by decide, by decide, by decide, by decide⟩
    · exact ⟨rfl, by decide⟩
  lt := by decide

/-- The parser stays within the first block until it has no turns left. -/
theorem general_status_missed :
    visits .littleEndian maxTurns .fresh (unknownFirst.reader (fun _ => 0) 18) =
        (0, 4) :: List.replicate 11 (4, 4) ∧
      frames 0 unknownFirst.blocks = [(0, 6), (6, 18)] := by
  decide +kernel

end Descriptor

end Wire

end Ffado.Avc
