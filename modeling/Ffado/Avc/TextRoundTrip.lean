import Ffado.Avc.Emission
import Ffado.Avc.TrailingBlocks

/-!
# Texts written and read back

A text is written without a zero byte behind it. It is read back as it was just if such a byte
happens to follow: the first byte of the next block, which is the high byte of its length, or what
the buffer contained before.
-/
namespace Ffado.Avc

open CircularMemory Cmd Decoding Decoding.Cursor Deserializer MachineInt

/-- With room for the bytes, and one more, they are appended. -/
def Emits (f : Writer → Writer) (bytes : List UInt8) : Prop :=
  ∀ w : Writer, w.se.curPos + bytes.length < w.se.length → f w = w.put bytes

section Emits

variable {f g : Writer → Writer} {xs ys : List UInt8} {order : ByteOrder}

theorem emits_nothing : Emits (fun w => w) [] := emitsWith_nothing 1

theorem Emits.comp (hf : Emits f xs) (hg : Emits g ys) : Emits (fun w => g (f w)) (xs ++ ys) :=
  @EmitsWith.comp 1 f g xs ys hf hg

theorem Emits.foldl {ι : Type} {f : ι → Writer → Writer} {enc : ι → List UInt8} {is : List ι}
    (h : ∀ i ∈ is, Emits (f i) (enc i)) :
    Emits (fun w => is.foldl (fun w i => f i w) w) (is.flatMap enc) :=
  @EmitsWith.foldl 1 ι f enc is h

theorem write_of_room {w : Writer} {item : Item} (hroom : w.se.curPos + item.size < w.se.length) :
    w.se.write order item = (w.se.put (item.bytes order), true) := by
  apply BufferSerialize.write_of_fits _ hroom.le
  cases item with
  | byte value => trivial
  | uint16 value =>
    simp only [AwayFromEnd, Item.size] at hroom ⊢
    omega
  | quadlet value => exact Or.inl hroom.le
  | chars values => exact Or.inl hroom

theorem emits_write (order : ByteOrder) (item : Item) : Emits (fun w => w.write order item)
    (item.bytes order) := by
  intro w hroom
  rw [Item.length_bytes] at hroom
  simp only [Writer.write, write_of_room hroom, Bool.and_true]
  rfl

theorem emits_writeIgnored (order : ByteOrder) (item : Item) :
    Emits (fun w => w.writeIgnored order item) (item.bytes order) := by
  intro w hroom
  rw [Item.length_bytes] at hroom
  simp only [Writer.writeIgnored, write_of_room hroom]
  rfl

theorem emits_byte (order : ByteOrder) (value : UInt8) :
    Emits (fun w => w.write order (.byte value)) [value] :=
  emits_write order (.byte value)

theorem emits_word (order : ByteOrder) (value : UInt16) :
    Emits (fun w => w.write order (.uint16 value)) (word value) :=
  emits_write order (.uint16 value)

theorem emits_header (order : ByteOrder) {b : InfoBlock} {supported : UInt16}
    (htype : b.infoBlockType = supported) :
    Emits (b.serialize supported order) b.bytes := by
  have hwords := (emits_word order b.compoundLength).comp
    ((emits_word order b.infoBlockType).comp (emits_word order b.primaryFieldLength))
  intro w hroom
  rw [InfoBlock.serialize, if_neg (fun h => h.2 htype)]
  exact hwords w hroom

end Emits

def RawTextInfoBlock.block (b : RawTextInfoBlock) : Block :=
  ⟨rawTextType, b.header.primaryFieldLength, b.text⟩

structure RawTextInfoBlock.Consistent (b : RawTextInfoBlock) : Prop where
  header : b.header = b.block.header
  fits : b.block.Fits
  noNul : 0 ∉ b.text

def NameInfoBlock.block (b : NameInfoBlock) : Block :=
  ⟨nameType, b.header.primaryFieldLength, word 0 ++ (word 0 ++ (word 0 ++ (word 0 ++
    (word (UInt16.ofNat b.text.length) ++ b.text))))⟩

structure NameInfoBlock.Consistent (b : NameInfoBlock) : Prop where
  header : b.header = b.block.header
  fits : b.block.Fits
  noNul : 0 ∉ b.text

/-- A block that is not present is as it was created. -/
structure TextBlocks.Consistent (t : TextBlocks) : Prop where
  rawText : t.rawText = .fresh ∨ t.rawText.Consistent
  name : t.name = .fresh ∨ t.name.Consistent

def TextBlocks.NameNonempty (t : TextBlocks) : Prop := t.name = .fresh ∨ t.name.text ≠ []

def TextBlocks.trailing (t : TextBlocks) : List Block :=
  if 0 < t.rawText.header.compoundLength then [t.rawText.block]
  else if 0 < t.name.header.compoundLength then [t.name.block]
  else []

section Consistent

variable {t : TextBlocks}

theorem RawTextInfoBlock.Consistent.pos {b : RawTextInfoBlock} (h : b.Consistent) :
    0 < b.header.compoundLength := by
  rw [h.header]
  exact h.fits.pos

theorem NameInfoBlock.Consistent.pos {b : NameInfoBlock} (h : b.Consistent) :
    0 < b.header.compoundLength := by
  rw [h.header]
  exact h.fits.pos

theorem TextBlocks.Consistent.cases (h : t.Consistent) :
    (t = .fresh ∧ t.trailing = []) ∨ (t.rawText.Consistent ∧ t.trailing = [t.rawText.block]) ∨
      (t.rawText = .fresh ∧ t.name.Consistent ∧ t.trailing = [t.name.block]) := by
  have hzero : ¬ (0 : UInt16) < 0 := by decide
  rcases h.rawText with hraw | hraw
  · rcases h.name with hname | hname
    · left
      have hfresh : t = .fresh := by
        cases t
        simp_all [TextBlocks.fresh]
      rw [hfresh]
      exact ⟨rfl, rfl⟩
    · right; right
      refine ⟨hraw, hname, ?_⟩
      have hpos : ¬ 0 < t.rawText.header.compoundLength := by
        rw [hraw]
        exact hzero
      rw [TextBlocks.trailing, if_neg hpos, if_pos hname.pos]
  · right; left
    refine ⟨hraw, ?_⟩
    rw [TextBlocks.trailing, if_pos hraw.pos]

theorem RawTextInfoBlock.Consistent.emits {b : RawTextInfoBlock} (h : b.Consistent)
    (order : ByteOrder) :
    Emits (b.serialize order) b.block.bytes := by
  have htype : b.header.infoBlockType = rawTextType := by rw [h.header]; rfl
  have hheader := emits_header order htype
  have hbytes : b.block.bytes = b.header.bytes ++ b.text := by rw [Block.bytes, ← h.header]; rfl
  rw [hbytes]
  by_cases htext : b.text = []
  · have hserialize : b.serialize order = b.header.serialize rawTextType order := by
      funext w
      rw [RawTextInfoBlock.serialize, if_neg (not_not.mpr htext)]
    rw [hserialize, htext, List.append_nil]
    exact hheader
  · have hserialize : b.serialize order = fun w =>
        (b.header.serialize rawTextType order w).writeIgnored order (.chars b.text) := by
      funext w
      rw [RawTextInfoBlock.serialize, if_pos htext]
    rw [hserialize]
    exact hheader.comp (emits_writeIgnored order (.chars b.text))

theorem NameInfoBlock.Consistent.emits {b : NameInfoBlock} (h : b.Consistent) (order : ByteOrder)
    (htext : b.text ≠ []) :
    Emits (b.serialize order) b.block.bytes := by
  have htype : b.header.infoBlockType = nameType := by rw [h.header]; rfl
  have hheader := emits_header order htype
  have hbytes : b.block.bytes = b.header.bytes ++ b.block.contents := by
    rw [Block.bytes, ← h.header]
  have hzero := emits_word order 0
  have hfields := hzero.comp (hzero.comp (hzero.comp (hzero.comp
    ((emits_word order (UInt16.ofNat b.text.length)).comp
      (emits_writeIgnored order (.chars b.text))))))
  intro w hroom
  rw [NameInfoBlock.serialize, if_pos htext]
  rw [hbytes] at hroom ⊢
  exact hheader.comp hfields w hroom

theorem TextBlocks.Consistent.emits (h : t.Consistent) (order : ByteOrder)
    (hname : t.NameNonempty) : Emits (t.serialize order) (trailingBytes t.trailing) := by
  rcases h.cases with ⟨rfl, htrailing⟩ | ⟨hraw, htrailing⟩ | ⟨hfresh, hconsistent, htrailing⟩
  · exact emits_nothing
  · have hserialize : t.serialize order = t.rawText.serialize order := by
      funext w
      rw [TextBlocks.serialize, if_pos hraw.pos]
    rw [hserialize, htrailing, trailingBytes, List.flatMap_singleton]
    exact hraw.emits order
  · have habsent : ¬ 0 < t.rawText.header.compoundLength := by
      rw [hfresh]
      decide
    have hserialize : t.serialize order = t.name.serialize order := by
      funext w
      rw [TextBlocks.serialize, if_neg habsent, if_pos hconsistent.pos]
    have hpresent : t.name ≠ .fresh := by
      intro heq
      have hpos := hconsistent.pos
      rw [heq] at hpos
      exact absurd hpos (by decide)
    rw [hserialize, htrailing, trailingBytes, List.flatMap_singleton]
    exact hconsistent.emits order (hname.resolve_left hpresent)

end Consistent

section CString

variable {m : ℕ → UInt8} {p mapped : ℕ}

theorem cString_end (h : mapped ≤ p) : cString m p mapped = none := by
  rw [cString, Nat.sub_eq_zero_of_le h]
  rfl

theorem cString_zero (h : p < mapped) (hm : m p = 0) : cString m p mapped = some [] := by
  obtain ⟨n, hn⟩ : ∃ n, mapped - p = n + 1 := ⟨mapped - p - 1, by omega⟩
  rw [cString, hn, slice_succ_left, hm]
  simp

theorem cString_cons (h : p < mapped) (hm : m p ≠ 0) :
    cString m p mapped = (cString m (p + 1) mapped).map (m p :: ·) := by
  obtain ⟨n, hn⟩ : ∃ n, mapped - p = n + 1 := ⟨mapped - p - 1, by omega⟩
  have hn' : mapped - (p + 1) = n := by omega
  rw [cString, cString, hn, hn', slice_succ_left]
  simp [hm, hm.symm]

theorem cString_eq_some_iff {text : List UInt8} : cString m p mapped = some text ↔
    Contains m p text ∧ 0 ∉ text ∧ p + text.length < mapped ∧ m (p + text.length) = 0 := by
  induction text generalizing p with
  | nil =>
    rcases Nat.lt_or_ge p mapped with hlt | hge
    · by_cases hm : m p = 0
      · exact iff_of_true (cString_zero hlt hm) ⟨contains_nil m p, List.not_mem_nil, hlt, hm⟩
      · rw [cString_cons hlt hm]
        simp [hm]
    · rw [cString_end hge]
      exact iff_of_false (by simp) (by simp [hge])
  | cons x text ih =>
    have hoffset : p + (x :: text).length = p + 1 + text.length := by
      rw [List.length_cons]
      omega
    rw [hoffset, contains_cons, List.mem_cons, not_or]
    rcases Nat.lt_or_ge p mapped with hlt | hge
    · by_cases hm : m p = 0
      · rw [cString_zero hlt hm]
        refine iff_of_false (by simp) ?_
        rintro ⟨⟨hx, -⟩, ⟨hne, -⟩, -⟩
        exact hne (hm.symm.trans hx)
      · have hcons : cString m p mapped = some (x :: text) ↔
            m p = x ∧ cString m (p + 1) mapped = some text := by
          rw [cString_cons hlt hm]
          cases cString m (p + 1) mapped <;> simp
        rw [hcons, ih]
        constructor
        · rintro ⟨rfl, hcontains, hnul, hend⟩
          exact ⟨⟨rfl, hcontains⟩, ⟨Ne.symm hm, hnul⟩, hend⟩
        · rintro ⟨⟨rfl, hcontains⟩, ⟨-, hnul⟩, hend⟩
          exact ⟨rfl, hcontains, hnul, hend⟩
    · rw [cString_end hge]
      exact iff_of_false (by simp) (by omega)

theorem cString_eq_iff {text : List UInt8} (hcontains : Contains m p text) (hnul : 0 ∉ text) :
    cString m p mapped = some text ↔ p + text.length < mapped ∧ m (p + text.length) = 0 := by
  rw [cString_eq_some_iff, and_iff_right hcontains, and_iff_right hnul]

end CString

/-- A zero byte follows the text, and there is something in the buffer where it starts. -/
def Reader.Terminated (s : Reader) (offset : ℕ) (text : List UInt8) : Prop :=
  s.de.curPos + offset < s.de.length ∧ s.de.curPos + offset + text.length < s.mapped ∧
    s.de.memory (s.de.curPos + offset + text.length) = 0

instance (s : Reader) (offset : ℕ) (text : List UInt8) : Decidable (s.Terminated offset text) :=
  inferInstanceAs (Decidable (_ ∧ _ ∧ _))

/-- A reader in front of the blocks that are written finds the texts: no name is lost behind a raw
text, and the text that is written is terminated by what follows. -/
def TextBlocks.Kept (t : TextBlocks) (s : Reader) : Prop :=
  if 0 < t.rawText.header.compoundLength then s.Terminated 6 t.rawText.text ∧ t.name = .fresh
  else if 0 < t.name.header.compoundLength then s.Terminated 16 t.name.text
  else True

section Kept

variable {s : Reader} {t : TextBlocks}

theorem readable_and_textAt_iff {offset : ℕ} {text : List UInt8}
    (hcontains : Contains s.de.memory (s.de.curPos + offset) text) (hnul : 0 ∉ text) :
    s.TextReadable offset ∧ s.textAt offset = text ↔ s.Terminated offset text := by
  rw [textReadable_iff, Reader.textAt, Reader.Terminated, ← cString_eq_iff hcontains hnul]
  cases cString s.de.memory (s.de.curPos + offset) s.mapped with
  | _ => simp

theorem contains_of_holds {xs ys : List UInt8} (hs : Holds s (xs ++ ys)) :
    Contains s.de.memory (s.de.curPos + xs.length) ys :=
  (contains_append.mp hs.contains).2

theorem NameInfoBlock.block_eq (b : NameInfoBlock) : b.block.bytes =
    (b.block.header.bytes ++ (word 0 ++ (word 0 ++ (word 0 ++ word 0)))) ++
      (word (UInt16.ofNat b.text.length) ++ b.text) := by
  simp [NameInfoBlock.block, Block.bytes]

theorem NameInfoBlock.Consistent.wordAt {b : NameInfoBlock} (h : b.Consistent)
    (hs : Holds s b.block.bytes) : (s.wordAt 14).toNat = b.text.length := by
  have hfits : 4 + b.block.contents.length < 2 ^ 16 := h.fits
  have hlength : b.block.contents.length = 10 + b.text.length := by
    simp [NameInfoBlock.block]
    omega
  rw [b.block_eq] at hs
  have hword := wordAt_of_holds hs
  simp only [List.length_append, InfoBlock.length_bytes, length_word, Nat.reduceAdd] at hword
  rw [hword, UInt16.toNat_ofNat_of_lt' (by rw [UInt16.size]; omega)]

theorem NameInfoBlock.length_blockBytes (b : NameInfoBlock) :
    b.block.bytes.length = 16 + b.text.length := by
  simp [b.block_eq]
  omega

theorem TextBlocks.Consistent.kept_iff (h : t.Consistent)
    (hs : Holds s (trailingBytes t.trailing)) :
    s.TrailingOk t.trailing ∧ s.texts t.trailing = t ↔ t.Kept s := by
  rcases h.cases with ⟨rfl, -⟩ | ⟨hraw, htrailing⟩ | ⟨hfresh, hname, htrailing⟩
  · exact iff_of_true ⟨trivial, rfl⟩ trivial
  · rw [htrailing, trailingBytes, List.flatMap_singleton] at hs
    have htext : s.TextReadable 6 ∧ s.textAt 6 = t.rawText.text ↔ s.Terminated 6 t.rawText.text :=
      readable_and_textAt_iff (contains_of_holds hs) hraw.noNul
    have htype : t.rawText.block.infoBlockType = rawTextType := rfl
    have heq : { TextBlocks.fresh with rawText := ⟨t.rawText.block.header, s.textAt 6⟩ } = t ↔
        s.textAt 6 = t.rawText.text ∧ t.name = .fresh := by
      rw [← hraw.header]
      obtain ⟨⟨header, text⟩, name⟩ := t
      simp [TextBlocks.fresh, eq_comm]
    rw [TextBlocks.Kept, if_pos hraw.pos, ← htext, htrailing, Reader.TrailingOk, Reader.texts,
      if_pos htype, if_pos htype, heq]
    constructor
    · rintro ⟨⟨-, hreadable⟩, htext, hfresh⟩
      exact ⟨⟨hreadable, htext⟩, hfresh⟩
    · rintro ⟨⟨hreadable, htext⟩, hfresh⟩
      exact ⟨⟨rfl, hreadable⟩, htext, hfresh⟩
  · rw [htrailing, trailingBytes, List.flatMap_singleton] at hs
    have hword := hname.wordAt hs
    have hcontains : Contains s.de.memory (s.de.curPos + 16) t.name.text := by
      have hbytes := t.name.block_eq
      rw [← List.append_assoc] at hbytes
      rw [hbytes] at hs
      exact contains_of_holds hs
    have htext := readable_and_textAt_iff hcontains hname.noNul
    have hraw : ¬ t.name.block.infoBlockType = rawTextType := by
      change ¬ nameType = rawTextType
      decide
    have htype : t.name.block.infoBlockType = nameType := rfl
    have habsent : ¬ 0 < t.rawText.header.compoundLength := by
      rw [hfresh]
      decide
    have heq : { TextBlocks.fresh with name := ⟨t.name.block.header, s.textAt 16⟩ } = t ↔
        s.textAt 16 = t.name.text := by
      rw [← hname.header]
      obtain ⟨rawText, ⟨header, text⟩⟩ := t
      simp only at hfresh
      simp [hfresh, TextBlocks.fresh]
    have hlength : 16 + (s.wordAt 14).toNat = ([t.name.block].flatMap Block.bytes).length := by
      rw [hword, List.flatMap_singleton, t.name.length_blockBytes]
    rw [TextBlocks.Kept, if_neg habsent, if_pos hname.pos, ← htext, htrailing, Reader.TrailingOk,
      Reader.texts, if_neg hraw, if_neg hraw, if_pos htype, if_pos htype, heq]
    constructor
    · rintro ⟨⟨-, hreadable⟩, htext⟩
      exact ⟨hreadable, htext⟩
    · rintro ⟨hreadable, htext⟩
      exact ⟨⟨hlength, hreadable⟩, htext⟩

theorem textReadable_of_isSome {offset n : ℕ} (hle : s.de.curPos + offset ≤ s.de.length)
    (h : (readText n (advance s offset)).isSome) : s.TextReadable offset := by
  obtain ⟨⟨text, s'⟩, hread⟩ := Option.isSome_iff_exists.mp h
  exact (readText_cases hle hread).1

/-- A parser that returns from texts that were written has consumed them. -/
theorem TextBlocks.Consistent.trailingOk_of_isSome (h : t.Consistent)
    (hs : Holds s (trailingBytes t.trailing))
    (hsome : (TextBlocks.fresh.deserialize (trailingBytes t.trailing).length s).isSome) :
    s.TrailingOk t.trailing := by
  have hlength := s.de.length_lt
  rcases h.cases with ⟨-, htrailing⟩ | ⟨hraw, htrailing⟩ | ⟨-, hname, htrailing⟩
  · rw [htrailing]
    trivial
  · rw [htrailing, trailingBytes, List.flatMap_singleton] at hs hsome
    have htype : t.rawText.block.infoBlockType = rawTextType := rfl
    have hle := hs.le
    rw [Block.length_bytes] at hle
    rw [texts_deserialize_cons hs (by rw [Block.length_bytes]; omega)
      (by rw [Block.length_bytes]; omega), if_pos htype,
      rawText_deserialize _ hs hraw.fits htype, Option.isSome_map, Option.isSome_map] at hsome
    rw [htrailing, Reader.TrailingOk, if_pos htype]
    exact ⟨rfl, textReadable_of_isSome (by omega) hsome⟩
  · rw [htrailing, trailingBytes, List.flatMap_singleton] at hs hsome
    have hraw : ¬ t.name.block.infoBlockType = rawTextType := by
      change ¬ nameType = rawTextType
      decide
    have htype : t.name.block.infoBlockType = nameType := rfl
    have hle := hs.le
    rw [t.name.length_blockBytes] at hle
    rw [texts_deserialize_cons hs (by rw [t.name.length_blockBytes]; omega)
      (by rw [t.name.length_blockBytes]; omega), if_neg hraw, if_pos htype,
      name_deserialize _ hs htype (by omega), Option.isSome_map, Option.isSome_map] at hsome
    rw [htrailing, Reader.TrailingOk, if_neg hraw, if_pos htype, hname.wordAt hs,
      List.flatMap_singleton, t.name.length_blockBytes]
    exact ⟨rfl, textReadable_of_isSome (by omega) hsome⟩

end Kept

end Ffado.Avc
