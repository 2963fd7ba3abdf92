import Ffado.Avc.InfoBlock

/-!
# Texts at the end of a block

A block may end with a text or a name, or with blocks that the parser does not know. Of all that may
stand there the parser consumes the whole just in the forms described by `Reader.TrailingOk`.
-/
namespace Ffado.Avc

open CircularMemory Cmd Decoding Decoding.Cursor Deserializer MachineInt

structure Block where
  infoBlockType : UInt16
  primaryFieldLength : UInt16
  contents : List UInt8

namespace Block

variable (b : Block)

def header : InfoBlock := ⟨UInt16.ofNat (4 + b.contents.length), b.infoBlockType,
    b.primaryFieldLength⟩

def bytes : List UInt8 := b.header.bytes ++ b.contents

/-- The compound length is a word. -/
def Fits : Prop := 4 + b.contents.length < 2 ^ 16

theorem length_bytes : b.bytes.length = 6 + b.contents.length := by
  rw [bytes, List.length_append, InfoBlock.length_bytes]

variable {b} in
theorem Fits.compoundLength (h : b.Fits) : b.header.compoundLength.toNat = 4 + b.contents.length :=
  UInt16.toNat_ofNat_of_lt' h

theorem Fits.pos {b : Block} (h : b.Fits) : 0 < b.header.compoundLength := by
  rw [UInt16.lt_iff_toNat_lt, h.compoundLength]
  exact Nat.lt_of_lt_of_le (by decide) (Nat.le_add_right 4 _)

end Block

namespace Reader

variable (s : Reader)

def wordAt (offset : ℕ) : UInt16 :=
  ofBytes (s.de.memory (s.de.curPos + offset)) (s.de.memory (s.de.curPos + offset + 1))

/-- There is something in the buffer, and a zero byte ends the string. -/
def TextReadable (offset : ℕ) : Prop :=
  s.de.curPos + offset < s.de.length ∧
    ∃ j, s.de.curPos + offset ≤ j ∧ j < s.mapped ∧ s.de.memory j = 0

/-- What the pointer to a text is read as. -/
def textAt (offset : ℕ) : List UInt8 :=
  (cString s.de.memory (s.de.curPos + offset) s.mapped).getD []

end Reader

namespace Reader

/-- The blocks at the end of a block are consumed: there are none, or a single raw text, or a name
whose text ends with them, or else the first one is of another type and all are skipped. -/
def TrailingOk (s : Reader) : List Block → Prop
  | [] => True
  | t :: ts =>
    if t.infoBlockType = rawTextType then ts = [] ∧ s.TextReadable 6
    else if t.infoBlockType = nameType then
      16 + (s.wordAt 14).toNat = ((t :: ts).flatMap Block.bytes).length ∧ s.TextReadable 16
    else True

def texts (s : Reader) : List Block → TextBlocks
  | [] => .fresh
  | t :: _ =>
    if t.infoBlockType = rawTextType then
      { TextBlocks.fresh with rawText := ⟨t.header, s.textAt 6⟩ }
    else if t.infoBlockType = nameType then
      { TextBlocks.fresh with name := ⟨t.header, s.textAt 16⟩ }
    else .fresh

end Reader

section Texts

variable {s s' : Reader} {n : ℕ} {text : List UInt8}

variable {offset : ℕ}

theorem isSome_cString_iff {m : ℕ → UInt8} {p mapped : ℕ} :
    (cString m p mapped).isSome ↔ ∃ j, p ≤ j ∧ j < mapped ∧ m j = 0 := by
  have hmem : 0 ∈ slice m p (mapped - p) ↔ ∃ j, p ≤ j ∧ j < mapped ∧ m j = 0 := by
    simp only [slice, List.mem_map, List.mem_range]
    constructor
    · rintro ⟨i, hi, h⟩
      exact ⟨p + i, by omega, by omega, h⟩
    · rintro ⟨j, hp, hj, h⟩
      exact ⟨j - p, by omega, by rwa [Nat.add_sub_of_le hp]⟩
  rw [← hmem, cString]
  split_ifs with h <;> simp [h]

theorem readText_of_readable (hoffset : 0 < offset) (hle : s.de.curPos + offset + n ≤ s.de.length)
    (h : s.TextReadable offset) :
    readText n (advance s offset) = some (s.textAt offset, advance s (offset + n)) := by
  have hcur : (advance s offset).de.curPos = s.de.curPos + offset :=
    s.de.advance_curPos_of_le (by omega)
  have hmemory : (advance s offset).de.memory = s.de.memory := s.de.advance_memory offset
  have hlength : (advance s offset).de.length = s.de.length := s.de.advance_length offset
  obtain ⟨text, htext⟩ := Option.isSome_iff_exists.mp (isSome_cString_iff.mpr h.2)
  have hlt := h.1
  rw [readText, BufferDeserialize.readChars_of_le (by omega) (by omega) (by omega)]
  simp only [hcur, hmemory, advance_mapped, htext, Reader.textAt, Option.map_some, Option.getD_some,
    Bool.and_true, ← advance_advance]
  rfl

theorem textReadable_iff : s.TextReadable offset ↔
    s.de.curPos + offset < s.de.length ∧
      (cString s.de.memory (s.de.curPos + offset) s.mapped).isSome := by
  rw [isSome_cString_iff]
  rfl

theorem readText_cases (hle : s.de.curPos + offset ≤ s.de.length)
    (h : readText n (advance s offset) = some (text, s')) :
    s.TextReadable offset ∧ (s'.result = false ∨ s' = advance s (offset + n)) := by
  have hcur : (advance s offset).de.curPos = s.de.curPos + offset := s.de.advance_curPos_of_le hle
  have hmemory : (advance s offset).de.memory = s.de.memory := s.de.advance_memory offset
  have hlength : (advance s offset).de.length = s.de.length := s.de.advance_length offset
  rw [readText] at h
  rw [textReadable_iff, ← advance_advance]
  obtain ⟨-, heq⟩ | ⟨hlt, -, heq⟩ | ⟨hlt, -, heq⟩ :=
    BufferDeserialize.readChars_cases (advance s offset).de n
  · rw [heq] at h
    contradiction
  all_goals
    rw [heq] at h
    rw [hcur, hlength] at hlt
    obtain ⟨_, hstring, heq'⟩ := Option.map_eq_some_iff.mp h
    obtain ⟨rfl, rfl⟩ := Prod.mk.inj heq'
    rw [hcur, hmemory, advance_mapped] at hstring
    refine ⟨⟨hlt, Option.isSome_of_eq_some hstring⟩, ?_⟩
  · exact Or.inl (Bool.and_false _)
  · simp only [Bool.and_true]
    exact Or.inr rfl

theorem readable_of_readText {α : Type} {total : ℕ} {f : List UInt8 → α} {a : α}
    (hle : s.de.curPos + offset ≤ s.de.length) (htotal : s.de.curPos + total ≤ s.de.length)
    (hresult : s.result = true) (hn : offset + n < 2 ^ 64)
    (h : (readText n (advance s offset)).map (Prod.map f id) = some (a, advance s total)) :
    offset + n = total ∧ s.TextReadable offset := by
  obtain ⟨⟨text, s'⟩, hread, heq⟩ := Option.map_eq_some_iff.mp h
  have hstate : s' = advance s total := congrArg Prod.snd heq
  obtain ⟨hreadable, hfalse | hadvance⟩ := readText_cases hle hread
  · rw [hstate, advance_result, hresult] at hfalse
    contradiction
  · rw [hstate] at hadvance
    have hlength := s.de.length_lt
    exact ⟨eq_of_advance_eq hn (by omega) hadvance.symm, hreadable⟩

section Trailing

variable {t : Block}

variable {ts : List Block} {k : ℕ}

theorem rawText_deserialize (b : RawTextInfoBlock) (hs : Holds s t.bytes) (hfits : t.Fits)
    (htype : t.infoBlockType = rawTextType) :
    b.deserialize s = (readText t.contents.length (advance s 6)).map
      (Prod.map (RawTextInfoBlock.mk t.header) id) := by
  obtain ⟨hheader, -⟩ := holds_append.mp hs
  have hn : sizeOfInt (t.header.compoundLength.toNat - 4) = t.contents.length := by
    have hcast : (t.header.compoundLength.toNat : ℤ) - 4 = t.contents.length := by
      rw [hfits.compoundLength]
      omega
    rw [hcast, sizeOfInt_natCast]
    have := hfits
    rw [Block.Fits] at this
    omega
  rw [RawTextInfoBlock.deserialize, (decodes_header b.header htype).run_bind hheader, hn]
  exact run_bind_pure _ _

theorem readUInt16_wordAt (hle : s.de.curPos + (k + 2) ≤ s.de.length) :
    (advance s k).de.readUInt16 = ((advance s k).de.advance 2, some (s.wordAt k)) := by
  have hcur : (advance s k).de.curPos = s.de.curPos + k := s.de.advance_curPos_of_le (by omega)
  have hlength : (advance s k).de.length = s.de.length := s.de.advance_length k
  obtain ⟨h, -⟩ | ⟨h, -⟩ | ⟨-, heq⟩ := BufferDeserialize.readUInt16_cases (advance s k).de
  · omega
  · omega
  · rw [heq, hcur, advance_de, BufferDeserialize.advance_memory, Reader.wordAt]

theorem run_readWord {α : Type} (hle : s.de.curPos + (k + 2) ≤ s.de.length) (old : UInt16)
    (f : UInt16 → Deserializer α) :
    (read BufferDeserialize.readUInt16 old >>= f) (advance s k) =
      f (s.wordAt k) (advance s (k + 2)) := by
  rw [run_bind_of_some (read_of_some (readUInt16_wordAt hle)), advance_advance]

theorem run_readLocalWord {α : Type} (hle : s.de.curPos + (k + 2) ≤ s.de.length)
    (f : UInt16 → Deserializer α) :
    (readLocal BufferDeserialize.readUInt16 >>= f) (advance s k) =
      f (s.wordAt k) (advance s (k + 2)) := by
  rw [run_bind_of_some (readLocal_of_some (readUInt16_wordAt hle)), advance_advance]

theorem name_deserialize (b : NameInfoBlock) (hs : Holds s t.bytes)
    (htype : t.infoBlockType = nameType) (hle : s.de.curPos + 16 ≤ s.de.length) :
    b.deserialize s = (readText (s.wordAt 14).toNat (advance s 16)).map
      (Prod.map (NameInfoBlock.mk t.header) id) := by
  obtain ⟨hheader, -⟩ := holds_append.mp hs
  rw [NameInfoBlock.deserialize, (decodes_header b.header htype).run_bind hheader,
    InfoBlock.length_bytes, run_readWord (by omega), run_readWord (by omega),
    run_readWord (by omega), run_readWord (by omega), run_readLocalWord (by omega)]
  exact run_bind_pure _ _

/-- Close to the end of the buffer the words that are still to come do not fit. -/
theorem readUInt16_short {d : BufferDeserialize} (h : d.length < d.curPos + 2 * (k + 2)) :
    d.readUInt16.1.length < d.readUInt16.1.curPos + 2 * (k + 1) := by
  obtain ⟨hge, heq⟩ | ⟨hend, heq⟩ | ⟨hle, heq⟩ := BufferDeserialize.readUInt16_cases d
  · simp only [heq]
    omega
  · rw [heq, BufferDeserialize.advance_length, d.advance_curPos_of_le (by omega)]
    omega
  · rw [heq, BufferDeserialize.advance_length, d.advance_curPos_of_le hle]
    omega

theorem readUInt16_past_end {d : BufferDeserialize} (h : d.length < d.curPos + 2) :
    d.readUInt16.2 = none := by
  obtain ⟨-, heq⟩ | ⟨-, heq⟩ | ⟨hle, -⟩ := BufferDeserialize.readUInt16_cases d
  · rw [heq]
  · rw [heq]
  · omega

theorem name_deserialize_short (b : NameInfoBlock) (hs : Holds s t.bytes)
    (htype : t.infoBlockType = nameType) (hlt : s.de.length < s.de.curPos + 16) :
    b.deserialize s = none := by
  obtain ⟨hheader, -⟩ := holds_append.mp hs
  have hcur := s.de.advance_curPos_of_le hheader.le
  rw [InfoBlock.length_bytes] at hcur
  have h₁ : (s.de.advance 6).length < (s.de.advance 6).curPos + 2 * 5 := by
    rw [hcur, BufferDeserialize.advance_length]
    omega
  have h₅ := readUInt16_past_end
    (readUInt16_short (readUInt16_short (readUInt16_short (readUInt16_short h₁))))
  rw [NameInfoBlock.deserialize, (decodes_header b.header htype).run_bind hheader, run_read,
    run_read, run_read, run_read]
  apply run_bind_of_none
  exact Option.map_eq_none_iff.mpr h₅

theorem wordAt_of_holds {xs ys : List UInt8} {value : UInt16}
    (hs : Holds s (xs ++ (word value ++ ys))) : s.wordAt xs.length = value := by
  obtain ⟨hxs, hvalue⟩ := holds_append.mp hs
  have hcontains := (holds_append.mp hvalue).1.contains
  rw [curPos_advance hxs le_rfl, advance_de, BufferDeserialize.advance_memory] at hcontains
  obtain ⟨hhi, hlo⟩ := contains_cons.mp hcontains
  rw [Reader.wordAt, hhi, (contains_cons.mp hlo).1, ofBytes_hiByte_loByte]

theorem peek_wordAt {offset : ℕ} (hle : s.de.curPos + offset + 2 ≤ s.de.length) :
    peek offset s = some (some (s.wordAt offset), s) := by
  have hlength := s.de.length_lt
  rw [peek, BufferDeserialize.peekUInt16_eq, u64_of_lt (by omega), if_pos (by omega)]
  rfl

theorem peekBlockType_run {h : InfoBlock} (hs : Holds s h.bytes) :
    peekBlockType s = some (some h.infoBlockType, s) := by
  have hle := hs.le
  rw [h.length_bytes] at hle
  have hword := wordAt_of_holds hs
  rw [length_word] at hword
  rw [peekBlockType, peek_wordAt (by omega), hword]

theorem texts_deserialize_cons {bytesLeft : ℕ} (hs : Holds s t.bytes) (hpos : 0 < bytesLeft)
    (hlt : bytesLeft < 2 ^ 64) :
    TextBlocks.fresh.deserialize bytesLeft s =
      if t.infoBlockType = rawTextType then
        (RawTextInfoBlock.fresh.deserialize s).map
          (Prod.map (fun rawText => { TextBlocks.fresh with rawText }) id)
      else if t.infoBlockType = nameType then
        (NameInfoBlock.fresh.deserialize s).map
          (Prod.map (fun name => { TextBlocks.fresh with name }) id)
      else some (.fresh, advance s bytesLeft) := by
  have htype : peekBlockType s = some (some t.infoBlockType, s) :=
    peekBlockType_run (holds_append.mp hs).1
  rw [TextBlocks.deserialize, if_pos (by omega), run_bind_of_some htype]
  simp only
  split_ifs with hraw hname
  · exact run_bind_pure _ _
  · exact run_bind_pure _ _
  · rw [sizeOfInt_natCast hlt]
    rfl

theorem length_trailing_eq_iff :
    6 + t.contents.length = ((t :: ts).flatMap Block.bytes).length ↔ ts = [] := by
  rw [List.flatMap_cons, List.length_append, t.length_bytes]
  cases ts with
  | nil => simp
  | cons t' ts =>
    rw [List.flatMap_cons, List.length_append, t'.length_bytes]
    apply iff_of_false
    · omega
    · simp

/-- The trailing blocks are consumed only if they are of these forms. -/
theorem trailingOk_of_texts {x : TextBlocks} (hs : Holds s (ts.flatMap Block.bytes))
    (hfits : ∀ t ∈ ts, t.Fits)
    (h : TextBlocks.fresh.deserialize (ts.flatMap Block.bytes).length s =
      some (x, advance s (ts.flatMap Block.bytes).length)) : s.TrailingOk ts := by
  cases ts with
  | nil => trivial
  | cons t ts =>
    have htotal := hs.le
    have hlength := s.de.length_lt
    obtain ⟨ht, -⟩ := holds_append.mp (List.flatMap_cons ▸ hs)
    have hheader := ht.le
    have hpos : 6 ≤ ((t :: ts).flatMap Block.bytes).length := by
      rw [List.flatMap_cons, List.length_append, t.length_bytes]
      omega
    have hcontents : 4 + t.contents.length < 2 ^ 16 := hfits t List.mem_cons_self
    rw [t.length_bytes] at hheader
    rw [texts_deserialize_cons ht (by omega) (by omega)] at h
    rw [Reader.TrailingOk]
    split_ifs at h ⊢ with hraw hname
    · rw [rawText_deserialize _ ht hcontents hraw, Option.map_map, Prod.map_comp_map,
        Function.comp_id] at h
      have hread := readable_of_readText (by omega) htotal hs.result (by omega) h
      exact ⟨length_trailing_eq_iff.mp hread.1, hread.2⟩
    · rcases Nat.lt_or_ge s.de.length (s.de.curPos + 16) with hshort | hle
      · rw [name_deserialize_short _ ht hname hshort] at h
        contradiction
      · have hword := (s.wordAt 14).toNat_lt
        rw [name_deserialize _ ht hname hle, Option.map_map, Prod.map_comp_map,
          Function.comp_id] at h
        exact readable_of_readText hle htotal hs.result (by omega) h

theorem texts_deserialize (hs : Holds s (ts.flatMap Block.bytes)) (hfits : ∀ t ∈ ts, t.Fits)
    (hok : s.TrailingOk ts) :
    TextBlocks.fresh.deserialize (ts.flatMap Block.bytes).length s =
      some (s.texts ts, advance s (ts.flatMap Block.bytes).length) := by
  cases ts with
  | nil =>
    rw [List.flatMap_nil, List.length_nil, advance_zero]
    rfl
  | cons t ts =>
    have htotal := hs.le
    have hlength := s.de.length_lt
    obtain ⟨ht, -⟩ := holds_append.mp (List.flatMap_cons ▸ hs)
    have hpos : 6 ≤ ((t :: ts).flatMap Block.bytes).length := by
      rw [List.flatMap_cons, List.length_append, t.length_bytes]
      omega
    rw [texts_deserialize_cons ht (by omega) (by omega), Reader.texts]
    rw [Reader.TrailingOk] at hok
    split_ifs at hok ⊢ with hraw hname
    · obtain ⟨hts, hreadable⟩ := hok
      have htotal' := (length_trailing_eq_iff (t := t)).mpr hts
      rw [rawText_deserialize _ ht (hfits t List.mem_cons_self) hraw,
        readText_of_readable (by omega) (by omega) hreadable, htotal']
      rfl
    · obtain ⟨htotal', hreadable⟩ := hok
      have hlt := hreadable.1
      rw [name_deserialize _ ht hname (by omega),
        readText_of_readable (by omega) (by omega) hreadable, htotal']
      rfl
    · rfl

end Trailing

def trailingBytes (ts : List Block) : List UInt8 := ts.flatMap Block.bytes

theorem fits_of_trailing {ts : List Block} (h : (trailingBytes ts).length < 2 ^ 16) :
    ∀ t ∈ ts, t.Fits := by
  intro t ht
  obtain ⟨before, after, rfl⟩ := List.append_of_mem ht
  rw [trailingBytes, List.flatMap_append, List.flatMap_cons, List.length_append, List.length_append,
    t.length_bytes] at h
  rw [Block.Fits]
  omega

theorem length_trailingBytes_eq_zero {ts : List Block} :
    (trailingBytes ts).length = 0 ↔ ts = [] := by
  cases ts with
  | nil => exact iff_of_true rfl rfl
  | cons t ts =>
    rw [trailingBytes, List.flatMap_cons, List.length_append, t.length_bytes]
    exact iff_of_false (by omega) (by simp)

section WithTrailing

variable {α : Type} {p : Deserializer α} {g : TextBlocks → α} {offset : ℕ} {ts : List Block}

/-- A parser that ends with the optional text consumes its block. -/
theorem run_of_trailingOk
    (hp : p s = (TextBlocks.fresh.deserialize (trailingBytes ts).length (advance s offset)).map
      (Prod.map g id))
    (hs : Holds (advance s offset) (trailingBytes ts)) (hfits : ∀ t ∈ ts, t.Fits)
    (hok : (advance s offset).TrailingOk ts) :
    p s = some (g ((advance s offset).texts ts),
      advance s (offset + (trailingBytes ts).length)) := by
  rw [hp, trailingBytes, texts_deserialize hs hfits hok, advance_advance]
  rfl

theorem exists_run_iff {Q : α → Prop} (hQ : ∀ texts, Q (g texts))
    (hp : p s = (TextBlocks.fresh.deserialize (trailingBytes ts).length (advance s offset)).map
      (Prod.map g id))
    (hs : Holds (advance s offset) (trailingBytes ts)) (hfits : ∀ t ∈ ts, t.Fits) :
    (∃ b, p s = some (b, advance s (offset + (trailingBytes ts).length)) ∧ Q b) ↔
      (advance s offset).TrailingOk ts := by
  constructor
  · rintro ⟨b, h, -⟩
    rw [hp, ← advance_advance] at h
    obtain ⟨⟨texts, s'⟩, htexts, heq⟩ := Option.map_eq_some_iff.mp h
    have hstate : s' = advance (advance s offset) (trailingBytes ts).length := congrArg Prod.snd heq
    rw [hstate] at htexts
    exact trailingOk_of_texts hs hfits htexts
  · intro hok
    exact ⟨_, run_of_trailingOk hp hs hfits hok, hQ _⟩

end WithTrailing

end Texts

end Ffado.Avc
