import Ffado.Util.CmdSerialize

/-!
# Commands written and read back

The abstract buffer takes an item just if its bytes fit behind the cursor. `BufferSerialize` does
the same except close to its end: a word loses its second byte there, a quadlet runs over the end,
and a string may not touch it. What was written is read back unless an empty string is the first or
the last thing in the buffer.
-/
namespace Ffado.Cmd

open CircularMemory LabelledRun MachineInt

def totalSize (ws : List Item) : ℕ := (ws.map Item.size).sum

def allBytes (order : ByteOrder) (ws : List Item) : List UInt8 := ws.flatMap (Item.bytes order)

@[simp] theorem length_allBytes (order : ByteOrder) (ws : List Item) :
    (allBytes order ws).length = totalSize ws := by
  induction ws with
  | nil => rfl
  | cons w ws ih =>
    rw [allBytes, List.flatMap_cons, List.length_append, Item.length_bytes]
    rw [allBytes] at ih
    rw [ih, totalSize, totalSize, List.map_cons, List.sum_cons]

/-- The cursor of a buffer that takes what fits. -/
def cursorBehind (length p : ℕ) (w : Item) : ℕ :=
  if p + w.size ≤ length then p + w.size else p

def accepted (length : ℕ) : ℕ → List Item → List Item
  | _, [] => []
  | p, w :: ws =>
    if p + w.size ≤ length then w :: accepted length (p + w.size) ws else accepted length p ws

theorem totalSize_accepted_le {length p : ℕ} (hp : p ≤ length) (ws : List Item) :
    p + totalSize (accepted length p ws) ≤ length := by
  induction ws generalizing p with
  | nil => exact hp
  | cons w ws ih =>
    rw [accepted]
    split_ifs with hfit
    · have hrest := ih hfit
      rw [totalSize, List.map_cons, List.sum_cons, ← totalSize]
      omega
    · exact ih hp

/-- No write comes upon the end of the buffer in a way that its checks miss. -/
def AwayFromEnd (length p : ℕ) : Item → Prop
  | .byte _ => True
  | .uint16 _ => p + 1 ≠ length
  | .quadlet _ => p + 4 ≤ length ∨ length ≤ p
  | .chars values => p + values.length < length ∨ (p = length ∧ values ≠ [])

instance (length p : ℕ) (w : Item) : Decidable (AwayFromEnd length p w) := by
  cases w <;> unfold AwayFromEnd <;> infer_instance

/-- An empty string has something on both sides. -/
def StrictlyInside (total p : ℕ) (w : Item) : Prop := w.size = 0 → 0 < p ∧ p < total

instance (total p : ℕ) (w : Item) : Decidable (StrictlyInside total p w) :=
  inferInstanceAs (Decidable (_ → _))

namespace BufferSerialize

variable {s : BufferSerialize} {order : ByteOrder} {w : Item}

structure WriteOk (order : ByteOrder) (s : BufferSerialize) (w : Item) : Prop where
  fits : (s.write order w).2 = true ↔ s.curPos + w.size ≤ s.length
  unchanged : (s.write order w).2 = false → (s.write order w).1 = s
  inside : (s.write order w).1.curPos ≤ s.length

theorem write_of_fits (h : AwayFromEnd s.length s.curPos w) (hfit : s.curPos + w.size ≤ s.length) :
    s.write order w = (s.put (w.bytes order), true) := by
  cases w with
  | byte value =>
    simp only [write, writeByte, isCurPosValid_iff]
    exact if_pos hfit
  | uint16 value =>
    simp only [write, writeUInt16, isCurPosValid_iff, put_curPos, put_length, put_put]
    rw [if_pos (Nat.lt_of_succ_lt hfit)]
    exact if_pos hfit
  | quadlet value =>
    simp only [write, writeQuadlet, isCurPosValid_iff]
    simp only [Item.size] at hfit
    exact if_pos (by omega)
  | chars values =>
    simp only [Item.size, AwayFromEnd] at hfit h
    have hlt : s.curPos + values.length < s.length := by
      rcases h with hlt | ⟨heq, hne⟩
      · exact hlt
      · have hlen := List.length_pos_iff.mpr hne
        omega
    simp only [write, writeChars, isCurPosValid_iff, Nat.add_sub_cancel]
    rw [if_pos (by omega), if_pos hlt]
    rfl

theorem write_of_not_fits (h : AwayFromEnd s.length s.curPos w)
    (hfit : ¬ s.curPos + w.size ≤ s.length) : s.write order w = (s, false) := by
  have hfull : ¬ s.curPos < s.length := by
    cases w with
    | byte value => exact hfit
    | _ =>
      simp only [Item.size, AwayFromEnd] at hfit h
      omega
  cases w with
  | byte value =>
    simp only [write, writeByte, isCurPosValid_iff, if_neg hfull]
  | uint16 value =>
    simp only [write, writeUInt16, isCurPosValid_iff, if_neg hfull]
  | quadlet value =>
    simp only [write, writeQuadlet, isCurPosValid_iff, if_neg hfull]
  | chars values =>
    simp only [write, writeChars, isCurPosValid_iff, if_neg hfull]

theorem writeOk_of_awayFromEnd (hpos : s.curPos ≤ s.length) (h : AwayFromEnd s.length s.curPos w) :
    WriteOk order s w := by
  by_cases hfit : s.curPos + w.size ≤ s.length
  · have heq := @write_of_fits s order w h hfit
    constructor
    · simp [heq, hfit]
    · simp [heq]
    · simpa [heq] using hfit
  · have heq := @write_of_not_fits s order w h hfit
    constructor
    · simp [heq, hfit]
    · simp [heq]
    · simpa [heq] using hpos

theorem awayFromEnd_of_writeOk (hpos : s.curPos ≤ s.length) (h : WriteOk order s w) :
    AwayFromEnd s.length s.curPos w := by
  obtain ⟨hfits, hunchanged, -⟩ := h
  cases w with
  | byte value => trivial
  | uint16 value =>
    -- the first byte is there and the second one is not
    intro hend
    have heq : s.write order (.uint16 value) = (s.put [hiByte value], false) := by
      simp only [write, writeUInt16, isCurPosValid_iff, put_curPos, put_length,
        List.length_singleton]
      rw [if_pos (by omega), if_neg (by omega)]
    have hcur := congrArg curPos (hunchanged (by rw [heq]))
    rw [heq, put_curPos, List.length_singleton] at hcur
    omega
  | quadlet value =>
    rcases Nat.lt_or_ge s.curPos s.length with hlt | hge
    · left
      apply hfits.mp
      simp only [write, writeQuadlet, isCurPosValid_iff, if_pos hlt]
    · exact Or.inr hge
  | chars values =>
    by_contra hnot
    simp only [AwayFromEnd, not_or, not_lt, not_and] at hnot
    obtain ⟨hge, hempty⟩ := hnot
    rcases Nat.lt_or_ge s.curPos s.length with hlt | hfull
    · have heq : s.write order (.chars values) =
          ({ s with curPos := s.curPos + values.length }, false) := by
        simp only [write, writeChars, isCurPosValid_iff]
        rw [if_pos hlt, if_neg (by omega)]
      have hcur := congrArg curPos (hunchanged (by rw [heq]))
      rw [heq] at hcur
      simp only at hcur
      omega
    · have heq : s.write order (.chars values) = (s, false) := by
        simp only [write, writeChars, isCurPosValid_iff]
        rw [if_neg (by omega)]
      rw [heq] at hfits
      simp only [Bool.false_eq_true, false_iff, Item.size] at hfits
      have hnil := not_not.mp (hempty (by omega))
      rw [hnil, List.length_nil] at hfits
      omega

theorem writeOk_iff (hpos : s.curPos ≤ s.length) :
    WriteOk order s w ↔ AwayFromEnd s.length s.curPos w :=
  ⟨awayFromEnd_of_writeOk hpos, writeOk_of_awayFromEnd hpos⟩

theorem along_writeOk_iff (hpos : s.curPos ≤ s.length) (ws : List Item) :
    Along (fun s w => (s.write order w).1) (WriteOk order) s ws ↔
      Along (cursorBehind s.length) (AwayFromEnd s.length) s.curPos ws := by
  apply along_iff (fun s' p => s'.length = s.length ∧ s'.curPos = p ∧ p ≤ s.length)
  · rintro s' p w - ⟨hlength, rfl, hle⟩
    rw [← hlength] at hle ⊢
    exact writeOk_iff hle
  · rintro s' p w - ⟨hlength, rfl, hle⟩ hok
    rw [← hlength] at hle
    have haway := awayFromEnd_of_writeOk hle hok
    rw [cursorBehind, ← hlength]
    split_ifs with hfit
    · rw [write_of_fits haway hfit]
      exact ⟨rfl, by rw [put_curPos, Item.length_bytes], hfit⟩
    · rw [write_of_not_fits haway hfit]
      exact ⟨rfl, rfl, hle⟩
  · exact ⟨rfl, rfl, hpos⟩

theorem writeAll_of_awayFromEnd (ws : List Item)
    (h : Along (cursorBehind s.length) (AwayFromEnd s.length) s.curPos ws) :
    s.written order ws = accepted s.length s.curPos ws ∧
      s.writeAll order ws = s.put (allBytes order (accepted s.length s.curPos ws)) := by
  induction ws generalizing s with
  | nil => exact ⟨rfl, s.put_nil.symm⟩
  | cons w ws ih =>
    obtain ⟨haway, hrest⟩ := h
    rw [written, writeAll, List.foldl_cons, ← writeAll, accepted]
    rw [cursorBehind] at hrest
    by_cases hfit : s.curPos + w.size ≤ s.length
    · rw [if_pos hfit] at hrest ⊢
      have hcur : (s.put (w.bytes order)).curPos = s.curPos + w.size := by
        rw [put_curPos, Item.length_bytes]
      obtain ⟨hwritten, hall⟩ := @ih (s.put (w.bytes order)) (by rwa [hcur])
      rw [write_of_fits haway hfit, if_pos rfl, hwritten, hall, hcur]
      exact ⟨rfl, put_put ..⟩
    · rw [if_neg hfit] at hrest ⊢
      rw [write_of_not_fits haway hfit, if_neg Bool.false_ne_true]
      exact ih hrest

/-- The items that were written are read back from the bytes that were produced, and nothing is
left. -/
def ReadsBack (order : ByteOrder) (s : BufferSerialize) (ws : List Item) : Prop :=
  ∃ d, (BufferDeserialize.create (s.writeAll order ws).memory (s.writeAll order ws).curPos).readBack
      order (s.written order ws) = some (s.written order ws, d) ∧
    d.curPos = (s.writeAll order ws).curPos

end BufferSerialize

namespace BufferDeserialize

variable {d : BufferDeserialize} {order : ByteOrder} {w : Item}

theorem readLike_of_strictlyInside (hm : Contains d.memory d.curPos (w.bytes order))
    (hle : d.curPos + w.size ≤ d.length) (h : StrictlyInside d.length d.curPos w) :
    d.readLike order w = some (w, d.advance w.size) := by
  cases w with
  | byte value => rw [readLike, readByte_of_contains hm hle, Option.map_some, Item.size]
  | uint16 value => rw [readLike, readUInt16_of_contains hm hle, Option.map_some, Item.size]
  | quadlet value => rw [readLike, readQuadlet_of_contains hm hle, Option.map_some, Item.size]
  | chars values =>
    simp only [StrictlyInside, Item.size] at h hle
    rw [readLike, readChars_of_le (by omega) (by omega) hle]
    simp only [Item.size]
    rw [show slice d.memory d.curPos values.length = values from hm]

/-- The cursor of the read of an empty string goes back by one first. -/
theorem readLike_of_not_strictlyInside (hle : d.curPos + w.size ≤ d.length)
    (h : ¬ StrictlyInside d.length d.curPos w) : d.readLike order w = none := by
  cases w with
  | chars values =>
    obtain ⟨hnil, hend⟩ := Classical.not_imp.mp h
    simp only [Item.size] at hnil
    have hlength := d.length_lt
    have hmax := sizeMax_add_one
    rw [readLike, hnil]
    obtain ⟨-, heq⟩ | ⟨-, -, heq⟩ | ⟨hlt, hback, -⟩ := readChars_cases d 0
    · rw [heq]
    · rw [heq]
    · rw [u64] at hback
      omega
  | _ => simp [StrictlyInside, Item.size] at h

theorem readBack_iff (ws : List Item) (hm : Contains d.memory d.curPos (allBytes order ws))
    (hle : d.curPos + totalSize ws ≤ d.length) :
    (∃ d', d.readBack order ws = some (ws, d') ∧ d'.curPos = d.curPos + totalSize ws) ↔
      Along (fun p w => p + w.size) (StrictlyInside d.length) d.curPos ws := by
  induction ws generalizing d with
  | nil =>
    constructor
    · intro _
      trivial
    · intro _
      exact ⟨d, rfl, rfl⟩
  | cons w ws ih =>
    rw [allBytes, List.flatMap_cons, contains_append, Item.length_bytes] at hm
    rw [totalSize, List.map_cons, List.sum_cons, ← totalSize] at hle ⊢
    have hfit : d.curPos + w.size ≤ d.length := by omega
    have hcur := d.advance_curPos_of_le hfit
    by_cases hinside : StrictlyInside d.length d.curPos w
    · have hstep := readLike_of_strictlyInside hm.1 hfit hinside
      have hrest := @ih (d.advance w.size) (by rw [hcur, advance_memory]; exact hm.2)
        (by rw [hcur, advance_length]; omega)
      rw [hcur, advance_length] at hrest
      rw [Along, and_iff_right hinside, ← hrest, Nat.add_assoc, readBack, hstep]
      simp [Option.bind_eq_some_iff]
    · have hstep := @readLike_of_not_strictlyInside d order w hfit hinside
      constructor
      · rintro ⟨d', hread, -⟩
        rw [readBack, hstep] at hread
        cases hread
      · rintro ⟨hin, -⟩
        exact absurd hin hinside

end BufferDeserialize

/-- For every buffer and every sequence of writes: each write does what it says, and the items are
read back, just if no write comes upon the end of the buffer and every empty string has something
on both sides. -/
theorem serialize_roundTrip_iff (order : ByteOrder) (memory : ℕ → UInt8) (length : Fin (2 ^ 64))
    (ws : List Item) :
    (Along (fun s w => (s.write order w).1) (BufferSerialize.WriteOk order)
        (.create memory length) ws ∧
      (BufferSerialize.create memory length).ReadsBack order ws) ↔
    Along (cursorBehind length) (AwayFromEnd length) 0 ws ∧
      Along (fun p w => p + w.size) (StrictlyInside (totalSize (accepted length 0 ws))) 0
        (accepted length 0 ws) := by
  have hwrites := @BufferSerialize.along_writeOk_iff (.create memory length) order
    (Nat.zero_le _) ws
  rw [hwrites]
  apply and_congr_right
  intro haway
  obtain ⟨hwritten, hall⟩ :=
    @BufferSerialize.writeAll_of_awayFromEnd (.create memory length) order ws haway
  have htotal := totalSize_accepted_le (Nat.zero_le (length : ℕ)) ws
  rw [Nat.zero_add] at htotal
  have hcur : ((BufferSerialize.create memory length).writeAll order ws).curPos =
      totalSize (accepted length 0 ws) := by
    rw [hall, BufferSerialize.put_curPos, length_allBytes]
    exact Nat.zero_add _
  have hlength := u64_of_lt (htotal.trans_lt length.isLt)
  have hmemory : Contains ((BufferSerialize.create memory length).writeAll order ws).memory 0
      (allBytes order (accepted length 0 ws)) := by
    rw [hall]
    exact contains_storeAt memory 0 _
  have hreads := BufferDeserialize.readBack_iff
    (d := .create ((BufferSerialize.create memory length).writeAll order ws).memory
      (totalSize (accepted length 0 ws))) (accepted length 0 ws) hmemory
    (by simp only [BufferDeserialize.create]; omega)
  simp only [BufferDeserialize.create, hlength, Nat.zero_add] at hreads
  rw [← hreads, BufferSerialize.ReadsBack, hcur, hwritten]
  simp only [BufferDeserialize.create, hlength]
  rfl

/-- A quadlet is written over the end of a buffer of two bytes. -/
theorem quadlet_overruns :
    ¬ (Along (fun s w => (s.write .littleEndian w).1) (BufferSerialize.WriteOk .littleEndian)
        (.create (fun _ => 0) 2) [.quadlet 0x01020304] ∧
      (BufferSerialize.create (fun _ => 0) 2).ReadsBack .littleEndian [.quadlet 0x01020304]) := by
  rintro ⟨⟨hok, -⟩, -⟩
  have hfits := hok.fits.mp rfl
  exact absurd hfits (by decide)

end Ffado.Cmd
