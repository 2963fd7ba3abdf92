import Ffado.Avc.InfoBlock

/-!
# Writing in turn

What is written to a buffer one after the other is appended as one piece, as long as there is room.
Strings need room for one byte more than they have.
-/
namespace Ffado.Avc

open Cmd

def Writer.put (w : Writer) (bytes : List UInt8) : Writer := { w with se := w.se.put bytes }

/-- With room for the bytes, and so many more, they are appended. -/
def EmitsWith (slack : ℕ) (f : Writer → Writer) (bytes : List UInt8) : Prop :=
  ∀ w : Writer, w.se.curPos + bytes.length + slack ≤ w.se.length → f w = w.put bytes

section EmitsWith

variable {slack : ℕ} {f g : Writer → Writer} {xs ys : List UInt8}

theorem emitsWith_nothing (slack : ℕ) : EmitsWith slack (fun w => w) [] := by
  intro w _
  rw [Writer.put, BufferSerialize.put_nil]

theorem EmitsWith.comp (hf : EmitsWith slack f xs) (hg : EmitsWith slack g ys) :
    EmitsWith slack (fun w => g (f w)) (xs ++ ys) := by
  intro w hroom
  rw [List.length_append] at hroom
  have hroom' : (w.put xs).se.curPos + ys.length + slack ≤ (w.put xs).se.length := by
    rw [Writer.put, BufferSerialize.put_curPos, BufferSerialize.put_length]
    omega
  change g (f w) = _
  rw [hf w (by omega), hg _ hroom', Writer.put, Writer.put, BufferSerialize.put_put]
  rfl

theorem EmitsWith.foldl {ι : Type} {f : ι → Writer → Writer} {enc : ι → List UInt8} {is : List ι}
    (h : ∀ i ∈ is, EmitsWith slack (f i) (enc i)) :
    EmitsWith slack (fun w => is.foldl (fun w i => f i w) w) (is.flatMap enc) := by
  induction is with
  | nil => exact emitsWith_nothing slack
  | cons i is ih =>
    exact (h i List.mem_cons_self).comp (ih fun j hj => h j (List.mem_cons_of_mem i hj))

end EmitsWith

/-- The result of the write is not looked at. -/
def Writer.writeByte (w : Writer) (value : UInt8) : Writer :=
  { w with se := (w.se.writeByte value).1 }

/-- The fields of an object in turn. -/
def Writer.writeBytes (w : Writer) (values : List UInt8) : Writer := values.foldl Writer.writeByte w

theorem Writer.writeBytes_result (w : Writer) (values : List UInt8) :
    (w.writeBytes values).result = w.result := by
  induction values generalizing w with
  | nil => rfl
  | cons value values ih => exact ih (w.writeByte value)

theorem emitsWith_writeByte (value : UInt8) : EmitsWith 0 (fun w => w.writeByte value) [value] := by
  intro w hroom
  change w.writeByte value = _
  rw [Writer.writeByte, BufferSerialize.writeByte,
    if_pos (w.se.isCurPosValid_iff.mpr hroom)]
  rfl

theorem emitsWith_writeBytes (values : List UInt8) :
    EmitsWith 0 (fun w => w.writeBytes values) values := by
  have h : EmitsWith 0 (fun w => w.writeBytes values) (values.flatMap fun value => [value]) :=
    EmitsWith.foldl fun value _ => emitsWith_writeByte value
  rwa [List.flatMap_singleton'] at h

def Writer.recordByte (w : Writer) (value : UInt8) : Writer :=
  ⟨(w.se.writeByte value).1, w.result && (w.se.writeByte value).2⟩

def Writer.recordBytes (w : Writer) (values : List UInt8) : Writer :=
  values.foldl Writer.recordByte w

def Writer.recordWord (w : Writer) (value : UInt16) : Writer :=
  ⟨(w.se.writeUInt16 value).1, w.result && (w.se.writeUInt16 value).2⟩

theorem Writer.recordBytes_append (w : Writer) (xs ys : List UInt8) :
    w.recordBytes (xs ++ ys) = (w.recordBytes xs).recordBytes ys :=
  List.foldl_append

theorem Writer.recordWord_eq (w : Writer) (value : UInt16) :
    w.recordWord value = w.recordBytes (word value) := by
  simp only [recordWord, word, recordBytes, List.foldl_cons, List.foldl_nil, recordByte,
    BufferSerialize.writeUInt16, BufferSerialize.writeByte]
  cases hfirst : w.se.isCurPosValid with
  | false => simp [hfirst]
  | true =>
    cases hsecond : (w.se.put [hiByte value]).isCurPosValid with
    | _ => simp [hsecond]

theorem emitsWith_recordByte (value : UInt8) :
    EmitsWith 0 (fun w => w.recordByte value) [value] := by
  intro w hroom
  change w.recordByte value = _
  rw [Writer.recordByte, BufferSerialize.writeByte, if_pos (w.se.isCurPosValid_iff.mpr hroom),
    Bool.and_true]
  rfl

theorem emitsWith_recordBytes (values : List UInt8) :
    EmitsWith 0 (fun w => w.recordBytes values) values := by
  have h : EmitsWith 0 (fun w => w.recordBytes values) (values.flatMap fun value => [value]) :=
    EmitsWith.foldl fun value _ => emitsWith_recordByte value
  rwa [List.flatMap_singleton'] at h

end Ffado.Avc
