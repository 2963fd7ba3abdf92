import Ffado.Avc.PlugInfo
import Ffado.Avc.RepeatedParse
import Ffado.Avc.StreamFormat

/-!
# What a response needs

A parser of a response reads its bytes in turn, and what it has read so far tells what comes next.
So there is, for every position in front of it, the position behind the bytes that it needs; if the
frame reaches that far, all reads succeed and the parser ends there, and else some read fails.
-/
namespace Ffado.Avc

open Cmd Decoding Decoding.Cursor Deserializer Lockstep

/-- A frame in the memory of the process, which goes on up to `mapped`. Its length is an
`unsigned int`. -/
structure ResponseFrame where
  memory : ℕ → UInt8
  length : ℕ
  mapped : ℕ
  length_lt : length < 2 ^ 32
  length_le : length ≤ mapped

namespace ResponseFrame

variable (f : ResponseFrame)

def start : Reader :=
  ⟨⟨f.memory, 0, f.length, BufferDeserialize.start_lt, f.length_lt.trans (by norm_num)⟩,
    f.mapped, true⟩

def reader (p : ℕ) : Reader := advance f.start p

theorem reader_zero : f.reader 0 = f.start := advance_zero (β := UInt8) f.start

theorem reader_advance (p n : ℕ) : advance (f.reader p) n = f.reader (p + n) :=
  advance_advance (β := UInt8) f.start p n

@[simp] theorem reader_result (p : ℕ) : (f.reader p).result = true := rfl

@[simp] theorem reader_mapped (p : ℕ) : (f.reader p).mapped = f.mapped := rfl

@[simp] theorem reader_memory (p : ℕ) : (f.reader p).de.memory = f.memory :=
  BufferDeserialize.advance_memory _ _

@[simp] theorem reader_length (p : ℕ) : (f.reader p).de.length = f.length :=
  BufferDeserialize.advance_length _ _

variable {f} in
theorem reader_curPos {p : ℕ} (h : p ≤ f.length) : (f.reader p).de.curPos = p := by
  rw [reader, advance_de, f.start.de.advance_curPos_of_le (by simpa [start] using h)]
  exact Nat.zero_add p

end ResponseFrame

/-- In front of `p` the parser needs the bytes up to `next p`, and returns `value p` behind them. -/
structure ReadsTo {α : Type} (f : ResponseFrame) (q : Deserializer α) (next : ℕ → ℕ)
    (value : ℕ → α) : Prop where
  le_next : ∀ p, p ≤ next p
  keeps : Keeps Reader.Ok q
  inside : ∀ p, next p ≤ f.length → q (f.reader p) = some (value p, f.reader (next p))
  outside : ∀ p ≤ f.length, f.length < next p → ∀ a t, q (f.reader p) = some (a, t) →
    t.result = false

namespace ReadsTo

variable {α β : Type} {f : ResponseFrame} {q : Deserializer α} {next : ℕ → ℕ} {value : ℕ → α}

theorem congr {next' : ℕ → ℕ} (h : ReadsTo f q next value) (heq : ∀ p, next p = next' p) :
    ReadsTo f q next' value := by
  rwa [← funext heq]

theorem pure (f : ResponseFrame) (a : α) : ReadsTo f (Pure.pure a) id fun _ => a := by
  refine ⟨fun p => le_rfl, keeps_pure a, fun p _ => rfl, ?_⟩
  intro p hp hlt
  exact absurd hp (Nat.not_le.mpr hlt)

theorem bind {g : α → Deserializer β} {next' : α → ℕ → ℕ} {value' : α → ℕ → β}
    (h : ReadsTo f q next value) (h' : ∀ a, ReadsTo f (g a) (next' a) (value' a)) :
    ReadsTo f (q >>= g) (fun p => next' (value p) (next p)) fun p => value' (value p) (next p) := by
  refine ⟨fun p => (h.le_next p).trans ((h' _).le_next _), h.keeps.bind fun a =>
    (h' a).keeps, ?_, ?_⟩
  · intro p hp
    rw [run_bind_of_some (h.inside p (((h' _).le_next _).trans hp)), (h' _).inside _ hp]
  · intro p hp hlt c u hrun
    rcases Nat.lt_or_ge f.length (next p) with hout | hin
    · -- the failure of the first parser is kept
      obtain ⟨a, t, hq, hg⟩ := exists_of_bind hrun
      have hfalse := h.outside p hp hout a t hq
      rw [Bool.eq_false_iff]
      intro hok
      have hok' : t.result = true := (h' a).keeps t c u hg hok
      rw [hfalse] at hok'
      cases hok'
    · rw [run_bind_of_some (h.inside p hin)] at hrun
      exact (h' _).outside _ hin hlt c u hrun

theorem ite {q' : Deserializer α} {next' : ℕ → ℕ} {value' : ℕ → α} {c : Prop} [Decidable c]
    (h : ReadsTo f q next value) (h' : ReadsTo f q' next' value') :
    ReadsTo f (if c then q else q') (if c then next else next') (if c then value else value') := by
  split_ifs
  · exact h
  · exact h'

/-- A run without a failure is one whose bytes are in the frame. -/
theorem exists_ok_iff (h : ReadsTo f q next value) {p : ℕ} (hp : p ≤ f.length) :
    (∃ a t, q (f.reader p) = some (a, t) ∧ t.result = true) ↔ next p ≤ f.length := by
  constructor
  · rintro ⟨a, t, hrun, hok⟩
    by_contra hlt
    rw [h.outside p hp (Nat.lt_of_not_le hlt) a t hrun] at hok
    cases hok
  · intro hin
    exact ⟨value p, _, h.inside p hin, rfl⟩

/-- The values that a repeated parser returns. -/
def values (next : ℕ → ℕ) (value : ℕ → α) : ℕ → ℕ → List α
  | 0, _ => []
  | n + 1, p => value p :: values next value n (next p)

theorem times (h : ReadsTo f q next value) (n : ℕ) :
    ReadsTo f (Decoding.times n q) next^[n] (values next value n) := by
  induction n with
  | zero => exact ReadsTo.pure f []
  | succ n ih => exact h.bind fun a => ih.bind fun as => ReadsTo.pure f (a :: as)

end ReadsTo

section Bytes

variable (f : ResponseFrame)

theorem readByte_inside {p : ℕ} (h : p < f.length) :
    (f.reader p).de.readByte = ((f.reader p).de.advance 1, some (f.memory p)) := by
  rw [BufferDeserialize.readByte, if_pos, f.reader_memory, f.reader_curPos h.le]
  rw [BufferDeserialize.isCurPosValid_iff, f.reader_length, f.reader_curPos h.le]
  exact h

theorem readByte_end : (f.reader f.length).de.readByte = ((f.reader f.length).de, none) := by
  rw [BufferDeserialize.readByte, if_neg]
  rw [BufferDeserialize.isCurPosValid_iff, f.reader_length, f.reader_curPos le_rfl]
  exact lt_irrefl _

theorem readsTo_readMember (old : UInt8) : ReadsTo f (readMember old) (· + 1) f.memory := by
  refine ⟨fun p => Nat.le_succ p, keeps_read _ _, ?_, ?_⟩
  · intro p hp
    rw [readMember, read_of_some (readByte_inside f hp), f.reader_advance]
  · intro p hp hlt a t hrun
    obtain rfl : p = f.length := by omega
    rw [readMember, Deserializer.read, readByte_end] at hrun
    cases hrun
    rfl

theorem readsTo_readVariable : ReadsTo f readVariable (· + 1) f.memory := by
  refine ⟨fun p => Nat.le_succ p, keeps_readLocal _, ?_, ?_⟩
  · intro p hp
    rw [readVariable, readLocal_of_some (readByte_inside f hp), f.reader_advance]
  · intro p hp hlt a t hrun
    obtain rfl : p = f.length := by omega
    rw [readVariable, readLocal, readByte_end] at hrun
    cases hrun

theorem readsTo_readFive {α : Type} (mk : UInt8 → UInt8 → UInt8 → UInt8 → UInt8 → α)
    (a b c d e : UInt8) : ∃ value, ReadsTo f (readFive mk a b c d e) (· + 5) value :=
  ⟨_, (readsTo_readMember f a).bind fun _ => (readsTo_readMember f b).bind fun _ =>
    (readsTo_readMember f c).bind fun _ => (readsTo_readMember f d).bind fun _ =>
    (readsTo_readMember f e).bind fun _ => ReadsTo.pure f _⟩

end Bytes

def ResponseFrame.ended (f : ResponseFrame) : Reader := { f.reader f.length with result := false }

/-- A parser that reads its bytes and always returns, in a frame that is too short at its end. -/
structure Steady {α : Type} (f : ResponseFrame) (q : Deserializer α) (next : ℕ → ℕ)
    (value : ℕ → α) : Prop where
  readsTo : ReadsTo f q next value
  ended : ∃ a, q f.ended = some (a, f.ended)
  stops : ∀ p ≤ f.length, f.length < next p → ∃ a, q (f.reader p) = some (a, f.ended)

namespace Steady

variable {α β : Type} {f : ResponseFrame} {q : Deserializer α} {next : ℕ → ℕ} {value : ℕ → α}

theorem pure (f : ResponseFrame) (a : α) : Steady f (Pure.pure a) id fun _ => a := by
  refine ⟨ReadsTo.pure f a, ⟨a, rfl⟩, ?_⟩
  intro p hp hlt
  exact absurd hp (Nat.not_le.mpr hlt)

theorem bind {g : α → Deserializer β} {next' : α → ℕ → ℕ} {value' : α → ℕ → β}
    (h : Steady f q next value) (h' : ∀ a, Steady f (g a) (next' a) (value' a)) :
    Steady f (q >>= g) (fun p => next' (value p) (next p)) fun p => value' (value p) (next p) := by
  refine ⟨h.readsTo.bind fun a => (h' a).readsTo, ?_, ?_⟩
  · obtain ⟨a, ha⟩ := h.ended
    rw [run_bind_of_some ha]
    exact (h' a).ended
  · intro p hp hlt
    rcases Nat.lt_or_ge f.length (next p) with hout | hin
    · obtain ⟨a, ha⟩ := h.stops p hp hout
      rw [run_bind_of_some ha]
      exact (h' a).ended
    · rw [run_bind_of_some (h.readsTo.inside p hin)]
      exact (h' _).stops _ hin hlt

end Steady

theorem readMember_end (f : ResponseFrame) (old : UInt8) (result : Bool) :
    readMember old { f.reader f.length with result := result } = some (old, f.ended) := by
  rw [readMember, Deserializer.read, readByte_end, Option.isSome_none, Bool.and_false]
  rfl

theorem steady_readMember (f : ResponseFrame) (old : UInt8) :
    Steady f (readMember old) (· + 1) f.memory := by
  refine ⟨readsTo_readMember f old, ⟨old, readMember_end f old false⟩, ?_⟩
  intro p hp hlt
  obtain rfl : p = f.length := by omega
  exact ⟨old, readMember_end f old true⟩

theorem steady_readThree (f : ResponseFrame) {α : Type} (mk : UInt8 → UInt8 → UInt8 → α)
    (a b c : UInt8) : ∃ value, Steady f (readThree mk a b c) (· + 3) value :=
  ⟨_, (steady_readMember f a).bind fun _ => (steady_readMember f b).bind fun _ =>
    (steady_readMember f c).bind fun _ => Steady.pure f _⟩

end Ffado.Avc
