import Ffado.Lib.CircularMemory
import Ffado.Lib.LabelledRun
import Mathlib.Data.Nat.Bitwise

/-!
# MIDI bytes in received AMDTP blocks

A MIDI port owns one slot of every eight events: the event whose index is congruent to the
port's location modulo eight, in the port's column. `decodeMidiPorts` goes over the ports one
after the other. It takes every MIDI byte of the column, whatever its index, through a queue
that all ports share, and hands out one byte at every eighth event. So the bytes of a port stay
its own only if nobody else sends in its column, and nothing is left in the queue when the next
port's turn comes.

The quadlets of a block are given in host byte order.
-/
namespace Ffado

open CircularMemory LabelledRun

def rxMidibufferSize : ℕ := 64

structure MidiQueue where
  midibuffer : ℕ → ℕ
  mbHead : ℕ
  mbTail : ℕ
  mbHead_lt : mbHead < rxMidibufferSize
  mbTail_lt : mbTail < rxMidibufferSize

namespace MidiQueue

variable (q : MidiQueue)

def new (memory : ℕ → ℕ) : MidiQueue := ⟨memory, 0, 0, by decide, by decide⟩

/-- The next index, as masked in the source. -/
def next (i : ℕ) : ℕ := (i + 1) &&& (rxMidibufferSize - 1)

theorem next_eq (i : ℕ) : next i = (i + 1) % rxMidibufferSize :=
  Nat.and_two_pow_sub_one_eq_mod (i + 1) 6

theorem next_lt (i : ℕ) : next i < rxMidibufferSize := by
  rw [next_eq]
  exact Nat.mod_lt _ (by decide)

/-- A full queue drops its oldest byte. -/
def push (sample : ℕ) : MidiQueue where
  midibuffer := memcpy q.midibuffer q.mbHead (fun _ => sample) 1
  mbHead := next q.mbHead
  mbTail := if next q.mbHead = q.mbTail then next q.mbTail else q.mbTail
  mbHead_lt := next_lt _
  mbTail_lt := by
    split_ifs
    · exact next_lt _
    · exact q.mbTail_lt

def pop : MidiQueue × Option ℕ :=
  if q.mbHead ≠ q.mbTail then
    ({ q with mbTail := next q.mbTail, mbTail_lt := next_lt _ }, some (q.midibuffer q.mbTail))
  else (q, none)

def count : ℕ := (q.mbHead + rxMidibufferSize - q.mbTail) % rxMidibufferSize

/-- The bytes in the queue, oldest first. -/
def contents : List ℕ := window rxMidibufferSize q.midibuffer q.mbTail q.count

@[simp] theorem length_contents : q.contents.length = q.count := length_window _ _ _ _

@[simp] theorem contents_new (memory : ℕ → ℕ) : (new memory).contents = [] := by
  simp [contents, count, new]

theorem count_eq_zero_iff : q.count = 0 ↔ q.mbHead = q.mbTail := by
  have hhead := q.mbHead_lt
  have htail := q.mbTail_lt
  unfold count rxMidibufferSize at *
  omega

theorem mbHead_eq : q.mbHead = (q.mbTail + q.count) % rxMidibufferSize := by
  have hhead := q.mbHead_lt
  have htail := q.mbTail_lt
  unfold count rxMidibufferSize at *
  omega

theorem count_push_of_lt (sample : ℕ) (h : q.count + 1 < rxMidibufferSize) :
    (q.push sample).mbTail = q.mbTail ∧ (q.push sample).count = q.count + 1 := by
  have htail := q.mbTail_lt
  have hroom : next q.mbHead ≠ q.mbTail := by
    rw [next_eq]
    unfold count rxMidibufferSize at *
    omega
  have hkept : (q.push sample).mbTail = q.mbTail := by simp [push, hroom]
  have hmoved : (q.push sample).mbHead = next q.mbHead := rfl
  unfold count at *
  rw [hkept, hmoved, next_eq]
  unfold rxMidibufferSize at *
  omega

/-- With room left a byte goes to the end. -/
theorem contents_push (sample : ℕ) (h : q.count + 1 < rxMidibufferSize) :
    (q.push sample).contents = q.contents ++ [sample] := by
  obtain ⟨htail, hcount⟩ := q.count_push_of_lt sample h
  have hstored : Stored rxMidibufferSize q.midibuffer (q.mbTail + q.count) (fun _ => sample) 1
      (q.push sample).midibuffer := by
    have hend : q.mbHead + 1 ≤ rxMidibufferSize := q.mbHead_lt
    have hcopy := stored_memcpy q.midibuffer (fun _ => sample) hend
    constructor
    · intro k hk
      have hwritten := hcopy.written k hk
      rwa [q.mbHead_eq, Nat.mod_add_mod, ← q.mbHead_eq] at hwritten
    · intro k hk hN
      have hkept := hcopy.kept k hk hN
      rwa [q.mbHead_eq, Nat.mod_add_mod, ← q.mbHead_eq] at hkept
  rw [contents, contents, htail, hcount, hstored.window_append (by omega)]
  rfl

theorem pop_of_nil (h : q.contents = []) : q.pop = (q, none) := by
  have hcount : q.count = 0 := by rw [← length_contents, h, List.length_nil]
  rw [pop, if_neg (not_not.mpr (q.count_eq_zero_iff.mp hcount))]

/-- The oldest byte leaves. -/
theorem pop_of_cons {sample : ℕ} {rest : List ℕ} (h : q.contents = sample :: rest) :
    q.pop.2 = some sample ∧ q.pop.1.contents = rest := by
  have hcount : q.count = rest.length + 1 := by rw [← length_contents, h, List.length_cons]
  have hne : q.mbHead ≠ q.mbTail := by
    intro hsame
    rw [q.count_eq_zero_iff.mpr hsame] at hcount
    omega
  have hsplit : q.contents = q.midibuffer q.mbTail ::
      window rxMidibufferSize q.midibuffer (q.mbTail + 1) rest.length := by
    have htail := q.mbTail_lt
    rw [contents, hcount, Nat.add_comm, window_append]
    simp [window, Nat.mod_eq_of_lt htail]
  rw [h, List.cons.injEq] at hsplit
  have hrest : q.pop.1.count = rest.length := by
    simp only [pop, hne, ne_eq, not_false_eq_true, if_true]
    unfold count at *
    dsimp only
    rw [next_eq]
    unfold rxMidibufferSize at *
    omega
  rw [contents, hrest]
  simp only [pop, hne, ne_eq, not_false_eq_true, if_true, next_eq, window_mod]
  exact ⟨by rw [hsplit.1], hsplit.2.symm⟩

end MidiQueue

def labelMidi1X : ℕ := 0x81

/-- `IEC61883_AM824_HAS_LABEL`. -/
def hasLabel (x label : ℕ) : Bool := decide (x &&& 0xFF000000 = label <<< 24)

def midiByte (sample : ℕ) : ℕ := (sample >>> 16) &&& 0x000000FF

/-- The byte with the flag that marks it as present. -/
def flaggedSample (sample : ℕ) : ℕ := midiByte sample ||| 0x01000000

/-- The byte that the client finds in a cell of its buffer, if there is one. -/
def presentByte (cell : ℕ) : Option ℕ :=
  if cell &&& 0xFF000000 ≠ 0 then some (cell &&& 0x000000FF) else none

theorem presentByte_flaggedSample (sample : ℕ) :
    presentByte (flaggedSample sample) = some (midiByte sample) := by
  have hlt : midiByte sample < 256 := Nat.and_lt_two_pow _ (show 0xFF < 2 ^ 8 by norm_num)
  have hall : ∀ byte < 256, presentByte (byte ||| 0x01000000) = some byte := by decide +kernel
  exact hall _ hlt

/-- An entry of the port cache. -/
structure MidiPort where
  buffer : Option (ℕ → ℕ)
  enabled : Bool
  position : ℕ
  location : ℕ

/-- The arguments of one `processReadBlock`. -/
structure MidiBlock where
  data : ℕ → ℕ
  offset : ℕ
  nevents : ℕ

structure PortLoop where
  queue : MidiQueue
  memory : ℕ → ℕ
  target : ℕ

def PortLoop.event (s : PortLoop) (sample j : ℕ) : PortLoop :=
  let queue := if hasLabel sample labelMidi1X then s.queue.push (flaggedSample sample) else s.queue
  if j % 8 = 0 then
    match queue.pop with
    | (popped, some byte) => ⟨popped, memcpy s.memory s.target (fun _ => byte) 1, s.target + 8⟩
    | (popped, none) => ⟨popped, s.memory, s.target + 8⟩
  else { s with queue := queue }

def portLoop (b : MidiBlock) (column : ℕ → ℕ) (q : MidiQueue) (memory : ℕ → ℕ) (n : ℕ) : PortLoop :=
  (List.range n).foldl (fun s j => s.event (column j) j)
    ⟨q, memcpy memory b.offset (fun _ => 0) b.nevents, b.offset⟩

def MidiPort.column (p : MidiPort) (dimension : ℕ) (b : MidiBlock) (j : ℕ) : ℕ :=
  b.data (j * dimension + p.position)

def MidiPort.decode (p : MidiPort) (dimension : ℕ) (b : MidiBlock) (q : MidiQueue) :
    MidiQueue × MidiPort :=
  match p.buffer, p.enabled with
  | some memory, true =>
    let s := portLoop b (p.column dimension b) q memory b.nevents
    (s.queue, { p with buffer := some s.memory })
  | _, _ => (q, p)

def decodePorts (dimension : ℕ) (b : MidiBlock) : MidiQueue → List MidiPort →
    MidiQueue × List MidiPort
  | q, [] => (q, [])
  | q, p :: ps =>
    let first := p.decode dimension b q
    let rest := decodePorts dimension b first.1 ps
    (rest.1, first.2 :: rest.2)

/-- What `decodeMidiPorts` uses of the stream processor. -/
structure MidiReceiver where
  dimension : ℕ
  midiPorts : List MidiPort
  queue : MidiQueue

def MidiReceiver.decodeMidiPorts (r : MidiReceiver) (b : MidiBlock) : MidiReceiver :=
  let decoded := decodePorts r.dimension b r.queue r.midiPorts
  { r with queue := decoded.1, midiPorts := decoded.2 }

/-- The bytes in the port's own slots among the first `n` events. -/
def MidiPort.carried (p : MidiPort) (dimension : ℕ) (b : MidiBlock) (n : ℕ) : List ℕ :=
  (List.range n).filterMap fun j =>
    if j % 8 = p.location % 8 ∧ hasLabel (p.column dimension b j) labelMidi1X then
      some (midiByte (p.column dimension b j))
    else none

/-- The bytes that the client finds in the first `n` cells of the block's area. -/
def bytesIn (memory : ℕ → ℕ) (b : MidiBlock) (n : ℕ) : List ℕ :=
  (slice memory b.offset n).filterMap presentByte

def MidiPort.delivered (p : MidiPort) (b : MidiBlock) : List ℕ :=
  match p.buffer with
  | some memory => bytesIn memory b b.nevents
  | none => []

/-- Only the port's own slots of its column carry bytes. -/
def MidiPort.Clean (p : MidiPort) (dimension : ℕ) (b : MidiBlock) : Prop :=
  ∀ j < b.nevents, hasLabel (p.column dimension b j) labelMidi1X → j % 8 = p.location % 8

/-- What a port's loop finds in the queue at event `j`: at most one byte, and that only between
the port's slot and the next eighth event. -/
def Waiting (location j : ℕ) (pending : List ℕ) : Prop :=
  pending.length ≤ 1 ∧ (pending ≠ [] → location % 8 ≠ 0 ∧ (j % 8 = 0 ∨ location % 8 < j % 8))

structure PortInvariant (p : MidiPort) (dimension : ℕ) (b : MidiBlock) (pending : List ℕ) (j : ℕ)
    (s : PortLoop) : Prop where
  waiting : Waiting p.location j s.queue.contents
  target_eq : s.target = b.offset + (j + 7) / 8 * 8
  cleared : ∀ i, j ≤ i → i < b.nevents → s.memory (b.offset + i) = 0
  conserved : pending.filterMap presentByte ++ p.carried dimension b j =
    bytesIn s.memory b j ++ s.queue.contents.filterMap presentByte
  recent : s.queue.contents ≠ [] → (j = 0 ∧ s.queue.contents = pending) ∨
    ∃ i < j, j ≤ i + 8 ∧ hasLabel (p.column dimension b i) labelMidi1X
  kept : ∀ i < j, hasLabel (p.column dimension b i) labelMidi1X → i % 8 ≠ 0 →
    j ≤ i / 8 * 8 + 8 → s.queue.contents ≠ []
  flagged : (∀ x ∈ pending, (presentByte x).isSome) →
    ∀ x ∈ s.queue.contents, (presentByte x).isSome

section Port

variable {p : MidiPort} {dimension : ℕ} {b : MidiBlock} {pending : List ℕ} {j : ℕ} {s : PortLoop}

variable {q : MidiQueue}

theorem bytesIn_succ (memory : ℕ → ℕ) (b : MidiBlock) (j : ℕ) :
    bytesIn memory b (j + 1) = bytesIn memory b j ++
      (presentByte (memory (b.offset + j))).toList := by
  rw [bytesIn, slice_append, List.filterMap_append]
  congr 1

theorem bytesIn_memcpy (memory : ℕ → ℕ) (b : MidiBlock) (j byte : ℕ) :
    bytesIn (memcpy memory (b.offset + j) (fun _ => byte) 1) b j = bytesIn memory b j := by
  unfold bytesIn
  congr 1
  apply slice_congr
  intro i hi
  rw [memcpy, if_neg (by omega)]

theorem carried_succ (p : MidiPort) (dimension : ℕ) (b : MidiBlock) (j : ℕ) :
    p.carried dimension b (j + 1) = p.carried dimension b j ++
      if j % 8 = p.location % 8 ∧ hasLabel (p.column dimension b j) labelMidi1X then
        [midiByte (p.column dimension b j)]
      else [] := by
  rw [MidiPort.carried, List.range_succ, List.filterMap_append]
  congr 1
  split_ifs with h <;> simp [h]

/-- When the port's slot comes up, nothing waits. -/
theorem Waiting.eq_nil {location : ℕ} (h : Waiting location j pending)
    (hslot : j % 8 = location % 8) : pending = [] := by
  by_contra hne
  obtain ⟨hloc, hlate⟩ := h.2 hne
  omega

/-- The queue after the first half of an event. -/
def PortLoop.pushed (s : PortLoop) (sample : ℕ) : MidiQueue :=
  if hasLabel sample labelMidi1X then s.queue.push (flaggedSample sample) else s.queue

/-- The state between the two halves of event `j`, when the queue is `q`. -/
structure Halfway (p : MidiPort) (dimension : ℕ) (b : MidiBlock) (pending : List ℕ) (j : ℕ)
    (q : MidiQueue) (s : PortLoop) : Prop where
  length_le : q.contents.length ≤ 1
  slot : q.contents ≠ [] → j % 8 ≠ 0 → p.location % 8 ≠ 0 ∧ p.location % 8 ≤ j % 8
  target_eq : s.target = b.offset + (j + 7) / 8 * 8
  cleared : ∀ i, j ≤ i → i < b.nevents → s.memory (b.offset + i) = 0
  conserved : pending.filterMap presentByte ++ p.carried dimension b (j + 1) =
    bytesIn s.memory b j ++ q.contents.filterMap presentByte
  recent : q.contents ≠ [] → j % 8 ≠ 0 →
    ∃ i < j + 1, j + 1 ≤ i + 8 ∧ hasLabel (p.column dimension b i) labelMidi1X
  kept : ∀ i < j + 1, hasLabel (p.column dimension b i) labelMidi1X → i % 8 ≠ 0 →
    j + 1 ≤ i / 8 * 8 + 8 → q.contents ≠ []
  flagged : (∀ x ∈ pending, (presentByte x).isSome) → ∀ x ∈ q.contents, (presentByte x).isSome

/-- A byte of the event finds the queue empty. -/
theorem PortInvariant.pushed_of_label (h : PortInvariant p dimension b pending j s)
    (hclean : p.Clean dimension b) (hj : j < b.nevents)
    (hlabel : hasLabel (p.column dimension b j) labelMidi1X = true) :
    Halfway p dimension b pending j (s.pushed (p.column dimension b j)) s := by
  have hslot := hclean j hj hlabel
  have hnil := h.waiting.eq_nil hslot
  have hcount : s.queue.count = 0 := by rw [← MidiQueue.length_contents, hnil, List.length_nil]
  have hpush : (s.pushed (p.column dimension b j)).contents =
      [flaggedSample (p.column dimension b j)] := by
    rw [PortLoop.pushed, if_pos hlabel, MidiQueue.contents_push _ _ (by rw [hcount]; decide), hnil,
      List.nil_append]
  refine ⟨by simp [hpush], ?_, h.target_eq, h.cleared, ?_, ?_, by simp [hpush], ?_⟩
  · omega
  · rw [carried_succ, ← List.append_assoc, h.conserved, if_pos ⟨hslot, hlabel⟩, hpush, hnil]
    simp [presentByte_flaggedSample]
  · intro _ _
    exact ⟨j, by omega, by omega, hlabel⟩
  · simp [hpush, presentByte_flaggedSample]

theorem PortInvariant.pushed_of_no_label (h : PortInvariant p dimension b pending j s)
    (hclean : p.Clean dimension b) (hj : j < b.nevents)
    (hlabel : ¬ hasLabel (p.column dimension b j) labelMidi1X = true) :
    Halfway p dimension b pending j (s.pushed (p.column dimension b j)) s := by
  have hsame : s.pushed (p.column dimension b j) = s.queue := if_neg hlabel
  rw [hsame]
  refine ⟨h.waiting.1, ?_, h.target_eq, h.cleared, ?_, ?_, ?_, h.flagged⟩
  · intro hne hj8
    obtain ⟨hloc, hlate⟩ := h.waiting.2 hne
    omega
  · rw [carried_succ, if_neg (fun hown => hlabel hown.2), List.append_nil, h.conserved]
  · intro hne hj8
    obtain ⟨i, hi, hrecent, hsent⟩ := (h.recent hne).resolve_left (by omega)
    have hslot := hclean i (by omega) hsent
    have hnow : j ≠ i + 8 := by
      intro heq
      exact hne (h.waiting.eq_nil (by omega))
    exact ⟨i, by omega, by omega, hsent⟩
  · intro i hi hsent hi8 hend
    rcases Nat.lt_succ_iff_lt_or_eq.mp hi with hlt | rfl
    · exact h.kept i hlt hsent hi8 (by omega)
    · exact absurd hsent hlabel

/-- A cell that stays clear counts for nothing. -/
theorem Halfway.conserved_succ (h : Halfway p dimension b pending j q s) (hj : j < b.nevents) :
    pending.filterMap presentByte ++ p.carried dimension b (j + 1) =
      bytesIn s.memory b (j + 1) ++ q.contents.filterMap presentByte := by
  rw [h.conserved, bytesIn_succ, h.cleared j le_rfl hj]
  simp [presentByte]

theorem Halfway.cleared_succ (h : Halfway p dimension b pending j q s) (i : ℕ) (hi : j + 1 ≤ i)
    (hlt : i < b.nevents) : s.memory (b.offset + i) = 0 :=
  h.cleared i (by omega) hlt

theorem Halfway.waits (h : Halfway p dimension b pending j q s) (hj : j < b.nevents)
    (hj8 : j % 8 ≠ 0) : PortInvariant p dimension b pending (j + 1) { s with queue := q } := by
  have htarget := h.target_eq
  refine ⟨⟨h.length_le, ?_⟩, ?_, h.cleared_succ, h.conserved_succ hj,
    fun hne => .inr (h.recent hne hj8), h.kept, h.flagged⟩
  · intro hne
    obtain ⟨hloc, hlate⟩ := h.slot hne hj8
    omega
  · simp only
    omega

/-- An eighth event with an empty queue leaves its cell clear. -/
theorem Halfway.skips (h : Halfway p dimension b pending j q s) (hj : j < b.nevents)
    (hj8 : j % 8 = 0) (hq : q.contents = []) :
    PortInvariant p dimension b pending (j + 1) ⟨q, s.memory, s.target + 8⟩ := by
  have htarget := h.target_eq
  refine ⟨by simp [Waiting, hq], ?_, h.cleared_succ, h.conserved_succ hj,
    fun hne => absurd hq hne, h.kept, h.flagged⟩
  simp only
  omega

/-- An eighth event hands out the byte in the queue. -/
theorem Halfway.delivers {q' : MidiQueue} {byte : ℕ} (h : Halfway p dimension b pending j q s)
    (hj8 : j % 8 = 0) (hq : q.contents = [byte]) (hq' : q'.contents = []) :
    PortInvariant p dimension b pending (j + 1)
      ⟨q', memcpy s.memory s.target (fun _ => byte) 1, s.target + 8⟩ := by
  have htarget := h.target_eq
  have hhere : s.target = b.offset + j := by omega
  refine ⟨by simp [Waiting, hq'], ?_, ?_, ?_, fun hne => absurd hq' hne, ?_, by simp [hq']⟩
  · simp only
    omega
  · intro i hi hlt
    simp only [memcpy]
    rw [if_neg (by omega)]
    exact h.cleared i (by omega) hlt
  · have hcell : memcpy s.memory (b.offset + j) (fun _ => byte) 1 (b.offset + j) = byte := by
      simp [memcpy]
    simp only [hhere]
    rw [h.conserved, bytesIn_succ, bytesIn_memcpy, hcell, hq, hq']
    cases hp : presentByte byte <;> simp [hp]
  · omega

theorem PortInvariant.step (h : PortInvariant p dimension b pending j s)
    (hclean : p.Clean dimension b) (hj : j < b.nevents) :
    PortInvariant p dimension b pending (j + 1) (s.event (p.column dimension b j) j) := by
  have hhalf : Halfway p dimension b pending j (s.pushed (p.column dimension b j)) s := by
    by_cases hlabel : hasLabel (p.column dimension b j) labelMidi1X = true
    · exact h.pushed_of_label hclean hj hlabel
    · exact h.pushed_of_no_label hclean hj hlabel
  unfold PortLoop.event
  rw [← PortLoop.pushed]
  generalize s.pushed (p.column dimension b j) = q at *
  by_cases hj8 : j % 8 = 0
  · rw [if_pos hj8]
    cases hq : q.contents with
    | nil =>
      rw [q.pop_of_nil hq]
      exact hhalf.skips hj hj8 hq
    | cons byte rest =>
      obtain rfl : rest = [] := by
        have hlen := hhalf.length_le
        rw [hq, List.length_cons] at hlen
        exact List.eq_nil_of_length_eq_zero (by omega)
      obtain ⟨hbyte, hrest⟩ := q.pop_of_cons hq
      obtain ⟨q', hpop⟩ : ∃ q', q.pop = (q', some byte) := ⟨q.pop.1, Prod.ext rfl hbyte⟩
      rw [hpop] at hrest ⊢
      exact hhalf.delivers hj8 hq hrest
  · rw [if_neg hj8]
    exact hhalf.waits hj hj8

theorem portLoop_invariant (memory : ℕ → ℕ) (hclean : p.Clean dimension b)
    (hwait : Waiting p.location 0 q.contents) : ∀ n ≤ b.nevents,
      PortInvariant p dimension b q.contents n (portLoop b (p.column dimension b) q memory n) := by
  intro n
  induction n with
  | zero =>
    intro _
    refine ⟨hwait, rfl, ?_, ?_, fun _ => .inl ⟨rfl, rfl⟩, fun i hi => absurd hi (Nat.not_lt_zero i),
      id⟩
    · intro i _ hi
      simp [portLoop, memcpy, hi]
    · simp [portLoop, MidiPort.carried, bytesIn]
  | succ n ih =>
    intro hn
    have hstep := (ih (by omega)).step hclean (by omega)
    rw [portLoop, List.range_succ, List.foldl_append]
    exact hstep

/-- The port's part of the loop is executed. -/
def MidiPort.Active (p : MidiPort) : Prop := p.buffer.isSome ∧ p.enabled = true

instance (p : MidiPort) : Decidable p.Active := inferInstanceAs (Decidable (_ ∧ _))

/-- The last eight events leave no byte of the port in the queue. -/
def MidiPort.Drained (p : MidiPort) (dimension : ℕ) (b : MidiBlock) : Prop :=
  p.location % 8 = 0 ∨
    ∀ j < b.nevents, b.nevents ≤ j + 8 → hasLabel (p.column dimension b j) labelMidi1X = false

theorem MidiPort.decode_of_not_active (h : ¬ p.Active) (q : MidiQueue) :
    p.decode dimension b q = (q, p) := by
  unfold decode
  split
  · rename_i memory hbuffer henabled
    exact absurd ⟨by rw [hbuffer]; rfl, henabled⟩ h
  · rfl

structure Turn (p : MidiPort) (dimension : ℕ) (b : MidiBlock) (q q' : MidiQueue) (p' : MidiPort) :
    Prop where
  waiting : Waiting p.location 0 q'.contents
  conserved : q.contents.filterMap presentByte ++ p.carried dimension b b.nevents =
    p'.delivered b ++ q'.contents.filterMap presentByte
  recent : q'.contents ≠ [] → (b.nevents = 0 ∧ q'.contents = q.contents) ∨
    ∃ i < b.nevents, b.nevents ≤ i + 8 ∧ hasLabel (p.column dimension b i) labelMidi1X
  kept : ∀ i < b.nevents, hasLabel (p.column dimension b i) labelMidi1X → i % 8 ≠ 0 →
    b.nevents ≤ i / 8 * 8 + 8 → q'.contents ≠ []
  flagged : (∀ x ∈ q.contents, (presentByte x).isSome) →
    ∀ x ∈ q'.contents, (presentByte x).isSome

theorem MidiPort.decode_of_active (p : MidiPort) (dimension : ℕ) (b : MidiBlock) (h : p.Active)
    (q : MidiQueue) :
    ∃ memory, p.decode dimension b q =
      ((portLoop b (p.column dimension b) q memory b.nevents).queue, { p with
        buffer := some (portLoop b (p.column dimension b) q memory b.nevents).memory }) := by
  obtain ⟨memory, hbuffer⟩ := Option.isSome_iff_exists.mp h.1
  exact ⟨memory, by simp [decode, hbuffer, h.2]⟩

theorem MidiPort.decode_turn (h : p.Active) (hclean : p.Clean dimension b)
    (hwait : Waiting p.location 0 q.contents) :
    Turn p dimension b q (p.decode dimension b q).1 (p.decode dimension b q).2 := by
  obtain ⟨memory, hdecode⟩ := p.decode_of_active dimension b h q
  have hinv := portLoop_invariant memory hclean hwait b.nevents le_rfl
  rw [hdecode]
  generalize portLoop b (p.column dimension b) q memory b.nevents = s at *
  have hend : Waiting p.location 0 s.queue.contents := by
    refine ⟨hinv.waiting.1, ?_⟩
    intro hne
    exact ⟨(hinv.waiting.2 hne).1, .inl rfl⟩
  exact ⟨hend, hinv.conserved, hinv.recent, hinv.kept, hinv.flagged⟩

theorem Turn.drained {q' : MidiQueue} {p' : MidiPort} (h : Turn p dimension b q q' p')
    (hdrained : p.Drained dimension b) (hnil : q.contents = []) : q'.contents = [] := by
  by_contra hne
  rcases hdrained with hloc | hquiet
  · exact (h.waiting.2 hne).1 hloc
  · rcases h.recent hne with ⟨-, hsame⟩ | ⟨i, hi, hrecent, hsent⟩
    · exact hne (hsame.trans hnil)
    · rw [hquiet i hi hrecent] at hsent
      cases hsent

/-- Only the memory behind the client's pointer changes. -/
theorem MidiPort.decode_snd (p : MidiPort) (dimension : ℕ) (b : MidiBlock) (q : MidiQueue) :
    ∃ buffer, (p.decode dimension b q).2 = { p with buffer := buffer } ∧
      buffer.isSome = p.buffer.isSome := by
  unfold decode
  split
  · rename_i memory hbuffer _
    exact ⟨_, rfl, by rw [hbuffer]; rfl⟩
  · exact ⟨p.buffer, rfl, rfl⟩

end Port

section Ports

variable (dimension : ℕ) (b : MidiBlock)

variable {ports : List MidiPort}

/-- At most one port is served. -/
def Lone (ports : List MidiPort) : Prop := ports.countP (fun p => decide p.Active) ≤ 1

theorem decodePorts_of_not_active (h : ∀ p ∈ ports, ¬ p.Active) (q : MidiQueue) :
    decodePorts dimension b q ports = (q, ports) := by
  induction ports with
  | nil => rfl
  | cons p ps ih =>
    obtain ⟨hp, hps⟩ := List.forall_mem_cons.mp h
    simp only [decodePorts, p.decode_of_not_active hp, ih hps]

/-- Every cache entry keeps all but the memory behind its buffer. -/
theorem decodePorts_snd (q : MidiQueue) (ports : List MidiPort) :
    List.Forall₂ (fun p p' => ∃ buffer, p' = { p with buffer := buffer } ∧
      buffer.isSome = p.buffer.isSome) ports (decodePorts dimension b q ports).2 := by
  induction ports generalizing q with
  | nil => exact .nil
  | cons p ps ih => exact .cons (p.decode_snd dimension b q) (ih _)

/-- If no port leaves a byte, every port gets just what it was sent. -/
theorem decodePorts_drained {q : MidiQueue}
    (hports : ∀ p ∈ ports, p.Active → p.Clean dimension b ∧ p.Drained dimension b)
    (hnil : q.contents = []) :
    (decodePorts dimension b q ports).1.contents = [] ∧
      List.Forall₂ (fun p p' => p.Active → p.carried dimension b b.nevents = p'.delivered b) ports
        (decodePorts dimension b q ports).2 := by
  induction ports generalizing q with
  | nil => exact ⟨hnil, .nil⟩
  | cons p ps ih =>
    obtain ⟨hp, hps⟩ := List.forall_mem_cons.mp hports
    by_cases hactive : p.Active
    · obtain ⟨hclean, hdrained⟩ := hp hactive
      have hturn := p.decode_turn (q := q) hactive hclean (by simp [Waiting, hnil])
      have hleft := hturn.drained hdrained hnil
      obtain ⟨hrest, hforall⟩ := ih hps hleft
      refine ⟨hrest, .cons ?_ hforall⟩
      intro _
      simpa [hnil, hleft] using hturn.conserved
    · obtain ⟨hrest, hforall⟩ := ih hps hnil
      simp only [decodePorts, p.decode_of_not_active hactive]
      exact ⟨hrest, .cons (fun h => absurd h hactive) hforall⟩

/-- A port that is served alone may leave its last byte for its next turn. -/
theorem decodePorts_lone {q : MidiQueue} (hlone : Lone ports)
    (hports : ∀ p ∈ ports, p.Active → p.Clean dimension b ∧ Waiting p.location 0 q.contents) :
    List.Forall₂ (fun p p' => p.Active →
      Turn p dimension b q (decodePorts dimension b q ports).1 p') ports
        (decodePorts dimension b q ports).2 := by
  induction ports with
  | nil => exact .nil
  | cons p ps ih =>
    obtain ⟨hp, hps⟩ := List.forall_mem_cons.mp hports
    by_cases hactive : p.Active
    · have hothers : ∀ p' ∈ ps, ¬ p'.Active := by
        have hcount : ps.countP (fun p => decide p.Active) = 0 := by
          simpa [Lone, List.countP_cons, hactive] using hlone
        simpa [List.countP_eq_zero] using hcount
      obtain ⟨hclean, hwait⟩ := hp hactive
      simp only [decodePorts, decodePorts_of_not_active dimension b hothers]
      refine .cons (fun _ => p.decode_turn hactive hclean hwait) ?_
      rw [List.forall₂_same]
      intro p' hp' hactive'
      exact absurd hactive' (hothers p' hp')
    · have hlone' : Lone ps := by simpa [Lone, List.countP_cons, hactive] using hlone
      simp only [decodePorts, p.decode_of_not_active hactive]
      exact .cons (fun h => absurd h hactive) (ih hlone' hps)

theorem exists_getElem?_of_forall₂ {α β : Type*} {R : α → β → Prop} {l : List α} {l' : List β}
    (h : List.Forall₂ R l l') {i : ℕ} {y : β} (hy : l'[i]? = some y) :
    ∃ x, l[i]? = some x ∧ R x y := by
  induction h generalizing i with
  | nil => simp at hy
  | @cons x y' l l' hR _ ih =>
    cases i with
    | zero =>
      obtain rfl : y' = y := by simpa using hy
      exact ⟨x, rfl, hR⟩
    | succ i => exact ih (by simpa using hy)

end Ports

end Ffado
