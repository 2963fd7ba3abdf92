import Ffado.Lib.LabelledRun
import Ffado.Util.Ringbuffer

/-!
# A reader and a writer thread on one ring

`ffado_ringbuffer_read` and `ffado_ringbuffer_write` run without a lock in two threads. A running
call is the list of the accesses it still has to make: the bytes it copies, one by one, and the
stores of its own pointer. The pointer of the other thread is loaded once, when the call begins.
-/
namespace Ffado.RingbufferThreads

open CircularMemory LabelledRun

/-- A byte copied at an address of the ring, or the own pointer stored `n` places further. Only the
writer knows the byte before the access. -/
inductive Access (β : Type)
  | byte (a : ℕ) (b : β)
  | advance (n : ℕ)
  deriving DecidableEq

variable {β : Type} {a n p q N limit : ℕ} {as : List (Access β)}

/-- A `memcpy` to or from address `a`, before the accesses `as`. -/
def copy : ℕ → List β → List (Access β) → List (Access β)
  | _, [], as => as
  | a, b :: bs, as => .byte a b :: copy (a + 1) bs as

/-- A `memcpy`, and the store of the pointer behind it. -/
def piece (a : ℕ) (bs : List β) (as : List (Access β)) : List (Access β) :=
  copy a bs (.advance bs.length :: as)

/-- The body that both calls share, with the own pointer at `ptr`. -/
def call (rb : Ringbuffer) (ptr : ℕ) (xs : ℕ → β) (freeCnt cnt : ℕ) : List (Access β) :=
  if freeCnt = 0 then []
  else
    let toCopy := if cnt > freeCnt then freeCnt else cnt
    let cnt2 := ptr + toCopy
    let n1 := if cnt2 > rb.size then rb.size - ptr else toCopy
    let n2 := if cnt2 > rb.size then cnt2 &&& rb.sizeMask else 0
    piece ptr (slice xs 0 n1)
      (if n2 ≠ 0 then piece ((ptr + n1) &&& rb.sizeMask) (slice xs n1 n2) [] else [])

/-- `accepted` collects the bytes that calls of the writer have taken on, `received` those that the
reader has copied out. -/
structure Threads where
  ring : Ringbuffer
  writer : List (Access UInt8)
  reader : List (Access Unit)
  accepted : List UInt8
  received : List UInt8

inductive Event
  | beginWrite (src : ℕ → UInt8) (cnt : ℕ)
  | write
  | beginRead (cnt : ℕ)
  | read

def writeAccess (rb : Ringbuffer) : Access UInt8 → Ringbuffer
  | .byte a b => rb.poke a (fun _ => b) 1
  | .advance n => rb.writeAdvance n

def step (s : Threads) : Event → Option Threads
  | .beginWrite src cnt =>
    if s.writer = [] then
      some { s with
        writer := call s.ring s.ring.writePtr src s.ring.writeSpace cnt
        accepted := s.accepted ++ slice src 0 (s.ring.write src cnt).2 }
    else none
  | .write =>
    match s.writer with
    | [] => none
    | access :: rest => some { s with ring := writeAccess s.ring access, writer := rest }
  | .beginRead cnt =>
    if s.reader = [] then
      some { s with reader := call s.ring s.ring.readPtr (fun _ => ()) s.ring.readSpace cnt }
    else none
  | .read =>
    match s.reader with
    | [] => none
    | .byte a _ :: rest =>
      some { s with received := s.received ++ [s.ring.buf a], reader := rest }
    | .advance n :: rest => some { s with ring := s.ring.readAdvance n, reader := rest }

def start (rb : Ringbuffer) : Threads := ⟨rb, [], [], [], []⟩

/-- The bytes that accesses copy. -/
def bytes : List (Access β) → List β
  | [] => []
  | .byte _ b :: as => b :: bytes as
  | .advance _ :: as => bytes as

@[simp] theorem bytes_piece (a : ℕ) (bs : List β) (as : List (Access β)) :
    bytes (piece a bs as) = bs ++ bytes as := by
  have hcopy : ∀ a as, bytes (copy a bs as) = bs ++ bytes as := by
    induction bs with
    | nil => exact fun _ _ => rfl
    | cons b bs ih => exact fun a as => congrArg (b :: ·) (ih (a + 1) as)
  exact hcopy a _

/-- Accesses of a thread whose pointer stands at position `p` of the stream and that has copied up
to position `q`: in order, below `limit`, and with each pointer store behind what was copied. -/
def Fits (N limit : ℕ) : ℕ → ℕ → List (Access β) → Prop
  | p, q, [] => p = q
  | p, q, .byte a _ :: as => a = q % N ∧ q < limit ∧ Fits N limit p (q + 1) as
  | p, q, .advance n :: as => p + n = q ∧ Fits N limit q q as

theorem Fits.mono {limit' : ℕ} (hle : limit ≤ limit') (h : Fits N limit p q as) :
    Fits N limit' p q as := by
  induction as generalizing p q with
  | nil => exact h
  | cons access as ih =>
    cases access with
    | byte a b => exact ⟨h.1, h.2.1.trans_le hle, ih h.2.2⟩
    | advance n => exact ⟨h.1, ih h.2⟩

theorem fits_copy {bs : List β} (ha : ∀ i < bs.length, a + i = (q + i) % N)
    (hlimit : q + bs.length ≤ limit) (h : Fits N limit p (q + bs.length) as) :
    Fits N limit p q (copy a bs as) := by
  induction bs generalizing a q with
  | nil => exact h
  | cons b bs ih =>
    rw [List.length_cons] at ha hlimit h
    refine ⟨ha 0 (by omega), by omega, ih ?_ (by omega) ?_⟩
    · intro i hi
      have := ha (i + 1) (by omega)
      rwa [Nat.add_assoc, Nat.add_assoc, Nat.add_comm 1 i]
    · rwa [Nat.add_assoc, Nat.add_comm 1 bs.length]

theorem fits_piece {xs : ℕ → β} {i : ℕ} (ha : q % N = a) (hN : a + n ≤ N) (hlimit : q + n ≤ limit)
    (h : Fits N limit (q + n) (q + n) as) : Fits N limit q q (piece a (slice xs i n) as) := by
  rw [← length_slice xs i n] at hN hlimit h
  refine fits_copy (fun k hk => ?_) hlimit ⟨rfl, h⟩
  rw [← Nat.mod_add_mod, ha, Nat.mod_eq_of_lt (by omega)]

/-- A call copies the bytes it returns the number of, up to where the other pointer lets it. -/
theorem call_spec (rb : Ringbuffer) (xs : ℕ → β) (cnt : ℕ) {space : ℕ} (hspace : space < rb.size) :
    bytes (call rb (p % rb.size) xs space cnt) = slice xs 0 (min cnt space) ∧
      Fits rb.size (p + space) p p (call rb (p % rb.size) xs space cnt) := by
  have hp := Nat.mod_lt p rb.size_pos
  have hto : (if cnt > space then space else cnt) = min cnt space := by
    split_ifs <;> omega
  simp only [call, hto, Ringbuffer.and_sizeMask]
  generalize hk : min cnt space = k
  by_cases h0 : space = 0
  · rw [if_pos h0, show k = 0 by omega]
    exact ⟨rfl, rfl⟩
  · rw [if_neg h0]
    by_cases hwrap : p % rb.size + k > rb.size
    · have hn : (p % rb.size + k) % rb.size = p % rb.size + k - rb.size := by
        rw [Nat.mod_eq_sub_mod hwrap.le, Nat.mod_eq_of_lt (by omega)]
      have hsum : k = rb.size - p % rb.size + (p % rb.size + k - rb.size) := by omega
      rw [if_pos hwrap, if_pos hwrap, hn, if_pos (by omega),
        Nat.add_sub_cancel' hp.le, Nat.mod_self]
      refine ⟨?_, fits_piece rfl (by omega) (by omega) (fits_piece ?_ (by omega) (by omega) rfl)⟩
      · conv_rhs => rw [hsum, slice_append, Nat.zero_add]
        simp [bytes]
      · rw [← Nat.mod_add_mod, Nat.add_sub_cancel' hp.le, Nat.mod_self]
    · rw [if_neg hwrap, if_neg hwrap, if_neg (by simp)]
      exact ⟨by simp [bytes], fits_piece rfl (by omega) (by omega) rfl⟩

/-- `stored` are the bytes copied into the ring since it was made, `w` and `r` the numbers of bytes
that the stores of the write and the read pointer have passed. -/
structure Delivers (s : Threads) (stored : List UInt8) (w r : ℕ) : Prop where
  accepted_eq : s.accepted = stored ++ bytes s.writer
  received_pre : s.received <+: stored
  writePtr_eq : s.ring.writePtr = w % s.ring.size
  readPtr_eq : s.ring.readPtr = r % s.ring.size
  released_le : r ≤ s.received.length
  received_le : s.received.length ≤ w
  published_le : w ≤ stored.length
  stored_lt : stored.length < r + s.ring.size
  writer : Fits s.ring.size (r + s.ring.size - 1) w stored.length s.writer
  reader : Fits s.ring.size w r s.received.length s.reader
  buf_eq : ∀ i (h : i < stored.length), r ≤ i → s.ring.buf (i % s.ring.size) = stored[i]

variable {s s' : Threads} {stored : List UInt8} {w r a' : ℕ} {b : UInt8}
  {writes : List (Access UInt8)} {reads : List (Access Unit)}

theorem Delivers.readSpace_eq (h : Delivers s stored w r) : s.ring.readSpace = w - r := by
  have h1 := h.released_le
  have h2 := h.received_le
  have h3 := h.published_le
  have h4 := h.stored_lt
  rw [s.ring.readSpace_eq_mod, h.readPtr_eq]
  apply Ringbuffer.ring_distance (Nat.mod_lt _ s.ring.size_pos) (by omega)
  rw [h.writePtr_eq, Nat.mod_add_mod, Nat.add_sub_cancel' (by omega)]

theorem Delivers.beginWrite (h : Delivers s stored w r) (hidle : s.writer = [])
    (src : ℕ → UInt8) (cnt : ℕ) :
    Delivers { s with
      writer := call s.ring s.ring.writePtr src s.ring.writeSpace cnt
      accepted := s.accepted ++ slice src 0 (s.ring.write src cnt).2 } stored w r := by
  have hsum := s.ring.readSpace_add_writeSpace
  have hread := h.readSpace_eq
  have h1 := h.released_le
  have h2 := h.received_le
  have hacc := h.accepted_eq
  have hwriter := h.writer
  rw [hidle] at hacc hwriter
  obtain ⟨hbytes, hfits⟩ := call_spec (p := w) s.ring src cnt
    (by omega : s.ring.writeSpace < s.ring.size)
  rw [← h.writePtr_eq] at hbytes hfits
  refine { h with accepted_eq := ?_, writer := ?_ }
  · rw [hacc, s.ring.write_count, hbytes]
    simp [bytes]
  · rw [← show w = stored.length from hwriter]
    exact hfits.mono (by simp only; omega)

theorem Delivers.beginRead (h : Delivers s stored w r) (hidle : s.reader = []) (cnt : ℕ) :
    Delivers { s with reader := call s.ring s.ring.readPtr (fun _ => ()) s.ring.readSpace cnt }
      stored w r := by
  have h1 := h.released_le
  have h2 := h.received_le
  have hreader := h.reader
  rw [hidle] at hreader
  have hfits := (call_spec (p := r) s.ring (fun _ => ()) cnt s.ring.readSpace_lt).2
  rw [← h.readPtr_eq] at hfits
  refine { h with reader := ?_ }
  rw [← show r = s.received.length from hreader]
  exact hfits.mono (by rw [h.readSpace_eq]; omega)

theorem mod_ne_mod {i j : ℕ} (hlt : i < j) (hj : j < i + N) : i % N ≠ j % N := by
  intro heq
  have hdvd := (Nat.modEq_iff_dvd' hlt.le).mp heq
  exact absurd (Nat.le_of_dvd (by omega) hdvd) (by omega)

/-- The cell of the byte behind the stored ones belongs to none that the reader may still copy. -/
theorem Delivers.writeByte (h : Delivers s stored w r) (hw : s.writer = .byte a b :: writes) :
    Delivers { s with ring := writeAccess s.ring (.byte a b), writer := writes } (stored ++ [b])
      w r := by
  have hacc := h.accepted_eq
  have hwriter := h.writer
  rw [hw] at hacc hwriter
  obtain ⟨ha, hlt, hrest⟩ := hwriter
  refine { h with
    accepted_eq := by simpa [bytes] using hacc
    received_pre := h.received_pre.trans (List.prefix_append _ _)
    published_le := h.published_le.trans (by simp)
    stored_lt := ?_, writer := ?_, buf_eq := ?_ }
  · simp only [List.length_append, List.length_singleton, writeAccess, Ringbuffer.poke_size]
    omega
  · simpa [writeAccess] using hrest
  · intro i hlen hi
    simp only [writeAccess, Ringbuffer.poke_size, Ringbuffer.poke_buf, memcpy, List.getElem_append]
    rw [List.length_append, List.length_singleton] at hlen
    rcases Nat.lt_succ_iff_lt_or_eq.mp hlen with hold | rfl
    · have hne : i % s.ring.size ≠ a := ha ▸ mod_ne_mod hold (by omega)
      rw [if_neg (by omega), dif_pos hold, h.buf_eq i hold hi]
    · rw [if_pos (by omega), dif_neg (by omega)]
      simp

theorem Delivers.writeAdvance (h : Delivers s stored w r) (hw : s.writer = .advance n :: writes) :
    Delivers { s with ring := writeAccess s.ring (.advance n), writer := writes } stored
      stored.length r := by
  have hacc := h.accepted_eq
  have hwriter := h.writer
  rw [hw] at hacc hwriter
  refine { h with
    accepted_eq := hacc
    writePtr_eq := ?_
    received_le := h.received_le.trans h.published_le
    published_le := le_rfl
    writer := hwriter.2
    reader := h.reader.mono h.published_le }
  simp only [writeAccess, Ringbuffer.writeAdvance_writePtr, Ringbuffer.writeAdvance_size]
  rw [h.writePtr_eq, Nat.mod_add_mod, hwriter.1]

theorem Delivers.readByte (h : Delivers s stored w r) (hr : s.reader = .byte a () :: reads) :
    Delivers { s with received := s.received ++ [s.ring.buf a], reader := reads } stored w r := by
  have hreader := h.reader
  rw [hr] at hreader
  obtain ⟨ha, hlt, hrest⟩ := hreader
  have hlen : s.received.length < stored.length := hlt.trans_le h.published_le
  have hbyte := h.buf_eq _ hlen h.released_le
  refine { h with
    received_pre := ?_, released_le := h.released_le.trans (by simp), received_le := ?_
    reader := by simpa using hrest }
  · rw [ha, hbyte]
    have hpre := List.prefix_iff_eq_take.mp h.received_pre
    rw [List.prefix_iff_eq_take, List.length_append, List.length_singleton,
      ← List.take_concat_get hlen]
    simp [← hpre]
  · simpa using hlt

theorem Delivers.readAdvance (h : Delivers s stored w r) (hr : s.reader = .advance n :: reads) :
    Delivers { s with ring := s.ring.readAdvance n, reader := reads } stored w
      s.received.length := by
  have hreader := h.reader
  rw [hr] at hreader
  have hle := h.released_le
  have hlt := h.stored_lt
  refine { h with
    readPtr_eq := ?_
    released_le := le_rfl
    stored_lt := ?_
    writer := h.writer.mono ?_
    reader := hreader.2
    buf_eq := fun i hi hr => h.buf_eq i hi (hle.trans hr) }
  · simp only [Ringbuffer.readAdvance_readPtr, Ringbuffer.readAdvance_size]
    rw [h.readPtr_eq, Nat.mod_add_mod, hreader.1]
  all_goals
    simp only [Ringbuffer.readAdvance_size]
    omega

theorem Delivers.preserved {e : Event} (h : Delivers s stored w r) (hs : step s e = some s') :
    ∃ stored' w' r', Delivers s' stored' w' r' := by
  cases e with
  | beginWrite src cnt =>
    simp only [step] at hs
    split_ifs at hs with hidle
    cases hs
    exact ⟨_, _, _, h.beginWrite hidle src cnt⟩
  | write =>
    simp only [step] at hs
    split at hs
    · cases hs
    · rename_i access rest hw
      cases hs
      cases access with
      | byte a b => exact ⟨_, _, _, h.writeByte hw⟩
      | advance n => exact ⟨_, _, _, h.writeAdvance hw⟩
  | beginRead cnt =>
    simp only [step] at hs
    split_ifs at hs with hidle
    cases hs
    exact ⟨_, _, _, h.beginRead hidle cnt⟩
  | read =>
    simp only [step] at hs
    split at hs
    · cases hs
    · rename_i hr
      cases hs
      exact ⟨_, _, _, h.readByte hr⟩
    · rename_i hr
      cases hs
      exact ⟨_, _, _, h.readAdvance hr⟩

variable {sz : ℕ} {memory : ℕ → UInt8} {rb : Ringbuffer} {es : List Event}

theorem delivers_of_run (hrb : Ringbuffer.create sz memory = some rb)
    (hrun : Run (Guarded Always step) (start rb) es s) :
    ∃ stored w r, Delivers s stored w r := by
  apply hrun.invariant (fun s => ∃ stored w r, Delivers s stored w r)
  · rintro s e s' ⟨_, _, _, h⟩ hstep
    exact h.preserved hstep.2
  · unfold Ringbuffer.create at hrb
    split at hrb <;> cases hrb
    refine ⟨[], 0, 0, ?_⟩
    constructor <;> simp [start, bytes, Fits, Ringbuffer.size_pos]

/-- Between two calls the ring holds what was accepted and not yet received. -/
theorem Delivers.contents_eq (h : Delivers s stored w r) (hw : s.writer = [])
    (hr : s.reader = []) : s.ring.contents = s.accepted.drop s.received.length := by
  have hacc := h.accepted_eq
  have hwriter := h.writer
  have hreader := h.reader
  rw [hw] at hacc hwriter
  rw [hr] at hreader
  change w = stored.length at hwriter
  change r = s.received.length at hreader
  rw [Ringbuffer.contents, h.readPtr_eq, window_mod, h.readSpace_eq, hacc, ← hreader]
  apply List.ext_getElem
  · simp [bytes, hwriter]
  · intro i hi _
    rw [length_window] at hi
    simp only [window, bytes, List.append_nil, List.getElem_map, List.getElem_range,
      List.getElem_drop]
    exact h.buf_eq _ (by omega) (by omega)

theorem Delivers.no_data_race (h : Delivers s stored w r) (hw : s.writer = .byte a b :: writes)
    (hr : s.reader = .byte a' () :: reads) : a ≠ a' := by
  have hwriter := h.writer
  have hreader := h.reader
  rw [hw] at hwriter
  rw [hr] at hreader
  have hle := h.released_le
  have hlt := hwriter.2.1
  rw [hwriter.1, hreader.1]
  exact (mod_ne_mod (hreader.2.1.trans_le h.published_le) (by omega)).symm

/-- In every order of the accesses of the two threads, the reader gets the bytes that the writer's
calls have accepted, in order and without loss. Between calls the rest is in the ring, and the
threads are never about to access the same byte. -/
theorem received_in_order (hrb : Ringbuffer.create sz memory = some rb)
    (hrun : Run (Guarded Always step) (start rb) es s) :
    s.received <+: s.accepted ∧
      (s.writer = [] → s.reader = [] → s.accepted = s.received ++ s.ring.contents) ∧
      ∀ a b writes a' reads, s.writer = .byte a b :: writes → s.reader = .byte a' () :: reads →
        a ≠ a' := by
  obtain ⟨stored, w, r, h⟩ := delivers_of_run hrb hrun
  have hpre : s.received <+: s.accepted := by
    rw [h.accepted_eq]
    exact h.received_pre.trans (List.prefix_append _ _)
  refine ⟨hpre, fun hw hr => ?_, fun _ _ _ _ _ => h.no_data_race⟩
  rw [h.contents_eq hw hr]
  exact (List.prefix_iff_eq_append.mp hpre).symm

/-- On a ring of two bytes, the second write turns around the end. -/
theorem received_in_order_turned : ∃ s : Threads, s.received = [0] ∧ s.accepted = [0, 0] ∧
    s.accepted = s.received ++ s.ring.contents := by
  let rb : Ringbuffer := ⟨fun _ => 9, 1, 0, 0, by decide, by decide, by decide, by decide⟩
  have hrb : Ringbuffer.create 2 (fun _ => 9) = some rb := rfl
  have hrun : ([.beginWrite Nat.toUInt8 5, .write, .write, .beginRead 1, .read, .read,
      .beginWrite Nat.toUInt8 1, .write, .write].foldlM step (start rb)).map (fun s => decide
        (s.received = [0] ∧ s.accepted = [0, 0] ∧ s.writer = [] ∧ s.reader = [])) = some true := by
    decide +kernel
  obtain ⟨s, hrun, hs⟩ := exists_run_of_foldlM _ hrun
  obtain ⟨hrec, hacc, hw, hr⟩ := of_decide_eq_true hs
  exact ⟨s, hrec, hacc, (received_in_order hrb hrun).2.1 hw hr⟩

end Ffado.RingbufferThreads
