import Ffado.Lib.LabelledRun
import Ffado.Lib.MachineInt

/-!
# The shared ring of blocks between two processes

An outward and an inward `IpcRingBuffer` share a memory of blocks. The writer announces a
written block on the ping queue, the reader holds the announced block and then sends its
acknowledgement on the pong queue. Both queues are FIFO and hold ten messages.

The two parties, the memory and the queues are one state; a step is one call of one party.
A message carries two values that the code does not have and no step looks at: its serial
number in the order of sending, and the contents of the block when it was sent.

The test for free blocks never fails: the fill is computed below the number of blocks. What
keeps the writer away from unread blocks is the capacity of the ping queue alone.
-/
namespace Ffado.Ipc

open LabelledRun MachineInt

variable {n : ℕ}

/-- `POSIX_MESSAGEQUEUE_MAX_NB_MESSAGES`. -/
def maxMessages : ℕ := 10

abbrev Block := List UInt8

structure Config where
  blocks : ℕ
  two_le_blocks : 2 ≤ blocks
  blocking : Bool

structure Message where
  idx : ℕ
  id : ℕ
  serial : ℕ
  written : Block
  deriving DecidableEq, Repr

structure Outward where
  nextBlock : ℕ
  lastBlockAck : ℕ
  idx : ℕ
  lastIdxAck : ℕ
  activity : ℕ
  requested : Bool

structure Inward where
  nextBlock : ℕ
  idx : ℕ
  held : Option Message

/-- Both parties, the shared memory and the queues, oldest message first. The ghost counters
are the number of messages sent and the serial number of the last acknowledgement. -/
structure Link where
  writer : Outward
  reader : Inward
  memory : ℕ → Block
  ping : List Message
  pong : List Message
  sent : ℕ
  acked : ℕ

def init (memory : ℕ → Block) : Link where
  writer := ⟨1, 0, 1, 0, 0, false⟩
  reader := ⟨1, 1, none⟩
  memory := memory
  ping := []
  pong := []
  sent := 0
  acked := 0

variable (cfg : Config)

def wrapBlock (id : ℕ) : ℕ := if id = cfg.blocks then 0 else id

/-- `none` if the assertion in it fails. -/
def getBufferFill (w : Outward) : Option ℕ :=
  let bufferfill : ℤ := (w.nextBlock : ℤ) - w.lastBlockAck - 1
  let bufferfill := if w.nextBlock ≤ w.lastBlockAck then bufferfill + cfg.blocks else bufferfill
  if bufferfill ≥ 0 then some bufferfill.toNat else none

inductive Event
  | requestBlockForWrite
  /-- The client of the writer stores into the block it has requested. -/
  | store (b : Block)
  | releaseBlockForWrite
  /-- One message of the loop in `notificationHandler`. -/
  | notificationHandler
  | requestBlockForRead
  | releaseBlockForRead
  deriving DecidableEq, Repr

/-- The result of a call, as far as it is one of the model. -/
inductive Result
  | ok
  | again
  | timeout
  | error
  deriving DecidableEq, Repr

/-- The answer of a message queue that is full or empty. -/
def Config.refusal : Result := if cfg.blocking then .timeout else .again

/-- A waiting call that cannot go on yet is no step. -/
def requestBlockForWrite (s : Link) : Option (Link × Result) :=
  if s.writer.requested then some (s, .error)
  else do
    let fill ← getBufferFill cfg s.writer
    if ¬ cfg.blocking ∧ (fill ≥ cfg.blocks ∨ ¬ s.ping.length < maxMessages) then
      some (s, .again)
    else if cfg.blocking ∧ fill ≥ cfg.blocks ∧ s.writer.activity = 0 then none
    else
      let activity :=
        if cfg.blocking ∧ fill ≥ cfg.blocks then s.writer.activity - 1 else s.writer.activity
      let lastBlockAck :=
        if s.writer.nextBlock = s.writer.lastBlockAck then wrapBlock cfg (s.writer.lastBlockAck + 1)
        else s.writer.lastBlockAck
      some ({ s with
        writer := { s.writer with
          lastBlockAck := lastBlockAck
          activity := activity
          requested := true } }, .ok)

def store (s : Link) (b : Block) : Option (Link × Result) :=
  if s.writer.requested then
    some ({ s with memory := Function.update s.memory s.writer.nextBlock b }, .ok)
  else none

/-- A blocking `Send` to a full queue times out, a non-blocking one is refused. Both release
the lock and leave the counters. -/
def releaseBlockForWrite (s : Link) : Option (Link × Result) :=
  if ¬ s.writer.requested then some (s, .error)
  else if ¬ s.ping.length < maxMessages then
    some ({ s with writer := { s.writer with requested := false } },
      if cfg.blocking then .timeout else .error)
  else
    let m : Message :=
      ⟨s.writer.idx, s.writer.nextBlock, s.sent + 1, s.memory s.writer.nextBlock⟩
    some ({ s with
      ping := s.ping ++ [m]
      sent := s.sent + 1
      writer := { s.writer with
        nextBlock := wrapBlock cfg (s.writer.nextBlock + 1)
        idx := u32 (s.writer.idx + 1)
        requested := false } }, .ok)

def notificationHandler (s : Link) : Option (Link × Result) :=
  match s.pong with
  | [] => some (s, .ok)
  | ack :: rest =>
    some ({ s with
      pong := rest
      acked := ack.serial
      writer := { s.writer with
        lastBlockAck := ack.id
        lastIdxAck := ack.idx
        activity := if cfg.blocking then s.writer.activity + 1 else s.writer.activity } }, .ok)

def requestBlockForRead (s : Link) : Option (Link × Result) :=
  if s.reader.held.isSome then some (s, .error)
  else
    match s.ping with
    | [] => some (s, cfg.refusal)
    | m :: rest => some ({ s with ping := rest, reader := { s.reader with held := some m } }, .ok)

/-- If the pong queue is full the block is given back without an acknowledgement. -/
def releaseBlockForRead (s : Link) : Option (Link × Result) :=
  match s.reader.held with
  | none => some (s, .error)
  | some m =>
    if ¬ s.pong.length < maxMessages then
      some ({ s with reader := { s.reader with held := none } }, cfg.refusal)
    else
      some ({ s with
        pong := s.pong ++ [m]
        reader := ⟨wrapBlock cfg (m.id + 1), u32 (m.idx + 1), none⟩ }, .ok)

def call (s : Link) : Event → Option (Link × Result)
  | .requestBlockForWrite => requestBlockForWrite cfg s
  | .store b => store s b
  | .releaseBlockForWrite => releaseBlockForWrite cfg s
  | .notificationHandler => notificationHandler cfg s
  | .requestBlockForRead => requestBlockForRead cfg s
  | .releaseBlockForRead => releaseBlockForRead cfg s

def step (s : Link) (e : Event) : Option Link := (call cfg s e).map (·.1)

/-- The block that the reader holds is as it was written with the message that named it. -/
def Integrity (s : Link) : Prop := ∀ m, s.reader.held = some m → s.memory m.id = m.written

/-- The messages that are announced or held, oldest first. -/
def Link.outstanding (s : Link) : List Message := s.reader.held.toList ++ s.ping

/-- The number of blocks from which on the capacity of the ping queue protects unread blocks.
A non-blocking writer checks for a free message first, a blocking one does not. -/
def Config.threshold : ℕ := if cfg.blocking then 12 else 11

/-- The steps up to the values that the results below depend on. -/
inductive Effect (s : Link) : Event → Link → Prop
  | keep (e : Event) : Effect s e s
  | request (w : Outward) : (cfg.blocking = false → s.ping.length < maxMessages) →
      w.nextBlock = s.writer.nextBlock → Effect s .requestBlockForWrite { s with writer := w }
  | store (b : Block) : s.writer.requested = true →
      Effect s (.store b) { s with memory := Function.update s.memory s.writer.nextBlock b }
  | fail (w : Outward) : w.nextBlock = s.writer.nextBlock → w.requested = false →
      Effect s .releaseBlockForWrite { s with writer := w }
  | send (w : Outward) (idx : ℕ) : s.ping.length < maxMessages →
      w.nextBlock = wrapBlock cfg (s.writer.nextBlock + 1) → w.requested = false →
      Effect s .releaseBlockForWrite
        { s with
          ping := s.ping ++
            [⟨idx, s.writer.nextBlock, s.sent + 1, s.memory s.writer.nextBlock⟩]
          sent := s.sent + 1
          writer := w }
  | ack (m : Message) (rest : List Message) (w : Outward) : s.pong = m :: rest →
      w.nextBlock = s.writer.nextBlock → w.requested = s.writer.requested →
      Effect s .notificationHandler { s with pong := rest, acked := m.serial, writer := w }
  | take (m : Message) (rest : List Message) : s.reader.held = none → s.ping = m :: rest →
      Effect s .requestBlockForRead
        { s with ping := rest, reader := { s.reader with held := some m } }
  | drop (m : Message) : s.reader.held = some m →
      Effect s .releaseBlockForRead { s with reader := { s.reader with held := none } }
  | release (m : Message) (r : Inward) : s.reader.held = some m → r.held = none →
      Effect s .releaseBlockForRead { s with pong := s.pong ++ [m], reader := r }

variable {cfg} {s s' : Link} {e : Event}

theorem effect_of_requestBlockForWrite {result : Result}
    (h : requestBlockForWrite cfg s = some (s', result)) :
    Effect cfg s .requestBlockForWrite s' := by
  unfold requestBlockForWrite at h
  by_cases hreq : s.writer.requested = true
  · rw [if_pos hreq] at h
    cases h
    exact .keep _
  · rw [if_neg hreq, Option.bind_eq_bind, Option.bind_eq_some_iff] at h
    obtain ⟨fill, -, h⟩ := h
    by_cases hagain : ¬ cfg.blocking ∧ (fill ≥ cfg.blocks ∨ ¬ s.ping.length < maxMessages)
    · rw [if_pos hagain] at h
      cases h
      exact .keep _
    · rw [if_neg hagain] at h
      by_cases hwait : cfg.blocking ∧ fill ≥ cfg.blocks ∧ s.writer.activity = 0
      · rw [if_pos hwait] at h
        cases h
      · rw [if_neg hwait] at h
        cases h
        refine .request _ (fun hnb => ?_) rfl
        by_contra hlen
        exact hagain ⟨by simp [hnb], Or.inr hlen⟩

theorem effect_of_releaseBlockForWrite {result : Result}
    (h : releaseBlockForWrite cfg s = some (s', result)) :
    Effect cfg s .releaseBlockForWrite s' := by
  unfold releaseBlockForWrite at h
  by_cases hreq : s.writer.requested = true
  · by_cases hlen : s.ping.length < maxMessages
    · simp only [hreq, hlen, not_true_eq_false, if_false, Option.some.injEq, Prod.mk.injEq] at h
      obtain ⟨rfl, -⟩ := h
      exact .send _ _ hlen rfl rfl
    · simp only [hreq, hlen, not_true_eq_false, not_false_eq_true, if_true, if_false,
        Option.some.injEq, Prod.mk.injEq] at h
      obtain ⟨rfl, -⟩ := h
      exact .fail _ rfl rfl
  · simp only [hreq, not_false_eq_true, if_true, Bool.false_eq_true, Option.some.injEq,
      Prod.mk.injEq] at h
    obtain ⟨rfl, -⟩ := h
    exact .keep _

theorem effect_of_step (h : step cfg s e = some s') : Effect cfg s e s' := by
  obtain ⟨⟨t, result⟩, hcall, rfl⟩ := Option.map_eq_some_iff.mp h
  cases e with
  | requestBlockForWrite => exact effect_of_requestBlockForWrite hcall
  | store b =>
    simp only [call, Ipc.store] at hcall
    split_ifs at hcall with hreq
    cases hcall
    exact .store b hreq
  | releaseBlockForWrite => exact effect_of_releaseBlockForWrite hcall
  | notificationHandler =>
    simp only [call, notificationHandler] at hcall
    split at hcall
    · cases hcall
      exact .keep _
    · rename_i ack rest hpong
      cases hcall
      exact .ack ack rest _ hpong rfl rfl
  | requestBlockForRead =>
    simp only [call, requestBlockForRead] at hcall
    split_ifs at hcall with hheld
    · cases hcall
      exact .keep _
    · split at hcall
      · cases hcall
        exact .keep _
      · rename_i m rest hping
        cases hcall
        exact .take m rest (by simpa using hheld) hping
  | releaseBlockForRead =>
    simp only [call, releaseBlockForRead] at hcall
    split at hcall
    · cases hcall
      exact .keep _
    · rename_i m hheld
      split_ifs at hcall
      · cases hcall
        exact .release m _ hheld rfl
      · cases hcall
        exact .drop m hheld

/-- The outstanding messages are the last ones sent, in order, and the acknowledgements on
their way are for older ones, in order, and newer than the last one received. -/
structure Queued (blocks sent acked : ℕ) (out pong : List Message) : Prop where
  serials : out.map (·.serial) = List.range' (sent + 1 - out.length) out.length
  acked_le : acked + out.length ≤ sent
  id_eq : ∀ m ∈ out, m.id = m.serial % blocks
  pong_sorted : pong.Pairwise (·.serial < ·.serial)
  pong_serial : ∀ m ∈ pong, acked < m.serial ∧ m.serial + out.length ≤ sent

namespace Queued

variable {blocks sent acked : ℕ} {out pong : List Message} {m : Message}

theorem serial_bounds (h : Queued blocks sent acked out pong) (hm : m ∈ out) :
    sent < m.serial + out.length ∧ m.serial ≤ sent := by
  have hmem : m.serial ∈ out.map (·.serial) := List.mem_map_of_mem hm
  have hle := h.acked_le
  rw [h.serials, List.mem_range'_1] at hmem
  omega

theorem send (h : Queued blocks sent acked out pong) (hserial : m.serial = sent + 1)
    (hid : m.id = (sent + 1) % blocks) : Queued blocks (sent + 1) acked (out ++ [m]) pong := by
  have hle := h.acked_le
  constructor
  · rw [List.map_append, h.serials, List.length_append, List.length_singleton, List.map_singleton,
      hserial]
    have hstart : sent + 1 + 1 - (out.length + 1) = sent + 1 - out.length := by omega
    rw [hstart, List.range'_1_concat]
    congr 2
    omega
  · rw [List.length_append, List.length_singleton]
    omega
  · intro a ha
    rcases List.mem_append.mp ha with ha | ha
    · exact h.id_eq a ha
    · rw [List.mem_singleton.mp ha, hid, hserial]
  · exact h.pong_sorted
  · intro a ha
    have := h.pong_serial a ha
    rw [List.length_append, List.length_singleton]
    omega

/-- The oldest outstanding message is done with, with or without an acknowledgement. -/
theorem giveBack {pong' : List Message} (h : Queued blocks sent acked (m :: out) pong)
    (hpong : pong' = pong ∨ pong' = pong ++ [m]) : Queued blocks sent acked out pong' := by
  have hser := h.serials
  have hle := h.acked_le
  rw [List.length_cons] at hle
  rw [List.length_cons, List.map_cons, List.range'_succ, List.cons.injEq] at hser
  have hold : ∀ a ∈ pong, acked < a.serial ∧ a.serial < m.serial := by
    intro a ha
    have := h.pong_serial a ha
    rw [List.length_cons] at this
    omega
  constructor
  · rw [hser.2]
    congr 1
    omega
  · omega
  · exact fun a ha => h.id_eq a (List.mem_cons_of_mem _ ha)
  · rcases hpong with rfl | rfl
    · exact h.pong_sorted
    · refine List.pairwise_append.mpr ⟨h.pong_sorted, List.pairwise_singleton _ _, ?_⟩
      intro a ha b hb
      rw [List.mem_singleton.mp hb]
      exact (hold a ha).2
  · intro a ha
    rcases hpong with rfl | rfl
    · have := hold a ha
      omega
    · rcases List.mem_append.mp ha with ha | ha
      · have := hold a ha
        omega
      · rw [List.mem_singleton.mp ha]
        omega

/-- The writer receives the oldest acknowledgement. -/
theorem ack (h : Queued blocks sent acked out (m :: pong)) :
    Queued blocks sent m.serial out pong where
  serials := h.serials
  acked_le := (h.pong_serial m List.mem_cons_self).2
  id_eq := h.id_eq
  pong_sorted := (List.pairwise_cons.mp h.pong_sorted).2
  pong_serial a ha := ⟨(List.pairwise_cons.mp h.pong_sorted).1 a ha,
    (h.pong_serial a (List.mem_cons_of_mem _ ha)).2⟩

end Queued

variable (cfg) in
/-- What holds in every run. -/
structure Ordered (s : Link) : Prop where
  nextBlock_eq : s.writer.nextBlock = (s.sent + 1) % cfg.blocks
  queued : Queued cfg.blocks s.sent s.acked s.outstanding s.pong
  ping_le : s.ping.length ≤ maxMessages
  room : s.writer.requested = true → cfg.blocking = false → s.ping.length < maxMessages

theorem ordered_init (cfg : Config) (memory : ℕ → Block) : Ordered cfg (init memory) where
  nextBlock_eq := (Nat.mod_eq_of_lt cfg.two_le_blocks).symm
  queued := ⟨rfl, le_rfl, by simp [init, Link.outstanding], List.Pairwise.nil, by simp [init]⟩
  ping_le := Nat.zero_le _
  room := by simp [init]

theorem wrapBlock_succ (cfg : Config) (n : ℕ) :
    wrapBlock cfg (n % cfg.blocks + 1) = (n + 1) % cfg.blocks := by
  have hpos : 0 < cfg.blocks := Nat.zero_lt_of_lt cfg.two_le_blocks
  have hlt := Nat.mod_lt n hpos
  unfold wrapBlock
  rw [← Nat.mod_add_mod]
  split_ifs with h
  · rw [h, Nat.mod_self]
  · exact (Nat.mod_eq_of_lt (by omega)).symm

theorem Ordered.effect (h : Ordered cfg s) (he : Effect cfg s e s') : Ordered cfg s' := by
  cases he with
  | keep => exact h
  | request w hlen hnext => exact ⟨hnext.trans h.nextBlock_eq, h.queued, h.ping_le, fun _ => hlen⟩
  | store b _ => exact ⟨h.nextBlock_eq, h.queued, h.ping_le, h.room⟩
  | fail w hnext hreq =>
    exact ⟨hnext.trans h.nextBlock_eq, h.queued, h.ping_le, by simp [hreq]⟩
  | send w idx hlen hnext hreq =>
    refine ⟨by rw [hnext, h.nextBlock_eq, wrapBlock_succ], ?_, ?_, by simp [hreq]⟩
    · have hq := h.queued.send (m := ⟨idx, s.writer.nextBlock, s.sent + 1,
        s.memory s.writer.nextBlock⟩) rfl h.nextBlock_eq
      rwa [Link.outstanding, List.append_assoc] at hq
    · rw [List.length_append, List.length_singleton]
      omega
  | ack m rest w hpong hnext hreq =>
    have hq := h.queued
    rw [hpong] at hq
    exact ⟨hnext.trans h.nextBlock_eq, hq.ack, h.ping_le, fun hr => h.room (hreq ▸ hr)⟩
  | take m rest hheld hping =>
    have hq := h.queued
    have hlen := h.ping_le
    have hroom := h.room
    rw [hping, List.length_cons] at hlen hroom
    rw [Link.outstanding, hheld, hping] at hq
    refine ⟨h.nextBlock_eq, hq, ?_, ?_⟩
    · exact (Nat.le_succ _).trans hlen
    · intro hr hnb
      exact (Nat.lt_succ_self _).trans (hroom hr hnb)
  | drop m hheld =>
    have hq := h.queued
    rw [Link.outstanding, hheld] at hq
    exact ⟨h.nextBlock_eq, hq.giveBack (Or.inl rfl), h.ping_le, h.room⟩
  | release m r hheld hr =>
    have hq := h.queued
    rw [Link.outstanding, hheld] at hq
    have hq' := hq.giveBack (Or.inr rfl)
    exact ⟨h.nextBlock_eq, by rw [Link.outstanding, hr]; exact hq', h.ping_le, h.room⟩

/-- No outstanding block has been overwritten. -/
def Intact (s : Link) : Prop := ∀ m ∈ s.outstanding, s.memory m.id = m.written

theorem Intact.integrity (h : Intact s) : Integrity s := by
  intro m hm
  exact h m (by simp [Link.outstanding, hm])

/-- The block that is next to be written is none of the outstanding ones, as long as these, or
the messages that are not yet acknowledged, are fewer than the blocks. -/
theorem Ordered.apart (h : Ordered cfg s)
    (hfew : s.outstanding.length < cfg.blocks ∨ s.sent < s.acked + cfg.blocks) :
    ∀ m ∈ s.outstanding, m.id ≠ s.writer.nextBlock := by
  intro m hm heq
  obtain ⟨hlo, hhi⟩ := h.queued.serial_bounds hm
  have hack := h.queued.acked_le
  rw [h.queued.id_eq m hm, h.nextBlock_eq] at heq
  have hdvd : cfg.blocks ∣ s.sent + 1 - m.serial := (Nat.modEq_iff_dvd' (by omega)).mp heq
  have := Nat.le_of_dvd (by omega) hdvd
  omega

/-- Only a store into an outstanding block could damage one. -/
theorem Intact.effect (h : Intact s)
    (hapart : s.writer.requested = true → ∀ m ∈ s.outstanding, m.id ≠ s.writer.nextBlock)
    (he : Effect cfg s e s') : Intact s' := by
  cases he with
  | store b hreq =>
    intro m hm
    simp only [Function.update_of_ne (hapart hreq m hm)]
    exact h m hm
  | send w idx _ _ _ =>
    intro m hm
    rw [Link.outstanding, ← List.append_assoc, List.mem_append, List.mem_singleton] at hm
    rcases hm with hm | rfl
    · exact h m hm
    · rfl
  | take m rest hheld hping =>
    intro a ha
    exact h a (by simpa [Link.outstanding, hheld, hping] using ha)
  | drop m hheld =>
    intro a ha
    exact h a (by
      simp only [Link.outstanding, Option.toList_none, List.nil_append] at ha
      simp [Link.outstanding, ha])
  | release m r hheld hr =>
    intro a ha
    exact h a (by
      simp only [Link.outstanding, hr, Option.toList_none, List.nil_append] at ha
      simp [Link.outstanding, ha])
  | _ => exact h

/-- The ping queue and the reader together have room for fewer messages than there are
blocks. -/
theorem Ordered.outstanding_lt (h : Ordered cfg s) (hblocks : cfg.threshold ≤ cfg.blocks)
    (hreq : s.writer.requested = true) : s.outstanding.length < cfg.blocks := by
  have hheld : s.reader.held.toList.length ≤ 1 := by cases s.reader.held <;> simp
  have hping := h.ping_le
  have hroom := h.room hreq
  rw [Link.outstanding, List.length_append]
  unfold Config.threshold at hblocks
  unfold maxMessages at hping hroom
  cases hb : cfg.blocking with
  | false =>
    have := hroom hb
    simp only [hb, Bool.false_eq_true, if_false] at hblocks
    omega
  | true =>
    simp only [hb, if_true] at hblocks
    omega

/-- With enough blocks no run hands out a corrupted one. -/
theorem integrity_of_threshold (hblocks : cfg.threshold ≤ cfg.blocks) {memory : ℕ → Block}
    {es : List Event} (hrun : Run (Guarded Always (step cfg)) (init memory) es s) :
    Integrity s := by
  have hinv : Ordered cfg s ∧ Intact s := by
    refine hrun.invariant (fun t => Ordered cfg t ∧ Intact t) ?_ ?_
    · rintro t e t' ⟨ho, hi⟩ ⟨-, hstep⟩
      have he := effect_of_step hstep
      exact ⟨ho.effect he,
        hi.effect (fun hreq => ho.apart (Or.inl (ho.outstanding_lt hblocks hreq))) he⟩
    · exact ⟨ordered_init cfg memory, by simp [Intact, init, Link.outstanding]⟩
  exact hinv.2.integrity

variable (cfg) in
/-- Fewer messages than blocks are without an acknowledgement when a block is requested. -/
def Acknowledged (s : Link) (e : Event) : Prop :=
  e = .requestBlockForWrite → s.sent < s.acked + cfg.blocks

variable (cfg) in
/-- A block requested for write is none whose acknowledgement is still to come: each message
that named it, or a later one, has been acknowledged. -/
def NoReuse (s : Link) : Prop :=
  s.writer.requested = true →
    ∀ n, 0 < n → n ≤ s.sent → n % cfg.blocks = s.writer.nextBlock → n ≤ s.acked

theorem Ordered.noReuse (h : Ordered cfg s)
    (hack : s.writer.requested = true → s.sent < s.acked + cfg.blocks) : NoReuse cfg s := by
  intro hreq n _ hn heq
  rw [h.nextBlock_eq] at heq
  have hdvd : cfg.blocks ∣ s.sent + 1 - n := (Nat.modEq_iff_dvd' (by omega)).mp heq
  have := Nat.le_of_dvd (by omega) hdvd
  have := hack hreq
  omega

theorem acknowledged_effect (ho : Ordered cfg s) (hguard : Acknowledged cfg s e)
    (hack : s.writer.requested = true → s.sent < s.acked + cfg.blocks)
    (he : Effect cfg s e s') : s'.writer.requested = true → s'.sent < s'.acked + cfg.blocks := by
  cases he with
  | request w _ _ => exact fun _ => hguard rfl
  | fail w _ hreq => simp [hreq]
  | send w idx _ _ hreq => simp [hreq]
  | ack m rest w hpong _ hreq =>
    intro hr
    have hserial := ho.queued.pong_serial m (by rw [hpong]; exact List.mem_cons_self)
    have := hack (hreq ▸ hr)
    change s.sent < m.serial + cfg.blocks
    omega
  | _ => exact hack

/-- A writer that waits for acknowledgements neither damages nor reuses a block. -/
theorem integrity_of_acknowledged {memory : ℕ → Block} {es : List Event}
    (hrun : Run (Guarded (Acknowledged cfg) (step cfg)) (init memory) es s) :
    Integrity s ∧ NoReuse cfg s := by
  have hinv : Ordered cfg s ∧ Intact s ∧
      (s.writer.requested = true → s.sent < s.acked + cfg.blocks) := by
    refine hrun.invariant (fun t => Ordered cfg t ∧ Intact t ∧
      (t.writer.requested = true → t.sent < t.acked + cfg.blocks)) ?_ ?_
    · rintro t e t' ⟨ho, hi, hack⟩ ⟨hguard, hstep⟩
      have he := effect_of_step hstep
      exact ⟨ho.effect he, hi.effect (fun hreq => ho.apart (Or.inr (hack hreq))) he,
        acknowledged_effect ho hguard hack he⟩
    · exact ⟨ordered_init cfg memory, by simp [Intact, init, Link.outstanding], by simp [init]⟩
  exact ⟨hinv.2.1.integrity, hinv.1.noReuse hinv.2.2⟩

def writeBlock (b : Block) : List Event := [.requestBlockForWrite, .store b, .releaseBlockForWrite]

/-- The reader holds the first block while the writer goes once around the ring. -/
def overtaking (blocks : ℕ) : List Event :=
  writeBlock [1] ++ [.requestBlockForRead] ++
    (List.replicate (blocks - 1) (writeBlock [2])).flatten ++ [.requestBlockForWrite, .store [3]]

def corrupted (s : Link) : Bool := s.reader.held.any fun m => decide (s.memory m.id ≠ m.written)

theorem not_integrity_of_corrupted (h : corrupted s = true) : ¬ Integrity s := by
  intro hint
  obtain ⟨m, hm, hne⟩ := (Option.any_eq_true _ _).mp h
  exact of_decide_eq_true hne (hint m hm)

theorem overtaking_corrupts (hblocks : cfg.blocks < cfg.threshold) :
    ∃ s, Run (Guarded Always (step cfg)) (init fun _ => []) (overtaking cfg.blocks) s ∧
      ¬ Integrity s := by
  have hrun : ((overtaking cfg.blocks).foldlM (step cfg) (init fun _ => [])).map corrupted =
      some true := by
    obtain ⟨blocks, two_le, blocking⟩ := cfg
    cases blocking <;> simp only [Config.threshold, if_true, Bool.false_eq_true,
      if_false] at hblocks
    all_goals interval_cases blocks <;> revert two_le <;> decide +kernel
  obtain ⟨s, hs, hc⟩ := exists_run_of_foldlM corrupted hrun
  exact ⟨s, hs, not_integrity_of_corrupted hc⟩

/-- The test for free blocks in `requestBlockForWrite` never fails. -/
theorem getBufferFill_lt {w : Outward} (hnext : w.nextBlock < cfg.blocks)
    (hack : w.lastBlockAck < cfg.blocks) :
    ∃ fill, getBufferFill cfg w = some fill ∧ fill < cfg.blocks := by
  simp only [getBufferFill]
  split_ifs with h1 h2 h2
  · exact ⟨_, rfl, by omega⟩
  · omega
  · exact ⟨_, rfl, by omega⟩
  · omega

variable (cfg) in
/-- Everything sent has been read, but the writer has not seen an acknowledgement. -/
structure Unseen (s : Link) (n : ℕ) : Prop where
  ordered : Ordered cfg s
  sent_eq : s.sent = n
  acked_eq : s.acked = 0
  ping_eq : s.ping = []
  held_eq : s.reader.held = none
  requested_eq : s.writer.requested = false
  lastBlockAck_lt : s.writer.lastBlockAck < cfg.blocks

theorem Unseen.nextBlock_lt (h : Unseen cfg s n) : s.writer.nextBlock < cfg.blocks := by
  rw [h.ordered.nextBlock_eq]
  exact Nat.mod_lt _ (Nat.zero_lt_of_lt cfg.two_le_blocks)

/-- The writer gets a block without an acknowledgement. -/
theorem Unseen.request (h : Unseen cfg s n) :
    ∃ ack < cfg.blocks, step cfg s .requestBlockForWrite =
      some { s with writer := { s.writer with lastBlockAck := ack, requested := true } } := by
  obtain ⟨fill, hfill, hlt⟩ := getBufferFill_lt h.nextBlock_lt h.lastBlockAck_lt
  have hge : ¬ fill ≥ cfg.blocks := by omega
  refine ⟨if s.writer.nextBlock = s.writer.lastBlockAck then
    wrapBlock cfg (s.writer.lastBlockAck + 1) else s.writer.lastBlockAck, ?_, ?_⟩
  · have := h.lastBlockAck_lt
    unfold wrapBlock
    split_ifs <;> omega
  · simp [step, call, requestBlockForWrite, h.requested_eq, hfill, hge, h.ping_eq, maxMessages]

theorem exists_giveBack (cfg : Config) {m : Message} (hheld : s.reader.held = some m) :
    ∃ s', step cfg s .releaseBlockForRead = some s' ∧ s'.sent = s.sent ∧ s'.acked = s.acked ∧
      s'.ping = s.ping ∧ s'.reader.held = none ∧ s'.writer = s.writer := by
  by_cases hlen : s.pong.length < maxMessages
  · simp [step, call, releaseBlockForRead, hheld, hlen]
  · simp [step, call, releaseBlockForRead, hheld, hlen]

/-- One more message goes through while the acknowledgements pile up or are lost. -/
theorem Unseen.round (h : Unseen cfg s n) :
    ∃ es s', Run (Guarded Always (step cfg)) s es s' ∧ Unseen cfg s' (n + 1) := by
  obtain ⟨ack, hack, hreq⟩ := h.request
  let m : Message :=
    ⟨s.writer.idx, s.writer.nextBlock, s.sent + 1, s.memory s.writer.nextBlock⟩
  let w : Outward := { s.writer with
    nextBlock := wrapBlock cfg (s.writer.nextBlock + 1)
    lastBlockAck := ack
    idx := u32 (s.writer.idx + 1)
    requested := false }
  have hrelease : step cfg
      { s with writer := { s.writer with lastBlockAck := ack, requested := true } }
      .releaseBlockForWrite = some { s with ping := [m], sent := s.sent + 1, writer := w } := by
    simp [step, call, releaseBlockForWrite, h.ping_eq, maxMessages, m, w]
  have htake : step cfg { s with ping := [m], sent := s.sent + 1, writer := w }
      .requestBlockForRead = some { s with
        ping := []
        sent := s.sent + 1
        writer := w
        reader := { s.reader with held := some m } } := by
    simp [step, call, requestBlockForRead, h.held_eq]
  obtain ⟨s', hgive, hsent, hacked, hping, hheld, hw⟩ := exists_giveBack cfg
    (s := { s with
      ping := []
      sent := s.sent + 1
      writer := w
      reader := { s.reader with held := some m } }) rfl
  have hordered := (((h.ordered.effect (effect_of_step hreq)).effect
    (effect_of_step hrelease)).effect (effect_of_step htake)).effect (effect_of_step hgive)
  refine ⟨_, s', .cons ⟨trivial, hreq⟩ (.cons ⟨trivial, hrelease⟩ (.cons ⟨trivial, htake⟩
    (.cons ⟨trivial, hgive⟩ (.nil _)))), hordered, ?_, ?_, hping, hheld, ?_, ?_⟩
  · rw [hsent, h.sent_eq]
  · rw [hacked, h.acked_eq]
  · rw [hw]
  · rw [hw]
    exact hack

theorem exists_unseen (cfg : Config) (n : ℕ) :
    ∃ es s, Run (Guarded Always (step cfg)) (init fun _ => []) es s ∧ Unseen cfg s n := by
  induction n with
  | zero =>
    refine ⟨[], _, .nil _, ordered_init cfg _, rfl, rfl, rfl, rfl, rfl, ?_⟩
    exact Nat.zero_lt_of_lt cfg.two_le_blocks
  | succ n ih =>
    obtain ⟨es, s, hrun, hs⟩ := ih
    obtain ⟨es', s', hrun', hs'⟩ := hs.round
    exact ⟨es ++ es', s', hrun.append hrun', hs'⟩

theorem exists_reuse (cfg : Config) :
    ∃ es s, Run (Guarded Always (step cfg)) (init fun _ => []) es s ∧ ¬ NoReuse cfg s := by
  obtain ⟨es, s, hrun, hs⟩ := exists_unseen cfg cfg.blocks
  obtain ⟨ack, -, hreq⟩ := hs.request
  refine ⟨es ++ [.requestBlockForWrite], _, hrun.append (.cons ⟨trivial, hreq⟩ (.nil _)), ?_⟩
  intro h
  have hblock : 1 % cfg.blocks = s.writer.nextBlock := by
    rw [hs.ordered.nextBlock_eq, hs.sent_eq, Nat.add_mod_left]
  have hle : 1 ≤ s.acked := h rfl 1 one_pos
    (by rw [hs.sent_eq]; exact Nat.le_of_succ_le cfg.two_le_blocks) hblock
  rw [hs.acked_eq] at hle
  omega

/-- Over all runs, no held block is damaged exactly if there are enough blocks for the
capacity of the ping queue, eleven for a non-blocking and twelve for a blocking writer. That no
block is reused before its acknowledgement holds over all runs for no number of blocks. Both
hold in every run in which a block is requested for write only while fewer messages than blocks
are without an acknowledgement. -/
theorem integrity_iff_threshold (cfg : Config) :
    ((∀ memory es s, Run (Guarded Always (step cfg)) (init memory) es s → Integrity s) ↔
        cfg.threshold ≤ cfg.blocks) ∧
      (¬ ∀ memory es s, Run (Guarded Always (step cfg)) (init memory) es s → NoReuse cfg s) ∧
      ∀ memory es s, Run (Guarded (Acknowledged cfg) (step cfg)) (init memory) es s →
        Integrity s ∧ NoReuse cfg s := by
  refine ⟨⟨fun hall => ?_, fun hblocks memory es s => integrity_of_threshold hblocks⟩,
    fun hall => ?_, fun memory es s => integrity_of_acknowledged⟩
  · by_contra hlt
    obtain ⟨s, hrun, hbad⟩ := overtaking_corrupts (Nat.lt_of_not_le hlt)
    exact hbad (hall _ _ _ hrun)
  · obtain ⟨es, s, hrun, hbad⟩ := exists_reuse cfg
    exact hbad (hall _ _ _ hrun)

/-- Two blocks, non-blocking: the reader holds block 1, the writer fills block 0 and is then
given block 1 again. -/
theorem two_blocks_corrupted :
    ∃ s, Run (Guarded Always (step ⟨2, le_rfl, false⟩)) (init fun _ => [])
        [.requestBlockForWrite, .store [1], .releaseBlockForWrite, .requestBlockForRead,
          .requestBlockForWrite, .store [2], .releaseBlockForWrite,
          .requestBlockForWrite, .store [3]] s ∧ ¬ Integrity s := by
  have hrun : ((overtaking 2).foldlM (step ⟨2, le_rfl, false⟩) (init fun _ => [])).map corrupted =
      some true := by decide +kernel
  obtain ⟨s, hs, hc⟩ := exists_run_of_foldlM corrupted hrun
  exact ⟨s, hs, not_integrity_of_corrupted hc⟩

/-- In every run the reader is handed each announced block once and in order: it holds the last
message that is not queued, and the queued ones follow it without a gap. -/
theorem messages_in_order {memory : ℕ → Block} {es : List Event}
    (hrun : Run (Guarded Always (step cfg)) (init memory) es s) :
    s.ping.map (·.serial) = List.range' (s.sent + 1 - s.ping.length) s.ping.length ∧
      ∀ m, s.reader.held = some m →
        m.serial + s.ping.length = s.sent ∧ m.id = m.serial % cfg.blocks := by
  have h := (hrun.invariant (Ordered cfg) (fun _ _ _ h hs => h.effect (effect_of_step hs.2))
    (ordered_init cfg memory)).queued
  obtain ⟨hserials, hle, hid, -, -⟩ := h
  cases hheld : s.reader.held with
  | none => simpa [Link.outstanding, hheld] using hserials
  | some m =>
    simp only [Link.outstanding, hheld, Option.toList_some, List.singleton_append, List.map_cons,
      List.length_cons, List.range'_succ, List.cons.injEq] at hserials hle hid
    obtain ⟨hfirst, hrest⟩ := hserials
    refine ⟨by rw [hrest]; congr 1; omega, ?_⟩
    rintro _ ⟨⟩
    exact ⟨by omega, hid m List.mem_cons_self⟩

theorem messages_in_order_held : ∃ (s : Link) (m : Message), s.reader.held = some m ∧
    m.serial + s.ping.length = s.sent := by
  have hrun : ((writeBlock [1] ++ writeBlock [2] ++ [Event.requestBlockForRead]).foldlM
      (step ⟨2, le_rfl, false⟩) (init fun _ => [])).map (fun s => s.reader.held.isSome) =
        some true := by
    decide +kernel
  obtain ⟨s, hs, hm⟩ := exists_run_of_foldlM _ hrun
  obtain ⟨m, hm⟩ := Option.isSome_iff_exists.mp hm
  exact ⟨s, m, hm, ((messages_in_order hs).2 m hm).1⟩

end Ffado.Ipc
