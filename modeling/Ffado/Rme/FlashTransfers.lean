import Ffado.Rme.SettingsRoundTrip

/-!
# Transfers from and to the flash of the Fireface devices

The flash of the FF400 is reached by commands that take some time, and the FF800 is busy for a time
when a sector has been written or a block erased. The driver polls a status register until the
device is ready again, 25 times at most. What is done in which order is kept in a log.
-/
namespace Ffado.Rme

open ChunkedTransfer CircularMemory

inductive FlashCommand
  | read (addr nQuads : ℕ)
  | write (addr : ℕ) (data : List Quadlet)
  | erase (addr : ℕ) (data : Quadlet)
  deriving DecidableEq

inductive FlashEvent
  | command (c : FlashCommand)
  | waited (ready : Bool)
  | resultRead
  deriving DecidableEq

/-- What the device answers: which accesses succeed, the states that it reports during a wait, poll
by poll, and what is in its result buffer if a command is not complete. -/
structure FlashBus where
  ok : ℕ → Bool
  status : ℕ → ℕ → Quadlet
  unfinished : ℕ → ℕ → Quadlet

structure FlashRun where
  accesses : ℕ
  waits : ℕ
  addr : ℕ
  target : ℕ
  buf : ℕ → Quadlet
  log : List FlashEvent

def maxFlashBusyRetries : ℕ := 25

def Model.isReady (model : Model) (status : Quadlet) : Bool :=
  match model with
  | .fireface400 => status = 0
  | .fireface800 => status &&& 0x40000000 ≠ 0

/-- Addresses in the flash are of type `quadlet_t` or `fb_nodeaddr_t`. -/
def Model.addressSpace : Model → ℕ
  | .fireface400 => 2 ^ 32
  | .fireface800 => 2 ^ 64

namespace FlashBus

variable (bus : FlashBus) (d : Device)

/-- The polls that are left. -/
def waitLoop (wait : ℕ) : ℕ → ℕ → Bool
  | 0, _ => false
  | retries + 1, i => if d.model.isReady (bus.status wait i) then true
      else waitLoop wait retries (i + 1)

def waitWhileBusy (wait : ℕ) : Bool := bus.waitLoop d wait maxFlashBusyRetries 0

def readSector (flash : ℕ → Quadlet) (xferSize : ℕ) (s : FlashRun) : FlashRun × Bool :=
  let ok := bus.ok s.accesses
  ({ s with
    accesses := s.accesses + 1
    addr := (s.addr + xferSize * 4) % 2 ^ 64
    target := s.target + xferSize
    buf := if ok then
        memcpy s.buf s.target (fun i => d.byteSwapFromDevice32 (flash (s.addr + 4 * i))) xferSize
      else s.buf }, ok)

/-- On the FF400 address and size are set, the command is issued, and the result is read. The result
of the wait is dropped. -/
def readBounced (flash : ℕ → Quadlet) (xferSize : ℕ) (s : FlashRun) : FlashRun × Bool :=
  let issued := bus.ok s.accesses && bus.ok (s.accesses + 1)
  let ready := bus.waitWhileBusy d s.waits
  let result := if issued && ready then fun i => flash (s.addr + 4 * i) else bus.unfinished s.waits
  let fetched := bus.ok (s.accesses + 2)
  ({ accesses := s.accesses + 3
     waits := if issued then s.waits + 1 else s.waits
     addr := (s.addr + xferSize * 4) % 2 ^ 32
     target := s.target + xferSize
     buf := if fetched then
         memcpy s.buf s.target (fun i => d.byteSwapFromDevice32 (result i)) xferSize
       else s.buf
     log := s.log ++ .command (.read s.addr xferSize) ::
       ((if issued then [.waited ready] else []) ++ [.resultRead]) }, issued && fetched)

def readFlash (flash : ℕ → Quadlet) (addr : UInt64) (buf : ℕ → Quadlet) (nQuads : ℕ) :
    Option (FlashRun × Bool) :=
  match d.model with
  | .fireface800 => doTransfer 64 nQuads (bus.readSector d flash) ⟨0, 0, addr.toNat, 0, buf, []⟩
  | .fireface400 =>
    doTransfer 32 nQuads (bus.readBounced d flash) ⟨0, 0, addr.toNat &&& 0xffffffff, 0, buf, []⟩

def outgoing (xferSize : ℕ) (s : FlashRun) : List Quadlet :=
  (List.range xferSize).map fun i => d.byteSwapToDevice32 (s.buf (s.target + i))

/-- A sector of the FF800 is written as a block. -/
def writeSector (xferSize : ℕ) (s : FlashRun) : FlashRun × Bool :=
  let issued := bus.ok s.accesses
  let ready := bus.waitWhileBusy d s.waits
  ({ s with
    accesses := s.accesses + 1
    waits := if issued then s.waits + 1 else s.waits
    addr := (s.addr + xferSize * 4) % 2 ^ 64
    target := s.target + xferSize
    log := s.log ++ .command (.write s.addr (outgoing d xferSize s)) ::
      (if issued then [.waited ready] else []) }, issued && ready)

/-- On the FF400 the data are sent to a buffer, address and size are set, and the command is issued.
The result of the wait is dropped. -/
def writeBounced (xferSize : ℕ) (s : FlashRun) : FlashRun × Bool :=
  let issued := bus.ok s.accesses && bus.ok (s.accesses + 1) && bus.ok (s.accesses + 2)
  let ready := bus.waitWhileBusy d s.waits
  ({ s with
    accesses := s.accesses + 3
    waits := if issued then s.waits + 1 else s.waits
    addr := (s.addr + xferSize * 4) % 2 ^ 32
    target := s.target + xferSize
    log := s.log ++ .command (.write s.addr (outgoing d xferSize s)) ::
      (if issued then [.waited ready] else []) }, issued)

def writeFlash (addr : UInt64) (buf : ℕ → Quadlet) (nQuads : ℕ) : Option (FlashRun × Bool) :=
  match d.model with
  | .fireface800 => doTransfer 64 nQuads (bus.writeSector d) ⟨0, 0, addr.toNat, 0, buf, []⟩
  | .fireface400 =>
    doTransfer 32 nQuads (bus.writeBounced d) ⟨0, 0, addr.toNat &&& 0xffffffff, 0, buf, []⟩

/-- The register to write and the value, for the flags that are known. -/
def eraseCommand (model : Model) (flags : ℕ) : Option (ℕ × Quadlet) :=
  match model, flags with
  | .fireface800, 1 => some (0x3fffffff4, 0)
  | .fireface800, 2 => some (0x3fffffff0, 0)
  | .fireface800, 3 => some (0x3fffffffc, 0)
  | .fireface400, 1 => some (0x80100520, 0xe)
  | .fireface400, 2 => some (0x80100520, 0xd)
  | .fireface400, 3 => some (0x80100520, 0xc)
  | _, _ => none

/-- The result of the wait is dropped. -/
def eraseFlash (flags : ℕ) : List FlashEvent × Bool :=
  match eraseCommand d.model flags with
  | none => ([], false)
  | some (addr, data) =>
    (.command (.erase addr data) :: if bus.ok 0 then [.waited (bus.waitWhileBusy d 0)] else [],
      bus.ok 0)

end FlashBus

def chunkAddr (d : Device) (addr : UInt64) (m : ℕ) : ℕ :=
  (addr.toNat + 4 * (d.xferSize * m)) % d.model.addressSpace

/-- The address that quadlet `j` is transferred from or to. -/
def place (d : Device) (addr : UInt64) (j : ℕ) : ℕ :=
  chunkAddr d addr (j / d.xferSize) + 4 * (j % d.xferSize)

def roundSize (d : Device) (nQuads m : ℕ) : ℕ := min d.xferSize (nQuads - d.xferSize * m)

section Behind

variable (d : Device) (addr : UInt64) (nQuads accesses waits : ℕ) (buf content : ℕ → Quadlet)
  (events : ℕ → List FlashEvent) (m : ℕ)

def behind : FlashRun where
  accesses := accesses * m
  waits := waits * m
  addr := (addr.toNat + 4 * min (d.xferSize * m) nQuads) % d.model.addressSpace
  target := min (d.xferSize * m) nQuads
  buf j := if j < min (d.xferSize * m) nQuads then content j else buf j
  log := (List.range m).flatMap events

theorem behind_zero : behind d addr nQuads accesses waits buf content events 0 =
    ⟨0, 0, addr.toNat % d.model.addressSpace, 0, buf, []⟩ := by
  simp [behind]

/-- What another round adds. -/
theorem behind_succ {s : FlashRun}
    (hs : behind d addr nQuads accesses waits buf content events m = s) :
    behind d addr nQuads accesses waits buf content events (m + 1) =
      { accesses := s.accesses + accesses
        waits := s.waits + waits
        addr := (s.addr + roundSize d nQuads m * 4) % d.model.addressSpace
        target := s.target + roundSize d nQuads m
        buf := memcpy s.buf s.target (pointer content s.target) (roundSize d nQuads m)
        log := s.log ++ events m } := by
  have hend : min (d.xferSize * (m + 1)) nQuads =
      min (d.xferSize * m) nQuads + roundSize d nQuads m := by
    rw [roundSize, Nat.mul_succ]
    omega
  subst hs
  rw [behind, FlashRun.mk.injEq]
  refine ⟨rfl, rfl, ?_, hend, ?_, ?_⟩
  · rw [hend, behind, Nat.mod_add_mod]
    congr 1
    ring
  · rw [behind, memcpy_extend, hend]
  · rw [behind, List.range_succ, List.flatMap_append, List.flatMap_singleton]

variable {d nQuads m}

theorem min_eq_of_lt_rounds (hm : m < rounds d.xferSize nQuads) :
    min (d.xferSize * m) nQuads = d.xferSize * m := by
  rcases (lt_rounds_iff d.xferSize_pos).mp hm with rfl | hlt
  · simp
  · omega

theorem div_mod_of_mem {i : ℕ} (hi : i < roundSize d nQuads m) :
    (d.xferSize * m + i) / d.xferSize = m ∧ (d.xferSize * m + i) % d.xferSize = i := by
  have hlt : i < d.xferSize := lt_of_lt_of_le hi (Nat.min_le_left _ _)
  rw [Nat.mul_add_div d.xferSize_pos, Nat.div_eq_of_lt hlt, Nat.mul_add_mod, Nat.mod_eq_of_lt hlt]
  exact ⟨rfl, rfl⟩

theorem place_of_lt {i : ℕ} (hi : i < roundSize d nQuads m) :
    place d addr (d.xferSize * m + i) = chunkAddr d addr m + 4 * i := by
  obtain ⟨hdiv, hmod⟩ := div_mod_of_mem hi
  rw [place, hdiv, hmod]

end Behind

namespace FlashBus

variable (bus : FlashBus) (d : Device) (flash : ℕ → Quadlet) (addr : UInt64) (buf : ℕ → Quadlet)
  (nQuads m : ℕ)

def accesses : ℕ :=
  match d.model with
  | .fireface400 => 3
  | .fireface800 => 1

def readWaits : ℕ :=
  match d.model with
  | .fireface400 => 1
  | .fireface800 => 0

def readEvents : List FlashEvent :=
  match d.model with
  | .fireface400 => [.command (.read (chunkAddr d addr m) (roundSize d nQuads m)),
      .waited (bus.waitWhileBusy d m), .resultRead]
  | .fireface800 => []

/-- What the buffer holds where it has been filled. -/
def content (j : ℕ) : Quadlet :=
  d.byteSwapFromDevice32 <| match d.model with
    | .fireface400 => if bus.waitWhileBusy d (j / d.xferSize) then flash (place d addr j)
        else bus.unfinished (j / d.xferSize) (j % d.xferSize)
    | .fireface800 => flash (place d addr j)

def readBehind : ℕ → FlashRun :=
  behind d addr nQuads (accesses d) (readWaits d) buf (bus.content d flash addr)
    (bus.readEvents d addr nQuads)

def writeEvents : List FlashEvent :=
  [.command (.write (chunkAddr d addr m) ((List.range (roundSize d nQuads m)).map fun i =>
    d.byteSwapToDevice32 (buf (d.xferSize * m + i)))), .waited (bus.waitWhileBusy d m)]

def writeBehind : ℕ → FlashRun :=
  behind d addr nQuads (accesses d) 1 buf buf (bus.writeEvents d addr buf nQuads)

/-- The accesses of a round succeed. -/
def accessed : Bool :=
  match d.model with
  | .fireface400 => bus.ok (3 * m) && bus.ok (3 * m + 1) && bus.ok (3 * m + 2)
  | .fireface800 => bus.ok m

/-- The round of either model. -/
def readBody : ℕ → FlashRun → FlashRun × Bool :=
  match d.model with
  | .fireface800 => bus.readSector d flash
  | .fireface400 => bus.readBounced d flash

def writeBody : ℕ → FlashRun → FlashRun × Bool :=
  match d.model with
  | .fireface800 => bus.writeSector d
  | .fireface400 => bus.writeBounced d

theorem readFlash_eq :
    bus.readFlash d flash addr buf nQuads =
      doTransfer d.xferSize nQuads (bus.readBody d flash)
        ⟨0, 0, addr.toNat % d.model.addressSpace, 0, buf, []⟩ := by
  unfold readFlash readBody Device.xferSize Model.addressSpace
  cases d.model with
  | fireface800 => rw [Nat.mod_eq_of_lt addr.toNat_lt]
  | fireface400 => rw [← Nat.and_two_pow_sub_one_eq_mod addr.toNat 32]

theorem writeFlash_eq :
    bus.writeFlash d addr buf nQuads =
      doTransfer d.xferSize nQuads (bus.writeBody d)
        ⟨0, 0, addr.toNat % d.model.addressSpace, 0, buf, []⟩ := by
  unfold writeFlash writeBody Device.xferSize Model.addressSpace
  cases d.model with
  | fireface800 => rw [Nat.mod_eq_of_lt addr.toNat_lt]
  | fireface400 => rw [← Nat.and_two_pow_sub_one_eq_mod addr.toNat 32]

theorem snd_readBody : (bus.readBody d flash (roundSize d nQuads m)
    (bus.readBehind d flash addr buf nQuads m)).2 = bus.accessed d m := by
  unfold readBody accessed readBehind accesses
  cases d.model with
  | fireface800 => simp [readSector, behind]
  | fireface400 => rfl

theorem snd_writeBody : (bus.writeBody d (roundSize d nQuads m)
    (bus.writeBehind d addr buf nQuads m)).2 =
      (bus.accessed d m && (d.model = .fireface400 || bus.waitWhileBusy d m)) := by
  unfold writeBody accessed writeBehind accesses
  cases d.model with
  | fireface800 => simp [writeSector, behind]
  | fireface400 => simp [writeBounced, behind]

variable {bus d flash addr buf nQuads m} (hm : m < rounds d.xferSize nQuads)

include hm

theorem readBody_behind (h : bus.accessed d m = true) :
    bus.readBody d flash (roundSize d nQuads m) (bus.readBehind d flash addr buf nQuads m) =
      (bus.readBehind d flash addr buf nQuads (m + 1), true) := by
  have hmin := min_eq_of_lt_rounds hm
  have hcontent : ∀ i < roundSize d nQuads m, d.byteSwapFromDevice32 (match d.model with
        | .fireface400 => (if bus.waitWhileBusy d m then fun i => flash (chunkAddr d addr m + 4 * i)
          else bus.unfinished m) i
        | .fireface800 => flash (chunkAddr d addr m + 4 * i)) =
      pointer (bus.content d flash addr) (d.xferSize * m) i := by
    intro i hi
    obtain ⟨hdiv, hmod⟩ := div_mod_of_mem hi
    rw [pointer, content, place_of_lt addr hi, hdiv, hmod]
    cases d.model with
    | fireface800 => rfl
    | fireface400 => split_ifs <;> rfl
  rw [readBehind, behind_succ _ _ _ _ _ _ _ _ _ rfl]
  unfold readBody
  unfold accessed at h
  cases hmodel : d.model with
  | fireface800 =>
    simp only [hmodel] at h hcontent
    simpa [readSector, behind, hmodel, h, accesses, readWaits, readEvents, Model.addressSpace, hmin,
      chunkAddr] using memcpy_congr _ _ hcontent
  | fireface400 =>
    simp only [hmodel, Bool.and_eq_true] at h hcontent
    simpa [readBounced, behind, hmodel, h, accesses, readWaits, readEvents,
      Model.addressSpace, hmin, chunkAddr] using memcpy_congr _ _ hcontent

theorem writeBody_behind (h : bus.accessed d m = true)
    (hready : d.model = .fireface800 → bus.waitWhileBusy d m = true) :
    bus.writeBody d (roundSize d nQuads m) (bus.writeBehind d addr buf nQuads m) =
      (bus.writeBehind d addr buf nQuads (m + 1), true) := by
  have hmin := min_eq_of_lt_rounds hm
  rw [writeBehind, behind_succ _ _ _ _ _ _ _ _ _ rfl]
  unfold writeBody
  unfold accessed at h
  cases hmodel : d.model with
  | fireface800 =>
    simp only [hmodel] at h
    simp [writeSector, behind, hmodel, h, hready hmodel, accesses, writeEvents, Model.addressSpace,
      hmin, chunkAddr, memcpy_self, outgoing]
  | fireface400 =>
    simp only [hmodel, Bool.and_eq_true] at h
    simp [writeBounced, behind, hmodel, h, accesses, writeEvents, Model.addressSpace,
      hmin, chunkAddr, memcpy_self, outgoing]

end FlashBus

namespace FlashBus

variable {n : ℕ}

def Granted (bus : FlashBus) (d : Device) (nQuads : ℕ) : Prop :=
  ∀ m < rounds d.xferSize nQuads, bus.accessed d m = true

def Timely (bus : FlashBus) (d : Device) (n : ℕ) : Prop :=
  ∀ i < n, ∃ j < maxFlashBusyRetries, d.model.isReady (bus.status i j) = true

variable {bus : FlashBus} {d : Device} {flash buf : ℕ → Quadlet} {addr : UInt64} {nQuads m : ℕ}

theorem waitLoop_iff {wait retries i : ℕ} :
    bus.waitLoop d wait retries i = true ↔
      ∃ j < retries, d.model.isReady (bus.status wait (i + j)) = true := by
  induction retries generalizing i with
  | zero => simp [waitLoop]
  | succ retries ih =>
    rw [waitLoop, Nat.exists_lt_succ_left]
    split_ifs with hready
    · exact iff_of_true rfl (.inl hready)
    · refine Iff.trans ?_ (or_iff_right hready).symm
      simp only [ih, Nat.add_assoc, Nat.add_comm 1]

theorem timely_iff : bus.Timely d n ↔ ∀ i < n, bus.waitWhileBusy d i = true := by
  simp only [Timely, waitWhileBusy, waitLoop_iff, Nat.zero_add]

theorem readFlash_spec (flash : ℕ → Quadlet) (addr : UInt64) (buf : ℕ → Quadlet) (nQuads : ℕ) :
    ∃ s ok, bus.readFlash d flash addr buf nQuads = some (s, ok) ∧
      (ok = true ↔ bus.Granted d nQuads) ∧
      (ok = true → s = bus.readBehind d flash addr buf nQuads (rounds d.xferSize nQuads)) := by
  rw [readFlash_eq, ← behind_zero]
  apply doTransfer_spec d.xferSize_pos (fun m hm h => readBody_behind hm h)
  intro m _ h
  exact (bus.snd_readBody d flash addr buf nQuads m).trans (Bool.eq_false_iff.mpr h)

theorem writeFlash_spec (addr : UInt64) (buf : ℕ → Quadlet) (nQuads : ℕ) :
    ∃ s ok, bus.writeFlash d addr buf nQuads = some (s, ok) ∧
      (ok = true ↔ bus.Granted d nQuads ∧
        (d.model = .fireface800 → bus.Timely d (rounds d.xferSize nQuads))) ∧
      (ok = true → s = bus.writeBehind d addr buf nQuads (rounds d.xferSize nQuads)) := by
  have hgood : bus.Granted d nQuads ∧
      (d.model = .fireface800 → bus.Timely d (rounds d.xferSize nQuads)) ↔
      ∀ m < rounds d.xferSize nQuads, bus.accessed d m = true ∧
        (d.model = .fireface800 → bus.waitWhileBusy d m = true) := by
    rw [Granted, timely_iff]
    grind
  rw [writeFlash_eq, ← behind_zero, hgood]
  apply doTransfer_spec d.xferSize_pos (fun m hm h => writeBody_behind hm h.1 h.2)
  intro m _ h
  refine (bus.snd_writeBody d addr buf nQuads m).trans ?_
  cases hmodel : d.model <;> simp_all

/-- The wait for a command comes first, and is successful in the end. -/
def Completed : List FlashEvent → Prop
  | .waited true :: _ => True
  | .waited false :: log => Completed log
  | _ => False

/-- Every command has been observed complete before the next one, before its result was read, and
before the end. -/
def Confirmed : List FlashEvent → Prop
  | [] => True
  | .command _ :: log => Completed log ∧ Confirmed log
  | .waited _ :: log => Confirmed log
  | .resultRead :: log => Confirmed log

theorem confirmed_cons_iff {c : FlashCommand} {ready : Bool} {log : List FlashEvent}
    (hlog : ¬ Completed log) :
    Confirmed (.command c :: .waited ready :: log) ↔ ready = true ∧ Confirmed log := by
  cases ready with
  | true => simp [Confirmed, Completed]
  | false => simp [Confirmed, Completed, hlog]

section Rounds

variable {c : ℕ → FlashCommand} {ready : ℕ → Bool}

theorem confirmed_writes_iff (is : List ℕ) :
    Confirmed (is.flatMap fun i => [.command (c i), .waited (ready i)]) ↔
      ∀ i ∈ is, ready i = true := by
  induction is with
  | nil => simp [Confirmed]
  | cons i is ih =>
    have hquiet : ¬ Completed (is.flatMap fun i => [.command (c i), .waited (ready i)]) := by
      cases is with
      | _ => exact id
    rw [List.forall_mem_cons, ← ih]
    exact confirmed_cons_iff hquiet

theorem confirmed_reads_iff (is : List ℕ) :
    Confirmed (is.flatMap fun i => [.command (c i), .waited (ready i), .resultRead]) ↔
      ∀ i ∈ is, ready i = true := by
  induction is with
  | nil => simp [Confirmed]
  | cons i is ih =>
    rw [List.forall_mem_cons, ← ih]
    exact confirmed_cons_iff id

end Rounds

def FlashEvent.written : FlashEvent → List (ℕ × Quadlet)
  | .command (.write addr data) => data.zipIdx.map fun (q, i) => (addr + 4 * i, q)
  | _ => []

/-- The addresses of all quadlets are in order. -/
def InRange (d : Device) (addr : UInt64) (nQuads : ℕ) : Prop :=
  nQuads = 0 ∨
    addr.toNat + 4 * (d.xferSize * ((nQuads - 1) / d.xferSize)) < d.model.addressSpace

theorem inRange_iff : InRange d addr nQuads ↔ ∀ j < nQuads,
    place d addr j = addr.toNat + 4 * j := by
  have hpos := d.xferSize_pos
  constructor
  · rintro (rfl | hlt) j hj
    · omega
    · have hle : d.xferSize * (j / d.xferSize) ≤ d.xferSize * ((nQuads - 1) / d.xferSize) :=
        Nat.mul_le_mul_left _ (Nat.div_le_div_right (by omega))
      have hmod := Nat.div_add_mod j d.xferSize
      rw [place, chunkAddr, Nat.mod_eq_of_lt (by omega)]
      omega
  · intro h
    rcases Nat.eq_zero_or_pos nQuads with hzero | hquads
    · exact .inl hzero
    · right
      have hle := Nat.mul_div_le (nQuads - 1) d.xferSize
      have hlast := h (d.xferSize * ((nQuads - 1) / d.xferSize)) (by omega)
      rw [place, chunkAddr, Nat.mul_div_cancel_left _ hpos, Nat.mul_mod_right, Nat.mul_zero,
        Nat.add_zero] at hlast
      rw [← hlast]
      apply Nat.mod_lt
      cases hmodel : d.model <;> simp [Model.addressSpace]

theorem written_eq (addr : ℕ) (n : ℕ) (data : ℕ → Quadlet) :
    FlashEvent.written (.command (.write addr ((List.range n).map data))) =
      (List.range n).map fun i => (addr + 4 * i, data i) := by
  apply List.ext_getElem
  · simp [FlashEvent.written]
  · simp [FlashEvent.written]

theorem written_rounds {m : ℕ} (hm : m ≤ rounds d.xferSize nQuads) :
    ((List.range m).flatMap (bus.writeEvents d addr buf nQuads)).flatMap FlashEvent.written =
      (List.range (min (d.xferSize * m) nQuads)).map fun j =>
        (place d addr j, d.byteSwapToDevice32 (buf j)) := by
  induction m with
  | zero => simp
  | succ m ih =>
    have hend : min (d.xferSize * (m + 1)) nQuads =
        min (d.xferSize * m) nQuads + roundSize d nQuads m := by
      rw [roundSize, Nat.mul_succ]
      omega
    rw [List.range_succ, List.flatMap_append, List.flatMap_append, ih (by omega), hend,
      List.range_add, List.map_append, List.map_map, List.flatMap_singleton, writeEvents,
      List.flatMap_cons, written_eq]
    refine congrArg₂ (· ++ ·) rfl ((List.append_nil _).trans (List.map_congr_left fun i hi => ?_))
    rw [Function.comp_apply, min_eq_of_lt_rounds hm, place_of_lt addr (List.mem_range.mp hi)]

/-- A transfer from the flash is as the caller expects it. -/
def ReadsConfirmed (bus : FlashBus) (d : Device) (addr : UInt64) (nQuads : ℕ) : Prop :=
  ∀ flash buf, ∃ s ok, bus.readFlash d flash addr buf nQuads = some (s, ok) ∧
    (ok = true → Confirmed s.log ∧ ∀ j, s.buf j =
      if j < nQuads then d.byteSwapFromDevice32 (flash (addr.toNat + 4 * j)) else buf j)

/-- A transfer to the flash is as the caller expects it. -/
def WritesConfirmed (bus : FlashBus) (d : Device) (addr : UInt64) (buf : ℕ → Quadlet) (nQuads : ℕ) :
    Prop :=
  ∃ s ok, bus.writeFlash d addr buf nQuads = some (s, ok) ∧
    (ok = true → Confirmed s.log ∧ s.log.flatMap FlashEvent.written =
      (List.range nQuads).map fun j => (addr.toNat + 4 * j, d.byteSwapToDevice32 (buf j)))

def ErasesConfirmed (bus : FlashBus) (d : Device) (flags : ℕ) : Prop :=
  (bus.eraseFlash d flags).2 = true → Confirmed (bus.eraseFlash d flags).1

theorem confirmed_readEvents_iff :
    Confirmed ((List.range n).flatMap (bus.readEvents d addr nQuads)) ↔
      (d.model = .fireface400 → bus.Timely d n) := by
  rw [timely_iff]
  unfold readEvents
  cases d.model with
  | fireface400 => simp only [confirmed_reads_iff, List.mem_range, forall_const]
  | fireface800 =>
    have hnil : (List.range n).flatMap (fun _ => ([] : List FlashEvent)) = [] := by
      simp [List.flatMap_eq_nil_iff]
    simp [hnil, Confirmed]

theorem confirmed_writeEvents_iff :
    Confirmed ((List.range n).flatMap (bus.writeEvents d addr buf nQuads)) ↔
      bus.Timely d n := by
  rw [timely_iff]
  unfold writeEvents
  simp only [confirmed_writes_iff, List.mem_range]

theorem content_of_timely (h : d.model = .fireface400 → bus.Timely d (rounds d.xferSize nQuads))
    {j : ℕ} (hj : j < nQuads) :
    bus.content d flash addr j =
      d.byteSwapFromDevice32 (flash (place d addr j)) := by
  cases hmodel : d.model with
  | fireface800 => simp only [content, hmodel]
  | fireface400 =>
    have hround : j / d.xferSize < rounds d.xferSize nQuads :=
      (lt_rounds_iff d.xferSize_pos).mpr (.inr (lt_of_le_of_lt (Nat.mul_div_le j _) hj))
    simp only [content, hmodel, timely_iff.mp (h hmodel) _ hround, if_true]

theorem expected_iff {result : Option (FlashRun × Bool)} {Succeeds : Prop} {final : FlashRun}
    {Q : FlashRun → Prop}
    (h : ∃ s ok, result = some (s, ok) ∧ (ok = true ↔ Succeeds) ∧ (ok = true → s = final)) :
    (∃ s ok, result = some (s, ok) ∧ (ok = true → Q s)) ↔ (Succeeds → Q final) := by
  obtain ⟨s, ok, rfl, hok, hs⟩ := h
  constructor
  · rintro ⟨s', ok', heq, hq⟩ hsucceeds
    cases heq
    have htrue := hok.mpr hsucceeds
    exact hs htrue ▸ hq htrue
  · intro hq
    refine ⟨s, ok, rfl, fun htrue => ?_⟩
    rw [hs htrue]
    exact hq (hok.mp htrue)

theorem min_rounds : min (d.xferSize * rounds d.xferSize nQuads) nQuads = nQuads :=
  Nat.min_eq_right (total_le_rounds d.xferSize_pos)

theorem readsConfirmed_iff_content :
    bus.ReadsConfirmed d addr nQuads ↔ ∀ flash : ℕ → Quadlet, bus.Granted d nQuads →
      (d.model = .fireface400 → bus.Timely d (rounds d.xferSize nQuads)) ∧
        ∀ j < nQuads, bus.content d flash addr j =
          d.byteSwapFromDevice32 (flash (addr.toNat + 4 * j)) := by
  refine forall_congr' fun flash => ?_
  simp only [expected_iff (readFlash_spec flash addr _ nQuads), readBehind, behind,
    confirmed_readEvents_iff, min_rounds]
  constructor
  · intro h hgranted
    obtain ⟨htimely, hbuf⟩ := h (fun _ => 0) hgranted
    refine ⟨htimely, fun j hj => ?_⟩
    simpa only [if_pos hj] using hbuf j
  · intro h buf hgranted
    obtain ⟨htimely, hcontent⟩ := h hgranted
    refine ⟨htimely, fun j => ?_⟩
    split_ifs with hj
    · exact hcontent j hj
    · rfl

theorem byteSwapFromDevice32_one_ne : d.byteSwapFromDevice32 1 ≠ d.byteSwapFromDevice32 0 := by
  unfold Device.byteSwapFromDevice32 Device.byteSwapToDevice32
  cases d.order <;> decide

theorem readsConfirmed_iff :
    bus.ReadsConfirmed d addr nQuads ↔
      (bus.Granted d nQuads →
        (d.model = .fireface400 → bus.Timely d (rounds d.xferSize nQuads)) ∧
          InRange d addr nQuads) := by
  rw [readsConfirmed_iff_content, inRange_iff]
  constructor
  · intro h hgranted
    have htimely := (h (fun _ => 0) hgranted).1
    refine ⟨htimely, fun j hj => ?_⟩
    -- a flash that differs at the expected address only
    have hcontent := (h (fun a => if a = addr.toNat + 4 * j then 1 else 0) hgranted).2 j hj
    rw [content_of_timely htimely hj, if_pos rfl] at hcontent
    by_contra hne
    rw [if_neg hne] at hcontent
    exact byteSwapFromDevice32_one_ne hcontent.symm
  · intro h flash hgranted
    obtain ⟨htimely, hplace⟩ := h hgranted
    refine ⟨htimely, fun j hj => ?_⟩
    rw [content_of_timely htimely hj, hplace j hj]

theorem writesConfirmed_iff :
    bus.WritesConfirmed d addr buf nQuads ↔
      (bus.Granted d nQuads →
        (d.model = .fireface400 → bus.Timely d (rounds d.xferSize nQuads)) ∧
          (bus.Timely d (rounds d.xferSize nQuads) → InRange d addr nQuads)) := by
  have hexpected : bus.WritesConfirmed d addr buf nQuads ↔
      (bus.Granted d nQuads ∧ (d.model = .fireface800 → bus.Timely d (rounds d.xferSize nQuads)) →
        bus.Timely d (rounds d.xferSize nQuads) ∧ InRange d addr nQuads) := by
    simp only [WritesConfirmed, expected_iff (writeFlash_spec addr buf nQuads), writeBehind, behind,
      confirmed_writeEvents_iff, written_rounds le_rfl, min_rounds, List.map_inj_left, inRange_iff,
      List.mem_range, Prod.mk.injEq, and_true]
  rw [hexpected]
  cases hmodel : d.model with
  | fireface400 =>
    constructor
    · intro h hgranted
      obtain ⟨htimely, hrange⟩ := h ⟨hgranted, (nomatch ·)⟩
      exact ⟨fun _ => htimely, fun _ => hrange⟩
    · rintro h ⟨hgranted, -⟩
      have htimely := (h hgranted).1 rfl
      exact ⟨htimely, (h hgranted).2 htimely⟩
  | fireface800 =>
    constructor
    · intro h hgranted
      exact ⟨(nomatch ·), fun htimely => (h ⟨hgranted, fun _ => htimely⟩).2⟩
    · rintro h ⟨hgranted, htimely⟩
      exact ⟨htimely rfl, (h hgranted).2 (htimely rfl)⟩

theorem erasesConfirmed_iff {flags : ℕ} :
    bus.ErasesConfirmed d flags ↔
      ((eraseCommand d.model flags).isSome = true → bus.ok 0 = true → bus.Timely d 1) := by
  rw [ErasesConfirmed, eraseFlash, timely_iff]
  cases eraseCommand d.model flags with
  | none => simp
  | some command =>
    simp only [Option.isSome_some, forall_const, Nat.lt_one_iff, forall_eq]
    refine forall_congr' fun hok => ?_
    rw [if_pos hok, confirmed_cons_iff id]
    exact and_iff_left trivial

/-- A transfer or an erasure that is reported as done is so just if all waits have been successful,
which the FF800 makes sure of for the writes only, and if the addresses do not wrap around. -/
theorem flash_confirmed_iff (bus : FlashBus) (d : Device) (addr : UInt64) (buf : ℕ → Quadlet)
    (nQuads flags : ℕ) :
    (bus.ReadsConfirmed d addr nQuads ↔
      (bus.Granted d nQuads →
        (d.model = .fireface400 → bus.Timely d (rounds d.xferSize nQuads)) ∧
          InRange d addr nQuads)) ∧
    (bus.WritesConfirmed d addr buf nQuads ↔
      (bus.Granted d nQuads →
        (d.model = .fireface400 → bus.Timely d (rounds d.xferSize nQuads)) ∧
          (bus.Timely d (rounds d.xferSize nQuads) → InRange d addr nQuads))) ∧
    (bus.ErasesConfirmed d flags ↔
      ((eraseCommand d.model flags).isSome = true → bus.ok 0 = true → bus.Timely d 1)) :=
  ⟨readsConfirmed_iff, writesConfirmed_iff, erasesConfirmed_iff⟩

/-- A device that is never ready. -/
def stuck : FlashBus where
  ok _ := true
  status _ _ := 1
  unfinished _ _ := 0

theorem unconfirmed_and_reported_done :
    ¬ stuck.ReadsConfirmed (Device.fireface .fireface400) 0x60000 59 ∧
      ¬ stuck.WritesConfirmed (Device.fireface .fireface400) 0x60000 (fun _ => 0) 59 ∧
      ¬ stuck.ErasesConfirmed (Device.fireface .fireface400) 2 ∧
      ¬ stuck.ErasesConfirmed (Device.fireface .fireface800) 2 := by
  have hbusy : ∀ model : Model, model.isReady 1 = false := by
    intro model
    cases model <;> rfl
  have hstuck : ∀ (model : Model) (n : ℕ), 0 < n → ¬ stuck.Timely (Device.fireface model) n := by
    intro model n hn htimely
    obtain ⟨j, -, hready⟩ := htimely 0 hn
    exact Bool.false_ne_true ((hbusy model).symm.trans hready)
  have hrounds : 0 < rounds (Device.fireface .fireface400).xferSize 59 := by decide
  refine ⟨fun h => ?_, fun h => ?_, fun h => ?_, fun h => ?_⟩
  · exact hstuck _ _ hrounds ((readsConfirmed_iff.mp h fun _ _ => rfl).1 rfl)
  · exact hstuck _ _ hrounds ((writesConfirmed_iff.mp h fun _ _ => rfl).1 rfl)
  · exact hstuck _ _ Nat.one_pos (erasesConfirmed_iff.mp h rfl rfl)
  · exact hstuck _ _ Nat.one_pos (erasesConfirmed_iff.mp h rfl rfl)

end FlashBus

end Ffado.Rme
