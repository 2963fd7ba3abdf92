import Ffado.Fireworks.FlashErase
import Ffado.Fireworks.FlashWrite
import Ffado.Lib.CallLog

/-!
# Saving the session of a FireWorks device

The session is kept in the flash. To save it, the flash is locked, the area of the session is erased
and written, and the flash is unlocked. Each of these operations can fail.
-/
namespace Ffado.Fireworks

open FlashDevice CallLog

/-- The answers of the device around those of its flash. -/
structure SessionDevice extends FlashDevice where
  hasDSP : Bool
  lock : Bool → EfcReply
  sessionBase : EfcReply
  address : Quadlet

/-- The operations on the flash, with what they have sent. -/
inductive FlashOp
  | lock (lock : Bool)
  | erase (events : List EraseEvent)
  | write (issued : List EfcFlashWriteCmd)

/-- The quadlets of the header and of the subsession. -/
def sessionQuads : ℕ := 7312 / 4 + 6080 / 4

namespace SessionDevice

variable (d : SessionDevice)

def getSessionBase : ℕ := if !doEfcOverAVC d.sessionBase then 0 else d.address.toNat

/-- Some hardware does not need the lock, and no command is sent. -/
def lockFlash (lock : Bool) : List (FlashOp × Bool) × Bool :=
  if d.hasDSP then ([], true)
  else ([(.lock lock, doEfcOverAVC (d.lock lock))], doEfcOverAVC (d.lock lock))

/-- The image of the session in memory, with its checksum, is `data`. Memory that was not
initialised is `verify`. -/
def saveToDevice (readFuel eraseFuel writeFuel : ℕ) (verify data : ℕ → Quadlet) :
    Option (List (FlashOp × Bool) × Bool) :=
  let start := d.getSessionBase
  if start = 0 then some ([], false)
  else
    let (log, ok) := d.lockFlash true
    if !ok then some (log, false)
    else do
      let (s, ok) ← d.eraseFlashBlocks readFuel eraseFuel verify start sessionQuads
      let log := log ++ [(.erase s.log, ok)]
      if !ok then return (log, false)
      let (issued, ok) ← d.writeFlash writeFuel start sessionQuads data
      let log := log ++ [(.write issued, ok)]
      if !ok then return (log, false)
      let (unlocked, ok) := d.lockFlash false
      return (log ++ unlocked, ok)

def saveSession (readFuel eraseFuel writeFuel : ℕ) (verify data : ℕ → Quadlet) :
    Option (List (FlashOp × Bool) × Bool) := do
  let (log, _) ← d.saveToDevice readFuel eraseFuel writeFuel verify data
  return (log, true)

variable {d} {readFuel eraseFuel writeFuel : ℕ} {verify data : ℕ → Quadlet}
  {log : List (FlashOp × Bool)} {ok : Bool}

theorem saveToDevice_cases
    (h : d.saveToDevice readFuel eraseFuel writeFuel verify data = some (log, ok)) :
    (d.getSessionBase = 0 ∧ log = []) ∨
    d.getSessionBase ≠ 0 ∧
      (((d.lockFlash true).2 = false ∧ log = (d.lockFlash true).1) ∨
      (d.lockFlash true).2 = true ∧ ∃ s erased,
        d.eraseFlashBlocks readFuel eraseFuel verify d.getSessionBase sessionQuads =
          some (s, erased) ∧
        ((erased = false ∧ log = (d.lockFlash true).1 ++ [(.erase s.log, false)]) ∨
        erased = true ∧ ∃ issued written,
          d.writeFlash writeFuel d.getSessionBase sessionQuads data = some (issued, written) ∧
          ((written = false ∧
            log = (d.lockFlash true).1 ++ [(.erase s.log, true), (.write issued, false)]) ∨
          (written = true ∧
            log = (d.lockFlash true).1 ++ [(.erase s.log, true), (.write issued, true)] ++
              (d.lockFlash false).1)))) := by
  rw [saveToDevice] at h
  dsimp only at h
  split_ifs at h with hbase hlock
  · cases h
    exact .inl ⟨hbase, rfl⟩
  · cases h
    exact .inr ⟨hbase, .inl ⟨by simpa using hlock, rfl⟩⟩
  · refine .inr ⟨hbase, .inr ⟨by simpa using hlock, ?_⟩⟩
    obtain ⟨⟨s, erased⟩, herase, h⟩ := Option.bind_eq_some_iff.mp h
    refine ⟨s, erased, herase, ?_⟩
    cases erased with
    | false =>
      cases h
      exact .inl ⟨rfl, rfl⟩
    | true =>
      obtain ⟨⟨issued, written⟩, hwrite, h⟩ := Option.bind_eq_some_iff.mp h
      refine .inr ⟨rfl, issued, written, hwrite, ?_⟩
      cases written with
      | false =>
        cases h
        exact .inl ⟨rfl, by simp⟩
      | true =>
        cases h
        exact .inr ⟨rfl, by simp⟩

def UnlockIssued (log : List (FlashOp × Bool)) : Prop :=
  ∀ before after, log = before ++ (.lock true, true) :: after → ∃ ok, (.lock false, ok) ∈ after

/-- The area of the session has been erased and then written, and the flash is not locked. -/
structure Saved (d : SessionDevice) (data : ℕ → Quadlet) (log : List (FlashOp × Bool)) : Prop where
  area : ∃ events issued, List.Sublist [(.erase events, true), (.write issued, true)] log ∧
    (∀ i < sessionQuads, Erased events (d.getSessionBase + 4 * i)) ∧
    issued.flatMap EfcFlashWriteCmd.quads = requested d.getSessionBase data sessionQuads
  unlocked : Undone (.lock true) (.lock false) log

/-- The device names an area that starts where an erase block does, and no operation fails. -/
structure Succeeds (d : SessionDevice) (readFuel eraseFuel writeFuel : ℕ)
    (verify data : ℕ → Quadlet) : Prop where
  base : d.getSessionBase ≠ 0
  aligned : blockStart d.getSessionBase = d.getSessionBase
  locks : ∀ lock, (d.lockFlash lock).2 = true
  erases : ∃ s, d.eraseFlashBlocks readFuel eraseFuel verify d.getSessionBase sessionQuads =
    some (s, true)
  writes : ∃ issued, d.writeFlash writeFuel d.getSessionBase sessionQuads data = some (issued, true)

theorem getSessionBase_lt (d : SessionDevice) : d.getSessionBase < 2 ^ 32 := by
  rw [getSessionBase]
  split_ifs
  · decide
  · exact d.address.isLt

theorem erased_iff_aligned {s : EraseState}
    (h : d.eraseFlashBlocks readFuel eraseFuel verify d.getSessionBase sessionQuads =
      some (s, true)) :
    (∀ i < sessionQuads, Erased s.log (d.getSessionBase + 4 * i)) ↔
      blockStart d.getSessionBase = d.getSessionBase := by
  have hpos : 0 < sessionQuads := by decide
  obtain ⟨-, herased, hverified⟩ := eraseLoop_true (getSessionBase_lt d) hpos h
  dsimp only at herased hverified
  constructor
  · intro hall
    -- the last quadlet of the area is in a range that was verified
    obtain ⟨block, quads, -, hmem, -, hlast⟩ := hall (sessionQuads - 1) (by omega)
    have hend := (hverified block quads hmem).resolve_left List.not_mem_nil
    have hle := blockStart_le d.getSessionBase
    omega
  · intro haligned
    rwa [haligned] at herased

theorem mem_lockFlash {lock : Bool} {op : FlashOp} (h : (op, ok) ∈ (d.lockFlash lock).1) :
    op = .lock lock ∧ (d.lockFlash lock).2 = ok := by
  rw [lockFlash] at h ⊢
  split_ifs at h ⊢
  · cases h
  · cases List.mem_singleton.mp h
    exact ⟨rfl, rfl⟩

/-- With everything else done, the flash is not locked just if the unlock has succeeded. -/
theorem undone_iff {ops : List (FlashOp × Bool)} (hlock : (d.lockFlash true).2 = true)
    (hops : ∀ lock ok, (.lock lock, ok) ∉ ops) :
    Undone (.lock true) (.lock false) ((d.lockFlash true).1 ++ ops ++ (d.lockFlash false).1) ↔
      (d.lockFlash false).2 = true := by
  cases hdsp : d.hasDSP with
  | true =>
    have hnone : ∀ lock, d.lockFlash lock = ([], true) := fun lock => by rw [lockFlash, if_pos hdsp]
    rw [hnone, hnone, List.nil_append, List.append_nil]
    exact iff_of_true (undone_of_notMem (hops true true)) rfl
  | false =>
    have hone : ∀ lock, d.lockFlash lock =
        ([(.lock lock, doEfcOverAVC (d.lock lock))], doEfcOverAVC (d.lock lock)) := by
      intro lock
      rw [lockFlash, if_neg (by simp [hdsp])]
    rw [hone] at hlock
    dsimp only at hlock
    rw [hone, hone, hlock]
    dsimp only
    constructor
    · rintro ⟨hhead, -⟩
      rcases List.mem_append.mp (hhead rfl) with hmem | hmem
      · exact absurd hmem (hops false true)
      · exact (congrArg Prod.snd (List.mem_singleton.mp hmem)).symm
    · intro hunlock
      rw [hunlock]
      exact ⟨fun _ => by simp, undone_of_notMem (by simp [hops])⟩

/-- Saving is reported as it should be, and the flash does not stay locked, just if nothing fails
and the area of the session starts where an erase block does. -/
theorem session_saved_iff {result : Bool}
    (h : d.saveSession readFuel eraseFuel writeFuel verify data = some (log, result)) :
    (UnlockIssued log ∧ (result = true → d.Saved data log)) ↔
      d.Succeeds readFuel eraseFuel writeFuel verify data := by
  obtain ⟨⟨log', ok⟩, hsave, hreturn⟩ := Option.bind_eq_some_iff.mp h
  cases hreturn
  have hexit := saveToDevice_cases hsave
  constructor
  · rintro ⟨-, hsaved⟩
    obtain ⟨⟨events, issued, hsub, herased, -⟩, hundone⟩ := hsaved rfl
    have herase : (.erase events, true) ∈ log := hsub.subset (by simp)
    have hwrite : (.write issued, true) ∈ log := hsub.subset (by simp)
    have hother : ∀ lock op, (op, true) ∈ (d.lockFlash lock).1 → op = .lock lock :=
      fun _ _ hmem => (mem_lockFlash hmem).1
    rcases hexit with ⟨-, rfl⟩ | ⟨hbase, ⟨-, rfl⟩ | ⟨hlock, s, erased, hrun, ⟨-, rfl⟩ |
      ⟨rfl, issued', written, hrun', ⟨-, rfl⟩ | ⟨rfl, rfl⟩⟩⟩⟩
    · cases herase
    · cases hother _ _ herase
    · simp at herase
      cases hother _ _ herase
    · simp at hwrite
      cases hother _ _ hwrite
    · have hunlock := (undone_iff hlock (by simp)).mp hundone
      have hevents : events = s.log := by
        simp only [List.mem_append, List.mem_cons, Prod.mk.injEq, FlashOp.erase.injEq, and_true,
          reduceCtorEq, List.not_mem_nil, or_false] at herase
        rcases herase with (hmem | heq) | hmem
        · cases hother _ _ hmem
        · exact heq
        · cases hother _ _ hmem
      rw [hevents] at herased
      refine ⟨hbase, (erased_iff_aligned hrun).mp herased, ?_, ⟨s, hrun⟩, ⟨issued', hrun'⟩⟩
      rintro (_ | _)
      · exact hunlock
      · exact hlock
  · rintro ⟨hbase, haligned, hlocks, ⟨s, hrun⟩, issued, hrun'⟩
    rcases hexit with ⟨hzero, -⟩ | ⟨-, ⟨hlock, -⟩ | ⟨hlock, s', erased, hrun₁, ⟨rfl, -⟩ |
      ⟨rfl, issued', written, hrun₁', ⟨rfl, -⟩ | ⟨rfl, rfl⟩⟩⟩⟩
    · exact absurd hzero hbase
    · rw [hlocks] at hlock
      cases hlock
    · cases hrun.symm.trans hrun₁
    · cases hrun'.symm.trans hrun₁'
    · have hundone := (undone_iff hlock
        (by simp : ∀ lock ok, (FlashOp.lock lock, ok) ∉
          [(FlashOp.erase s'.log, true), (.write issued', true)])).mpr (hlocks false)
      refine ⟨?_, fun _ => ⟨⟨s'.log, issued', ?_, ?_, ?_⟩, hundone⟩⟩
      · intro before after heq
        rw [heq] at hundone
        exact ⟨true, hundone.mem_after⟩
      · exact (List.sublist_append_right _ _).trans (List.sublist_append_left _ _)
      · exact (erased_iff_aligned hrun₁).mpr haligned
      · exact writeFlash_true (getSessionBase_lt d) (by decide) hrun₁'

theorem Succeeds.returns (h : d.Succeeds readFuel eraseFuel writeFuel verify data) :
    ∃ log, d.saveSession readFuel eraseFuel writeFuel verify data = some (log, true) := by
  obtain ⟨hbase, -, hlocks, ⟨s, hrun⟩, issued, hrun'⟩ := h
  rw [saveSession, saveToDevice]
  simp only [if_neg hbase, hlocks, hrun, hrun']
  exact ⟨_, rfl⟩

def emptyDevice : SessionDevice where
  toFlashDevice := FlashDevice.empty
  hasDSP := false
  lock _ := ⟨true, true, .ok⟩
  sessionBase := ⟨true, true, .ok⟩
  address := 0x10000

theorem empty_session_saved :
    ∃ writeFuel log, emptyDevice.saveSession 257 sessionQuads writeFuel (fun _ => 0) (fun _ => 0) =
        some (log, true) ∧
      UnlockIssued log ∧ emptyDevice.Saved (fun _ => 0) log := by
  obtain ⟨r, hread, hfilled⟩ := (@delivering_supplies (fun _ => 0xFFFFFFFF) sessionQuads 0 0x10000
    (by decide)).readFlash (by decide) (by decide) (by unfold Fits; decide) (by decide : _ < 257)
    fun _ _ => 0
  rw [carrying_delivering] at hread
  -- the area is within one erase block
  have hblank : FlashDevice.empty.Blank 257 (fun _ => 0) 0x10000 sessionQuads 0 0 0 r :=
    ⟨rfl, rfl, hread, hfilled.read.1⟩
  obtain ⟨s, hrun⟩ := (Clears.last (by decide) hblank).eraseLoop (by decide) (by decide) le_rfl 0 []
  obtain ⟨writeFuel, w, ok, hloop, -, hfalse⟩ := @write_loop emptyDevice.toFlashDevice 0x10000
    sessionQuads (fun _ => 0) (by unfold Fits; decide)
  obtain rfl : ok = true := by
    by_contra hok
    obtain ⟨-, cs, c, -, hrefused⟩ := hfalse (Bool.eq_false_iff.mpr hok)
    cases hrefused
  have hwrite : emptyDevice.writeFlash writeFuel 0x10000 sessionQuads (fun _ => 0) =
      some (w.issued, true) := by
    rw [writeFlash_eq (by decide), u32_div_four_eq_iff.mpr (by decide), hloop]
    rfl
  have hsucceeds : emptyDevice.Succeeds 257 sessionQuads writeFuel (fun _ => 0) (fun _ => 0) :=
    ⟨by decide, by decide, fun _ => rfl, ⟨s, hrun⟩, ⟨w.issued, hwrite⟩⟩
  obtain ⟨log, hsave⟩ := hsucceeds.returns
  obtain ⟨hissued, hsaved⟩ := (session_saved_iff hsave).mpr hsucceeds
  exact ⟨writeFuel, log, hsave, hissued, hsaved rfl⟩

def lockedDevice : SessionDevice := { emptyDevice with erase := fun _ _ => ⟨true, false, .ok⟩ }

/-- Nothing is erased or written, no unlock is issued, and true is returned. -/
theorem locked_and_reported_saved :
    ∃ log, lockedDevice.saveSession 1 20 1 (fun _ => 0) (fun _ => 0) = some (log, true) ∧
      ¬ UnlockIssued log ∧ ¬ lockedDevice.Saved (fun _ => 0) log := by
  refine ⟨[(.lock true, true), (.erase (List.replicate 11 (.erase 0x10000 false)), false)], rfl,
    ?_, ?_⟩
  · intro h
    obtain ⟨ok, hmem⟩ := h [] _ rfl
    simp at hmem
  · rintro ⟨⟨events, issued, hsub, -⟩, -⟩
    have hmem : (FlashOp.write issued, true) ∈ _ := hsub.subset (by simp)
    simp at hmem

end SessionDevice

end Ffado.Fireworks
