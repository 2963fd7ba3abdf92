import Ffado.Lib.CircularMemory
import Ffado.Lib.MachineInt
import Ffado.Lib.WrappingLoop
import Ffado.Util.ByteSwap

/-!
# The flash of a FireWorks device

The flash is read and written in blocks of 64 quadlets and erased in larger ones. All commands are
EFC commands over AV/C, which the device may refuse, or answer with less than it was asked for.
Addresses are of type `uint32_t`.
-/
namespace Ffado.Fireworks

open CircularMemory MachineInt WrappingLoop

inductive EfcReturnValue where
  | ok
  | bad
  | badCommand
  | commErr
  | badQuadCount
  | unsupported
  | ieee1394Timeout
  | dspTimeout
  | badRate
  | badClock
  | badChannel
  | badPan
  | flashBusy
  | badMirror
  | badLed
  | badParameter
  | incomplete
  | unspecified
  | undefined (value : Quadlet)
  deriving DecidableEq

/-- What is known of a command that was sent: whether `fire` returned true, which takes a response
that can be parsed, whether the response was `eR_Accepted`, and the return value in the header of
the response. -/
structure EfcReply where
  fired : Bool
  accepted : Bool
  retval : EfcReturnValue

def doEfcOverAVC (r : EfcReply) : Bool :=
  if !r.fired then false
  else if !r.accepted then false
  else if r.retval ≠ .ok ∧ r.retval ≠ .flashBusy then false
  else true

def efcFlashSizeBytes : ℕ := 256

def efcFlashSizeQuads : ℕ := efcFlashSizeBytes / 4

structure EfcFlashWriteCmd where
  address : ℕ
  nbQuadlets : ℕ
  data : ℕ → Quadlet

/-- The fields that the response to a read command assigns. -/
structure FlashReadReply extends EfcReply where
  nbQuadlets : ℕ
  data : ℕ → Quadlet

/-- A response with too many quadlets is not parsed. -/
def FlashReadReply.deserialized (r : FlashReadReply) : EfcReply :=
  { r.toEfcReply with fired := r.fired && decide (r.nbQuadlets ≤ efcFlashSizeQuads) }

/-- How the device replies to the commands, the first argument being the number of commands of the
same kind so far. -/
structure FlashDevice where
  write : ℕ → EfcFlashWriteCmd → EfcReply
  read : ℕ → (address nbQuadlets : ℕ) → FlashReadReply
  erase : ℕ → (address : ℕ) → EfcReply
  getStatus : ℕ → EfcReply

namespace FlashDevice

variable (d : FlashDevice)

/-- The check of the arguments in `writeFlash` and `readFlash`. -/
def bogus (start len : ℕ) : Bool := len ≤ 0 || 0xFFFFFFFF - u32 (len * 4) < start

def stopAddr (start len : ℕ) : ℕ := u32 (start + u32 (len * 4))

/-- The number of quadlets in the next block. -/
def quadsInBlock (startAddr stopAddr : ℕ) : ℕ :=
  if efcFlashSizeQuads < (stopAddr - startAddr) / 4 then efcFlashSizeQuads
  else (stopAddr - startAddr) / 4

/-- Where `target_buffer` points to, and the commands so far. -/
structure WriteState where
  target : ℕ
  issued : List EfcFlashWriteCmd

/-- Too many quadlets are not serialised. -/
def send (cmd : EfcFlashWriteCmd) (s : WriteState) : WriteState × Bool :=
  if efcFlashSizeQuads < cmd.nbQuadlets then (s, false)
  else ({ s with issued := s.issued ++ [cmd] }, doEfcOverAVC (d.write s.issued.length cmd))

def writeBlock (buffer : ℕ → Quadlet) (stopAddr startAddr : ℕ) (s : WriteState) :
    WriteState × Bool :=
  let quadsToWrite := quadsInBlock startAddr stopAddr
  d.send ⟨startAddr, quadsToWrite, pointer buffer s.target⟩
    { s with target := s.target + quadsToWrite }

/-- The commands that are issued and the result, if the loop ends. -/
def writeFlash (fuel start len : ℕ) (buffer : ℕ → Quadlet) :
    Option (List EfcFlashWriteCmd × Bool) :=
  if bogus start len then some ([], false)
  else if start &&& 0x03 ≠ 0 then some ([], false)
  else
    (loop (2 ^ 32) efcFlashSizeBytes (stopAddr start len) (d.writeBlock buffer (stopAddr start len))
      fuel start ⟨0, []⟩).map fun (s, ok) => (s.issued, ok)

structure ReadState where
  commands : ℕ
  target : ℕ
  buffer : ℕ → Quadlet

/-- The body of the inner loop: the new value of `quadlets_read`, or `none` if the function returns
false. -/
def readTurn (startAddr quadsToRead quadletsRead : ℕ) (s : ReadState) : ReadState × Option ℕ :=
  let newToRead := u32 (2 ^ 32 + quadsToRead - quadletsRead)
  let r := d.read s.commands (u32 (startAddr + u32 (quadletsRead * 4))) newToRead
  if doEfcOverAVC r.deserialized then
    (⟨s.commands + 1, s.target + r.nbQuadlets, memcpy s.buffer s.target r.data r.nbQuadlets⟩,
      some (u32 (quadletsRead + r.nbQuadlets)))
  else (⟨s.commands + 1, s.target, s.buffer⟩, none)

/-- The inner loop with the value of `ntries` behind it. -/
def readBlock (startAddr quadsToRead ntries quadletsRead : ℕ)
    (s : ReadState) : ReadState × Option ℤ :=
  match d.readTurn startAddr quadsToRead quadletsRead s with
  | (s, none) => (s, none)
  | (s, some quadletsRead) =>
    if quadletsRead < quadsToRead then
      match ntries with
      | 0 => (s, some (-1))
      | ntries + 1 => readBlock startAddr quadsToRead ntries quadletsRead s
    else (s, some ntries)

def maxTries : ℕ := 10000

def readWholeBlock (stopAddr startAddr : ℕ) (s : ReadState) : ReadState × Bool :=
  match d.readBlock startAddr (quadsInBlock startAddr stopAddr) maxTries 0 s with
  | (s, none) => (s, false)
  | (s, some ntries) => (s, ntries ≠ 0)

def readFlash (fuel start len commands : ℕ) (buffer : ℕ → Quadlet) : Option (ReadState × Bool) :=
  if bogus start len then some (⟨commands, 0, buffer⟩, false)
  else if start &&& 0x03 ≠ 0 then some (⟨commands, 0, buffer⟩, false)
  else
    loop (2 ^ 32) efcFlashSizeBytes (stopAddr start len)
      (d.readWholeBlock (stopAddr start len)) fuel start ⟨commands, 0, buffer⟩

def eraseFlash (k addr : ℕ) : Bool :=
  if addr &&& 0x03 ≠ 0 then false
  else if !doEfcOverAVC (d.erase k addr) then (d.erase k addr).retval = .flashBusy
  else true

def waitLoop (waitCycles k : ℕ) : ℕ × Bool :=
  if !doEfcOverAVC (d.getStatus k) then (k + 1, false)
  else if (d.getStatus k).retval = .flashBusy then
    match waitCycles with
    | 0 => (k + 1, false)
    | waitCycles + 1 => waitLoop waitCycles (k + 1)
  -- the flash is ready, but not in the last cycle
  else (k + 1, waitCycles ≠ 0)

def timeToSleepUsecs : ℕ := 10000

def waitForFlash (msecs k : ℕ) : ℕ × Bool := d.waitLoop (u32 (msecs * 1000) / timeToSleepUsecs) k

def echoFlashEraseTimeoutMillisecs : ℕ := 2000

def programBlockSizeBytes : ℕ := 0x2000

def mainBlockSizeBytes : ℕ := 0x10000

def mainBlocksBaseOffsetBytes : ℕ := 0x10000

/-- The size of the erase blocks depends on the section of the flash. -/
def blocksizeBytes (startAddress : ℕ) : ℕ :=
  if startAddress < mainBlocksBaseOffsetBytes then programBlockSizeBytes else mainBlockSizeBytes

/-- An erase command with what `eraseFlash` returned, or quadlets that were found blank. -/
inductive EraseEvent where
  | erase (address : ℕ) (ok : Bool)
  | verified (address quads : ℕ)
  deriving DecidableEq

/-- The variables of `eraseFlashBlocks`, the numbers of commands of each kind and the events so
far. -/
structure EraseState where
  startAddress : ℕ
  quadsLeft : ℕ
  success : Bool
  nbTries : ℕ
  erases : ℕ
  statuses : ℕ
  reads : ℕ
  log : List EraseEvent
  deriving DecidableEq

/-- Erases and verifies a block; false if the function returns false here. Memory that was not
initialised is `verify`. -/
def eraseBlock (readFuel : ℕ) (verify : ℕ → Quadlet) (quads : ℕ) (s : EraseState) :
    Option (EraseState × Bool) :=
  let ok := d.eraseFlash s.erases s.startAddress
  let s := { s with
    erases := s.erases + 1
    log := s.log ++ [EraseEvent.erase s.startAddress ok] }
  if ok then
    let wait := d.waitForFlash echoFlashEraseTimeoutMillisecs s.statuses
    let s := { s with statuses := wait.1 }
    if wait.2 then
      match d.readFlash readFuel s.startAddress quads s.reads verify with
      | none => none
      | some (r, false) => some ({ s with reads := r.commands }, false)
      | some (r, true) =>
        if ∀ i < quads, r.buffer i = 0xFFFFFFFF then
          some ({ s with
            reads := r.commands
            log := s.log ++ [.verified s.startAddress quads] }, true)
        else
          some ({ s with
            reads := r.commands
            success := false }, true)
    else some (s, false)
  else some ({ s with success := false }, true)

def maxNbTries : ℕ := 10

/-- Goes on to the next block or counts the try; false if these are too many. -/
def countTry (blocksize quads : ℕ) (s : EraseState) : EraseState × Bool :=
  if s.success then
    ({ s with
      startAddress := u32 (s.startAddress + blocksize)
      quadsLeft := s.quadsLeft - quads
      nbTries := 0 }, true)
  else ({ s with nbTries := s.nbTries + 1 }, s.nbTries + 1 ≤ maxNbTries)

/-- The body of the loop; false if the function returns false. -/
def eraseTurn (readFuel : ℕ) (verify : ℕ → Quadlet) (s : EraseState) : Option (EraseState × Bool) :=
  let blocksize := blocksizeBytes s.startAddress
  let quads := if s.quadsLeft < blocksize / 4 then s.quadsLeft else blocksize / 4
  match d.eraseBlock readFuel verify quads
    { s with startAddress := s.startAddress &&& (2 ^ 32 - blocksize) } with
  | none => none
  | some (s, false) => some (s, false)
  | some (s, true) => some (countTry blocksize quads s)

def eraseLoop (readFuel : ℕ) (verify : ℕ → Quadlet) : ℕ → EraseState → Option (EraseState × Bool)
  | 0, _ => none
  | fuel + 1, s =>
    match d.eraseTurn readFuel verify s with
    | none => none
    | some (s, false) => some (s, false)
    | some (s, true) => if 0 < s.quadsLeft then eraseLoop readFuel verify fuel s else some (s, true)

def eraseFlashBlocks (readFuel fuel : ℕ) (verify : ℕ → Quadlet) (startAddress nbQuads : ℕ) :
    Option (EraseState × Bool) :=
  d.eraseLoop readFuel verify fuel ⟨startAddress, nbQuads, true, 0, 0, 0, 0, []⟩

def Refused (start len : ℕ) : Prop :=
  len = 0 ∨ 2 ^ 32 ≤ start + u32 (len * 4) ∨ start % 4 ≠ 0

instance (start len : ℕ) : Decidable (Refused start len) := inferInstanceAs (Decidable (_ ∨ _ ∨ _))

theorem and_three_eq_zero_iff (start : ℕ) : start &&& 0x03 = 0 ↔ start % 4 = 0 := by
  have h : start &&& (2 ^ 2 - 1) = start % 2 ^ 2 := Nat.and_two_pow_sub_one_eq_mod start 2
  norm_num at h
  rw [h]

theorem bogus_iff (start len : ℕ) : bogus start len = true ↔ len = 0 ∨
    2 ^ 32 ≤ start + u32 (len * 4) := by
  have hlt := u32_lt (len * 4)
  rw [bogus, Bool.or_eq_true, decide_eq_true_iff, decide_eq_true_iff]
  omega

/-- The last block ends before the address space does. -/
def Fits (start n : ℕ) : Prop := start + 256 * ((n + 63) / 64) < 2 ^ 32

variable {start n i len : ℕ}

theorem ite_of_refused {α : Type} (a b : α) (h : Refused start len) :
    (if bogus start len then a else if start &&& 0x03 ≠ 0 then a else b) = a := by
  by_cases hbogus : bogus start len = true
  · rw [if_pos hbogus]
  · have hmod : start % 4 ≠ 0 := by
      rw [bogus_iff] at hbogus
      exact (h.resolve_left (fun h => hbogus (Or.inl h))).resolve_left (fun h => hbogus (Or.inr h))
    rw [if_neg hbogus, if_pos]
    rwa [ne_eq, and_three_eq_zero_iff]

theorem ite_of_not_refused {α : Type} (a b : α) (h : ¬ Refused start len) :
    (if bogus start len then a else if start &&& 0x03 ≠ 0 then a else b) = b := by
  rw [Refused, not_or, not_or] at h
  have hbogus : ¬ bogus start len = true := by
    rw [bogus_iff]
    omega
  have hmod : ¬ (start &&& 0x03 ≠ 0) := by
    rw [ne_eq, and_three_eq_zero_iff]
    exact h.2.2
  rw [if_neg hbogus, if_neg hmod]

/-- The length in the loop is that of the request modulo 2^30. -/
theorem stopAddr_eq (h : ¬ Refused start len) :
    stopAddr start len = start + 4 * (u32 (len * 4) / 4) := by
  rw [Refused, not_or, not_or] at h
  have hdvd : u32 (len * 4) % 4 = 0 := by
    rw [u32]
    omega
  rw [stopAddr, u32_of_lt (by omega)]
  omega

theorem u32_div_four_eq_iff : u32 (len * 4) / 4 = len ↔ len * 4 < 2 ^ 32 := by
  rw [u32]
  omega

theorem rounds_eq : rounds efcFlashSizeBytes start (start + 4 * n) = (n + 63) / 64 := by
  rw [rounds, efcFlashSizeBytes]
  omega

/-- What is left is split into full blocks and a last one. -/
theorem quadsInBlock_eq (hi : i < (n + 63) / 64) :
    quadsInBlock (start + efcFlashSizeBytes * i) (start + 4 * n) = min 64 (n - 64 * i) := by
  have hquads : efcFlashSizeQuads = 64 := rfl
  have hbytes : efcFlashSizeBytes = 256 := rfl
  rw [quadsInBlock, hquads, hbytes]
  split_ifs <;> omega

end FlashDevice

end Ffado.Fireworks
