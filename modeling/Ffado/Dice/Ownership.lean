import Ffado.Lib.LabelledRun

/-!
# Ownership of a DICE device

A host takes a device by swapping its own address into the register `GLOBAL_OWNER` and gives it back
by swapping the mark for no owner in. Any number of hosts do so in any order. The register is all
that they share, and a call accesses it once, so that a call is one step at the time of its swap.

The kernel, the allocator and the bus answer as they like. A lock transaction can fail before the
device has done the swap, and after it.
-/
namespace Ffado.Dice.Ownership

open LabelledRun

def diceNotifierBaseAddress : ℕ := 0x0000FFFFE0000000

def diceNotifierBlockLength : ℕ := 4

def diceOwnerNoOwner : ℕ := 0xFFFF000000000000

/-- What `findFreeARMBlock` returns without a block. -/
def noBlock : ℕ := 0xFFFFFFFFFFFFFFFF

/-- The failures of the test registrations, by address. -/
structure ArmErrors where
  register : ℕ → Bool
  unregister : ℕ → Bool

/-- The search from an address, with the tries that are left. -/
def findFreeARMBlock (errors : ArmErrors) (step : ℕ) : ℕ → ℕ → ℕ
  | _, 0 => noBlock
  | start, tries + 1 =>
    if errors.register start then findFreeARMBlock errors step ((start + step) % 2 ^ 64) tries
    else if errors.unregister start then noBlock
    else start

def registerARMHandler (error : Bool) (h : ℕ) (armHandlers : List ℕ) : Bool × List ℕ :=
  if error then (false, armHandlers) else (true, armHandlers ++ [h])

/-- The loop goes on behind a handler that the kernel has not let go. -/
def unregisterARMHandler (h : ℕ) : List Bool → List ℕ → Bool × List ℕ
  | _, [] => (false, [])
  | errors, it :: rest =>
    if it = h then
      if errors.headD false then
        let (found, rest) := unregisterARMHandler h errors.tail rest
        (found, it :: rest)
      else (true, rest)
    else
      let (found, rest) := unregisterARMHandler h errors rest
      (found, it :: rest)

/-- A lock transaction is answered, fails after the device has done the swap, or fails without
it. -/
inductive Transaction
  | answered
  | answerLost
  | requestLost
  deriving DecidableEq

def lockCompareSwap64 (transaction : Transaction) (compareValue swapValue register : ℕ) :
    ℕ × Option ℕ :=
  let swapped := if register = compareValue then swapValue else register
  match transaction with
  | .answered => (swapped, some register)
  | .answerLost => (swapped, none)
  | .requestLost => (register, none)

structure Notifier where
  pointer : ℕ
  start : ℕ
  deriving DecidableEq

/-- The notifier of the device object, and its notifiers among the handlers of the service. -/
structure Host where
  notifier : Option Notifier
  armHandlers : List ℕ
  deriving DecidableEq

/-- What the surroundings answer during `lock`: the option, if it can be read, the kernel, the
allocator and the bus. -/
structure LockCall where
  snoopMode : Option Bool
  arm : ArmErrors
  pointer : ℕ
  registerError : Bool
  globalRegOffset : BitVec 32
  transaction : Transaction

structure UnlockCall where
  snoopMode : Option Bool
  globalRegOffset : BitVec 32
  transaction : Transaction
  unregisterErrors : List Bool

/-- The result of a call with the register and the host behind it. -/
structure Outcome where
  result : Bool
  owner : ℕ
  host : Host

def ownerValue (localNodeId start : ℕ) : ℕ :=
  (0xFFC0 ||| localNodeId) <<< 48 ||| start

def LockCall.notifyAddress (call : LockCall) : ℕ :=
  findFreeARMBlock call.arm diceNotifierBlockLength diceNotifierBaseAddress 10

/-- `lock` behind the registration of the notifier. -/
def swapOwner (localNodeId : ℕ) (call : LockCall) (start owner : ℕ) (host : Host) : Outcome :=
  if call.globalRegOffset &&& 0x80000000 ≠ 0 then ⟨false, owner, host⟩
  else
    let swapValue := ownerValue localNodeId start
    match lockCompareSwap64 call.transaction diceOwnerNoOwner swapValue owner with
    | (owner', none) => ⟨false, owner', host⟩
    | (owner', some result) =>
      if result ≠ diceOwnerNoOwner ∧ result ≠ swapValue then ⟨false, owner', host⟩
      else ⟨true, owner', host⟩

def lock (localNodeId : ℕ) (call : LockCall) (owner : ℕ) (host : Host) : Outcome :=
  if call.snoopMode.getD false then ⟨true, owner, host⟩
  else if call.notifyAddress = noBlock then ⟨false, owner, host⟩
  else
    match registerARMHandler call.registerError call.pointer host.armHandlers with
    | (false, armHandlers) => ⟨false, owner, none, armHandlers⟩
    | (true, armHandlers) =>
      swapOwner localNodeId call call.notifyAddress owner
        ⟨some ⟨call.pointer, call.notifyAddress⟩, armHandlers⟩

def unlock (localNodeId : ℕ) (call : UnlockCall) (owner : ℕ) (host : Host) : Outcome :=
  if call.snoopMode.getD false then ⟨true, owner, host⟩
  else
    match host.notifier with
    | none => ⟨false, owner, host⟩
    | some notifier =>
      if call.globalRegOffset &&& 0x80000000 ≠ 0 then ⟨false, owner, host⟩
      else
        match lockCompareSwap64 call.transaction (ownerValue localNodeId notifier.start)
          diceOwnerNoOwner owner with
        | (owner', none) => ⟨false, owner', host⟩
        | (owner', some _) =>
          ⟨true, owner', none,
            (unregisterARMHandler notifier.pointer call.unregisterErrors host.armHandlers).2⟩

variable {H : Type*}

/-- The hosts of a bus, each with its node and the addresses that its notifiers can have. No two
hosts have both in common. -/
structure Bus (H : Type*) where
  nodeId : H → ℕ
  nodeId_lt : ∀ h, nodeId h < 64
  addresses : H → Set ℕ
  distinct : ∀ {h h' a}, nodeId h = nodeId h' → a ∈ addresses h → a ∈ addresses h' → h = h'

/-- The register, the device objects, and the hosts that are behind a successful `lock` and not yet
behind a successful `unlock`. -/
structure State (H : Type*) where
  owner : ℕ
  host : H → Host
  held : H → Bool

inductive Event (H : Type*)
  | lock (h : H) (call : LockCall)
  | unlock (h : H) (call : UnlockCall)

def State.after [DecidableEq H] (s : State H) (h : H) (outcome : Outcome)
    (held : Bool) : State H where
  owner := outcome.owner
  host := Function.update s.host h outcome.host
  held := if outcome.result then Function.update s.held h held else s.held

def step [DecidableEq H] (bus : Bus H) (s : State H) : Event H → State H
  | .lock h call => s.after h (lock (bus.nodeId h) call s.owner (s.host h)) true
  | .unlock h call => s.after h (unlock (bus.nodeId h) call s.owner (s.host h)) false

/-- The notifier of a call lies at an address of its host. -/
def Bus.Allows (bus : Bus H) : Event H → Prop
  | .lock h call => call.notifyAddress ≠ noBlock → call.notifyAddress ∈ bus.addresses h
  | .unlock _ _ => True

def Bus.Names (bus : Bus H) (h : H) (owner : ℕ) : Prop :=
  ∃ a ∈ bus.addresses h, diceNotifierBaseAddress ≤ a ∧ a < 2 ^ 48 ∧
    owner = ownerValue (bus.nodeId h) a

/-- At most one host holds the device. -/
def State.Exclusive (s : State H) : Prop :=
  ∀ h h', s.held h = true → s.held h' = true → h = h'

def State.Free (bus : Bus H) (s : State H) (h : H) : Prop :=
  s.host h = ⟨none, []⟩ ∧ ¬ bus.Names h s.owner

/-- At most one host holds the device behind the call, and a refused `lock` has left nothing. -/
def Correct [DecidableEq H] (bus : Bus H) (s : State H) : Event H → Prop
  | .lock h call =>
    (step bus s (.lock h call)).Exclusive ∧
      ((lock (bus.nodeId h) call s.owner (s.host h)).result = false →
        (step bus s (.lock h call)).Free bus h)
  | .unlock h call => (step bus s (.unlock h call)).Exclusive

theorem findFreeARMBlock_range {errors : ArmErrors} {tries start : ℕ}
    (hstart : diceNotifierBaseAddress ≤ start)
    (hend : start + diceNotifierBlockLength * tries ≤ 2 ^ 48)
    (h : findFreeARMBlock errors diceNotifierBlockLength start tries ≠ noBlock) :
    diceNotifierBaseAddress ≤ findFreeARMBlock errors diceNotifierBlockLength start tries ∧
      findFreeARMBlock errors diceNotifierBlockLength start tries < 2 ^ 48 := by
  induction tries generalizing start with
  | zero => exact absurd rfl h
  | succ tries ih =>
    simp only [diceNotifierBlockLength] at hend ih h ⊢
    rw [findFreeARMBlock] at h ⊢
    split_ifs at h ⊢
    · exact ih (by omega) (by omega) h
    · exact absurd rfl h
    · omega

theorem notifyAddress_range {call : LockCall} (h : call.notifyAddress ≠ noBlock) :
    diceNotifierBaseAddress ≤ call.notifyAddress ∧ call.notifyAddress < 2 ^ 48 :=
  findFreeARMBlock_range le_rfl (by decide) h

theorem ownerValue_eq {node start : ℕ} (hnode : node < 64) (hstart : start < 2 ^ 48) :
    ownerValue node start = (0xFFC0 + node) * 2 ^ 48 + start := by
  have hor : 0xFFC0 ||| node = 0xFFC0 + node :=
    (Nat.shiftLeft_add_eq_or_of_lt (i := 6) hnode 1023).symm
  rw [ownerValue, hor, ← Nat.shiftLeft_add_eq_or_of_lt hstart, Nat.shiftLeft_eq]

theorem ownerValue_inj {node node' start start' : ℕ} (hnode : node < 64) (hnode' : node' < 64)
    (hstart : start < 2 ^ 48) (hstart' : start' < 2 ^ 48)
    (h : ownerValue node start = ownerValue node' start') : node = node' ∧ start = start' := by
  rw [ownerValue_eq hnode hstart, ownerValue_eq hnode' hstart'] at h
  omega

theorem Bus.names_unique {bus : Bus H} {h h' : H} {owner : ℕ} (hn : bus.Names h owner)
    (hn' : bus.Names h' owner) : h = h' := by
  obtain ⟨a, ha, -, hlt, rfl⟩ := hn
  obtain ⟨a', ha', -, hlt', heq⟩ := hn'
  obtain ⟨hnode, rfl⟩ := ownerValue_inj (bus.nodeId_lt h) (bus.nodeId_lt h') hlt hlt' heq
  exact bus.distinct hnode ha ha'

/-- No host has the mark for no owner as its value: no notifier lies at address 0. -/
theorem Bus.not_names_noOwner {bus : Bus H} {h : H} : ¬ bus.Names h diceOwnerNoOwner := by
  rintro ⟨a, -, hbase, hlt, heq⟩
  have hnode := bus.nodeId_lt h
  rw [ownerValue_eq hnode hlt] at heq
  simp only [diceOwnerNoOwner, diceNotifierBaseAddress] at heq hbase
  omega

theorem Bus.names_notifyAddress {bus : Bus H} {h : H} {call : LockCall}
    (hallows : bus.Allows (.lock h call)) (hblock : call.notifyAddress ≠ noBlock) :
    bus.Names h (ownerValue (bus.nodeId h) call.notifyAddress) :=
  ⟨_, hallows hblock, (notifyAddress_range hblock).1, (notifyAddress_range hblock).2, rfl⟩

/-- The swap is done and answered, and finds no owner or the host itself. -/
def Accepted (node : ℕ) (call : LockCall) (start owner : ℕ) : Prop :=
  call.globalRegOffset &&& 0x80000000 = 0 ∧ call.transaction = .answered ∧
    (owner = diceOwnerNoOwner ∨ owner = ownerValue node start)

/-- An accepted swap leaves the value of the host in the register. Any other one leaves the register
as it is, or puts the value of the host in the place of no owner. -/
theorem swapOwner_cases (node : ℕ) (call : LockCall) (start owner : ℕ) (host : Host) :
    (Accepted node call start owner ∧
      swapOwner node call start owner host = ⟨true, ownerValue node start, host⟩) ∨
    ¬ Accepted node call start owner ∧ ∃ owner',
      swapOwner node call start owner host = ⟨false, owner', host⟩ ∧
        (owner' = owner ∨ owner = diceOwnerNoOwner ∧ owner' = ownerValue node start) := by
  have hswapped : (if owner = diceOwnerNoOwner then ownerValue node start else owner) = owner ∨
      owner = diceOwnerNoOwner ∧
        (if owner = diceOwnerNoOwner then ownerValue node start else owner) =
          ownerValue node start := by
    by_cases howner : owner = diceOwnerNoOwner
    · exact .inr ⟨howner, if_pos howner⟩
    · exact .inl (if_neg howner)
  by_cases hoffset : call.globalRegOffset &&& 0x80000000 = 0
  · rw [swapOwner, if_neg (not_not.mpr hoffset)]
    dsimp only [lockCompareSwap64]
    cases htransaction : call.transaction with
    | answered =>
      by_cases hfound : owner = diceOwnerNoOwner ∨ owner = ownerValue node start
      · refine .inl ⟨⟨hoffset, htransaction, hfound⟩, ?_⟩
        dsimp only
        rw [if_neg (by tauto)]
        rcases hfound with rfl | rfl
        · rw [if_pos rfl]
        · rw [ite_self]
      · refine .inr ⟨fun h => hfound h.2.2, _, if_pos (not_or.mp hfound), hswapped⟩
    | answerLost =>
      exact .inr ⟨fun h => absurd (htransaction.symm.trans h.2.1) (by decide), _, rfl, hswapped⟩
    | requestLost =>
      exact .inr ⟨fun h => absurd (htransaction.symm.trans h.2.1) (by decide), _, rfl, .inl rfl⟩
  · exact .inr ⟨fun h => hoffset h.1, owner, if_pos hoffset, .inl rfl⟩

/-- `lock` returns in snoop mode, without a block, without a registration, or behind the swap with
the notifier registered. -/
theorem lock_cases (node : ℕ) (call : LockCall) (owner : ℕ) (host : Host) :
    (call.snoopMode = some true ∧ lock node call owner host = ⟨true, owner, host⟩) ∨
    call.snoopMode ≠ some true ∧
      ((call.notifyAddress = noBlock ∧ lock node call owner host = ⟨false, owner, host⟩) ∨
      call.notifyAddress ≠ noBlock ∧
        ((call.registerError = true ∧
          lock node call owner host = ⟨false, owner, none, host.armHandlers⟩) ∨
        (call.registerError = false ∧
          lock node call owner host = swapOwner node call call.notifyAddress owner
            ⟨some ⟨call.pointer, call.notifyAddress⟩, host.armHandlers ++ [call.pointer]⟩))) := by
  have hsnoop : call.snoopMode.getD false = true ↔ call.snoopMode = some true := by
    cases call.snoopMode <;> simp
  unfold lock registerARMHandler
  split_ifs with h₁ h₂ h₃
  · exact .inl ⟨hsnoop.mp h₁, rfl⟩
  · exact .inr ⟨mt hsnoop.mpr h₁, .inl ⟨h₂, rfl⟩⟩
  · exact .inr ⟨mt hsnoop.mpr h₁, .inr ⟨h₂, .inl ⟨h₃, rfl⟩⟩⟩
  · exact .inr ⟨mt hsnoop.mpr h₁, .inr ⟨h₂, .inr ⟨Bool.eq_false_iff.mpr h₃, rfl⟩⟩⟩

variable [DecidableEq H] {bus : Bus H} {s : State H} {h : H}

@[simp] theorem after_host (outcome : Outcome) (held : Bool) :
    (s.after h outcome held).host h = outcome.host := by
  simp [State.after]

/-- A `lock` in snoop mode, which returns true without a look at the register, or a release that is
performed while its answer is lost. -/
def Unnoticed (bus : Bus H) (s : State H) : Event H → Prop
  | .lock _ call => call.snoopMode = some true
  | .unlock h call =>
    (unlock (bus.nodeId h) call s.owner (s.host h)).result = false ∧
      (unlock (bus.nodeId h) call s.owner (s.host h)).owner ≠ s.owner

/-- The register names every host that holds the device, and could name every notifier. -/
structure State.Named (bus : Bus H) (s : State H) : Prop where
  holder : ∀ h, s.held h = true → bus.Names h s.owner
  notifier : ∀ h n, (s.host h).notifier = some n →
    bus.Names h (ownerValue (bus.nodeId h) n.start)

omit [DecidableEq H] in
theorem State.Named.exclusive (hs : s.Named bus) : s.Exclusive :=
  fun h h' hheld hheld' => bus.names_unique (hs.holder h hheld) (hs.holder h' hheld')

theorem State.Named.after {outcome : Outcome} {held : Bool} (hs : s.Named bus)
    (hnotifier : ∀ n, outcome.host.notifier = some n →
      bus.Names h (ownerValue (bus.nodeId h) n.start))
    (hself : outcome.result = true → held = true → bus.Names h outcome.owner)
    (hothers : ∀ h', s.held h' = true → h' ≠ h ∨ outcome.result = false →
      bus.Names h' outcome.owner) :
    (s.after h outcome held).Named bus := by
  constructor
  · intro h' hheld
    dsimp only [State.after] at hheld ⊢
    by_cases hresult : outcome.result = true
    · rw [if_pos hresult] at hheld
      by_cases hne : h' = h
      · subst hne
        rw [Function.update_self] at hheld
        exact hself hresult hheld
      · rw [Function.update_of_ne hne] at hheld
        exact hothers h' hheld (.inl hne)
    · rw [if_neg hresult] at hheld
      exact hothers h' hheld (.inr (Bool.eq_false_of_not_eq_true hresult))
  · intro h' n hn
    dsimp only [State.after] at hn
    by_cases hne : h' = h
    · subst hne
      rw [Function.update_self] at hn
      exact hnotifier n hn
    · rw [Function.update_of_ne hne] at hn
      exact hs.notifier h' n hn

theorem unlock_cases (node : ℕ) (call : UnlockCall) (owner : ℕ) (host : Host) :
    ((unlock node call owner host).host = host ∨
        (unlock node call owner host).host.notifier = none) ∧
      ((unlock node call owner host).owner = owner ∨
        ∃ n, host.notifier = some n ∧ owner = ownerValue node n.start) := by
  rw [unlock]
  by_cases hsnoop : call.snoopMode.getD false = true
  · rw [if_pos hsnoop]
    exact ⟨.inl rfl, .inl rfl⟩
  rw [if_neg hsnoop]
  cases hnotifier : host.notifier with
  | none => exact ⟨.inl rfl, .inl rfl⟩
  | some n =>
    dsimp only
    by_cases hoffset : call.globalRegOffset &&& 0x80000000 ≠ 0
    · rw [if_pos hoffset]
      exact ⟨.inl rfl, .inl rfl⟩
    rw [if_neg hoffset]
    by_cases howner : owner = ownerValue node n.start
    · refine ⟨?_, .inr ⟨n, rfl, howner⟩⟩
      cases call.transaction <;> simp [lockCompareSwap64]
    · cases call.transaction <;> simp [lockCompareSwap64, howner]

theorem named_step {e : Event H} (hs : s.Named bus) (hallows : bus.Allows e)
    (hnoticed : ¬ Unnoticed bus s e) : (step bus s e).Named bus := by
  cases e with
  | lock h call =>
    rw [step]
    rcases lock_cases (bus.nodeId h) call s.owner (s.host h) with
      ⟨hsnoop, -⟩ | ⟨-, ⟨-, hlock⟩ | ⟨hblock, ⟨-, hlock⟩ | ⟨-, hlock⟩⟩⟩
    · exact absurd hsnoop hnoticed
    · rw [hlock]
      exact hs.after (hs.notifier h) nofun fun h' hheld _ => hs.holder h' hheld
    · rw [hlock]
      exact hs.after nofun nofun fun h' hheld _ => hs.holder h' hheld
    · have hnames := bus.names_notifyAddress hallows hblock
      have hnotifier : ∀ n, some (Notifier.mk call.pointer call.notifyAddress) = some n →
          bus.Names h (ownerValue (bus.nodeId h) n.start) := by
        rintro _ ⟨⟩
        exact hnames
      rw [hlock]
      rcases swapOwner_cases (bus.nodeId h) call call.notifyAddress s.owner
          ⟨some ⟨call.pointer, call.notifyAddress⟩, (s.host h).armHandlers ++ [call.pointer]⟩ with
        ⟨haccepted, hswap⟩ | ⟨-, owner', hswap, howner⟩ <;> rw [hswap]
      · refine hs.after hnotifier (fun _ _ => hnames) fun h' hheld hne => ?_
        have hholder := hs.holder h' hheld
        rcases haccepted.2.2 with howner | howner <;> rw [howner] at hholder
        · exact absurd hholder bus.not_names_noOwner
        · exact hholder
      · refine hs.after hnotifier nofun fun h' hheld _ => ?_
        have hholder := hs.holder h' hheld
        rcases howner with rfl | ⟨howner, -⟩
        · exact hholder
        · rw [howner] at hholder
          exact absurd hholder bus.not_names_noOwner
  | unlock h call =>
    obtain ⟨hhost, howner⟩ := unlock_cases (bus.nodeId h) call s.owner (s.host h)
    rw [step]
    refine hs.after ?_ nofun fun h' hheld hne => ?_
    · rcases hhost with hhost | hhost <;> rw [hhost]
      · exact hs.notifier h
      · exact nofun
    · have hholder := hs.holder h' hheld
      by_cases hsame : (unlock (bus.nodeId h) call s.owner (s.host h)).owner = s.owner
      · rwa [hsame]
      · obtain ⟨n, hn, hvalue⟩ := howner.resolve_left hsame
        rw [hvalue] at hholder
        have hself := bus.names_unique hholder (hs.notifier h n hn)
        rcases hne with hne | hresult
        · exact absurd hself hne
        · exact absurd ⟨hresult, hsame⟩ hnoticed

/-- In a run without such calls the register always names the holder. -/
theorem run_named {es : List (Event H)} (hs : s.Named bus) (hallows : ∀ e ∈ es, bus.Allows e)
    (hnoticed : Along (step bus) (fun s e => ¬ Unnoticed bus s e) s es) :
    Along (step bus) (fun s e => s.Named bus ∧ bus.Allows e ∧ ¬ Unnoticed bus s e) s es := by
  induction es generalizing s with
  | nil => trivial
  | cons e es ih =>
    obtain ⟨he, hes⟩ := List.forall_mem_cons.mp hallows
    exact ⟨⟨hs, he, hnoticed.1⟩, ih (named_step hs he hnoticed.1) hes hnoticed.2⟩

/-- What a call of `lock` needs that is not to leave anything when it is refused. Without a block or
a registration nothing may be left of an earlier attempt. With a registered notifier the swap has to
be accepted. -/
def Clean (bus : Bus H) (s : State H) : Event H → Prop
  | .lock h call =>
    if call.notifyAddress = noBlock then s.host h = ⟨none, []⟩ ∧ ¬ bus.Names h s.owner
    else if call.registerError then (s.host h).armHandlers = [] ∧ ¬ bus.Names h s.owner
    else Accepted (bus.nodeId h) call call.notifyAddress s.owner
  | .unlock _ _ => True

theorem correct_iff_clean {e : Event H} (hs : s.Named bus) (hallows : bus.Allows e)
    (hnoticed : ¬ Unnoticed bus s e) : Correct bus s e ↔ Clean bus s e := by
  have hexclusive := (named_step hs hallows hnoticed).exclusive
  cases e with
  | unlock h call => exact iff_true_intro hexclusive
  | lock h call =>
    rw [Correct, and_iff_right hexclusive, State.Free, step, after_host, Clean]
    rcases lock_cases (bus.nodeId h) call s.owner (s.host h) with
      ⟨hsnoop, -⟩ | ⟨-, ⟨hblock, hlock⟩ | ⟨hblock, ⟨herror, hlock⟩ | ⟨herror, hlock⟩⟩⟩
    · exact absurd hsnoop hnoticed
    · rw [if_pos hblock, hlock]
      simp [State.after]
    · rw [if_neg hblock, if_pos herror, hlock]
      simp [State.after]
    · rw [if_neg hblock, if_neg (by simp [herror]), hlock]
      rcases swapOwner_cases (bus.nodeId h) call call.notifyAddress s.owner
          ⟨some ⟨call.pointer, call.notifyAddress⟩, (s.host h).armHandlers ++ [call.pointer]⟩ with
        ⟨haccepted, hswap⟩ | ⟨hrefused, owner', hswap, -⟩
      · rw [hswap]
        simp [haccepted]
      · rw [hswap]
        simp [hrefused]

/-- In a run without `lock` in snoop mode and without a release whose answer is lost, at most one
host holds the device at any time. And a refused `lock` never leaves anything, if and only if every
call is clean in the state in which it is made. -/
theorem ownership_iff (bus : Bus H) (s : State H) (es : List (Event H))
    (hfree : ∀ h, s.held h = false ∧ (s.host h).notifier = none)
    (hallows : ∀ e ∈ es, bus.Allows e)
    (hnoticed : Along (step bus) (fun s e => ¬ Unnoticed bus s e) s es) :
    Along (step bus) (fun s e => (step bus s e).Exclusive) s es ∧
      (Along (step bus) (Correct bus) s es ↔ Along (step bus) (Clean bus) s es) := by
  have hs : s.Named bus := by
    constructor
    · intro h hheld
      rw [(hfree h).1] at hheld
      cases hheld
    · intro h n hn
      rw [(hfree h).2] at hn
      cases hn
  have hnamed := run_named hs hallows hnoticed
  constructor
  · exact hnamed.imp fun s e h => (named_step h.1 h.2.1 h.2.2).exclusive
  · exact (hnamed.imp fun s e h => correct_iff_clean h.1 h.2.1 h.2.2).iff

def twoNodes : Bus Bool where
  nodeId := fun h => h.toNat
  nodeId_lt := by decide
  addresses := fun _ => Set.univ
  distinct := by
    intro h h' _ hnode _ _
    cases h <;> cases h' <;> trivial

def unowned : State Bool := ⟨diceOwnerNoOwner, fun _ => ⟨none, []⟩, fun _ => false⟩

/-- Nothing fails on the way. -/
def plainLock : LockCall :=
  ⟨some false, ⟨fun _ => false, fun _ => false⟩, 0x1000, false, 0x28, .answered⟩

def plainUnlock (transaction : Transaction) : UnlockCall := ⟨some false, 0x28, transaction, []⟩

theorem owner_changes_correctly :
    Along (step twoNodes) (Correct twoNodes) unowned
      [.lock false plainLock, .unlock false (plainUnlock .requestLost),
        .unlock false (plainUnlock .answered), .lock true plainLock] := by
  refine (ownership_iff twoNodes unowned _ (fun _ => ⟨rfl, rfl⟩) ?_ ?_).2.mpr ?_
  · intro e _
    cases e with
    | lock _ _ => exact fun _ => trivial
    | unlock _ _ => trivial
  · refine ⟨nofun, ?_, ?_, nofun, trivial⟩
    · exact fun h => h.2 rfl
    · exact fun h => absurd h.1 (by decide +kernel)
  · exact ⟨⟨by decide, rfl, .inl rfl⟩, trivial, trivial,
      ⟨by decide, rfl, .inl (by decide +kernel)⟩, trivial⟩

/-- The second host is refused and keeps its notifier. If it is in snoop mode, or if the answer to
the release of the first host is lost, both hold the device. -/
theorem ownership_fails :
    ¬ Along (step twoNodes) (Correct twoNodes) unowned
        [.lock false plainLock, .lock true plainLock] ∧
      ¬ Along (step twoNodes) (Correct twoNodes) unowned
        [.lock false plainLock, .lock true { plainLock with snoopMode := some true }] ∧
      ¬ Along (step twoNodes) (Correct twoNodes) unowned
        [.lock false plainLock, .unlock false (plainUnlock .answerLost), .lock true plainLock] := by
  refine ⟨?_, ?_, ?_⟩
  · rintro ⟨-, ⟨-, hfree⟩, -⟩
    have hnone := (hfree (by decide +kernel)).1
    exact absurd hnone (by decide +kernel)
  · rintro ⟨-, ⟨hexclusive, -⟩, -⟩
    exact absurd (hexclusive false true (by decide +kernel) (by decide +kernel)) (by decide)
  · rintro ⟨-, -, ⟨hexclusive, -⟩, -⟩
    exact absurd (hexclusive false true (by decide +kernel) (by decide +kernel)) (by decide)

end Ffado.Dice.Ownership
