import Ffado.Lib.LabelledRun
import Ffado.Lib.Ledger

/-!
# Channels and bandwidth

The service allocates isochronous channels and bandwidth at the isochronous resource manager (IRM),
or has a connection made by the connection management procedures (CMP), and notes in its table of
channels what it has to give back. What it holds is kept next to the table. Every operation on the
bus may fail: each call comes with the answers that its operations get.
-/
namespace Ffado.Ieee1394Service

open Function Ledger LabelledRun

structure Connection where
  xmitNode : ℕ
  xmitPlug : ℤ
  recvNode : ℕ
  recvPlug : ℤ
  channel : ℤ
  bandwidth : BitVec 32
  deriving DecidableEq

/-- Channels and units of bandwidth from the IRM, and connections. -/
abbrev Holdings := Multiset ℤ × ℤ × Multiset Connection

namespace Holdings

def channel (c : ℤ) : Holdings := ({c}, 0, 0)

def bandwidth (units : BitVec 32) : Holdings := (0, units.toNat, 0)

def connection (k : Connection) : Holdings := (0, 0, {k})

/-- What is left of `x` after an attempt to release it. -/
def leftover (released : Bool) (x : Holdings) : Holdings := if released then 0 else x

theorem add_sub_self (x y : Holdings) : x + y - y = x := by
  apply Prod.ext
  · exact Multiset.add_sub_cancel_right
  · apply Prod.ext
    · exact add_sub_cancel_right x.2.1 y.2.1
    · exact Multiset.add_sub_cancel_right

theorem add_left_cancel {x y z : Holdings} (h : x + y = x + z) : y = z := by
  rw [← add_sub_self y x, add_comm y x, h, add_comm x z, add_sub_self]

theorem connection_ne_zero (k : Connection) : connection k ≠ 0 := by
  simp [connection]

theorem leftover_channel_eq_zero {released : Bool} {c : ℤ} :
    leftover released (channel c) = 0 ↔ released = true := by
  cases released <;> simp [leftover, channel]

theorem leftover_connection_eq_zero {released : Bool} {k : Connection} :
    leftover released (connection k) = 0 ↔ released = true := by
  cases released <;> simp [leftover, connection]

theorem leftover_generic_eq_zero {channelFreed bandwidthFreed : Bool} {c : ℤ} {units : BitVec 32} :
    leftover channelFreed (channel c) + leftover bandwidthFreed (bandwidth units) = 0 ↔
      channelFreed = true ∧ (bandwidthFreed = true ∨ units = 0) := by
  have hunits : units.toNat = 0 ↔ units = 0 := by
    rw [← BitVec.toNat_inj]
    rfl
  cases channelFreed <;> cases bandwidthFreed <;> simp [leftover, channel, bandwidth, hunits]

end Holdings

open Holdings

inductive AllocType
  | free
  | generic
  | cmp
  deriving DecidableEq

/-- The bandwidth is an `int` in the table and an `unsigned int` for the IRM. -/
structure ChannelInfo where
  channel : ℤ
  bandwidth : BitVec 32
  alloctype : AllocType
  xmitNode : ℕ
  xmitPlug : ℤ
  recvNode : ℕ
  recvPlug : ℤ

namespace ChannelInfo

def unused : ChannelInfo := ⟨-1, -1, .free, 0xFFFF, -1, 0xFFFF, -1⟩

def generic (c : ℕ) (bandwidth : BitVec 32) : ChannelInfo :=
  ⟨c, bandwidth, .generic, 0xFFFF, -1, 0xFFFF, -1⟩

/-- The connection that the two calls of the CMP name. -/
def connection (info : ChannelInfo) : Connection :=
  ⟨info.xmitNode ||| 0xffc0, info.xmitPlug, info.recvNode ||| 0xffc0, info.recvPlug, info.channel,
    info.bandwidth⟩

/-- What an entry of the table is noted for. -/
def resources (info : ChannelInfo) : Holdings :=
  match info.alloctype with
  | .free => 0
  | .generic => Holdings.channel info.channel + Holdings.bandwidth info.bandwidth
  | .cmp => Holdings.connection info.connection

theorem resources_of_free {info : ChannelInfo} (h : info.alloctype = .free) :
    info.resources = 0 := by
  rw [resources, h]

theorem resources_eq_zero_iff {info : ChannelInfo} :
    info.resources = 0 ↔ info.alloctype = .free := by
  constructor
  · intro h
    cases htype : info.alloctype with
    | free => rfl
    | generic => simp [resources, htype, Holdings.channel, Holdings.bandwidth] at h
    | cmp => simp [resources, htype, Holdings.connection] at h
  · exact resources_of_free

end ChannelInfo

/-- What `iec61883_cmp_connect` returns and assigns. -/
structure CmpResult where
  channel : ℤ
  xmitPlug : ℤ
  recvPlug : ℤ
  bandwidth : BitVec 32

/-- How the operations of one call turn out; those on channels may be asked for any channel. -/
structure Answers where
  channelAlloc : ℕ → Bool
  bandwidthAlloc : Bool
  channelFree : Bool
  bandwidthFree : Bool
  connect : ℕ → ℤ → ℕ → ℤ → CmpResult
  disconnect : Bool

/-- All that is to be given back is released. -/
structure Answers.Release (answers : Answers) : Prop where
  channelFree : answers.channelFree = true
  bandwidthFree : answers.bandwidthFree = true
  disconnect : answers.disconnect = true

def invalidNodeId : ℕ := 0xFF

structure Service where
  channels : Fin 64 → ChannelInfo
  held : Holdings

/-- The connection manager has noted nothing and holds nothing. -/
def Service.init : Service := ⟨fun _ => .unused, 0⟩

namespace Service

variable (s : Service) (answers : Answers)

def hold (x : Holdings) : Service := { s with held := s.held + x }

def release (released : Bool) (x : Holdings) : Service :=
  if released then { s with held := s.held - x } else s

/-- The IRM does not give a channel away twice. -/
def channelGranted (c : ℕ) : Bool :=
  answers.channelAlloc c && decide ((c : ℤ) ∉ s.held.1 ∧ ∀ k ∈ s.held.2.2, k.channel ≠ c)

def registerIsoChannel (c : ℕ) (cinfo : ChannelInfo) : Service × Bool :=
  if h : c < 63 then
    ({ s with channels := update s.channels ⟨c, by omega⟩ cinfo }, true)
  else (s, false)

def unregisterIsoChannel (c : ℕ) : Service × Bool :=
  if h : c < 63 then
    if (s.channels ⟨c, by omega⟩).alloctype = .free then (s, false)
    else ({ s with channels := update s.channels ⟨c, by omega⟩ .unused }, true)
  else (s, false)

/-- The part of both generic functions behind the allocation of the channel. -/
def allocateBandwidthFor (c : ℕ) (bandwidth : BitVec 32) : Service × ℤ :=
  if !answers.bandwidthAlloc then (s.release answers.channelFree (Holdings.channel c), -1)
  else
    let s := s.hold (Holdings.bandwidth bandwidth)
    match s.registerIsoChannel c (.generic c bandwidth) with
    | (s, true) => (s, c)
    | (s, false) =>
      ((s.release answers.bandwidthFree (Holdings.bandwidth bandwidth)).release answers.channelFree
        (Holdings.channel c), -1)

def firstGranted : Option ℕ := (List.range 63).find? fun c => s.channelGranted answers c

def allocateIsoChannelGeneric (bandwidth : BitVec 32) : Service × ℤ :=
  match s.firstGranted answers with
  | some c => (s.hold (Holdings.channel c)).allocateBandwidthFor answers c bandwidth
  | none => (s, -1)

def allocateFixedIsoChannelGeneric (chan : ℕ) (bandwidth : BitVec 32) : Service × ℤ :=
  if s.channelGranted answers chan then
    (s.hold (Holdings.channel chan)).allocateBandwidthFor answers chan bandwidth
  else (s, -1)

/-- A connection has been made just if the result is the number of a channel. -/
def allocateIsoChannelCMP (xmitNode : ℕ) (xmitPlug : ℤ) (recvNode : ℕ) (recvPlug : ℤ) :
    Service × ℤ :=
  if xmitNode = invalidNodeId then (s, -1)
  else if recvNode = invalidNodeId then (s, -1)
  else
    let r := answers.connect (xmitNode ||| 0xffc0) xmitPlug (recvNode ||| 0xffc0) recvPlug
    if r.channel < 0 ∨ 63 < r.channel then (s, -1)
    else
      let cinfo : ChannelInfo :=
        ⟨r.channel, r.bandwidth, .cmp, xmitNode, r.xmitPlug, recvNode, r.recvPlug⟩
      let s := s.hold (Holdings.connection cinfo.connection)
      match s.registerIsoChannel r.channel.toNat cinfo with
      | (s, true) => (s, r.channel)
      | (s, false) => (s, -1)

def freeIsoChannel (c : ℤ) : Service × Bool :=
  if h : c < 0 ∨ 63 < c then (s, false)
  else
    let info := s.channels ⟨c.toNat, by omega⟩
    match info.alloctype with
    | .free => (s, false)
    | .generic =>
      let s := s.release answers.bandwidthFree (Holdings.bandwidth info.bandwidth)
      let s := s.release answers.channelFree (Holdings.channel info.channel)
      s.unregisterIsoChannel c.toNat
    | .cmp =>
      let s := s.release answers.disconnect (Holdings.connection info.connection)
      s.unregisterIsoChannel c.toNat

end Service

inductive Call
  | generic (answers : Answers) (bandwidth : BitVec 32)
  | fixed (answers : Answers) (chan : ℕ) (bandwidth : BitVec 32)
  | cmp (answers : Answers) (xmitNode : ℕ) (xmitPlug : ℤ) (recvNode : ℕ) (recvPlug : ℤ)
  | free (answers : Answers) (c : ℤ)

inductive Reply
  | channel (c : ℤ)
  | freed (result : Bool)
  deriving DecidableEq

def Service.perform (s : Service) : Call → Service × Reply
  | .generic answers bandwidth =>
    ((s.allocateIsoChannelGeneric answers bandwidth).1,
      .channel (s.allocateIsoChannelGeneric answers bandwidth).2)
  | .fixed answers chan bandwidth =>
    ((s.allocateFixedIsoChannelGeneric answers chan bandwidth).1,
      .channel (s.allocateFixedIsoChannelGeneric answers chan bandwidth).2)
  | .cmp answers xmitNode xmitPlug recvNode recvPlug =>
    ((s.allocateIsoChannelCMP answers xmitNode xmitPlug recvNode recvPlug).1,
      .channel (s.allocateIsoChannelCMP answers xmitNode xmitPlug recvNode recvPlug).2)
  | .free answers c =>
    ((s.freeIsoChannel answers c).1, .freed (s.freeIsoChannel answers c).2)

structure Recorded (s : Service) : Prop where
  balance : s.held = total ChannelInfo.resources s.channels
  numbered : ∀ i, (s.channels i).alloctype ≠ .free → (s.channels i).channel = (i : ℕ)

/-- A call that does not get both resources gives back what it got. -/
def TidiesUp (answers : Answers) (c : ℕ) (bandwidth : BitVec 32) : Prop :=
  (answers.bandwidthAlloc = false → answers.channelFree = true) ∧
    (answers.bandwidthAlloc = true → 63 ≤ c →
      answers.channelFree = true ∧ (answers.bandwidthFree = true ∨ bandwidth = 0))

/-- The condition of a call: what it has to give back is released, and a connection gets a channel
that the table has room for. -/
def Clean (s : Service) : Call → Prop
  | .generic answers bandwidth => ∀ c, s.firstGranted answers = some c →
      TidiesUp answers c bandwidth
  | .fixed answers chan bandwidth =>
    s.channelGranted answers chan = true → TidiesUp answers chan bandwidth
  | .cmp answers xmitNode xmitPlug recvNode recvPlug =>
    xmitNode ≠ invalidNodeId → recvNode ≠ invalidNodeId → ∀ c : Fin 64,
      (answers.connect (xmitNode ||| 0xffc0) xmitPlug (recvNode ||| 0xffc0) recvPlug).channel =
        (c : ℕ) → c ≠ 63 ∧ (s.channels c).alloctype = .free
  | .free answers c => ∀ i : Fin 64, c = (i : ℕ) →
    match (s.channels i).alloctype with
    | .free => True
    | .generic => answers.channelFree = true ∧
        (answers.bandwidthFree = true ∨ (s.channels i).bandwidth = 0)
    | .cmp => answers.disconnect = true

/-- The three things a call can do, and which of them are clean. -/
inductive Effect (s : Service) (clean : Prop) : Service → Reply → Prop
  | refused {x : Holdings} {reply : Reply} (hx : x = 0 ↔ clean)
      (hreply : ∀ c : ℕ, reply ≠ .channel c) : Effect s clean (s.hold x) reply
  | registered {c : Fin 64} {info : ChannelInfo} (hc : (c : ℕ) < 63)
      (htype : info.alloctype ≠ .free) (hnumber : info.channel = (c : ℕ))
      (hfree : (s.channels c).alloctype = .free ↔ clean) :
      Effect s clean ⟨update s.channels c info, s.held + info.resources⟩ (.channel (c : ℕ))
  | struck {c : Fin 64} {held : Holdings} {x : Holdings} (hused : (s.channels c).alloctype ≠ .free)
      (hheld : held + (s.channels c).resources = s.held + x) (hx : x = 0 ↔ clean) :
      Effect s clean ⟨update s.channels c .unused, held⟩ (.freed true)

section Effects

open Service

variable {s : Service} {answers : Answers} {bandwidth : BitVec 32}

variable {c : Fin 64} {rest : Holdings}

theorem hold_zero (s : Service) : s.hold 0 = s := by
  rw [hold, add_zero]

theorem release_hold (released : Bool) (x : Holdings) :
    (s.hold x).release released x = s.hold (leftover released x) := by
  cases released with
  | false => rfl
  | true =>
    simp only [release, hold, leftover, if_true, add_sub_self, add_zero]

theorem hold_hold (x y : Holdings) : (s.hold x).hold y = s.hold (x + y) := by
  rw [hold, hold, hold, add_assoc]

theorem Recorded.exists_rest (h : Recorded s) (c : Fin 64) :
    ∃ rest, s.held = rest + (s.channels c).resources := by
  rw [h.balance]
  exact exists_total_eq s.channels c

theorem Recorded.free_of_granted (h : Recorded s) (hgranted : s.channelGranted answers c = true) :
    (s.channels c).alloctype = .free := by
  by_contra hused
  obtain ⟨rest, hrest⟩ := h.exists_rest c
  have hnumber := h.numbered c hused
  simp only [channelGranted, Bool.and_eq_true, decide_eq_true_eq] at hgranted
  obtain ⟨-, hchannels, hconnections⟩ := hgranted
  cases htype : (s.channels c).alloctype with
  | free => exact hused htype
  | generic =>
    apply hchannels
    rw [hrest, ← hnumber]
    simp [ChannelInfo.resources, htype, channel]
  | cmp =>
    apply hconnections (s.channels c).connection
    · rw [hrest]
      simp [ChannelInfo.resources, htype, connection]
    · exact hnumber

theorem forall_channel_iff {P : Fin 64 → Prop} (c : Fin 64) :
    (∀ i : Fin 64, ((c : ℕ) : ℤ) = (i : ℕ) → P i) ↔ P c := by
  constructor
  · intro h
    exact h c rfl
  · intro h i hi
    have heq : i = c := Fin.ext (by omega)
    rwa [heq]

theorem refused_ne (c : ℕ) : Reply.channel (-1) ≠ .channel c := by
  intro h
  injection h with h
  omega

theorem Effect.nothing {clean : Prop} {reply : Reply} (hclean : clean)
    (hreply : ∀ c : ℕ, reply ≠ .channel c) : Effect s clean s reply := by
  have heffect := Effect.refused (s := s) (iff_of_true (rfl : (0 : Holdings) = 0) hclean) hreply
  rwa [hold_zero] at heffect

theorem allocateBandwidthFor_of_granted (hc : (c : ℕ) < 63)
    (hband : answers.bandwidthAlloc = true) :
      (s.hold (channel (c : ℕ))).allocateBandwidthFor answers c bandwidth =
        (Service.mk (update s.channels c (.generic c bandwidth))
          (s.held + (ChannelInfo.generic c bandwidth).resources), ((c : ℕ) : ℤ)) := by
  rw [allocateBandwidthFor]
  simp only [hband, Bool.not_true, Bool.false_eq_true, if_false, registerIsoChannel,
    dif_pos hc, hold_hold]
  rfl

theorem allocateBandwidthFor_effect (h : Recorded s) {c : ℕ}
    (hgranted : s.channelGranted answers c = true) :
    Effect s (TidiesUp answers c bandwidth)
      ((s.hold (channel c)).allocateBandwidthFor answers c bandwidth).1
      (.channel ((s.hold (channel c)).allocateBandwidthFor answers c bandwidth).2) := by
  cases hband : answers.bandwidthAlloc with
  | false =>
    simp only [allocateBandwidthFor, hband, Bool.not_false, if_true, release_hold]
    apply Effect.refused _ refused_ne
    rw [leftover_channel_eq_zero]
    simp [TidiesUp, hband]
  | true =>
    by_cases hc : c < 63
    · have hfree : (s.channels ⟨c, by omega⟩).alloctype = .free := h.free_of_granted hgranted
      have hclean : TidiesUp answers c bandwidth := ⟨by simp [hband], by omega⟩
      rw [allocateBandwidthFor_of_granted (c := ⟨c, by omega⟩) hc hband]
      apply Effect.registered hc _ rfl (iff_of_true hfree hclean)
      simp [ChannelInfo.generic]
    · simp only [allocateBandwidthFor, hband, Bool.not_true, Bool.false_eq_true, if_false,
        registerIsoChannel, dif_neg hc]
      rw [release_hold, hold_hold, add_comm, ← hold_hold, release_hold, hold_hold]
      apply Effect.refused _ refused_ne
      rw [add_comm, leftover_generic_eq_zero]
      simp [TidiesUp, hband, not_lt.mp hc]

theorem firstGranted_lt {c : ℕ} (h : s.firstGranted answers = some c) : c < 63 :=
  List.mem_range.mp (List.mem_of_find?_eq_some h)

theorem channelGranted_of_first {c : ℕ} (h : s.firstGranted answers = some c) :
    s.channelGranted answers c = true := by
  exact List.find?_some h

theorem allocateIsoChannelGeneric_of_granted (hfirst : s.firstGranted answers = some (c : ℕ))
    (hband : answers.bandwidthAlloc = true) :
    s.allocateIsoChannelGeneric answers bandwidth =
      (Service.mk (update s.channels c (.generic c bandwidth))
        (s.held + (ChannelInfo.generic c bandwidth).resources), ((c : ℕ) : ℤ)) := by
  rw [allocateIsoChannelGeneric, hfirst]
  exact allocateBandwidthFor_of_granted (firstGranted_lt hfirst) hband

theorem generic_effect (h : Recorded s) :
    Effect s (Clean s (.generic answers bandwidth)) (s.perform (.generic answers bandwidth)).1
      (s.perform (.generic answers bandwidth)).2 := by
  simp only [perform, allocateIsoChannelGeneric, Clean]
  cases hfirst : s.firstGranted answers with
  | none => exact Effect.nothing (by simp) refused_ne
  | some c =>
    have hgranted := channelGranted_of_first hfirst
    simp only [Option.some.injEq, forall_eq']
    exact allocateBandwidthFor_effect h hgranted

theorem fixed_effect (h : Recorded s) (chan : ℕ) :
    Effect s (Clean s (.fixed answers chan bandwidth)) (s.perform (.fixed answers chan bandwidth)).1
      (s.perform (.fixed answers chan bandwidth)).2 := by
  simp only [perform, allocateFixedIsoChannelGeneric, Clean]
  by_cases hgranted : s.channelGranted answers chan = true
  · simp only [hgranted, if_true, true_imp_iff]
    exact allocateBandwidthFor_effect h hgranted
  · simp only [if_neg hgranted]
    exact Effect.nothing (fun h => absurd h hgranted) refused_ne

theorem cmp_effect (xmitNode : ℕ) (xmitPlug : ℤ) (recvNode : ℕ) (recvPlug : ℤ) :
    Effect s (Clean s (.cmp answers xmitNode xmitPlug recvNode recvPlug))
      (s.perform (.cmp answers xmitNode xmitPlug recvNode recvPlug)).1
      (s.perform (.cmp answers xmitNode xmitPlug recvNode recvPlug)).2 := by
  simp only [perform, allocateIsoChannelCMP, Clean]
  by_cases hxmit : xmitNode = invalidNodeId
  · simp only [if_pos hxmit]
    exact Effect.nothing (fun hne => absurd hxmit hne) refused_ne
  by_cases hrecv : recvNode = invalidNodeId
  · simp only [if_neg hxmit, if_pos hrecv]
    exact Effect.nothing (fun _ hne => absurd hrecv hne) refused_ne
  simp only [if_neg hxmit, if_neg hrecv]
  generalize answers.connect (xmitNode ||| 0xffc0) xmitPlug (recvNode ||| 0xffc0) recvPlug = r
  by_cases hrange : r.channel < 0 ∨ 63 < r.channel
  · simp only [if_pos hrange]
    exact Effect.nothing (fun _ _ c hc => by omega) refused_ne
  · obtain ⟨c, hc⟩ : ∃ c : Fin 64, r.channel = (c : ℕ) :=
      ⟨⟨r.channel.toNat, by omega⟩, by simp; omega⟩
    simp only [if_neg hrange]
    simp only [registerIsoChannel, hc, Int.toNat_natCast, forall_channel_iff,
      forall_prop_of_true hxmit, forall_prop_of_true hrecv]
    by_cases hlast : (c : ℕ) < 63
    · have hne : c ≠ 63 := by
        omega
      simp only [dif_pos hlast, hold, and_iff_right hne]
      exact Effect.registered hlast (by simp) rfl Iff.rfl
    · -- there is a connection on channel 63 now, and no entry for it
      have heq : c = 63 := Fin.ext (by omega)
      simp only [dif_neg hlast]
      exact Effect.refused (iff_of_false (connection_ne_zero _) (by simp [heq])) refused_ne

theorem release_of_held {x : Holdings} (released : Bool) (h : s.held = rest + x) :
    s.release released x = ⟨s.channels, rest + leftover released x⟩ := by
  cases released with
  | false =>
    simp only [release, leftover, Bool.false_eq_true, if_false, ← h]
  | true =>
    simp only [release, leftover, if_true, h, add_sub_self, add_zero]

theorem freeIsoChannel_natCast (c : Fin 64) : s.freeIsoChannel answers (c : ℕ) =
    match (s.channels c).alloctype with
    | .free => (s, false)
    | .generic =>
      ((s.release answers.bandwidthFree (Holdings.bandwidth (s.channels c).bandwidth)).release
        answers.channelFree (channel (s.channels c).channel)).unregisterIsoChannel c
    | .cmp =>
      (s.release answers.disconnect
        (connection (s.channels c).connection)).unregisterIsoChannel c := by
  have hrange : ¬ (((c : ℕ) : ℤ) < 0 ∨ 63 < ((c : ℕ) : ℤ)) := by omega
  rw [freeIsoChannel, dif_neg hrange]
  simp only [Int.toNat_natCast]

/-- What stays behind when an entry is struck. -/
def leftoverOf (answers : Answers) (info : ChannelInfo) : Holdings :=
  match info.alloctype with
  | .free => 0
  | .generic => leftover answers.channelFree (Holdings.channel info.channel) +
      leftover answers.bandwidthFree (Holdings.bandwidth info.bandwidth)
  | .cmp => leftover answers.disconnect (Holdings.connection info.connection)

theorem leftoverOf_eq_zero_iff (c : Fin 64) :
    leftoverOf answers (s.channels c) = 0 ↔ Clean s (.free answers (c : ℕ)) := by
  rw [Clean, forall_channel_iff, leftoverOf]
  cases (s.channels c).alloctype with
  | free => exact iff_of_true rfl trivial
  | generic => exact leftover_generic_eq_zero
  | cmp => exact leftover_connection_eq_zero

theorem freeIsoChannel_of_used (hc : (c : ℕ) < 63) (hused : (s.channels c).alloctype ≠ .free)
    (hrest : s.held = rest + (s.channels c).resources) :
    s.freeIsoChannel answers (c : ℕ) =
      (⟨update s.channels c .unused, rest + leftoverOf answers (s.channels c)⟩, true) := by
  have hstrike : ∀ held, unregisterIsoChannel ⟨s.channels, held⟩ c =
      (⟨update s.channels c .unused, held⟩, true) := by
    intro held
    rw [unregisterIsoChannel, dif_pos hc, if_neg hused]
  rw [freeIsoChannel_natCast, leftoverOf]
  rw [ChannelInfo.resources] at hrest
  cases htype : (s.channels c).alloctype with
  | free => exact absurd htype hused
  | generic =>
    rw [htype] at hrest
    rw [release_of_held _ (hrest.trans (add_assoc _ _ _).symm),
      release_of_held _ (add_right_comm _ _ _), hstrike, add_assoc,
      add_comm (leftover answers.bandwidthFree _)]
  | cmp =>
    rw [htype] at hrest
    rw [release_of_held _ hrest, hstrike]

theorem clean_free_of_release (hrelease : answers.Release) (c : ℤ) :
    Clean s (.free answers c) := by
  intro i _
  cases (s.channels i).alloctype with
  | free => trivial
  | generic => exact ⟨hrelease.channelFree, Or.inl hrelease.bandwidthFree⟩
  | cmp => exact hrelease.disconnect

theorem freeIsoChannel_of_release (hrelease : answers.Release) (hc : (c : ℕ) < 63)
    (hused : (s.channels c).alloctype ≠ .free) (hrest : s.held = rest + (s.channels c).resources) :
    s.freeIsoChannel answers (c : ℕ) = (⟨update s.channels c .unused, rest⟩, true) := by
  have hleft := (leftoverOf_eq_zero_iff c).mpr (clean_free_of_release (s := s) hrelease (c : ℕ))
  rw [freeIsoChannel_of_used hc hused hrest, hleft, add_zero]

theorem lt_of_used (hlast : (s.channels 63).alloctype = .free)
    (hused : (s.channels c).alloctype ≠ .free) : (c : ℕ) < 63 := by
  by_contra hge
  have heq : c = 63 := Fin.ext (by omega)
  exact hused (heq ▸ hlast)

theorem free_effect (h : Recorded s) (hlast : (s.channels 63).alloctype = .free) (c : ℤ) :
    Effect s (Clean s (.free answers c)) (s.perform (.free answers c)).1
      (s.perform (.free answers c)).2 := by
  simp only [perform]
  by_cases hrange : c < 0 ∨ 63 < c
  · rw [freeIsoChannel, dif_pos hrange]
    exact Effect.nothing (fun i hi => by omega) (by simp)
  · obtain ⟨i, rfl⟩ : ∃ i : Fin 64, c = (i : ℕ) := ⟨⟨c.toNat, by omega⟩, by simp; omega⟩
    by_cases hused : (s.channels i).alloctype = .free
    · rw [freeIsoChannel_natCast, hused]
      apply Effect.nothing _ (by simp)
      rw [← leftoverOf_eq_zero_iff, leftoverOf, hused]
    · obtain ⟨rest, hrest⟩ := h.exists_rest i
      rw [freeIsoChannel_of_used (lt_of_used hlast hused) hused hrest]
      apply Effect.struck hused _ (leftoverOf_eq_zero_iff i)
      rw [hrest]
      exact add_right_comm _ _ _

theorem perform_effect (h : Recorded s) (hlast : (s.channels 63).alloctype = .free) (call : Call) :
    Effect s (Clean s call) (s.perform call).1 (s.perform call).2 := by
  cases call with
  | generic answers bandwidth => exact generic_effect h
  | fixed answers chan bandwidth => exact fixed_effect h chan
  | cmp answers xmitNode xmitPlug recvNode recvPlug =>
    exact cmp_effect xmitNode xmitPlug recvNode recvPlug
  | free answers c => exact free_effect h hlast c

end Effects

section Conservation

variable {s s' : Service} {clean : Prop} {reply : Reply} {call : Call} {answers : Answers}

theorem Recorded.update (h : Recorded s) {c : Fin 64} {info : ChannelInfo} {held : Holdings}
    (hnumber : info.alloctype ≠ .free → info.channel = (c : ℕ))
    (hbalance : held = total ChannelInfo.resources (update s.channels c info)) :
    Recorded ⟨update s.channels c info, held⟩ := by
  constructor
  · exact hbalance
  · intro i hused
    rcases eq_or_ne i c with rfl | hne
    · simp only [update_self] at hused ⊢
      exact hnumber hused
    · simp only [update_of_ne hne] at hused ⊢
      exact h.numbered i hused

/-- Just the clean calls keep the table complete. -/
theorem Effect.recorded_iff (h : Recorded s) (heffect : Effect s clean s' reply) :
    Recorded s' ↔ clean := by
  cases heffect with
  | @refused x _ hx _ =>
    rw [← hx]
    constructor
    · intro hrecorded
      have hbalance : s.held + x = s.held := hrecorded.balance.trans h.balance.symm
      exact Holdings.add_left_cancel (hbalance.trans (add_zero _).symm)
    · rintro rfl
      rwa [hold_zero]
  | @registered c info _ htype hnumber hfree =>
    rw [← hfree, ← ChannelInfo.resources_eq_zero_iff]
    constructor
    · intro hrecorded
      have hbalance := hrecorded.balance
      have hupdate := @total_update _ _ _ _ _ _ ChannelInfo.resources s.channels c info
      rw [← h.balance] at hupdate
      simp only at hbalance
      rw [hbalance] at hupdate
      exact Holdings.add_left_cancel (hupdate.trans (add_zero _).symm)
    · intro hzero
      apply h.update (fun _ => hnumber)
      rw [total_record hzero, h.balance]
  | @struck c held x hused hheld hx =>
    have hstrike := @total_strike _ _ _ _ _ _ ChannelInfo.resources s.channels c .unused rfl
    rw [← h.balance] at hstrike
    rw [← hx]
    constructor
    · intro hrecorded
      have hbalance := hrecorded.balance
      simp only at hbalance
      rw [hbalance, hstrike] at hheld
      exact (Holdings.add_left_cancel ((add_zero _).trans hheld)).symm
    · rintro rfl
      apply h.update (fun hne => absurd rfl hne)
      rw [add_zero, ← hstrike, add_comm, add_comm (total _ _)] at hheld
      exact Holdings.add_left_cancel hheld

theorem Effect.last_free (heffect : Effect s clean s' reply)
    (hlast : (s.channels 63).alloctype = .free) : (s'.channels 63).alloctype = .free := by
  cases heffect with
  | refused _ _ => exact hlast
  | @registered c info hc _ _ _ =>
    have hne : (63 : Fin 64) ≠ c := by
      omega
    simpa only [update_of_ne hne] using hlast
  | @struck c _ _ _ _ _ =>
    rcases eq_or_ne 63 c with rfl | hne
    · simp [ChannelInfo.unused]
    · simpa only [update_of_ne hne] using hlast

/-- An entry comes with the number of its channel as the result. -/
theorem Effect.used (heffect : Effect s clean s' reply) {i : Fin 64}
    (hused : (s'.channels i).alloctype ≠ .free) :
    (s.channels i).alloctype ≠ .free ∨ reply = .channel (i : ℕ) := by
  cases heffect with
  | refused _ _ => exact Or.inl hused
  | @registered c _ _ _ _ _ =>
    rcases eq_or_ne i c with rfl | hne
    · exact Or.inr rfl
    · left
      simpa only [update_of_ne hne] using hused
  | @struck c _ _ _ _ _ =>
    left
    rcases eq_or_ne i c with rfl | hne
    · assumption
    · simpa only [update_of_ne hne] using hused

theorem Effect.held_eq (heffect : Effect s clean s' reply) (hclean : clean)
    (hreply : reply = .channel (-1)) : s'.held = s.held := by
  cases heffect with
  | refused hx _ =>
    rw [hx.mpr hclean, hold_zero]
  | registered _ _ _ _ =>
    injection hreply with hreply
    omega
  | struck _ _ _ => cases hreply

/-- What a call must not break: all that is held is in the table, and a call that fails holds
nothing. -/
structure CallOk (s : Service) (call : Call) : Prop where
  recorded : Recorded (s.perform call).1
  nothing : (s.perform call).2 = .channel (-1) → (s.perform call).1.held = s.held

theorem callOk_iff (h : Recorded s) (hlast : (s.channels 63).alloctype = .free) :
    CallOk s call ↔ Clean s call := by
  have heffect := perform_effect h hlast call
  constructor
  · intro hok
    exact (heffect.recorded_iff h).mp hok.recorded
  · intro hclean
    exact ⟨(heffect.recorded_iff h).mpr hclean, heffect.held_eq hclean⟩

def returned : Service → List Call → List ℤ
  | _, [] => []
  | s, call :: calls =>
    match (s.perform call).2 with
    | .channel c => if c = -1 then returned (s.perform call).1 calls
        else c :: returned (s.perform call).1 calls
    | .freed _ => returned (s.perform call).1 calls

def performAll (calls : List Call) : Service :=
  calls.foldl (fun s call => (s.perform call).1) .init

/-- When the release operations succeed nothing is held once every channel that was returned
has been freed. -/
def ReleasesAll (calls : List Call) : Prop :=
  ∀ (answers : Answers) (cs : List ℤ), answers.Release →
    (∀ c ∈ returned .init calls, c ∈ cs) →
    (cs.foldl (fun s c => (s.freeIsoChannel answers c).1) (performAll calls)).held = 0

theorem recorded_init : Recorded .init := by
  constructor
  · exact (total_eq_zero fun _ => ChannelInfo.resources_of_free rfl).symm
  · intro i hused
    exact absurd rfl hused

/-- Clean calls lead to a complete table, whose entries have been returned. -/
theorem run_recorded (h : Recorded s) (hlast : (s.channels 63).alloctype = .free)
    (calls : List Call) (hclean : Along (fun s call => (s.perform call).1) Clean s calls) :
    Recorded (calls.foldl (fun s call => (s.perform call).1) s) ∧
      ((calls.foldl (fun s call => (s.perform call).1) s).channels 63).alloctype = .free ∧
      ∀ i, ((calls.foldl (fun s call => (s.perform call).1) s).channels i).alloctype ≠ .free →
        (s.channels i).alloctype ≠ .free ∨ ((i : ℕ) : ℤ) ∈ returned s calls := by
  induction calls generalizing s with
  | nil => exact ⟨h, hlast, fun i hused => Or.inl hused⟩
  | cons call calls ih =>
    obtain ⟨hcall, hrest⟩ := hclean
    have heffect := perform_effect h hlast call
    obtain ⟨hrecorded, hlast', hreturned⟩ :=
      ih ((heffect.recorded_iff h).mpr hcall) (heffect.last_free hlast) hrest
    refine ⟨hrecorded, hlast', ?_⟩
    intro i hused
    have htail : ((i : ℕ) : ℤ) ∈ returned (s.perform call).1 calls →
        ((i : ℕ) : ℤ) ∈ returned s (call :: calls) := by
      intro hi
      rw [returned]
      split
      · split_ifs
        · exact hi
        · exact List.mem_cons_of_mem _ hi
      · exact hi
    rcases hreturned i hused with hused' | hi
    · rcases heffect.used hused' with hold | hreply
      · exact Or.inl hold
      · right
        rw [returned, hreply]
        simp only
        exact List.mem_cons_self
    · exact Or.inr (htail hi)

theorem freeIsoChannel_free (h : Recorded s) (hlast : (s.channels 63).alloctype = .free)
    (i : Fin 64) :
    ((s.freeIsoChannel answers (i : ℕ)).1.channels i).alloctype = .free := by
  by_cases hused : (s.channels i).alloctype = .free
  · rw [freeIsoChannel_natCast, hused]
    exact hused
  · obtain ⟨rest, hrest⟩ := h.exists_rest i
    rw [freeIsoChannel_of_used (lt_of_used hlast hused) hused hrest]
    simp [ChannelInfo.unused]

theorem free_all (hrelease : answers.Release) (h : Recorded s)
    (hlast : (s.channels 63).alloctype = .free) (cs : List ℤ)
    (hall : ∀ i, (s.channels i).alloctype ≠ .free → ((i : ℕ) : ℤ) ∈ cs) :
    (cs.foldl (fun s c => (s.freeIsoChannel answers c).1) s).held = 0 := by
  induction cs generalizing s with
  | nil =>
    rw [List.foldl_nil, h.balance]
    apply total_eq_zero
    intro i
    apply ChannelInfo.resources_of_free
    by_contra hused
    exact absurd (hall i hused) List.not_mem_nil
  | cons c cs ih =>
    have heffect := perform_effect h hlast (.free answers c)
    have hclean := @clean_free_of_release s answers hrelease c
    apply ih ((heffect.recorded_iff h).mpr hclean) (heffect.last_free hlast)
    intro i hused
    have hbefore : (s.channels i).alloctype ≠ .free := by
      rcases heffect.used hused with hused' | hreply
      · exact hused'
      · cases hreply
    rcases List.mem_cons.mp (hall i hbefore) with rfl | hmem
    · exact absurd (freeIsoChannel_free h hlast i) hused
    · exact hmem

/-- For every sequence of calls with any answers of the bus: everything that is held is recorded
throughout, calls that fail hold nothing, and freeing what was returned releases everything, just if
every call is clean. -/
theorem resources_conserved_iff (calls : List Call) :
    (Along (fun s call => (s.perform call).1) CallOk .init calls ∧ ReleasesAll calls) ↔
      Along (fun s call => (s.perform call).1) Clean .init calls := by
  have hiff : Along (fun s call => (s.perform call).1) CallOk .init calls ↔
      Along (fun s call => (s.perform call).1) Clean .init calls := by
    apply along_iff fun s t => s = t ∧ Recorded s ∧ (s.channels 63).alloctype = .free
    · rintro s _ call - ⟨rfl, h, hlast⟩
      exact callOk_iff h hlast
    · rintro s _ call - ⟨rfl, h, hlast⟩ hok
      exact ⟨rfl, hok.recorded, (perform_effect h hlast call).last_free hlast⟩
    · exact ⟨rfl, recorded_init, rfl⟩
  constructor
  · rintro ⟨hok, -⟩
    exact hiff.mp hok
  · intro hclean
    constructor
    · exact hiff.mpr hclean
    · intro answers cs hrelease hall
      obtain ⟨hrecorded, hlast, hreturned⟩ := run_recorded recorded_init rfl calls hclean
      apply free_all hrelease hrecorded hlast
      intro i hused
      rcases hreturned i hused with hinit | hmem
      · exact absurd rfl hinit
      · exact hall _ hmem

/-- The connection is made on channel 63, and the table has no room for it. -/
def lastChannelAnswers : Answers where
  channelAlloc := fun _ => true
  bandwidthAlloc := true
  channelFree := true
  bandwidthFree := true
  connect := fun _ _ _ _ => ⟨63, 0, 0, 1⟩
  disconnect := true

theorem connection_leaks :
    ¬ (Along (fun s call => (s.perform call).1) CallOk .init
      [.cmp lastChannelAnswers 0 (-1) 1 (-1)] ∧
        ReleasesAll [.cmp lastChannelAnswers 0 (-1) 1 (-1)]) := by
  rintro ⟨⟨hok, -⟩, -⟩
  have hheld := hok.nothing rfl
  exact absurd hheld (by decide)

end Conservation

end Ffado.Ieee1394Service
