import Ffado.Ieee1394.IsoHandlerStart
import Mathlib.Data.List.Nodup

/-!
# Streams and their handlers

The manager has a list of streams and a list of handlers, each of which has at most one stream as
its client. To register a stream a new handler is made; handlers without a client are pruned first,
and again when a stream is unregistered. Handlers are found by their address.
-/
namespace Ffado.StreamRegistry

open IsoStart LabelledRun

inductive ReceiveMode
  | packetPerBuffer
  | bufferfill
  deriving DecidableEq

structure Handler where
  pointer : ℕ
  type : HandlerType
  bufPackets : UInt32
  maxPacketSize : UInt32
  irqInterval : Int32
  receiveMode : ReceiveMode
  client : Option ℕ
  deriving DecidableEq

namespace Handler

variable (h : Handler)

def inUse : Bool := h.client.isSome

def isStreamRegistered (stream : ℕ) : Bool := h.client = some stream

def registerStream (stream : ℕ) : Handler × Bool :=
  if h.client ≠ none then (h, false) else ({ h with client := some stream }, true)

def unregisterStream (stream : ℕ) : Handler × Bool :=
  if h.client ≠ some stream then (h, false) else ({ h with client := none }, true)

end Handler

variable {h : Handler}

/-- What a handler depends on: the settings of the configuration, the page size, and what the stream
says. -/
structure Settings where
  receiveMode : ℤ
  bufferfillThreshold : Int32
  minInterruptsPerPeriod : Int32
  maxNbBuffersRecv : Int32
  minPacketsizeRecv : Int32
  maxNbBuffersXmit : Int32
  maxPacketsizeXmit : Int32
  minPacketsizeXmit : Int32
  pageSize : UInt32
  packetsPerPeriod : UInt32
  maxPacketSize : UInt32
  deriving DecidableEq

namespace Settings

variable (c : Settings)

/-- There is no interval if the setting is zero: the division fails. -/
def irqInterval (buffers : Int32) : Option Int32 :=
  if c.minInterruptsPerPeriod = 0 then none
  else
    let interval := ((c.packetsPerPeriod - 1) / c.minInterruptsPerPeriod.toUInt32).toInt32
    let interval := if interval ≤ 0 then 1 else interval
    -- at least two interrupts per wraparound of the buffer
    some (if interval > buffers / 2 then buffers / 2 else interval)

def mode : ReceiveMode :=
  if c.receiveMode = 0 then
    if c.packetsPerPeriod < c.bufferfillThreshold.toUInt32 then .packetPerBuffer else .bufferfill
  else if c.receiveMode = 2 then .bufferfill
  else .packetPerBuffer

/-- With room for the header of the packets. -/
def packetSize : UInt32 := c.maxPacketSize + 8

def recvPacketSize : UInt32 :=
  let size :=
    if c.packetSize < c.minPacketsizeRecv.toUInt32 then c.minPacketsizeRecv.toUInt32
      else c.packetSize
  -- a too small value causes issues too
  if size < 200 then 200 else size

def xmitPacketSize : UInt32 :=
  if c.packetSize < c.minPacketsizeXmit.toUInt32 then c.minPacketsizeXmit.toUInt32 else c.packetSize

def newRecvHandler (pointer : ℕ) : Option (Option Handler) :=
  if c.packetSize > c.pageSize then some none
  else
    (c.irqInterval c.maxNbBuffersRecv).map fun interval =>
      some ⟨pointer, .receive, c.maxNbBuffersRecv.toUInt32, c.recvPacketSize,
        interval, c.mode, none⟩

def newXmitHandler (pointer : ℕ) : Option (Option Handler) :=
  if c.packetSize > c.maxPacketsizeXmit.toUInt32 then some none
  else
    (c.irqInterval c.maxNbBuffersXmit).map fun interval =>
      some ⟨pointer, .transmit, c.maxNbBuffersXmit.toUInt32, c.xmitPacketSize, interval,
        .packetPerBuffer, none⟩

def newHandler (type : HandlerType) (pointer : ℕ) : Option (Option Handler) :=
  match type with
  | .receive => c.newRecvHandler pointer
  | .transmit => c.newXmitHandler pointer

end Settings

structure Manager where
  handlers : List Handler
  streams : List ℕ
  deriving DecidableEq

namespace Manager

variable (m : Manager)

def registerHandler (h : Handler) : Manager := { m with handlers := m.handlers ++ [h] }

def unregisterHandler (pointer : ℕ) : Manager × Bool :=
  if m.handlers.any (·.pointer = pointer) then
    ({ m with handlers := m.handlers.eraseP (·.pointer = pointer) }, true)
  else (m, false)

/-- The handlers to delete are collected first. -/
def pruneHandlers : Manager :=
  (m.handlers.filter (!·.inUse)).foldl (fun m h => (m.unregisterHandler h.pointer).1) m

def registerStream (type : HandlerType) (stream : ℕ) (c : Settings) (pointer : ℕ) :
    Option (Manager × Bool) :=
  if m.handlers.any (·.isStreamRegistered stream) then some (m, false)
  else
    let m := m.pruneHandlers
    if m.handlers.any (·.pointer = pointer) then none
    else
      match c.newHandler type pointer with
      | none => none
      | some none => some (m, false)
      | some (some h) =>
        match h.registerStream stream with
        | (_, false) => some (m, false)
        | (h, true) =>
          let m := m.registerHandler h
          some ({ m with streams := m.streams ++ [stream] }, true)

/-- All handlers are looked at, up to one that does not let its stream go. -/
def unregisterLoop (stream : ℕ) : List Handler → List Handler × Bool
  | [] => ([], true)
  | h :: hs =>
    if h.isStreamRegistered stream then
      match h.unregisterStream stream with
      | (_, false) => (h :: hs, false)
      | (h, true) => (unregisterLoop stream hs).map (h :: ·) id
    else (unregisterLoop stream hs).map (h :: ·) id

def unregisterStream (stream : ℕ) : Manager × Bool :=
  match unregisterLoop stream m.handlers with
  | (handlers, false) => ({ m with handlers }, false)
  | (handlers, true) =>
    let m := { m with handlers }.pruneHandlers
    if stream ∈ m.streams then ({ m with streams := m.streams.erase stream }, true) else (m, false)

end Manager

inductive Call
  | registerStream (stream : ℕ) (c : Settings) (pointer : ℕ)
  | unregisterStream (stream : ℕ)
  | pruneHandlers
  deriving DecidableEq

def step (typeOf : ℕ → HandlerType) (m : Manager) : Call → Option (Manager × Bool)
  | .registerStream stream c pointer => m.registerStream (typeOf stream) stream c pointer
  | .unregisterStream stream => some (m.unregisterStream stream)
  | .pruneHandlers => some (m.pruneHandlers, true)

def Manager.used (m : Manager) : List Handler := m.handlers.filter Handler.inUse

/-- The streams are the clients of the handlers, one handler of its type for each. -/
structure OneToOne (typeOf : ℕ → HandlerType) (m : Manager) : Prop where
  nodup : m.streams.Nodup
  mem_iff : ∀ stream, stream ∈ m.streams ↔ ∃ h ∈ m.handlers, h.client = some stream
  unique : ∀ stream ∈ m.streams, m.handlers.countP (·.client = some stream) = 1
  type_eq : ∀ h ∈ m.handlers, ∀ stream, h.client = some stream → h.type = typeOf stream

def Manager.clients (m : Manager) : List ℕ := m.handlers.filterMap Handler.client

/-- The invariant of the calls. -/
structure Registry (typeOf : ℕ → HandlerType) (m : Manager) : Prop where
  pointers : (m.handlers.map Handler.pointer).Nodup
  nodup : m.streams.Nodup
  perm : m.clients.Perm m.streams
  type_eq : ∀ h ∈ m.handlers, ∀ stream, h.client = some stream → h.type = typeOf stream

variable {typeOf : ℕ → HandlerType} {m m' : Manager} {stream : ℕ}

theorem mem_clients : stream ∈ m.clients ↔ ∃ h ∈ m.handlers, h.client = some stream :=
  List.mem_filterMap

theorem Registry.oneToOne (hm : Registry typeOf m) : OneToOne typeOf m where
  nodup := hm.nodup
  mem_iff stream := hm.perm.mem_iff.symm.trans mem_clients
  unique stream hstream := by
    have hcount : m.clients.count stream = 1 := by
      rw [hm.perm.count_eq]
      exact List.count_eq_one_of_mem hm.nodup hstream
    rw [← hcount, Manager.clients, List.count_filterMap]
    exact List.countP_congr fun h _ => by simp
  type_eq := hm.type_eq

section Prune

theorem eraseP_pointer_eq {hs : List Handler} (hnodup : (hs.map Handler.pointer).Nodup)
    (pointer : ℕ) : hs.eraseP (·.pointer = pointer) = hs.filter (·.pointer ≠ pointer) := by
  induction hs with
  | nil => rfl
  | cons h hs ih =>
    rw [List.map_cons, List.nodup_cons] at hnodup
    by_cases hpointer : h.pointer = pointer
    · subst hpointer
      have hothers : ∀ h' ∈ hs, decide (h'.pointer ≠ h.pointer) = true := by
        intro h' hmem
        rw [decide_eq_true_eq]
        intro heq
        exact hnodup.1 (heq ▸ List.mem_map_of_mem hmem)
      rw [List.eraseP_cons_of_pos (by simp), List.filter_cons_of_neg (by simp),
        List.filter_eq_self.mpr hothers]
    · rw [List.eraseP_cons_of_neg (by simpa using hpointer),
        List.filter_cons_of_pos (by simpa using hpointer), ih hnodup.2]

theorem unregisterHandler_fst (hnodup : (m.handlers.map Handler.pointer).Nodup) (pointer : ℕ) :
    (m.unregisterHandler pointer).1 =
      { m with handlers := m.handlers.filter (·.pointer ≠ pointer) } := by
  rw [Manager.unregisterHandler, ← eraseP_pointer_eq hnodup]
  split_ifs with hany
  · rfl
  · rw [List.eraseP_of_forall_not]
    intro h hmem
    simp only [List.any_eq_true, not_exists, not_and] at hany
    exact hany h hmem

theorem nodup_filter {hs : List Handler} (hnodup : (hs.map Handler.pointer).Nodup)
    (p : Handler → Bool) : ((hs.filter p).map Handler.pointer).Nodup :=
  (List.filter_sublist.map _).nodup hnodup

theorem foldl_unregisterHandler (us : List Handler)
    (hnodup : (m.handlers.map Handler.pointer).Nodup) :
    us.foldl (fun m h => (m.unregisterHandler h.pointer).1) m =
      { m with handlers := m.handlers.filter (·.pointer ∉ us.map Handler.pointer) } := by
  induction us generalizing m with
  | nil => simp
  | cons u us ih =>
    rw [List.foldl_cons, unregisterHandler_fst hnodup, ih (nodup_filter hnodup _),
      List.filter_filter]
    congr 2
    funext h
    by_cases hpointer : h.pointer = u.pointer
    · simp [hpointer]
    · simp [hpointer]

theorem pruneHandlers_eq (hnodup : (m.handlers.map Handler.pointer).Nodup) :
    m.pruneHandlers = { m with handlers := m.used } := by
  rw [Manager.pruneHandlers, foldl_unregisterHandler _ hnodup, Manager.used]
  congr 1
  apply List.filter_congr
  intro h hmem
  cases huse : h.inUse with
  | false =>
    have hpruned : h.pointer ∈ (m.handlers.filter (!·.inUse)).map Handler.pointer :=
      List.mem_map_of_mem (List.mem_filter.mpr ⟨hmem, by simp [huse]⟩)
    simpa [and_assoc] using hpruned
  | true =>
    rw [decide_eq_true_eq]
    intro hpruned
    obtain ⟨h', hmem', hpointer⟩ := List.mem_map.mp hpruned
    obtain ⟨hmem', hunused⟩ := List.mem_filter.mp hmem'
    obtain rfl := List.inj_on_of_nodup_map hnodup hmem' hmem hpointer
    simp [huse] at hunused

theorem used_used (hs : List Handler) :
    (hs.filter Handler.inUse).filter Handler.inUse = hs.filter Handler.inUse := by
  simp

theorem clients_filter_inUse (hs : List Handler) :
    (hs.filter Handler.inUse).filterMap Handler.client = hs.filterMap Handler.client := by
  induction hs with
  | nil => rfl
  | cons h hs ih =>
    cases hclient : h.client with
    | none =>
      rw [List.filter_cons_of_neg (by simp [Handler.inUse, hclient]),
        List.filterMap_cons_none hclient, ih]
    | some stream =>
      rw [List.filter_cons_of_pos (by simp [Handler.inUse, hclient]),
        List.filterMap_cons_some hclient, List.filterMap_cons_some hclient, ih]

theorem Registry.pruned (hm : Registry typeOf m) :
    Registry typeOf { m with handlers := m.used } where
  pointers := nodup_filter hm.pointers _
  nodup := hm.nodup
  perm := by
    rw [Manager.clients, Manager.used, clients_filter_inUse]
    exact hm.perm
  type_eq h hmem := hm.type_eq h (List.mem_of_mem_filter hmem)

end Prune

theorem newHandler_eq {c : Settings} {type : HandlerType} {pointer : ℕ}
    (hnew : c.newHandler type pointer = some (some h)) :
    h.pointer = pointer ∧ h.type = type ∧ h.client = none := by
  cases type with
  | receive =>
    rw [Settings.newHandler, Settings.newRecvHandler] at hnew
    split_ifs at hnew
    · cases hnew
    · obtain ⟨interval, -, heq⟩ := Option.map_eq_some_iff.mp hnew
      cases heq
      exact ⟨rfl, rfl, rfl⟩
  | transmit =>
    rw [Settings.newHandler, Settings.newXmitHandler] at hnew
    split_ifs at hnew
    · cases hnew
    · obtain ⟨interval, -, heq⟩ := Option.map_eq_some_iff.mp hnew
      cases heq
      exact ⟨rfl, rfl, rfl⟩

theorem registerStream_cases {type : HandlerType} {c : Settings} {pointer : ℕ} {b : Bool}
    (hnodup : (m.handlers.map Handler.pointer).Nodup)
    (hstep : m.registerStream type stream c pointer = some (m', b)) :
    (b = false ∧ (m' = m ∨ m' = { m with handlers := m.used })) ∨
      (b = true ∧ stream ∉ m.clients ∧ ∃ h : Handler, h.pointer ∉ m.used.map Handler.pointer ∧
        h.type = type ∧ h.client = some stream ∧
          m' = ⟨m.used ++ [h], m.streams ++ [stream]⟩) := by
  rw [Manager.registerStream, pruneHandlers_eq hnodup] at hstep
  dsimp only at hstep
  split_ifs at hstep with hregistered hused
  · cases hstep
    exact .inl ⟨rfl, .inl rfl⟩
  · cases hnew : c.newHandler type pointer with
    | none =>
      rw [hnew] at hstep
      cases hstep
    | some h? =>
      rw [hnew] at hstep
      cases h? with
      | none =>
        cases hstep
        exact .inl ⟨rfl, .inr rfl⟩
      | some h =>
        obtain ⟨hpointer, htype, hclient⟩ := newHandler_eq hnew
        have hregister : h.registerStream stream = ({ h with client := some stream }, true) := by
          rw [Handler.registerStream, if_neg (by simp [hclient])]
        simp only [hregister] at hstep
        cases hstep
        refine .inr ⟨rfl, ?_, { h with client := some stream }, ?_, htype, rfl, rfl⟩
        · rw [mem_clients]
          simpa [Handler.isStreamRegistered] using hregistered
        · intro hmem
          obtain ⟨h', hmem', heq⟩ := List.mem_map.mp hmem
          exact hused (List.any_eq_true.mpr ⟨h', hmem', by simp [heq, hpointer]⟩)

theorem Registry.registered (hm : Registry typeOf m) (hnew : stream ∉ m.clients)
    (hpointer : h.pointer ∉ m.used.map Handler.pointer) (htype : h.type = typeOf stream)
    (hclient : h.client = some stream) :
    Registry typeOf ⟨m.used ++ [h], m.streams ++ [stream]⟩ where
  pointers := by
    rw [List.map_append, List.map_singleton, ← List.concat_eq_append]
    exact (List.nodup_concat _ _).mpr ⟨hpointer, hm.pruned.pointers⟩
  nodup := by
    have hstream : stream ∉ m.streams := fun hmem => hnew (hm.perm.mem_iff.mpr hmem)
    have hconcat := (List.nodup_concat _ _).mpr ⟨hstream, hm.nodup⟩
    rwa [List.concat_eq_append] at hconcat
  perm := by
    have hclients : (Manager.mk (m.used ++ [h]) (m.streams ++ [stream])).clients =
        m.clients ++ [stream] := by
      rw [Manager.clients, List.filterMap_append, Manager.used, clients_filter_inUse,
        List.filterMap_cons_some hclient]
      rfl
    rw [hclients]
    exact hm.perm.append_right [stream]
  type_eq h' hmem stream' hclient' := by
    rcases List.mem_append.mp hmem with hmem | hmem
    · exact hm.type_eq h' (List.mem_of_mem_filter hmem) stream' hclient'
    · obtain rfl := List.mem_singleton.mp hmem
      rw [hclient] at hclient'
      rw [htype, Option.some.inj hclient']

section Unregister

def clear (stream : ℕ) (h : Handler) : Handler :=
  if h.client = some stream then { h with client := none } else h

theorem unregisterLoop_eq (stream : ℕ) (hs : List Handler) :
    Manager.unregisterLoop stream hs = (hs.map (clear stream), true) := by
  induction hs with
  | nil => rfl
  | cons h hs ih =>
    rw [Manager.unregisterLoop, List.map_cons, clear]
    by_cases hclient : h.client = some stream
    · have hunregister : h.unregisterStream stream = ({ h with client := none }, true) := by
        rw [Handler.unregisterStream, if_neg (not_not.mpr hclient)]
      rw [if_pos (by simp [Handler.isStreamRegistered, hclient]), if_pos hclient, hunregister, ih]
      rfl
    · rw [if_neg (by simp [Handler.isStreamRegistered, hclient]), if_neg hclient, ih]
      rfl

theorem clear_pointer (stream : ℕ) (h : Handler) : (clear stream h).pointer = h.pointer := by
  rw [clear]
  split_ifs <;> rfl

theorem clear_eq_self {h : Handler} (hclient : h.client ≠ some stream) : clear stream h = h :=
  if_neg hclient

theorem clients_clear (stream : ℕ) (hs : List Handler) :
    (hs.map (clear stream)).filterMap Handler.client =
      (hs.filterMap Handler.client).filter (· ≠ stream) := by
  induction hs with
  | nil => rfl
  | cons h hs ih =>
    rw [List.map_cons]
    by_cases hclient : h.client = some stream
    · rw [List.filterMap_cons_none (by rw [clear, if_pos hclient]),
        List.filterMap_cons_some hclient, List.filter_cons_of_neg (by simp), ih]
    · rw [clear_eq_self hclient]
      cases hother : h.client with
      | none => rw [List.filterMap_cons_none hother, List.filterMap_cons_none hother, ih]
      | some other =>
        have hne : other ≠ stream := by
          rintro rfl
          exact hclient hother
        rw [List.filterMap_cons_some hother, List.filterMap_cons_some hother,
          List.filter_cons_of_pos (by simpa using hne), ih]

/-- The manager behind the loop over the handlers. -/
def cleared (m : Manager) (stream : ℕ) : Manager := ⟨m.handlers.map (clear stream), m.streams⟩

theorem nodup_cleared (hm : Registry typeOf m) (stream : ℕ) :
    ((cleared m stream).handlers.map Handler.pointer).Nodup := by
  have hsame : Handler.pointer ∘ clear stream = Handler.pointer := funext (clear_pointer stream)
  rw [cleared, List.map_map, hsame]
  exact hm.pointers

theorem unregisterStream_eq (hm : Registry typeOf m) (stream : ℕ) :
    m.unregisterStream stream =
      if stream ∈ m.streams then (⟨(cleared m stream).used, m.streams.erase stream⟩, true)
      else (⟨m.used, m.streams⟩, false) := by
  have hpruned : (Manager.mk (m.handlers.map (clear stream)) m.streams).pruneHandlers =
      ⟨(cleared m stream).used, m.streams⟩ := pruneHandlers_eq (nodup_cleared hm stream)
  rw [Manager.unregisterStream, unregisterLoop_eq]
  dsimp only
  rw [hpruned]
  split_ifs with hmem
  · rfl
  · have hclients : ∀ h ∈ m.handlers, clear stream h = h := by
      intro h hh
      apply clear_eq_self
      intro hclient
      exact hmem (hm.perm.mem_iff.mp (mem_clients.mpr ⟨h, hh, hclient⟩))
    have hsame : cleared m stream = m := by
      rw [cleared, List.map_congr_left hclients, List.map_id']
    rw [hsame]

theorem Registry.unregistered (hm : Registry typeOf m) :
    Registry typeOf ⟨(cleared m stream).used, m.streams.erase stream⟩ where
  pointers := nodup_filter (nodup_cleared hm stream) _
  nodup := hm.nodup.erase stream
  perm := by
    have hclients : (Manager.mk (cleared m stream).used (m.streams.erase stream)).clients =
        m.clients.filter (· ≠ stream) := by
      rw [Manager.clients, Manager.used, clients_filter_inUse]
      exact clients_clear stream m.handlers
    have hstreams : m.streams.erase stream = m.streams.filter (· ≠ stream) := by
      rw [hm.nodup.erase_eq_filter]
      exact List.filter_congr fun other _ => Bool.eq_iff_iff.mpr (by simp)
    rw [hclients, hstreams]
    exact hm.perm.filter _
  type_eq h hmem other hclient := by
    obtain ⟨h', hmem', rfl⟩ := List.mem_map.mp (List.mem_of_mem_filter hmem)
    by_cases hstream : h'.client = some stream
    · rw [clear, if_pos hstream] at hclient
      cases hclient
    · rw [clear_eq_self hstream] at hclient ⊢
      exact hm.type_eq h' hmem' other hclient

end Unregister

/-- What a call that succeeds or fails has done to the handlers. -/
structure Reported (m m' : Manager) (b : Bool) : Prop where
  no_idle : b = true → ∀ h ∈ m'.handlers, h.client ≠ none
  unchanged : b = false → m'.streams = m.streams ∧ m'.used = m.used

theorem client_ne_of_mem_used (hmem : h ∈ m.used) : h.client ≠ none :=
  Option.isSome_iff_ne_none.mp (List.mem_filter.mp hmem).2

theorem used_of_used (m : Manager) : (Manager.mk m.used m.streams).used = m.used :=
  used_used m.handlers

theorem registry_step {b : Bool} {call : Call} (hm : Registry typeOf m)
    (hstep : step typeOf m call = some (m', b)) : Registry typeOf m' ∧ Reported m m' b := by
  cases call with
  | registerStream stream c pointer =>
    rcases registerStream_cases hm.pointers hstep
      with ⟨rfl, hfailed⟩ | ⟨rfl, hnew, h, hpointer, htype, hclient, rfl⟩
    · rcases hfailed with rfl | rfl
      · exact ⟨hm, nofun, fun _ => ⟨rfl, rfl⟩⟩
      · exact ⟨hm.pruned, nofun, fun _ => ⟨rfl, used_of_used m⟩⟩
    · refine ⟨hm.registered hnew hpointer htype hclient, fun _ h' hmem => ?_, nofun⟩
      rcases List.mem_append.mp hmem with hmem | hmem
      · exact client_ne_of_mem_used hmem
      · obtain rfl := List.mem_singleton.mp hmem
        simp [hclient]
  | unregisterStream stream =>
    rw [step, unregisterStream_eq hm] at hstep
    split_ifs at hstep with hmem
    · cases hstep
      exact ⟨hm.unregistered, fun _ h => client_ne_of_mem_used, nofun⟩
    · cases hstep
      exact ⟨hm.pruned, nofun, fun _ => ⟨rfl, used_of_used m⟩⟩
  | pruneHandlers =>
    rw [step, pruneHandlers_eq hm.pointers] at hstep
    cases hstep
    exact ⟨hm.pruned, fun _ h => client_ne_of_mem_used, nofun⟩

theorem registry_empty : Registry typeOf ⟨[], []⟩ :=
  ⟨List.nodup_nil, List.nodup_nil, .refl _, by simp⟩

def Step (typeOf : ℕ → HandlerType) (m : Manager) (call : Call) (m' : Manager) : Prop :=
  ∃ b, step typeOf m call = some (m', b)

/-- Over any calls the streams are the clients of the handlers, and every call does what it
reports. -/
theorem registry_holds {calls : List Call} (hrun : Run (Step typeOf) ⟨[], []⟩ calls m) :
    OneToOne typeOf m ∧
      ∀ call m' b, step typeOf m call = some (m', b) → Reported m m' b := by
  have hm : Registry typeOf m :=
    hrun.invariant (Registry typeOf) (fun _ _ _ hm ⟨_, hstep⟩ => (registry_step hm hstep).1)
      registry_empty
  exact ⟨hm.oneToOne, fun _ _ _ hstep => (registry_step hm hstep).2⟩

/-- The default settings, and a stream with packets of 100 bytes. -/
def defaults : Settings :=
  ⟨0, 64, 2, 128, 72, 128, 2032, 72, 4096, 8, 100⟩

/-- Two streams are registered and one of them is unregistered. -/
theorem registry_two_streams :
    OneToOne (fun stream => if stream = 1 then .receive else .transmit)
      ⟨[⟨11, .transmit, 128, 108, 3, .packetPerBuffer, some 2⟩], [2]⟩ := by
  have hrun : Run (Step fun stream => if stream = 1 then .receive else .transmit) ⟨[], []⟩
      [.registerStream 1 defaults 10, .registerStream 2 defaults 11, .unregisterStream 1]
      ⟨[⟨11, .transmit, 128, 108, 3, .packetPerBuffer, some 2⟩], [2]⟩ := by
    refine .cons ⟨true, rfl⟩ (.cons ⟨true, rfl⟩ (.cons ⟨true, ?_⟩ (.nil _)))
    decide
  exact (registry_holds hrun).1

end Ffado.StreamRegistry
