import Ffado.Ieee1394.IsoHandlerStart

/-!
# The shadow map of an ISO thread

The thread polls copies of the handlers that are enabled. `updateShadowMapHelper` updates the states
of all handlers of its type and writes those that run into two arrays; a store behind the arrays is
`none`. Whether the arrays are full is tested behind the store, and the sync handler of a receive
thread is chosen by the number of entries that the previous call has left.
-/
namespace Ffado.ShadowMap

open IsoStart

/-- `ISOHANDLERMANAGER_MAX_ISO_HANDLERS_PER_PORT` -/
def maxHandlers : ℕ := 16

/-- A handler of the manager's list, and how the kernel interface answers if it is enabled now. -/
structure Entry where
  pointer : ℕ
  handler : Handler
  answers : Answers

structure PollFd where
  fd : ℤ
  events : ℕ
  revents : ℕ
  deriving DecidableEq

def pollIn : ℕ := 1

/-- The members of the thread that the update writes. -/
structure Task where
  handlerType : HandlerType
  inBusreset : Bool
  map : ℕ → Option ℕ
  pollFds : ℕ → PollFd
  pollNfds : ℕ
  syncHandler : Option ℕ

namespace Task

variable (getFd : ℕ → ℤ)

/-- An enabled handler with this handle is written to the arrays. -/
def store (t : Task) (cnt : ℕ) (e : Entry) (handle : ℕ) : Task :=
  { t with
    map := Function.update t.map cnt (some e.pointer)
    pollFds := Function.update t.pollFds cnt ⟨getFd handle, pollIn, 0⟩
    syncHandler :=
      if t.syncHandler = none ∧ e.handler.type = .transmit then some e.pointer else t.syncHandler }

/-- What is done with a handler whose state has been updated. -/
def add (t : Task) (cnt : ℕ) (e : Entry) : Option (ℕ × Task) :=
  if e.handler.state = .running then
    e.handler.handle.bind fun handle =>
      if cnt < maxHandlers then some (cnt + 1, t.store getFd cnt e handle) else none
  else some (cnt, t)

end Task

def Entry.update (type : HandlerType) (e : Entry) : Option Entry :=
  if e.handler.type ≠ type then some e
  else (e.handler.updateState e.answers).map fun handler => { e with handler }

def updateLoop (getFd : ℕ → ℤ) (t : Task) (cnt : ℕ) : List Entry → Option (List Entry × ℕ × Task)
  | [] => some ([], cnt, t)
  | e :: es =>
    if e.handler.type ≠ t.handlerType then
      (updateLoop getFd t cnt es).map fun r => (e :: r.1, r.2)
    else
      (e.update t.handlerType).bind fun e =>
        (t.add getFd cnt e).bind fun r =>
          -- the handlers behind a break are not updated
          if r.1 > maxHandlers then some (e :: es, r)
          else (updateLoop getFd r.2 r.1 es).map fun r => (e :: r.1, r.2)

def updateShadowMapHelper (getFd : ℕ → ℤ) (es : List Entry) (t : Task) :
    Option (List Entry × Task) :=
  if t.inBusreset then some (es, { t with pollNfds := 0 })
  else
    (updateLoop getFd { t with syncHandler := none } 0 es).map fun r =>
      let t := r.2.2
      (r.1,
        { t with
          syncHandler :=
            if t.syncHandler = none ∧ t.pollNfds ≠ 0 then t.map 0 else t.syncHandler
          pollNfds := r.2.1 })

def enabled (type : HandlerType) (es : List Entry) : List Entry :=
  es.filter fun e => e.handler.type = type ∧ e.handler.state = .running

/-- The handler has become this one, and if it is to be polled it has a handle. -/
structure Updated (type : HandlerType) (e e' : Entry) : Prop where
  update_eq : e.update type = some e'
  handle_ne : e'.handler.type = type → e'.handler.state = .running → e'.handler.handle ≠ none

/-- The entries are the enabled handlers in order, each with its file descriptor. -/
structure Mirrors (getFd : ℕ → ℤ) (t : Task) (es : List Entry) : Prop where
  count : t.pollNfds = (enabled t.handlerType es).length
  count_le : t.pollNfds ≤ maxHandlers
  map_eq : ∀ i e, (enabled t.handlerType es)[i]? = some e → t.map i = some e.pointer
  pollFds_eq : ∀ i e, (enabled t.handlerType es)[i]? = some e →
    ∃ handle, e.handler.handle = some handle ∧ t.pollFds i = ⟨getFd handle, pollIn, 0⟩
  sync : t.syncHandler = (enabled t.handlerType es).head?.map Entry.pointer

section Loop

variable {t : Task} {cnt : ℕ} {type : HandlerType} {e e' : Entry} {es es' : List Entry}

variable {h : Handler}

theorem enable_type {cycle : ℤ} {answers : Answers} {r : Handler × Bool}
    (henable : h.enable cycle answers = some r) : r.1.type = h.type := by
  rw [Handler.enable] at henable
  cases hanswer : answers.handle with
  | none =>
    rw [hanswer] at henable
    split_ifs at henable <;> cases henable <;> rfl
  | some handle =>
    rw [hanswer] at henable
    dsimp only at henable
    split_ifs at henable <;> cases henable <;> rfl

theorem disable_type {r : Handler × Bool} (hdisable : h.disable = some r) :
    r.1.type = h.type := by
  rw [Handler.disable] at hdisable
  split_ifs at hdisable <;> cases hdisable <;> rfl

theorem updateState_type {h' : Handler} {answers : Answers}
    (hupdate : h.updateState answers = some h') : h'.type = h.type := by
  rw [Handler.updateState] at hupdate
  split_ifs at hupdate
  · obtain ⟨r, henable, rfl⟩ := Option.map_eq_some_iff.mp hupdate
    exact enable_type henable
  · obtain ⟨r, hdisable, rfl⟩ := Option.map_eq_some_iff.mp hupdate
    exact disable_type hdisable
  · cases hupdate
    rfl
  · cases hupdate
    rfl

theorem update_type (hupdate : e.update type = some e') : e'.handler.type = e.handler.type := by
  rw [Entry.update] at hupdate
  split_ifs at hupdate
  · cases hupdate
    rfl
  · obtain ⟨h', hstate, rfl⟩ := Option.map_eq_some_iff.mp hupdate
    exact updateState_type hstate

/-- The arrays with the handlers written from an index on. -/
def fill (getFd : ℕ → ℤ) (t : Task) (cnt : ℕ) : List Entry → Task
  | [] => t
  | e :: es => fill getFd (t.store getFd cnt e (e.handler.handle.getD 0)) (cnt + 1) es

theorem enabled_cons_of_enabled (htype : e.handler.type = type)
    (hstate : e.handler.state = .running) : enabled type (e :: es) = e :: enabled type es :=
  List.filter_cons_of_pos (by simp [htype, hstate])

theorem enabled_cons_of_not (h : ¬ (e.handler.type = type ∧ e.handler.state = .running)) :
    enabled type (e :: es) = enabled type es :=
  List.filter_cons_of_neg (by simpa using h)

/-- The loop writes the enabled handlers if the arrays have room for them, and else behind the
arrays. -/
theorem updateLoop_eq (getFd : ℕ → ℤ) (htype : t.handlerType = type)
    (hes : List.Forall₂ (Updated type) es es') (hcnt : cnt ≤ maxHandlers) :
    updateLoop getFd t cnt es =
      if cnt + (enabled type es').length ≤ maxHandlers then
        some (es', cnt + (enabled type es').length, fill getFd t cnt (enabled type es'))
      else none := by
  induction hes generalizing t cnt with
  | nil => exact (if_pos hcnt).symm
  | @cons e e' es es' he _ ih =>
    have htype' := update_type he.update_eq
    by_cases hother : e.handler.type ≠ type
    · have hsame : e' = e := by
        have hupdate := he.update_eq
        rw [Entry.update, if_pos hother] at hupdate
        exact (Option.some.inj hupdate).symm
      subst hsame
      rw [updateLoop, htype, if_pos hother, ih htype hcnt,
        enabled_cons_of_not fun h => hother h.1]
      split_ifs <;> rfl
    · rw [not_not] at hother
      rw [updateLoop, htype, if_neg (not_not.mpr hother), he.update_eq, Option.bind_some, Task.add]
      by_cases hrunning : e'.handler.state = .running
      · have hne := he.handle_ne (htype'.trans hother) hrunning
        obtain ⟨handle, hhandle⟩ := Option.ne_none_iff_exists'.mp hne
        rw [if_pos hrunning, hhandle, Option.bind_some,
          enabled_cons_of_enabled (htype'.trans hother) hrunning, List.length_cons]
        by_cases hroom : cnt < maxHandlers
        · rw [if_pos hroom, Option.bind_some]
          dsimp only
          rw [if_neg (by omega), ih (t := t.store getFd cnt e' handle) htype hroom, fill, hhandle]
          have harith : cnt + 1 + (enabled type es').length =
            cnt + ((enabled type es').length + 1) := by
            omega
          rw [harith]
          split_ifs <;> rfl
        · rw [if_neg hroom, if_neg (by omega)]
          rfl
      · rw [if_neg hrunning, Option.bind_some, enabled_cons_of_not fun h => hrunning h.2]
        dsimp only
        rw [if_neg (by omega), ih htype hcnt]
        split_ifs <;> rfl

end Loop

section WriteFrom

variable {β : Type} (f : ℕ → β) (cnt : ℕ) (xs : List β)

/-- An array with the values written from an index on. -/
def writeFrom (f : ℕ → β) (cnt : ℕ) : List β → ℕ → β
  | [] => f
  | x :: xs => writeFrom (Function.update f cnt x) (cnt + 1) xs

theorem writeFrom_of_lt {i : ℕ} (hi : i < cnt) : writeFrom f cnt xs i = f i := by
  induction xs generalizing f cnt with
  | nil => rfl
  | cons x xs ih =>
    rw [writeFrom, ih _ _ (by omega)]
    exact Function.update_of_ne (by omega) _ _

theorem writeFrom_add {i : ℕ} {x : β} (hi : xs[i]? = some x) :
    writeFrom f cnt xs (cnt + i) = x := by
  induction xs generalizing f cnt i with
  | nil => cases hi
  | cons y xs ih =>
    cases i with
    | zero =>
      obtain rfl : y = x := Option.some.inj hi
      rw [Nat.add_zero, writeFrom, writeFrom_of_lt _ _ _ (Nat.lt_succ_self _)]
      exact Function.update_self _ _ _
    | succ i =>
      have harith : cnt + (i + 1) = cnt + 1 + i := by omega
      rw [writeFrom, harith]
      exact ih _ _ hi

end WriteFrom

section Fill

variable (getFd : ℕ → ℤ) (t : Task) (cnt : ℕ) (es : List Entry)

theorem fill_map : (fill getFd t cnt es).map =
    writeFrom t.map cnt (es.map fun e => some e.pointer) := by
  induction es generalizing t cnt with
  | nil => rfl
  | cons e es ih => exact ih _ _

theorem fill_pollFds : (fill getFd t cnt es).pollFds =
    writeFrom t.pollFds cnt (es.map fun e => ⟨getFd (e.handler.handle.getD 0), pollIn, 0⟩) := by
  induction es generalizing t cnt with
  | nil => rfl
  | cons e es ih => exact ih _ _

theorem fill_pollNfds : (fill getFd t cnt es).pollNfds = t.pollNfds := by
  induction es generalizing t cnt with
  | nil => rfl
  | cons e es ih => exact ih _ _

theorem fill_handlerType : (fill getFd t cnt es).handlerType = t.handlerType := by
  induction es generalizing t cnt with
  | nil => rfl
  | cons e es ih => exact ih _ _

theorem fill_syncHandler_receive (hes : ∀ e ∈ es, e.handler.type = .receive) :
    (fill getFd t cnt es).syncHandler = t.syncHandler := by
  induction es generalizing t cnt with
  | nil => rfl
  | cons e es ih =>
    have hne : ¬ (t.syncHandler = none ∧ e.handler.type = .transmit) := by
      rw [hes e List.mem_cons_self]
      simp
    rw [fill, ih _ _ fun e' he' => hes e' (List.mem_cons_of_mem _ he')]
    exact if_neg hne

theorem fill_syncHandler_of_some {pointer : ℕ} (ht : t.syncHandler = some pointer) :
    (fill getFd t cnt es).syncHandler = some pointer := by
  induction es generalizing t cnt with
  | nil => exact ht
  | cons e es ih =>
    refine ih _ _ ?_
    rw [Task.store]
    exact (if_neg (by simp [ht])).trans ht

theorem fill_syncHandler_transmit (ht : t.syncHandler = none)
    (hes : ∀ e ∈ es, e.handler.type = .transmit) :
    (fill getFd t cnt es).syncHandler = es.head?.map Entry.pointer := by
  cases es with
  | nil => exact ht
  | cons e es => exact fill_syncHandler_of_some getFd _ _ es (if_pos ⟨ht, hes e List.mem_cons_self⟩)

end Fill

section Update

variable (getFd : ℕ → ℤ) {t : Task} {es es' : List Entry}

variable {e : Entry}

/-- The sync handler that is chosen behind the loop. -/
def chosen (t : Task) (handlers : List Entry) : Option ℕ :=
  match handlers with
  | [] => if t.pollNfds ≠ 0 then t.map 0 else none
  | e :: _ => if t.handlerType = .transmit ∨ t.pollNfds ≠ 0 then some e.pointer else none

theorem mem_enabled {type : HandlerType} (he : e ∈ enabled type es) :
    e.handler.type = type ∧ e.handler.state = .running := by
  simpa using (List.mem_filter.mp he).2

theorem fill_map_zero (handlers : List Entry) :
    (fill getFd t 0 handlers).map 0 = (handlers.head?.map Entry.pointer).or (t.map 0) := by
  rw [fill_map]
  cases handlers with
  | nil => rfl
  | cons e handlers =>
    exact writeFrom_add t.map 0 (some e.pointer :: handlers.map fun e => some e.pointer)
      (i := 0) rfl

theorem syncHandler_eq (hes : ∀ e ∈ es, e.handler.type = t.handlerType)
    (hsync : t.syncHandler = none) :
    (if (fill getFd t 0 es).syncHandler = none ∧ (fill getFd t 0 es).pollNfds ≠ 0 then
      (fill getFd t 0 es).map 0 else (fill getFd t 0 es).syncHandler) = chosen t es := by
  rw [fill_map_zero, fill_pollNfds]
  cases es with
  | nil =>
    change (if t.syncHandler = none ∧ t.pollNfds ≠ 0 then t.map 0 else t.syncHandler) = _
    rw [hsync, chosen]
    simp
  | cons e es =>
    cases htype : t.handlerType with
    | receive =>
      rw [htype] at hes
      rw [fill_syncHandler_receive getFd t 0 _ hes, hsync, chosen, htype]
      simp
    | transmit =>
      rw [htype] at hes
      rw [fill_syncHandler_transmit getFd t 0 _ hsync hes, chosen, htype]
      simp

/-- The thread behind an update that has room for all handlers. -/
def mirrored (t : Task) (handlers : List Entry) : Task :=
  { fill getFd { t with syncHandler := none } 0 handlers with
    syncHandler := chosen t handlers
    pollNfds := handlers.length }

theorem update_eq (hreset : t.inBusreset = false)
    (hes : List.Forall₂ (Updated t.handlerType) es es') :
    updateShadowMapHelper getFd es t =
      if (enabled t.handlerType es').length ≤ maxHandlers then
        some (es', mirrored getFd t (enabled t.handlerType es'))
      else none := by
  have hloop := updateLoop_eq getFd (t := { t with syncHandler := none }) rfl hes
    (Nat.zero_le maxHandlers)
  have htypes : ∀ e ∈ enabled t.handlerType es', e.handler.type = t.handlerType :=
    fun _ he => (mem_enabled he).1
  have hsync := syncHandler_eq getFd (t := { t with syncHandler := none }) htypes rfl
  rw [updateShadowMapHelper, if_neg (by simp [hreset]), hloop, Nat.zero_add]
  split_ifs with hroom
  · rw [Option.map_some, mirrored]
    dsimp only
    rw [hsync]
    rfl
  · rfl

theorem chosen_eq_iff (handlers : List Entry) :
    chosen t handlers = handlers.head?.map Entry.pointer ↔
      if handlers = [] then t.pollNfds = 0 ∨ t.map 0 = none
      else t.handlerType = .transmit ∨ t.pollNfds ≠ 0 := by
  cases handlers with
  | nil =>
    rw [chosen, if_pos rfl]
    change (if t.pollNfds ≠ 0 then t.map 0 else none) = none ↔ _
    by_cases hcount : t.pollNfds = 0
    · simp [hcount]
    · simp [hcount]
  | cons e handlers =>
    rw [chosen, if_neg (List.cons_ne_nil _ _)]
    change (if _ then some e.pointer else none) = some e.pointer ↔ _
    split_ifs with hchosen
    · exact iff_of_true rfl hchosen
    · exact iff_of_false nofun hchosen

theorem mirrored_map {handlers : List Entry} {i : ℕ} (hi : handlers[i]? = some e) :
    (mirrored getFd t handlers).map i = some e.pointer := by
  have hget : (handlers.map fun e => some e.pointer)[i]? = some (some e.pointer) := by
    rw [List.getElem?_map, hi]
    rfl
  change (fill getFd _ 0 handlers).map i = _
  rw [fill_map, ← Nat.zero_add i]
  exact writeFrom_add _ 0 _ hget

theorem mirrored_pollFds {handlers : List Entry} {i : ℕ} {handle : ℕ} (hi : handlers[i]? = some e)
    (hhandle : e.handler.handle = some handle) :
    (mirrored getFd t handlers).pollFds i = ⟨getFd handle, pollIn, 0⟩ := by
  have hget : (handlers.map fun e => PollFd.mk (getFd (e.handler.handle.getD 0)) pollIn 0)[i]? =
      some ⟨getFd handle, pollIn, 0⟩ := by
    rw [List.getElem?_map, hi, Option.map_some, hhandle]
    rfl
  change (fill getFd _ 0 handlers).pollFds i = _
  rw [fill_pollFds, ← Nat.zero_add i]
  exact writeFrom_add _ 0 _ hget

theorem handle_ne_of_mem {type : HandlerType} (hes : List.Forall₂ (Updated type) es es')
    (he : e ∈ enabled type es') : e.handler.handle ≠ none := by
  obtain ⟨htype, hstate⟩ := mem_enabled he
  have hmem : e ∈ es' := List.mem_of_mem_filter he
  induction hes with
  | nil => cases hmem
  | cons hupdated hes ih =>
    rcases List.mem_cons.mp hmem with rfl | hmem
    · exact hupdated.handle_ne htype hstate
    · exact ih (List.mem_filter.mpr ⟨hmem, by simp [htype, hstate]⟩) hmem

/-- The update mirrors the enabled handlers just if there is room for them, and the number of
entries before it tells right whether there is a handler to choose. -/
theorem shadowMap_mirrors_iff (hreset : t.inBusreset = false)
    (hes : List.Forall₂ (Updated t.handlerType) es es') :
    (∃ t', updateShadowMapHelper getFd es t = some (es', t') ∧ Mirrors getFd t' es') ↔
      (enabled t.handlerType es').length ≤ maxHandlers ∧
        if enabled t.handlerType es' = [] then t.pollNfds = 0 ∨ t.map 0 = none
        else t.handlerType = .transmit ∨ t.pollNfds ≠ 0 := by
  rw [update_eq getFd hreset hes, ← chosen_eq_iff]
  have htype : (mirrored getFd t (enabled t.handlerType es')).handlerType = t.handlerType :=
    fill_handlerType getFd _ 0 _
  constructor
  · rintro ⟨t', ht', hmirrors⟩
    split_ifs at ht' with hroom
    cases ht'
    have hsync := hmirrors.sync
    rw [htype] at hsync
    exact ⟨hroom, hsync⟩
  · rintro ⟨hroom, hsync⟩
    refine ⟨_, if_pos hroom, ?_⟩
    constructor
    · rw [htype]
      rfl
    · exact hroom
    · intro i e hi
      rw [htype] at hi
      exact mirrored_map getFd hi
    · intro i e hi
      rw [htype] at hi
      obtain ⟨handle, hhandle⟩ :=
        Option.ne_none_iff_exists'.mp (handle_ne_of_mem hes (List.mem_of_getElem? hi))
      exact ⟨handle, hhandle, mirrored_pollFds getFd hi hhandle⟩
    · rw [htype]
      exact hsync

end Update

def runningHandlers (type : HandlerType) (count : ℕ) : List Entry :=
  (List.range count).map fun i =>
    ⟨i, { Handler.new type 400 with handle := some i, state := .running, nextState := .running },
      ⟨none, false, false⟩⟩

theorem updated_runningHandlers (type : HandlerType) (count : ℕ) :
    List.Forall₂ (Updated type) (runningHandlers type count) (runningHandlers type count) := by
  rw [List.forall₂_same]
  intro e he
  obtain ⟨i, -, rfl⟩ := List.mem_map.mp he
  refine ⟨?_, fun _ _ => nofun⟩
  cases type <;> rfl

/-- A thread with this number of entries, behind the handler at 7. -/
def threadOf (type : HandlerType) (pollNfds : ℕ) : Task :=
  ⟨type, false, fun _ => some 7, fun _ => ⟨0, 0, 0⟩, pollNfds, none⟩

theorem twoReceivers_mirrored :
    ∃ t', updateShadowMapHelper (Int.ofNat ·) (runningHandlers .receive 2) (threadOf .receive 1) =
      some (runningHandlers .receive 2, t') ∧
        Mirrors (Int.ofNat ·) t' (runningHandlers .receive 2) :=
  (shadowMap_mirrors_iff (Int.ofNat ·) (t := threadOf .receive 1) rfl
    (updated_runningHandlers .receive 2)).mpr (by decide)

/-- The first update with a receiver chooses no sync handler, the one that finds no handler keeps an
old one, and seventeen handlers are written to arrays of sixteen. -/
theorem shadowMap_wrong :
    ((updateShadowMapHelper (Int.ofNat ·) (runningHandlers .receive 1) (threadOf .receive 0)).map
        fun r => (r.2.pollNfds, r.2.syncHandler)) = some (1, none) ∧
      ((updateShadowMapHelper (Int.ofNat ·) [] (threadOf .transmit 1)).map
        fun r => (r.2.pollNfds, r.2.syncHandler)) = some (0, some 7) ∧
      (updateShadowMapHelper (Int.ofNat ·) (runningHandlers .transmit 17)
        (threadOf .transmit 0)).isNone = true := by
  decide

end Ffado.ShadowMap
