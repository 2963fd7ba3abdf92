import Ffado.Util.CmdSerialize

/-!
# FCP transactions

A request is written to a node, and the frames that come in are handled one by one until one of them
is taken as the response or the time is over; then the request is tried again. A frame is taken if
its first quadlet fits the request. With the duplicate filter it is also compared with a copy of the
last response that was taken, over the length of the new frame only. The copy outlives the
transaction, and of a longer response before the last one its end is still there.

`correct_iff` says when the frames of a transaction are taken and ignored as they should be.
-/
namespace Ffado.Fcp

open CircularMemory Cmd

def busQuadlet (b0 b1 b2 b3 : UInt8) : Quadlet :=
  (b0.toBitVec ++ b1.toBitVec ++ b2.toBitVec ++ b3.toBitVec).cast quadlet_width

theorem condSwapFromBus32_quadletAt (order : ByteOrder) (m : ℕ → UInt8) (p : ℕ) :
    condSwapFromBus32 order (quadletAt order m p) =
      busQuadlet (m p) (m (p + 1)) (m (p + 2)) (m (p + 3)) := by
  cases order with
  | bigEndian => rfl
  | littleEndian =>
    apply BitVec.eq_of_getLsbD_eq
    intro i hi
    rw [condSwapFromBus32, getLsbD_byteSwap32 _ hi]
    simp only [quadletAt, busQuadlet, BitVec.getLsbD_cast, BitVec.getLsbD_append]
    interval_cases i <;> simp

section Bytes

variable (b0 b1 b2 b3 : UInt8)

theorem extract_busQuadlet :
    (busQuadlet b0 b1 b2 b3).extractLsb' 24 8 = b0.toBitVec ∧
      (busQuadlet b0 b1 b2 b3).extractLsb' 16 8 = b1.toBitVec ∧
      (busQuadlet b0 b1 b2 b3).extractLsb' 8 8 = b2.toBitVec ∧
      (busQuadlet b0 b1 b2 b3).extractLsb' 0 8 = b3.toBitVec := by
  refine ⟨?_, ?_, ?_, ?_⟩
  all_goals
    apply BitVec.eq_of_getLsbD_eq
    intro i hi
    simp only [busQuadlet, BitVec.getLsbD_extractLsb', BitVec.getLsbD_cast, BitVec.getLsbD_append]
    interval_cases i <;> simp

theorem busQuadlet_eq_zero_iff :
    busQuadlet b0 b1 b2 b3 = 0 ↔ b0 = 0 ∧ b1 = 0 ∧ b2 = 0 ∧ b3 = 0 := by
  obtain ⟨h0, h1, h2, h3⟩ := extract_busQuadlet b0 b1 b2 b3
  constructor
  · intro h
    rw [h] at h0 h1 h2 h3
    exact ⟨UInt8.toBitVec_inj.mp h0.symm, UInt8.toBitVec_inj.mp h1.symm,
      UInt8.toBitVec_inj.mp h2.symm, UInt8.toBitVec_inj.mp h3.symm⟩
  · rintro ⟨rfl, rfl, rfl, rfl⟩
    decide

end Bytes

def fcpMaskResponse (q : Quadlet) : Quadlet := q &&& 0x0F000000

def fcpMaskSubunitAndOpcode (q : Quadlet) : Quadlet := q &&& 0x00FFFF00

theorem toNat_fcpMaskResponse (q : Quadlet) :
    (fcpMaskResponse q).toNat = (q.extractLsb' 24 8).toNat % 16 * 2 ^ 24 := by
  have hbits : fcpMaskResponse q =
      ((0 : BitVec 4) ++ (q.extractLsb' 24 8).extractLsb' 0 4 ++ (0 : BitVec 24)).cast rfl := by
    apply BitVec.eq_of_getLsbD_eq
    intro i hi
    simp only [fcpMaskResponse, BitVec.getLsbD_cast, BitVec.getLsbD_append,
      BitVec.getLsbD_extractLsb', BitVec.getLsbD_and]
    interval_cases i <;> simp
  rw [hbits, BitVec.toNat_cast, BitVec.toNat_append, BitVec.toNat_append]
  simp [BitVec.extractLsb'_toNat, Nat.shiftLeft_eq]

theorem fcpMaskSubunitAndOpcode_eq_iff (q q' : Quadlet) :
    fcpMaskSubunitAndOpcode q = fcpMaskSubunitAndOpcode q' ↔
      q.extractLsb' 16 8 = q'.extractLsb' 16 8 ∧ q.extractLsb' 8 8 = q'.extractLsb' 8 8 := by
  have hbits : ∀ q : Quadlet, fcpMaskSubunitAndOpcode q =
      ((0 : BitVec 8) ++ q.extractLsb' 16 8 ++ q.extractLsb' 8 8 ++ (0 : BitVec 8)).cast rfl := by
    intro q
    apply BitVec.eq_of_getLsbD_eq
    intro i hi
    simp only [fcpMaskSubunitAndOpcode, BitVec.getLsbD_cast, BitVec.getLsbD_append,
      BitVec.getLsbD_extractLsb', BitVec.getLsbD_and]
    interval_cases i <;> simp
  have hextract : ∀ q : Quadlet,
      (fcpMaskSubunitAndOpcode q).extractLsb' 16 8 = q.extractLsb' 16 8 ∧
        (fcpMaskSubunitAndOpcode q).extractLsb' 8 8 = q.extractLsb' 8 8 := by
    intro q
    constructor
    all_goals
      apply BitVec.eq_of_getLsbD_eq
      intro i hi
      simp only [fcpMaskSubunitAndOpcode, BitVec.getLsbD_extractLsb', BitVec.getLsbD_and]
      interval_cases i <;> simp
  constructor
  · intro h
    obtain ⟨h1, h2⟩ := hextract q
    obtain ⟨h1', h2'⟩ := hextract q'
    rw [← h1, ← h2, ← h1', ← h2', h]
    exact ⟨rfl, rfl⟩
  · rintro ⟨h1, h2⟩
    rw [hbits q, hbits q', h1, h2]

structure Frame where
  sender : UInt16
  response : Bool
  data : List UInt8
  length_le : data.length ≤ 512

inductive FcpStatus
  | empty
  | waiting
  | responded
  | error
  deriving DecidableEq

def maxFcpBlockSizeBytes : ℕ := 512

def maxFcpBlockSizeQuads : ℕ := maxFcpBlockSizeBytes / 4

structure FcpBlock where
  status : FcpStatus
  targetNodeid : UInt16
  request : List Quadlet
  responseLength : ℕ
  response : ℕ → UInt8

structure Service where
  order : ByteOrder
  /-- A debug build. -/
  debug : Bool
  filterFcpResponse : Bool
  block : FcpBlock
  /-- The copy of the last response. -/
  last : ℕ → UInt8

def Frame.firstQuadlet (order : ByteOrder) (f : Frame) : Quadlet :=
  condSwapFromBus32 order (quadletAt order (fun i => f.data.getD i 0) 0)

namespace Service

def requestQuadlet (s : Service) : Quadlet := condSwapFromBus32 s.order (s.block.request.headD 0)

def setStatus (s : Service) (status : FcpStatus) : Service :=
  { s with block := { s.block with status := status } }

/-- A frame is taken as the response. -/
def deliver (s : Service) (data : List UInt8) : Service :=
  { s with
    block :=
      { s.block with
        responseLength := (data.length + 3) / 4
        response := storeAt s.block.response 0 data
        status := .responded }
    last := if s.filterFcpResponse then storeAt s.last 0 data else s.last }

def handleFcpResponse (s : Service) (f : Frame) : Service :=
  if f.response ∧ f.data.length > 3 then
    let data := f.data.take maxFcpBlockSizeBytes
    let first := f.firstQuadlet s.order
    if fcpMaskResponse first = 0x0F000000 then s
    else if f.sender ≠ s.block.targetNodeid then s
    else if first = 0 then s
    else if s.debug ∧ fcpMaskResponse first < 0x08000000 then s
    else if fcpMaskSubunitAndOpcode first ≠ fcpMaskSubunitAndOpcode s.requestQuadlet then s
    else if s.filterFcpResponse ∧ Contains s.last 0 data then s
    else s.deliver data
  else s

end Service

/-- How one try goes: the answers of the kernel interface, and what each poll finds until the time
is over. -/
structure Try where
  startListen : Bool
  write : Bool
  polls : List (Option Frame)
  stopListen : Bool

structure Handled where
  service : Service
  frames : List Frame

def pollLoop (s : Service) : List (Option Frame) → Handled
  | [] => ⟨s, []⟩
  | poll :: polls =>
    if s.block.status = .waiting then
      match poll with
      | none => pollLoop s polls
      | some f =>
        let rest := pollLoop (s.handleFcpResponse f) polls
        ⟨rest.service, f :: rest.frames⟩
    else ⟨s, []⟩

def doFcpTransactionTry (s : Service) (t : Try) : Handled × Bool :=
  if ¬ t.startListen then (⟨s.setStatus .empty, []⟩, false)
  else if ¬ t.write then (⟨s.setStatus .empty, []⟩, false)
  else
    let polled := pollLoop (s.setStatus .waiting) t.polls
    let status := polled.service.block.status
    (⟨polled.service.setStatus .empty, polled.frames⟩,
      status ≠ .waiting && status ≠ .error && t.stopListen)

def doFcpTransaction (s : Service) : List Try → Handled × Bool
  | [] => (⟨s, []⟩, false)
  | t :: ts =>
    let tried := doFcpTransactionTry s t
    if tried.2 then tried
    else
      let rest := doFcpTransaction tried.1.service ts
      (⟨rest.1.service, tried.1.frames ++ rest.1.frames⟩, rest.2)

def fcpMaxTries : ℕ := 2

def invalidNodeId : UInt16 := 0xFF

def FcpBlock.ofRequest (nodeId : UInt16) (buf : List Quadlet) : FcpBlock where
  status := .empty
  targetNodeid := 0xffc0 ||| nodeId
  request := if buf.length < maxFcpBlockSizeQuads then buf else buf.take maxFcpBlockSizeQuads
  responseLength := 0
  response := fun _ => 0

def transactionBlock (s : Service) (nodeId : UInt16) (buf : List Quadlet) (tries : ℕ → Try) :
    Handled × Option (List UInt8) :=
  if nodeId = invalidNodeId then (⟨s, []⟩, none)
  else
    let done := doFcpTransaction { s with block := .ofRequest nodeId buf }
      ((List.range fcpMaxTries).map tries)
    (done.1,
      if done.2 then
        some (slice done.1.service.block.response 0 (4 * done.1.service.block.responseLength))
      else none)

/-- The response fits a request to a node with this first quadlet. -/
structure Matches (debug : Bool) (target : UInt16) (request : Quadlet) (f : Frame) : Prop where
  response : f.response = true
  length : 4 ≤ f.data.length
  notInterim : (f.data.getD 0 0).toNat % 16 ≠ 0xF
  sender : f.sender = target
  nonzero : ∃ i < 4, f.data.getD i 0 ≠ 0
  code : debug = true → 8 ≤ (f.data.getD 0 0).toNat % 16
  subunit : (f.data.getD 1 0).toBitVec = request.extractLsb' 16 8
  opcode : (f.data.getD 2 0).toBitVec = request.extractLsb' 8 8

/-- A response that was delivered, and whether the filter was enabled then. -/
structure Delivery where
  filtered : Bool
  data : List UInt8

/-- The copy that is left by all deliveries. -/
def copyOf (history : List Delivery) : ℕ → UInt8 :=
  history.foldl (fun m d => if d.filtered then storeAt m 0 d.data else m) fun _ => 0

/-- A service with the responses that it has delivered. -/
structure Session where
  service : Service
  history : List Delivery
  last_eq : service.last = copyOf history

def Session.lastDelivered (session : Session) : Option (List UInt8) :=
  session.history.getLast?.map Delivery.data

def Deliverable (session : Session) (nodeId : UInt16) (buf : List Quadlet) (f : Frame) : Prop :=
  Matches session.service.debug (0xffc0 ||| nodeId)
      (condSwapFromBus32 session.service.order (buf.headD 0)) f ∧
    (session.service.filterFcpResponse = true → session.lastDelivered ≠ some f.data)

/-- The bytes of a frame, filled up to quadlets. -/
def Frame.padded (f : Frame) : List UInt8 :=
  f.data ++ List.replicate (4 * ((f.data.length + 3) / 4) - f.data.length) 0

/-- Of the frames that are handled those in front are to be ignored, and one that is to be delivered
is the response. -/
def Correct (session : Session) (nodeId : UInt16) (buf : List Quadlet) (tries : ℕ → Try) : Prop :=
  let done := transactionBlock session.service nodeId buf tries
  ∃ (ignored : List Frame) (delivered : Option Frame),
    done.1.frames = ignored ++ delivered.toList ∧
      (∀ f ∈ ignored, ¬ Deliverable session nodeId buf f) ∧
      (∀ f ∈ delivered, Deliverable session nodeId buf f) ∧
      done.2 = delivered.map Frame.padded

/-- The frame is taken by the handler. -/
def Takes (s : Service) (f : Frame) : Prop :=
  Matches s.debug s.block.targetNodeid s.requestQuadlet f ∧
    ¬ (s.filterFcpResponse = true ∧ Contains s.last 0 f.data)

theorem firstQuadlet_eq (order : ByteOrder) (f : Frame) :
    f.firstQuadlet order = busQuadlet (f.data.getD 0 0) (f.data.getD 1 0) (f.data.getD 2 0)
      (f.data.getD 3 0) :=
  condSwapFromBus32_quadletAt order _ 0

theorem fcpMaskResponse_firstQuadlet (order : ByteOrder) (f : Frame) :
    (fcpMaskResponse (f.firstQuadlet order)).toNat = (f.data.getD 0 0).toNat % 16 * 2 ^ 24 := by
  rw [firstQuadlet_eq, toNat_fcpMaskResponse, (extract_busQuadlet _ _ _ _).1]
  rfl

theorem interim_iff (order : ByteOrder) (f : Frame) :
    fcpMaskResponse (f.firstQuadlet order) = 0x0F000000 ↔ (f.data.getD 0 0).toNat % 16 = 0xF := by
  rw [← BitVec.toNat_inj, fcpMaskResponse_firstQuadlet]
  change _ = 0x0F000000 ↔ _
  omega

theorem lowCode_iff (order : ByteOrder) (f : Frame) :
    fcpMaskResponse (f.firstQuadlet order) < 0x08000000 ↔ (f.data.getD 0 0).toNat % 16 < 8 := by
  rw [BitVec.lt_def, fcpMaskResponse_firstQuadlet]
  change _ < 0x08000000 ↔ _
  omega

theorem firstQuadlet_ne_zero_iff (order : ByteOrder) (f : Frame) :
    f.firstQuadlet order ≠ 0 ↔ ∃ i < 4, f.data.getD i 0 ≠ 0 := by
  rw [firstQuadlet_eq, ne_eq, busQuadlet_eq_zero_iff, ← not_iff_not, not_not]
  constructor
  · rintro ⟨h0, h1, h2, h3⟩ ⟨i, hi, hne⟩
    interval_cases i <;> contradiction
  · intro h
    push Not at h
    exact ⟨h 0 (by decide), h 1 (by decide), h 2 (by decide), h 3 (by decide)⟩

theorem subunitAndOpcode_iff (order : ByteOrder) (f : Frame) (q : Quadlet) :
    fcpMaskSubunitAndOpcode (f.firstQuadlet order) = fcpMaskSubunitAndOpcode q ↔
      (f.data.getD 1 0).toBitVec = q.extractLsb' 16 8 ∧
        (f.data.getD 2 0).toBitVec = q.extractLsb' 8 8 := by
  obtain ⟨-, h1, h2, -⟩ := extract_busQuadlet (f.data.getD 0 0) (f.data.getD 1 0) (f.data.getD 2 0)
    (f.data.getD 3 0)
  rw [fcpMaskSubunitAndOpcode_eq_iff, firstQuadlet_eq, h1, h2]

/-- The handler takes the frames that fit, but for those that the filter finds in its copy. -/
theorem handleFcpResponse_cases (s : Service) (f : Frame) :
    (Takes s f ∧ s.handleFcpResponse f = s.deliver f.data) ∨
      (¬ Takes s f ∧ s.handleFcpResponse f = s) := by
  have hdata : f.data.take maxFcpBlockSizeBytes = f.data := List.take_of_length_le f.length_le
  rw [Service.handleFcpResponse, hdata]
  by_cases hresponse : f.response = true ∧ f.data.length > 3
  swap
  · rw [if_neg hresponse]
    exact .inr ⟨fun h => hresponse ⟨h.1.response, h.1.length⟩, rfl⟩
  rw [if_pos hresponse]
  by_cases hinterim : fcpMaskResponse (f.firstQuadlet s.order) = 0x0F000000
  · rw [if_pos hinterim]
    exact .inr ⟨fun h => h.1.notInterim ((interim_iff _ _).mp hinterim), rfl⟩
  rw [if_neg hinterim]
  by_cases hsender : f.sender = s.block.targetNodeid
  swap
  · rw [if_pos hsender]
    exact .inr ⟨fun h => hsender h.1.sender, rfl⟩
  rw [if_neg (not_not.mpr hsender)]
  by_cases hzero : f.firstQuadlet s.order = 0
  · rw [if_pos hzero]
    exact .inr ⟨fun h => (firstQuadlet_ne_zero_iff _ _).mpr h.1.nonzero hzero, rfl⟩
  rw [if_neg hzero]
  by_cases hcode : s.debug = true ∧ fcpMaskResponse (f.firstQuadlet s.order) < 0x08000000
  · rw [if_pos hcode]
    refine .inr ⟨fun h => ?_, rfl⟩
    have hge := h.1.code hcode.1
    have hlt := (lowCode_iff _ _).mp hcode.2
    omega
  rw [if_neg hcode]
  by_cases hsubunit : fcpMaskSubunitAndOpcode (f.firstQuadlet s.order) =
      fcpMaskSubunitAndOpcode s.requestQuadlet
  swap
  · rw [if_pos hsubunit]
    exact .inr ⟨fun h => hsubunit ((subunitAndOpcode_iff _ _ _).mpr ⟨h.1.subunit, h.1.opcode⟩), rfl⟩
  rw [if_neg (not_not.mpr hsubunit)]
  by_cases hfilter : s.filterFcpResponse = true ∧ Contains s.last 0 f.data
  · rw [if_pos hfilter]
    exact .inr ⟨fun h => h.2 hfilter, rfl⟩
  rw [if_neg hfilter]
  obtain ⟨hsub, hop⟩ := (subunitAndOpcode_iff _ _ _).mp hsubunit
  refine .inl ⟨⟨⟨hresponse.1, hresponse.2, fun h => hinterim ((interim_iff _ _).mpr h), hsender,
    (firstQuadlet_ne_zero_iff _ _).mp hzero, fun hdebug => ?_, hsub, hop⟩, hfilter⟩, rfl⟩
  by_contra hlt
  exact hcode ⟨hdebug, (lowCode_iff _ _).mpr (by omega)⟩

/-- The service has seen frames that it did not take, and then maybe one that it took. -/
structure Passed (s : Service) (frames : List Frame) (taken : Option Frame) : Prop where
  ignored : ∃ ignored, frames = ignored ++ taken.toList ∧ ∀ f ∈ ignored, ¬ Takes s f
  takes : ∀ f ∈ taken, Takes s f

theorem Passed.append {s : Service} {frames frames' : List Frame} {taken : Option Frame}
    (h : Passed s frames none) (h' : Passed s frames' taken) :
      Passed s (frames ++ frames') taken := by
  obtain ⟨⟨ignored, rfl, hignored⟩, -⟩ := h
  obtain ⟨⟨ignored', rfl, hignored'⟩, htakes⟩ := h'
  refine ⟨⟨ignored ++ ignored', by simp, fun f hf => ?_⟩, htakes⟩
  rcases List.mem_append.mp hf with hf | hf
  · exact hignored f hf
  · exact hignored' f hf

/-- The status of the block does not matter. -/
theorem Passed.of_setStatus {s : Service} {status : FcpStatus} {frames : List Frame}
    {taken : Option Frame} (h : Passed (s.setStatus status) frames taken) : Passed s frames taken :=
  ⟨h.ignored, h.takes⟩

/-- A response ends the polling, and nothing else changes the service. -/
theorem pollLoop_spec (s : Service) (hwaiting : s.block.status = .waiting)
    (polls : List (Option Frame)) :
    ∃ taken, Passed s (pollLoop s polls).frames taken ∧
      (pollLoop s polls).service = taken.elim s fun f => s.deliver f.data := by
  induction polls with
  | nil => exact ⟨none, ⟨⟨[], rfl, nofun⟩, nofun⟩, rfl⟩
  | cons poll polls ih =>
    cases poll with
    | none =>
      rw [pollLoop, if_pos hwaiting]
      exact ih
    | some f =>
      rw [pollLoop, if_pos hwaiting]
      rcases handleFcpResponse_cases s f with ⟨htakes, heq⟩ | ⟨htakes, heq⟩
      · have hstop : pollLoop (s.deliver f.data) polls = ⟨s.deliver f.data, []⟩ := by
          cases polls with
          | nil => rfl
          | cons poll polls => exact if_neg (by simp [Service.deliver])
        refine ⟨some f, ⟨⟨[], by simp [heq, hstop], nofun⟩, fun g hg => ?_⟩, by simp [heq, hstop]⟩
        rw [← Option.mem_some.mp hg]
        exact htakes
      · obtain ⟨taken, hpassed, hservice⟩ := ih
        refine ⟨taken, ?_, by rw [heq]; exact hservice⟩
        rw [heq]
        exact Passed.append ⟨⟨[f], rfl, by simpa using htakes⟩, nofun⟩ hpassed

section Spec

variable (s : Service)

/-- What is left behind one or several tries. -/
def After (frames : List Frame) (ok : Bool) (s' : Service) : Prop :=
  ∃ taken status, Passed s frames taken ∧ ok = taken.isSome ∧
    s' = (taken.elim s fun f => s.deliver f.data).setStatus status

theorem doFcpTransactionTry_spec {t : Try} (hstop : t.stopListen = true) :
    After s (doFcpTransactionTry s t).1.frames (doFcpTransactionTry s t).2
      (doFcpTransactionTry s t).1.service := by
  have hnone : After s [] false (s.setStatus .empty) :=
    ⟨none, .empty, ⟨⟨[], rfl, nofun⟩, nofun⟩, rfl, rfl⟩
  rw [doFcpTransactionTry]
  cases t.startListen with
  | false => exact hnone
  | true =>
    cases t.write with
    | false => exact hnone
    | true =>
      obtain ⟨taken, hpassed, hservice⟩ := pollLoop_spec (s.setStatus .waiting) rfl t.polls
      refine ⟨taken, .empty, hpassed.of_setStatus, ?_, ?_⟩
      · simp only [not_true, if_false, hservice, hstop]
        cases taken <;> rfl
      · simp only [not_true, if_false, hservice]
        cases taken <;> rfl

/-- The tries before the one with the response have taken nothing. -/
theorem doFcpTransaction_spec {ts : List Try} (hstop : ∀ t ∈ ts, t.stopListen = true) :
    After s (doFcpTransaction s ts).1.frames (doFcpTransaction s ts).2
      (doFcpTransaction s ts).1.service := by
  induction ts generalizing s with
  | nil => exact ⟨none, s.block.status, ⟨⟨[], rfl, nofun⟩, nofun⟩, rfl, rfl⟩
  | cons t ts ih =>
    have htry := doFcpTransactionTry_spec s (hstop t List.mem_cons_self)
    rw [doFcpTransaction]
    split_ifs with hok
    · exact htry
    · obtain ⟨taken, status, hpassed, htaken, hservice⟩ := htry
      obtain rfl : taken = none := by
        rw [htaken] at hok
        simpa using hok
      obtain ⟨taken', status', hpassed', htaken', hservice'⟩ :=
        ih (doFcpTransactionTry s t).1.service fun t' ht' => hstop t' (List.mem_cons_of_mem t ht')
      rw [hservice] at hpassed' hservice' htaken'
      refine ⟨taken', status', ?_, ?_, ?_⟩
      · rw [hservice]
        exact hpassed.append hpassed'.of_setStatus
      · rw [hservice]
        exact htaken'
      · rw [hservice, hservice']
        cases taken' <;> rfl

end Spec

theorem slice_response (f : Frame) :
    slice (storeAt (fun _ => 0) 0 f.data) 0 (4 * ((f.data.length + 3) / 4)) = f.padded := by
  have hlength : 4 * ((f.data.length + 3) / 4) =
      f.data.length + (4 * ((f.data.length + 3) / 4) - f.data.length) := by omega
  rw [hlength, slice_append, Frame.padded]
  congr 1
  · exact contains_storeAt _ 0 f.data
  · refine List.eq_replicate_iff.mpr ⟨by simp, fun b hb => ?_⟩
    obtain ⟨i, -, rfl⟩ := List.mem_map.mp hb
    simp [storeAt]

variable {session : Session} {nodeId : UInt16} {buf : List Quadlet} {tries : ℕ → Try}

theorem takes_iff (f : Frame) :
    Takes { session.service with block := .ofRequest nodeId buf } f ↔
      Matches session.service.debug (0xffc0 ||| nodeId)
          (condSwapFromBus32 session.service.order (buf.headD 0)) f ∧
        ¬ (session.service.filterFcpResponse = true ∧
          Contains (copyOf session.history) 0 f.data) := by
  have hhead : (FcpBlock.ofRequest nodeId buf).request.headD 0 = buf.headD 0 := by
    rw [FcpBlock.ofRequest]
    split_ifs
    · rfl
    · cases buf <;> rfl
  rw [Takes, Service.requestQuadlet, ← session.last_eq]
  rw [hhead]
  rfl

theorem transactionBlock_spec (hstop : ∀ i, (tries i).stopListen = true) :
    ∃ taken, Passed { session.service with block := .ofRequest nodeId buf }
        (transactionBlock session.service nodeId buf tries).1.frames taken ∧
      (transactionBlock session.service nodeId buf tries).2 = taken.map Frame.padded ∧
      (transactionBlock session.service nodeId buf tries).1.service.last =
        taken.elim session.service.last fun f =>
          if session.service.filterFcpResponse then storeAt session.service.last 0 f.data
          else session.service.last := by
  rw [transactionBlock]
  by_cases hnode : nodeId = invalidNodeId
  · rw [if_pos hnode]
    exact ⟨none, ⟨⟨[], rfl, nofun⟩, nofun⟩, rfl, rfl⟩
  · rw [if_neg hnode]
    have hts : ∀ t ∈ (List.range fcpMaxTries).map tries, t.stopListen = true := by
      intro t ht
      obtain ⟨i, -, rfl⟩ := List.mem_map.mp ht
      exact hstop i
    obtain ⟨taken, status, hpassed, hok, hservice⟩ :=
      doFcpTransaction_spec { session.service with block := .ofRequest nodeId buf } hts
    refine ⟨taken, hpassed, ?_, ?_⟩
    · dsimp only
      rw [hok, hservice]
      cases taken with
      | none => rfl
      | some f => exact congrArg some (slice_response f)
    · rw [hservice]
      cases taken <;> rfl

theorem copyOf_append (history : List Delivery) (d : Delivery) :
    copyOf (history ++ [d]) =
      if d.filtered then storeAt (copyOf history) 0 d.data else copyOf history := by
  rw [copyOf, List.foldl_append]
  rfl

/-- The session goes on with the frame that was delivered. -/
def Session.transaction (session : Session) (nodeId : UInt16) (buf : List Quadlet) (tries : ℕ → Try)
    (hstop : ∀ i, (tries i).stopListen = true) : Session where
  service := (transactionBlock session.service nodeId buf tries).1.service
  history := session.history ++
    if (transactionBlock session.service nodeId buf tries).2.isSome then
      ((transactionBlock session.service nodeId buf tries).1.frames.getLast?.map fun f =>
        ⟨session.service.filterFcpResponse, f.data⟩).toList
    else []
  last_eq := by
    obtain ⟨taken, ⟨⟨ignored, hframes, -⟩, -⟩, hresponse, hlast⟩ :=
      @transactionBlock_spec session nodeId buf tries hstop
    rw [hlast, hresponse, hframes, session.last_eq]
    cases taken with
    | none => simp
    | some f => simp [copyOf_append]

/-- A transaction is correct just if the filter, where it is enabled, finds a frame that fits in its
copy exactly when the frame is the last response. -/
theorem correct_iff (session : Session) (nodeId : UInt16) (buf : List Quadlet) (tries : ℕ → Try)
    (hstop : ∀ i, (tries i).stopListen = true) :
    Correct session nodeId buf tries ↔
      (session.service.filterFcpResponse = true →
        ∀ f ∈ (transactionBlock session.service nodeId buf tries).1.frames,
          Matches session.service.debug (0xffc0 ||| nodeId)
              (condSwapFromBus32 session.service.order (buf.headD 0)) f →
            (Contains (copyOf session.history) 0 f.data ↔
              session.lastDelivered = some f.data)) := by
  obtain ⟨taken, ⟨⟨ignored, hframes, hignored⟩, htakes⟩, hresponse, -⟩ :=
    @transactionBlock_spec session nodeId buf tries hstop
  simp only [takes_iff] at hignored htakes
  rw [Correct, hframes, hresponse]
  constructor
  · rintro ⟨ignored', delivered, happend, hnot, hdeliverable, hmap⟩ hfilter f hf hmatches
    -- Both descriptions of the handled frames end with the response.
    have hlength : taken.toList.length = delivered.toList.length := by
      have hsome := congrArg Option.isSome hmap
      cases taken <;> cases delivered <;> simp at hsome ⊢
    obtain ⟨rfl, htaken⟩ := List.append_inj' happend hlength
    rcases List.mem_append.mp hf with hf | hf
    · have hcopy : Contains (copyOf session.history) 0 f.data := by
        by_contra hcopy
        exact hignored f hf ⟨hmatches, fun h => hcopy h.2⟩
      have hlast : session.lastDelivered = some f.data := by
        by_contra hlast
        exact hnot f hf ⟨hmatches, fun _ => hlast⟩
      exact iff_of_true hcopy hlast
    · have hcopy := (htakes f (Option.mem_toList.mp hf)).2
      have hlast := (hdeliverable f (Option.mem_toList.mp (htaken ▸ hf))).2 hfilter
      exact iff_of_false (fun h => hcopy ⟨hfilter, h⟩) hlast
  · intro h
    refine ⟨ignored, taken, rfl, fun f hf hdeliverable => ?_, fun f hf => ?_, rfl⟩
    · refine hignored f hf ⟨hdeliverable.1, fun hcopy => ?_⟩
      have hmem := List.mem_append_left taken.toList hf
      exact hdeliverable.2 hcopy.1 ((h hcopy.1 f hmem hdeliverable.1).mp hcopy.2)
    · obtain ⟨hmatches, hcopy⟩ := htakes f hf
      refine ⟨hmatches, fun hfilter hlast => hcopy ⟨hfilter, ?_⟩⟩
      have hmem := List.mem_append_right ignored (Option.mem_toList.mpr hf)
      exact (h hfilter f hmem hmatches).mpr hlast

def filtering (history : List Delivery) : Session where
  service := ⟨.littleEndian, false, true, .ofRequest 0 [], copyOf history⟩
  history := history
  last_eq := rfl

/-- Both tries find the same frame. -/
def answering (f : Frame) : ℕ → Try := fun _ => ⟨true, true, [some f], true⟩

def shortResponse : Frame := ⟨0xffc1, true, [0x0C, 0xFF, 0x30, 0x07], by decide⟩

/-- Behind a response of eight bytes one that has just its first four bytes is taken for a
duplicate, although it is not the same. -/
theorem short_response_lost :
    let session := filtering [⟨true, [0x0C, 0xFF, 0x30, 0x07, 0x60, 0x00, 0x00, 0x00]⟩]
    Deliverable session 1 [0xFF30FF01] shortResponse ∧
      (transactionBlock session.service 1 [0xFF30FF01] (answering shortResponse)).2 = none := by
  refine ⟨⟨⟨rfl, by decide, by decide, by decide, ⟨0, by decide, by decide⟩, by decide, by decide,
    by decide⟩, fun _ => by decide⟩, by decide +kernel⟩

def otherResponse : Frame := ⟨0xffc1, true, [0x0C, 0xFF, 0x30, 0x08], by decide⟩

def answered : Session :=
  (filtering []).transaction 1 [0xFF30FF01] (answering shortResponse) fun _ => rfl

/-- The filter drops a second copy of that answer, and the answer to the next request is taken. -/
theorem correct_iff_answered :
    Correct answered 1 [0xFF30FF01] fun _ =>
      ⟨true, true, [some shortResponse, none, some otherResponse], true⟩ := by
  refine (correct_iff answered 1 [0xFF30FF01] _ fun _ => rfl).mpr fun _ f hf _ => ?_
  have hframes : f ∈ [shortResponse, otherResponse] := hf
  rcases List.mem_pair.mp hframes with rfl | rfl
  · exact iff_of_true (by decide +kernel) (by decide +kernel)
  · exact iff_of_false (by decide +kernel) (by decide +kernel)

end Ffado.Fcp
