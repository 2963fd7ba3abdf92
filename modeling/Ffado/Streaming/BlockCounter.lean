import Ffado.Lib.LabelledRun
import Ffado.Lib.Postcondition
import Ffado.Streaming.AmdtpTransmit
import Ffado.Streaming.BufferMode

/-!
# The data block counter

The header of an AMDTP packet carries a counter of the data blocks sent before it. The
processor bumps its counter when it writes a header. The packet loop of the base class may
still drop that header: a state change that is due first can fail, and if the frames are not
there the same packet gets a second header. Then the blocks of the first header are counted
and never sent.

`getPacket` is the packet loop of the base class with the calls into this subclass filled in.
-/
namespace Ffado

open CycleTimer MachineInt Postcondition LabelledRun

namespace AmdtpTransmit

variable {x₀ : AmdtpTransmit} {p : Packet} {packet : TransmitPacket} {t : ℕ}

/-- After a packet call: the processor, the packet if it carries a CIP header, the answer. -/
abbrev Sent := AmdtpTransmit × Option TransmitPacket × Disposition

variable (x : AmdtpTransmit) (ctx : Context)

def orError (change : Option (StreamProcessor × Bool)) (next : AmdtpTransmit → Option Sent) :
    Option Sent := do
  let (base, result) ← change
  if result then next { x with base := base } else some ({ x with base := base }, none, .error)

def sendEmptyPacket (packet : TransmitPacket) : Option Sent :=
  x.orError (x.base.followRequest ctx) fun x =>
    let (x, packet, _) := x.generateEmptyPacketHeader packet
    some (x, some packet, .ok)

def sendSilentPacket (packet : TransmitPacket) : Option Sent :=
  let (x, packet, result) := x.generateSilentPacketHeader packet
  match result with
  | .packet => some (x, some packet, .ok)
  | .emptyPacket => x.sendEmptyPacket ctx packet
  | _ => some (x, none, .error)

/-- The frames are copied into `data`, behind the header. -/
def generatePacketData (data : ℕ → UInt8) : Option (AmdtpTransmit × ChildReturnValue) := do
  let (tb, result, _) ← x.base.dataBuffer.readFrames x.sytInterval data
  some ({ x with base := { x.base with dataBuffer := tb } }, if result then .ok else .xRun)

def sendData (p : Packet) (packet : TransmitPacket) (header : ChildReturnValue)
    (data : ℕ → UInt8) : Option Sent := do
  let (x, result) ← x.generatePacketData data
  if result = .xRun then
    x.orError (x.base.startXrun ctx p) fun x => x.sendEmptyPacket ctx packet
  else some (x, some packet, if result = .defer ∨ header = .defer then .defer else .ok)

/-- The packet loop in the running state. -/
def sendPacket (p : Packet) (packet : TransmitPacket) (data : ℕ → UInt8) : Option Sent :=
  let prevTimestamp := x.base.lastTimestamp
  let (x, packet, header) := x.generatePacketHeader packet p.pktCtr
  match header with
  | .packet | .defer =>
    x.orError ({ x.base with lastTimestamp2 := prevTimestamp }.followRequest ctx) fun x =>
      x.sendData ctx p packet header data
  | .xRun => x.orError (x.base.startXrun ctx p) fun x => x.sendEmptyPacket ctx packet
  | .emptyPacket => x.orError (x.base.followRequest ctx) fun x => x.sendEmptyPacket ctx packet
  | .again =>
    x.orError (x.base.followRequest ctx) fun x =>
      let (x, packet, _) := x.generateEmptyPacketHeader packet
      some (x, some packet, .defer)
  | _ => some (x, none, .error)

/-- This subclass as the base class sees it in a call. -/
def answers (pktCtr dropped : ℕ) (packet : TransmitPacket) (data : ℕ → UInt8) : Packet where
  pktCtr := pktCtr
  dropped := dropped
  header := (x.generatePacketHeader packet pktCtr).2.2
  timestamp := (x.generatePacketHeader packet pktCtr).1.base.lastTimestamp
  silentHeader := .packet
  payload := .read x.sytInterval data
  answer := fun result => if result then .ok else .xRun

/-- `packet` and `data` are the memory of the packet, with what was there before. -/
def getPacket (pktCtr dropped : ℕ) (packet : TransmitPacket) (data : ℕ → UInt8) : Option Sent :=
  let p := x.answers pktCtr dropped packet data
  if pktCtr = 0xFFFFFFFF then some (x, none, .ok)
  else if x.base.state = .error then some (x, none, .ok)
  else
    let x := if dropped > 0 then { x with base := { x.base with inXrun := true } } else x
    if dropped > 0 ∧ x.base.state = .running then
      x.orError (x.base.startXrun ctx p) fun x => x.sendEmptyPacket ctx packet
    else
      match x.base.state with
      | .invalid => some (x, none, .error)
      | .created => some (x, none, .defer)
      | .waitingForStreamDisable =>
        x.orError (x.base.switchIfDue ctx p .dryRunning) fun x => x.sendSilentPacket ctx packet
      | .waitingForStreamEnable =>
        if x.base.nextState = .waitingForStreamEnable then
          x.orError (x.base.switchIfDue ctx p .running) fun x => x.sendEmptyPacket ctx packet
        else x.sendEmptyPacket ctx packet
      | .waitingForStream =>
        x.orError (x.base.switchIfDue ctx p .dryRunning) fun x => x.sendEmptyPacket ctx packet
      | .running => x.sendPacket ctx p packet data
      | _ => x.sendEmptyPacket ctx packet

variable {x ctx}

def blocks (x : AmdtpTransmit) (packet : TransmitPacket) : ℕ :=
  (packet.length - 8) / (4 * x.dimension)

/-- A packet call sends the count of `x` and adds the blocks it sends, or it sends nothing and
leaves the count. -/
def Counts (x : AmdtpTransmit) (r : Sent) : Prop :=
  r.1.dimension = x.dimension ∧
    match r.2.1 with
    | none => r.1.dbc = x.dbc
    | some packet => packet.dbc = x.dbc % 256 ∧ r.1.dbc % 256 = (x.dbc + x.blocks packet) % 256 ∧
        (r.2.2 = .ok ∨ r.2.2 = .defer)

/-- The frames of a packet are there, and no other state change is in the way. -/
def KeepsCount (x : AmdtpTransmit) (pktCtr dropped : ℕ) : Prop :=
  x.base.state = .running → dropped = 0 → x.DataDue pktCtr →
    (x.base.nextState = .running ∨ x.base.nextState = .waitingForStreamDisable) ∧
      (x.base.dataBuffer.transparent = true ∨
        x.base.dataBuffer.transferSize x.sytInterval ≤ x.base.dataBuffer.readable)

theorem u32_mod_256 (n : ℕ) : u32 n % 256 = n % 256 := by
  unfold u32
  omega

theorem blocks_of_length {n : ℕ} (hn : n ≤ 32)
    (hlen : packet.length = u32 (8 + n * x.dimension * 4)) : x.blocks packet = n := by
  have hdim := x.dimension_le
  have hpos := x.dimension_pos
  have hbound : n * x.dimension ≤ 32 * 255 := Nat.mul_le_mul hn hdim
  rw [blocks, hlen, u32_of_lt (by omega), Nat.add_sub_cancel_left, Nat.mul_comm (n * x.dimension),
    Nat.mul_comm n, ← Nat.mul_assoc]
  exact Nat.mul_div_cancel_left n (by omega)

theorem announceNoData_counts (x : AmdtpTransmit) (packet : TransmitPacket) {d : Disposition}
    (hd : d = .ok ∨ d = .defer) :
    x.Counts ((x.announceNoData packet).1, some (x.announceNoData packet).2, d) := by
  refine ⟨rfl, ?_, ?_, hd⟩
  · simp only [announceNoData, fillNoDataPacketHeader]
    split_ifs <;> rfl
  · by_cases hpayload : x.sendNodataPayload
    · rw [blocks_of_length x.sytInterval_le (by
        simp [announceNoData, fillNoDataPacketHeader, hpayload])]
      simp [announceNoData, fillNoDataPacketHeader, hpayload, u32_mod_256]
    · rw [blocks_of_length (Nat.zero_le 32)
        (by simp [announceNoData, fillNoDataPacketHeader, hpayload, u32])]
      simp [announceNoData, fillNoDataPacketHeader, hpayload, u32_mod_256]

theorem announceData_counts {x' : AmdtpTransmit} {d : Disposition}
    (hdbc : x'.dbc = (x.announceData (x.writeCip packet) t).1.dbc)
    (hdim : x'.dimension = x.dimension) (hd : d = .ok ∨ d = .defer) :
    x.Counts (x', some (x.announceData (x.writeCip packet) t).2, d) := by
  refine ⟨hdim, rfl, ?_, hd⟩
  have hblocks : x.blocks (x.announceData (x.writeCip packet) t).2 = x.sytInterval := by
    apply blocks_of_length x.sytInterval_le
    change u32 (x.sytInterval * 4 * x.dimension + 8) = u32 (8 + x.sytInterval * x.dimension * 4)
    congr 1
    ring
  rw [hblocks, show (x', _, d).1.dbc = x'.dbc from rfl, hdbc]
  exact u32_mod_256 _

theorem orError_counts {change : Option (StreamProcessor × Bool)}
    {next : AmdtpTransmit → Option Sent} (hdbc : x.dbc = x₀.dbc) (hdim : x.dimension = x₀.dimension)
    (h : ∀ base, Ensures (next { x with base := base }) x₀.Counts) :
    Ensures (x.orError change next) x₀.Counts := by
  apply ensures_bind
  rintro ⟨base, result⟩
  cases result with
  | true => exact h base
  | false => exact ensures_some.mpr ⟨hdim, hdbc⟩

theorem sendEmptyPacket_counts (packet : TransmitPacket) (hdbc : x.dbc = x₀.dbc)
    (hdim : x.dimension = x₀.dimension) :
    Ensures (x.sendEmptyPacket ctx packet) x₀.Counts := by
  apply orError_counts hdbc hdim
  intro base
  rw [generateEmptyPacketHeader, ensures_some]
  simpa only [Counts, blocks, hdbc, hdim] using
    announceNoData_counts { x with base := base } packet (d := .ok) (Or.inl rfl)

theorem sendSilentPacket_counts (packet : TransmitPacket) :
    Ensures (x.sendSilentPacket ctx packet) x.Counts :=
  ensures_some.mpr (x.announceNoData_counts packet (Or.inl rfl))

/-- The request that an xrun leads to is carried out at once. -/
theorem followRequest_running {sp : StreamProcessor} (hstate : sp.state = .running)
    (hnext : sp.nextState = .running ∨ sp.nextState = .waitingForStreamDisable) :
    Ensures (sp.followRequest ctx) fun r => r.2 = true ∧ r.1.dataBuffer = sp.dataBuffer := by
  rcases hnext with hnext | hnext
  · simp [StreamProcessor.followRequest, hstate, hnext]
  · simp [StreamProcessor.followRequest, StreamProcessor.updateState,
      StreamProcessor.doWaitForStreamDisable, hstate, hnext]

theorem readFrames_result {tb : TimestampedBuffer} {n : ℕ} {data : ℕ → UInt8}
    (h : tb.transparent = true ∨ tb.transferSize n ≤ tb.readable) :
    Ensures (tb.readFrames n data) fun r => r.2.1 = true := by
  apply Ensures.ite
  · intro _
    exact ensures_some.mpr rfl
  · intro hopaque
    have hbytes := h.resolve_left hopaque
    rcases hring : tb.eventBuffer with _ | rb
    · exact ensures_none
    · have hcount : ¬ (rb.read data (tb.transferSize n)).2.2 < tb.transferSize n := by
        rw [rb.read_count, not_lt]
        simp only [TimestampedBuffer.readable, hring, Option.map_some, Option.getD_some] at hbytes
        omega
      simp only [Option.bind_eq_bind, Option.bind_some, hcount, if_false, ensures_some]

theorem sendData_counts {header : ChildReturnValue} {data : ℕ → UInt8}
    (hdbc : x.dbc = (x₀.announceData (x₀.writeCip packet) t).1.dbc)
    (hdim : x.dimension = x₀.dimension)
    (hframes : x.base.dataBuffer.transparent = true ∨
      x.base.dataBuffer.transferSize x.sytInterval ≤ x.base.dataBuffer.readable)
    :
    Ensures (x.sendData ctx p (x₀.announceData (x₀.writeCip packet) t).2 header data)
      x₀.Counts := by
  have hgen : Ensures (x.generatePacketData data) fun r =>
      r.2 = .ok ∧ r.1.dbc = x.dbc ∧ r.1.dimension = x.dimension := by
    refine (readFrames_result hframes).bind ?_
    rintro ⟨tb, result, data'⟩ hresult
    rw [ensures_some, show result = true from hresult]
    exact ⟨rfl, rfl, rfl⟩
  refine hgen.bind ?_
  rintro ⟨x', result⟩ ⟨hok, hdbc', hdim'⟩
  rw [show result = .ok from hok]
  simp only [reduceCtorEq, if_false, false_or, ensures_some]
  apply announceData_counts (hdbc'.trans hdbc) (hdim'.trans hdim)
  split_ifs
  · exact Or.inr rfl
  · exact Or.inl rfl

/-- A request that is open is carried out before the frames are sent, and leaves them alone. -/
theorem followRequest_sendData_counts (header : ChildReturnValue) (data : ℕ → UInt8)
    {sp : StreamProcessor} (hdbc : x.dbc = (x₀.announceData (x₀.writeCip packet) t).1.dbc)
    (hdim : x.dimension = x₀.dimension) (hstate : sp.state = .running)
    (hnext : sp.nextState = .running ∨ sp.nextState = .waitingForStreamDisable)
    (hframes : sp.dataBuffer.transparent = true ∨
      sp.dataBuffer.transferSize x.sytInterval ≤ sp.dataBuffer.readable)
    :
    Ensures (x.orError (sp.followRequest ctx) fun x' =>
      x'.sendData ctx p (x₀.announceData (x₀.writeCip packet) t).2 header data) x₀.Counts := by
  refine (followRequest_running hstate hnext).bind ?_
  rintro ⟨base, result⟩ ⟨hresult, hbuffer⟩
  rw [show result = true from hresult]
  apply sendData_counts
  · exact hdbc
  · exact hdim
  · rw [show base.dataBuffer = sp.dataBuffer from hbuffer]
    exact hframes

theorem sendPacket_counts (packet : TransmitPacket) (data : ℕ → UInt8)
    (hstate : x.base.state = .running) (hkeeps : x.KeepsCount p.pktCtr 0) :
    Ensures (x.sendPacket ctx p packet data) x.Counts := by
  simp only [sendPacket]
  by_cases hdue : x.DataDue p.pktCtr
  · obtain ⟨hnext, hframes⟩ := hkeeps hstate rfl hdue
    obtain ⟨answer, hanswer, hgen⟩ := x.generatePacketHeader_of_dataDue packet hdue
    rw [hgen]
    rcases hanswer with rfl | rfl
    · exact followRequest_sendData_counts _ data rfl rfl hstate hnext hframes
    · exact followRequest_sendData_counts _ data rfl rfl hstate hnext hframes
  · obtain ⟨answer, hanswer, hgen⟩ := x.generatePacketHeader_of_not_dataDue packet hdue
    rw [hgen]
    rcases hanswer with rfl | rfl | rfl
    · exact orError_counts rfl rfl fun base => sendEmptyPacket_counts _ rfl rfl
    · refine orError_counts rfl rfl fun base => ensures_some.mpr ?_
      exact announceNoData_counts { x with base := base } _ (Or.inr rfl)
    · exact orError_counts rfl rfl fun base => sendEmptyPacket_counts _ rfl rfl

theorem getPacket_counts {pktCtr dropped : ℕ} (packet : TransmitPacket) (data : ℕ → UInt8)
    (hkeeps : x.KeepsCount pktCtr dropped) :
    Ensures (x.getPacket ctx pktCtr dropped packet data) x.Counts := by
  have hempty : ∀ base, Ensures ({ x with base := base }.sendEmptyPacket ctx packet) x.Counts :=
    fun base => sendEmptyPacket_counts packet rfl rfl
  refine Ensures.ite (fun _ => ensures_some.mpr ⟨rfl, rfl⟩) fun _ =>
    Ensures.ite (fun _ => ensures_some.mpr ⟨rfl, rfl⟩) fun _ => ?_
  generalize hflag :
    (if dropped > 0 then { x with base := { x.base with inXrun := true } } else x) = x₁
  obtain ⟨base₁, rfl⟩ : ∃ base₁, x₁ = { x with base := base₁ } := by
    rw [← hflag]
    split_ifs
    · exact ⟨_, rfl⟩
    · exact ⟨x.base, rfl⟩
  refine Ensures.ite (fun _ => orError_counts rfl rfl fun base => hempty base) fun hxrun => ?_
  split
  · exact ensures_some.mpr ⟨rfl, rfl⟩
  · exact ensures_some.mpr ⟨rfl, rfl⟩
  · exact orError_counts rfl rfl fun base => sendSilentPacket_counts
      (x := { x with base := base }) packet
  · exact Ensures.ite (fun _ => orError_counts rfl rfl fun base => hempty base)
      fun _ => hempty base₁
  · exact orError_counts rfl rfl fun base => hempty base
  · rename_i hstate
    have hnone : ¬ dropped > 0 := fun h => hxrun ⟨h, hstate⟩
    have hzero : dropped = 0 := Nat.eq_zero_of_not_pos hnone
    subst hzero
    rw [← hflag] at hstate ⊢
    exact sendPacket_counts packet data hstate hkeeps
  · exact hempty base₁

def prepare (x : AmdtpTransmit) (ctx : Context) : Option (AmdtpTransmit × Bool) := do
  let (_, sized) ← x.base.periodSizeChanged ctx ctx.periodSize
  let child := if sized && ctx.portsInitialised then x.prepareChild ctx.nominalRate else x
  let (base, result) ← x.base.prepare ctx
  some ({ child with base := base }, result)

theorem prepare_counter (x : AmdtpTransmit) (ctx : Context) :
    Ensures (x.prepare ctx) fun r => r.1.dbc = x.dbc ∧ r.1.dimension = x.dimension := by
  apply ensures_bind
  rintro ⟨_, sized⟩
  apply ensures_bind
  rintro ⟨base, result⟩
  rw [ensures_some]
  split_ifs <;> exact ⟨rfl, rfl⟩

/-- What happens to the processor. Packets are asked for through the subclass. -/
inductive Event
  | getPacket (pktCtr dropped : ℕ) (packet : TransmitPacket) (data : ℕ → UInt8)
  | request (r : StreamProcessor.Request)
  | sendPayloadForNoDataPackets (b : Bool)

/-- The processor and the packets with a CIP header that were queued so far. -/
structure Session where
  sp : AmdtpTransmit
  sent : List TransmitPacket

def Session.step (s : Session) : Context × Event → Option Session
  | (ctx, .getPacket pktCtr dropped packet data) => do
    let (sp, packet, disposition) ← s.sp.getPacket ctx pktCtr dropped packet data
    some ⟨sp, if disposition = .ok ∨ disposition = .defer then s.sent ++ packet.toList else s.sent⟩
  | (ctx, .request .prepare) => (s.sp.prepare ctx).map fun r => { s with sp := r.1 }
  | (_, .request (.getPacket _)) | (_, .request (.putPacket _)) => none
  | (ctx, .request r) =>
    (s.sp.base.step (ctx, r)).map fun base => { s with sp := { s.sp with base := base } }
  | (_, .sendPayloadForNoDataPackets b) =>
    some { s with sp := { s.sp with sendNodataPayload := b } }

/-- Each packet carries the count of its predecessor and the blocks in it. -/
def Session.Continuous (s : Session) : Prop :=
  s.sent.IsChain fun a b => b.dbc = (a.dbc + s.sp.blocks a) % 256

/-- The condition on a step of a session. -/
def Session.Keeps (s : Session) : Context × Event → Prop
  | (_, .getPacket pktCtr dropped _ _) => s.sp.KeepsCount pktCtr dropped
  | _ => True

/-- The counter is where the last packet has left it. -/
def Session.InStep (s : Session) : Prop :=
  s.Continuous ∧ ∀ a ∈ s.sent.getLast?, s.sp.dbc % 256 = (a.dbc + s.sp.blocks a) % 256

variable {s s' : Session} {e : Context × Event}

theorem Session.InStep.of_same (h : s.InStep) (hdbc : s'.sp.dbc = s.sp.dbc)
    (hdim : s'.sp.dimension = s.sp.dimension) (hsent : s'.sent = s.sent) : s'.InStep := by
  simpa only [Session.InStep, Session.Continuous, blocks, hdbc, hdim, hsent] using h

theorem Session.InStep.send (h : s.InStep) (hdbc : packet.dbc = s.sp.dbc % 256)
    (hnext : s'.sp.dbc % 256 = (s.sp.dbc + s.sp.blocks packet) % 256)
    (hdim : s'.sp.dimension = s.sp.dimension) (hsent : s'.sent = s.sent ++ [packet]) :
    s'.InStep := by
  have hblocks : s'.sp.blocks = s.sp.blocks := by
    funext a
    simp only [blocks, hdim]
  constructor
  · rw [Session.Continuous, hsent, hblocks, List.isChain_append]
    refine ⟨h.1, List.isChain_singleton _, ?_⟩
    intro a ha b hb
    rw [List.head?_cons, Option.mem_some_iff] at hb
    rw [← hb, hdbc]
    exact h.2 a ha
  · intro a ha
    rw [hsent, List.getLast?_append_of_ne_nil _ (List.cons_ne_nil _ _), List.getLast?_singleton,
      Option.mem_some_iff] at ha
    rw [← ha, hblocks, hnext, hdbc]
    omega

theorem Session.InStep.step (h : s.InStep) (hstep : Guarded Session.Keeps Session.step s e s') :
    s'.InStep := by
  obtain ⟨hkeeps, hstep⟩ := hstep
  rcases e with ⟨ctx, event⟩
  cases event with
  | getPacket pktCtr dropped packet data =>
    obtain ⟨⟨sp, packet', disposition⟩, hget, hsession⟩ := Option.bind_eq_some_iff.mp hstep
    obtain ⟨hdim, hcount⟩ := getPacket_counts packet data hkeeps _ hget
    cases Option.some.inj hsession
    cases packet' with
    | none =>
      apply h.of_same hcount hdim
      simp
    | some packet' =>
      obtain ⟨hdbc, hnext, hqueued⟩ := hcount
      exact h.send hdbc hnext hdim (if_pos hqueued)
  | request r =>
    cases r with
    | prepare =>
      obtain ⟨r, hprepare, rfl⟩ := Option.map_eq_some_iff.mp hstep
      obtain ⟨hdbc, hdim⟩ := s.sp.prepare_counter ctx r hprepare
      exact h.of_same hdbc hdim rfl
    | getPacket p => exact nomatch hstep
    | putPacket p => exact nomatch hstep
    | _ =>
      simp only [Session.step] at hstep
      obtain ⟨base, -, rfl⟩ := Option.map_eq_some_iff.mp hstep
      exact h.of_same rfl rfl rfl
  | sendPayloadForNoDataPackets b =>
    cases Option.some.inj hstep
    exact h.of_same rfl rfl rfl

/-- In every sequence of calls in which the frames of each packet are there when it is due, and
no state change other than the one that ends the stream is waiting then, the block counts of
the packets are continuous. -/
theorem dbc_continuous_of_keeps (x : AmdtpTransmit) {es : List (Context × Event)}
    (hrun : Run (Guarded Session.Keeps Session.step) ⟨x, []⟩ es s) : s.Continuous := by
  have hstart : Session.InStep ⟨x, []⟩ := ⟨List.isChain_nil, by simp⟩
  exact (hrun.invariant Session.InStep (fun _ _ _ h hstep => h.step hstep) hstart).1

instance (x : AmdtpTransmit) (pktCtr : ℕ) : Decidable (x.DataDue pktCtr) :=
  inferInstanceAs (Decidable (_ ∧ _))

instance (x : AmdtpTransmit) (pktCtr dropped : ℕ) : Decidable (x.KeepsCount pktCtr dropped) :=
  inferInstanceAs (Decidable (_ → _ → _ → _))

instance : (s : Session) → (e : Context × Event) → Decidable (s.Keeps e)
  | s, (_, .getPacket pktCtr dropped _ _) =>
    inferInstanceAs (Decidable (s.sp.KeepsCount pktCtr dropped))
  | _, (_, .request _) | _, (_, .sendPayloadForNoDataPackets _) => inferInstanceAs (Decidable True)

/-- A stream of one channel before anything has happened. -/
def mono : Session := ⟨new 1 (by norm_num) (by norm_num), []⟩

def ask (cycle : ℕ) : Event := .getPacket (cycle <<< 12) 0 blankPacket fun _ => 0

/-- From the constructor to the running state. -/
def monoStartup : List Event :=
  [.request .init, .request .prepare, .request (.scheduleStartDryRunning 0), ask 0, ask 0,
    .request (.scheduleStartRunning 0), ask 0, ask 0]

/-- Two packets with frames, and one that is put off because the frames have run out. -/
theorem dbc_continuous_of_keeps_monoStartup : ∃ s : Session,
    s.sent.map (fun packet => packet.dbc) = [0, 8, 16, 24, 32, 40, 48] ∧ s.Continuous := by
  let es := (monoStartup ++ [ask 7997, ask 7997, ask 7998]).map (StreamProcessor.quadletStream, ·)
  have heval : (es.foldlM (checked Session.Keeps Session.step) mono).map
      (fun s => s.sent.map fun packet => packet.dbc) = some [0, 8, 16, 24, 32, 40, 48] := by
    decide +kernel
  obtain ⟨s, hs, hsent⟩ := Option.map_eq_some_iff.mp heval
  exact ⟨s, hsent, dbc_continuous_of_keeps _ (run_of_checked hs)⟩

/-- A request that a running stream cannot follow, and then the one that it can. -/
def wrongRequestFirst : List Event :=
  [.request (.scheduleStopDryRunning 0), ask 7997, .request (.scheduleStopRunning 0), ask 7997]

/-- The packet that ends in an error has moved the counter: a block of eight is missing. -/
theorem dbc_skips_after_failed_request : ∃ s : Session,
    Run (Guarded Always Session.step) mono
        ((monoStartup ++ wrongRequestFirst).map (StreamProcessor.quadletStream, ·)) s ∧
      s.sent.map (fun packet => (packet.dbc, s.sp.blocks packet)) =
        [(0, 8), (8, 8), (16, 8), (24, 8), (40, 8)] ∧ ¬ s.Continuous := by
  have heval : (((monoStartup ++ wrongRequestFirst).map (StreamProcessor.quadletStream, ·)).foldlM
      Session.step mono).map (fun s => s.sent.map fun packet => (packet.dbc, s.sp.blocks packet)) =
        some [(0, 8), (8, 8), (16, 8), (24, 8), (40, 8)] := by
    decide +kernel
  obtain ⟨s, hs, hsent⟩ := Option.map_eq_some_iff.mp heval
  refine ⟨s, run_of_foldlM hs, hsent, ?_⟩
  intro hcont
  have hmap : (s.sent.map fun packet => (packet.dbc, s.sp.blocks packet)).IsChain
      fun a b => b.1 = (a.1 + a.2) % 256 := by
    rw [List.isChain_map]
    exact hcont
  rw [hsent] at hmap
  exact absurd hmap (by decide)

end AmdtpTransmit
end Ffado
