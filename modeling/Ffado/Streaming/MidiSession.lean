import Ffado.Streaming.AmdtpMidiReceive

/-!
# Runs of the MIDI decoder

The receiver decodes block after block, and a log keeps for every port what it was sent in its
slots and what its client got. The logs agree up to one byte as long as the blocks keep the ports
apart. Which sets of ports do so whatever is sent in their slots is a matter of the locations:
one port may have any slot, several have to have the first one.
-/
namespace Ffado

open CircularMemory LabelledRun

structure PortLog where
  carried : List ℕ
  delivered : List ℕ

structure MidiSession where
  receiver : MidiReceiver
  logs : ℕ → PortLog

namespace MidiSession

variable {ports : List MidiPort} {p p' r : MidiPort} {q : MidiQueue} {dimension i l : ℕ}

def start (dimension : ℕ) (ports : List MidiPort) (memory : ℕ → ℕ) : MidiSession :=
  ⟨⟨dimension, ports, .new memory⟩, fun _ => ⟨[], []⟩⟩

variable (s : MidiSession) (b : MidiBlock)

def logBlock (i : ℕ) : PortLog :=
  match s.receiver.midiPorts[i]?, (s.receiver.decodeMidiPorts b).midiPorts[i]? with
  | some p, some p' =>
    if p.Active then
      ⟨(s.logs i).carried ++ p.carried s.receiver.dimension b b.nevents,
        (s.logs i).delivered ++ p'.delivered b⟩
    else s.logs i
  | _, _ => s.logs i

def advance : MidiSession := ⟨s.receiver.decodeMidiPorts b, s.logBlock b⟩

def step : Option MidiSession := some (s.advance b)

/-- Every port that is served got a prefix of what it was sent, and waits for at most one
byte. -/
def Intact : Prop :=
  ∀ i p, s.receiver.midiPorts[i]? = some p → p.Active →
    (s.logs i).delivered <+: (s.logs i).carried ∧
      (s.logs i).carried.length ≤ (s.logs i).delivered.length + 1

/-- Nobody else sends in the column of a port that is served, and the ports leave nothing to
each other. -/
def Separated : Prop :=
  (∀ p ∈ s.receiver.midiPorts, p.Active → p.Clean s.receiver.dimension b) ∧
    (Lone s.receiver.midiPorts ∨
      ∀ p ∈ s.receiver.midiPorts, p.Active → p.Drained s.receiver.dimension b)

structure Invariant : Prop where
  lone : s.receiver.queue.contents ≠ [] → Lone s.receiver.midiPorts
  port : ∀ i p, s.receiver.midiPorts[i]? = some p → p.Active →
    Waiting p.location 0 s.receiver.queue.contents ∧
      (s.logs i).carried =
        (s.logs i).delivered ++ s.receiver.queue.contents.filterMap presentByte

variable {s b} {s' : MidiSession}

theorem Invariant.intact (h : s.Invariant) : s.Intact := by
  intro i p hp hactive
  obtain ⟨hwait, hlog⟩ := h.port i p hp hactive
  have hlen := (List.length_filterMap_le presentByte _).trans hwait.1
  rw [hlog, List.length_append]
  exact ⟨List.prefix_append _ _, Nat.add_le_add_left hlen _⟩

theorem active_of_same {buffer : Option (ℕ → ℕ)} (heq : p' = { p with buffer := buffer })
    (hsome : buffer.isSome = p.buffer.isSome) :
    p'.Active ↔ p.Active := by
  rw [heq, MidiPort.Active, MidiPort.Active, hsome]

theorem lone_decodePorts :
    Lone (decodePorts dimension b q ports).2 ↔ Lone ports := by
  have hcount : (decodePorts dimension b q ports).2.countP (fun p => decide p.Active) =
      ports.countP (fun p => decide p.Active) := by
    induction ports generalizing q with
    | nil => rfl
    | cons p ps ih =>
      obtain ⟨buffer, heq, hsome⟩ := p.decode_snd dimension b q
      simp only [decodePorts, List.countP_cons, ih, active_of_same heq hsome]
  rw [Lone, Lone, hcount]

theorem exists_before (hp' : (s.advance b).receiver.midiPorts[i]? = some p') (hactive : p'.Active) :
    ∃ p, s.receiver.midiPorts[i]? = some p ∧ p.Active ∧ p'.location = p.location ∧
      (s.advance b).logs i = ⟨(s.logs i).carried ++ p.carried s.receiver.dimension b b.nevents,
        (s.logs i).delivered ++ p'.delivered b⟩ := by
  obtain ⟨p, hp, buffer, heq, hsome⟩ := exists_getElem?_of_forall₂ (decodePorts_snd _ b _ _) hp'
  have hbefore : p.Active := (active_of_same heq hsome).mp hactive
  refine ⟨p, hp, hbefore, by rw [heq], ?_⟩
  have hport : (s.receiver.decodeMidiPorts b).midiPorts[i]? = some p' := hp'
  simp [advance, logBlock, hp, hport, hbefore]

theorem Invariant.step (h : s.Invariant) (hstep : Guarded Separated step s b s') :
    s'.Invariant := by
  obtain ⟨⟨hclean, hleave⟩, heq⟩ := hstep
  obtain rfl : s.advance b = s' := Option.some.inj heq
  by_cases hlone : Lone s.receiver.midiPorts
  · have hready : ∀ p ∈ s.receiver.midiPorts, p.Active →
        p.Clean s.receiver.dimension b ∧ Waiting p.location 0 s.receiver.queue.contents := by
      intro p hp hactive
      obtain ⟨i, hi⟩ := List.mem_iff_getElem?.mp hp
      exact ⟨hclean p hp hactive, (h.port i p hi hactive).1⟩
    have hturns := decodePorts_lone s.receiver.dimension b hlone hready
    refine ⟨fun _ => lone_decodePorts.mpr hlone, ?_⟩
    intro i p' hp' hactive'
    obtain ⟨p, hp, hactive, hloc, hlog⟩ := exists_before hp' hactive'
    obtain ⟨p₁, hp₁, hturn⟩ := exists_getElem?_of_forall₂ hturns hp'
    obtain rfl : p = p₁ := Option.some.inj (hp.symm.trans hp₁)
    refine ⟨hloc ▸ (hturn hactive).waiting, ?_⟩
    simp only [hlog]
    rw [(h.port i p hp hactive).2, List.append_assoc, (hturn hactive).conserved,
      List.append_assoc]
    rfl
  · have hnil : s.receiver.queue.contents = [] := by
      by_contra hne
      exact hlone (h.lone hne)
    obtain ⟨hend, hgets⟩ := decodePorts_drained s.receiver.dimension b
      (fun p hp hactive => ⟨hclean p hp hactive, hleave.resolve_left hlone p hp hactive⟩) hnil
    have hend' : (s.advance b).receiver.queue.contents = [] := hend
    refine ⟨fun hne => absurd hend' hne, ?_⟩
    intro i p' hp' hactive'
    obtain ⟨p, hp, hactive, -, hlog⟩ := exists_before hp' hactive'
    obtain ⟨p₁, hp₁, hget⟩ := exists_getElem?_of_forall₂ hgets hp'
    obtain rfl : p = p₁ := Option.some.inj (hp.symm.trans hp₁)
    have hbefore := (h.port i p hp hactive).2
    simp only [hlog, hend', hget hactive]
    rw [hbefore, hnil]
    simp [Waiting]

theorem start_invariant (dimension : ℕ) (ports : List MidiPort) (memory : ℕ → ℕ) :
    (start dimension ports memory).Invariant := by
  constructor
  · intro hne
    exact absurd (MidiQueue.contents_new memory) hne
  · simp [start, Waiting]

/-- Along every run whose blocks keep the ports apart, no byte is lost, duplicated or delivered
to another port. -/
theorem intact_of_separated_run {memory : ℕ → ℕ} {blocks : List MidiBlock}
    (hrun : Run (Guarded Separated step) (start dimension ports memory) blocks s) : s.Intact := by
  have hinv : s.Invariant := by
    refine hrun.invariant Invariant ?_ (start_invariant dimension ports memory)
    intro s b s' hs hstep
    exact hs.step hstep
  exact hinv.intact

/-- A block of whole groups of events, in which every byte in a column is in the slot of a port
that is served. -/
def Owned (s : MidiSession) (b : MidiBlock) : Prop :=
  8 ∣ b.nevents ∧ ∀ p ∈ s.receiver.midiPorts, p.Active → ∀ j < b.nevents,
    hasLabel (p.column s.receiver.dimension b j) labelMidi1X → ∃ p' ∈ s.receiver.midiPorts,
      p'.Active ∧ p'.position = p.position ∧ j % 8 = p'.location % 8

/-- One port, or ports that all have the first of every eight slots. -/
def Compatible (ports : List MidiPort) : Prop :=
  Lone ports ∨ ∀ p ∈ ports, p.Active → p.location % 8 = 0

theorem eq_of_lone (h : Lone ports) (hp : p ∈ ports) (hactive : p.Active) (hp' : p' ∈ ports)
    (hactive' : p'.Active) : p = p' := by
  have hfilter : (ports.filter fun p => decide p.Active).length ≤ 1 := by
    rwa [← List.countP_eq_length_filter]
  have hmem : p ∈ ports.filter fun p => decide p.Active := by simp [hp, hactive]
  have hmem' : p' ∈ ports.filter fun p => decide p.Active := by simp [hp', hactive']
  generalize (ports.filter fun p => decide p.Active) = served at *
  match served, hfilter with
  | [], _ => cases hmem
  | [r], _ => rw [List.mem_singleton.mp hmem, List.mem_singleton.mp hmem']

theorem separated_of_owned (hcomp : Compatible s.receiver.midiPorts) (h : s.Owned b) :
    s.Separated b := by
  rcases hcomp with hlone | hfirst
  · refine ⟨?_, .inl hlone⟩
    intro p hp hactive j hj hlabel
    obtain ⟨p', hp', hactive', -, hslot⟩ := h.2 p hp hactive j hj hlabel
    rw [hslot, eq_of_lone hlone hp hactive hp' hactive']
  · refine ⟨?_, .inr fun p hp hactive => .inl (hfirst p hp hactive)⟩
    intro p hp hactive j hj hlabel
    obtain ⟨p', hp', hactive', -, hslot⟩ := h.2 p hp hactive j hj hlabel
    rw [hslot, hfirst p hp hactive, hfirst p' hp' hactive']

theorem compatible_decodePorts (h : Compatible ports) :
    Compatible (decodePorts dimension b q ports).2 := by
  rcases h with hlone | hfirst
  · exact .inl (lone_decodePorts.mpr hlone)
  · refine .inr ?_
    intro p' hp' hactive'
    obtain ⟨i, hi⟩ := List.mem_iff_getElem?.mp hp'
    obtain ⟨p, hp, buffer, heq, hsome⟩ :=
      exists_getElem?_of_forall₂ (decodePorts_snd dimension b q ports) hi
    have hloc := hfirst p (List.mem_of_getElem? hp) ((active_of_same heq hsome).mp hactive')
    rwa [heq]

theorem intact_of_compatible {memory : ℕ → ℕ} {blocks : List MidiBlock} (hcomp : Compatible ports)
    (hrun : Run (Guarded Owned step) (start dimension ports memory) blocks s) : s.Intact := by
  have hinv : s.Invariant ∧ Compatible s.receiver.midiPorts := by
    refine hrun.invariant (fun s => s.Invariant ∧ Compatible s.receiver.midiPorts) ?_
      ⟨start_invariant dimension ports memory, hcomp⟩
    rintro s b s' ⟨hs, hcomp⟩ ⟨howned, hstep⟩
    refine ⟨hs.step ⟨separated_of_owned hcomp howned, hstep⟩, ?_⟩
    obtain rfl : s.advance b = s' := Option.some.inj hstep
    exact compatible_decodePorts hcomp
  exact hinv.1.intact

/-- The byte `0x90` in the port's slot of eight events, and nothing else. -/
def probe (dimension : ℕ) (p : MidiPort) : MidiBlock where
  data k := if k = p.location % 8 * dimension + p.position then 0x81900000 else 0
  offset := 0
  nevents := 8

/-- Eight events without a byte. -/
def silence : MidiBlock := ⟨fun _ => 0, 0, 8⟩

theorem hasLabel_silence (p : MidiPort) (dimension j : ℕ) :
    hasLabel (p.column dimension silence j) labelMidi1X = false := by
  simp [MidiPort.column, silence, hasLabel, labelMidi1X]

theorem hasLabel_probe_iff (hp : p.position < dimension) (hr : r.position < dimension) (j : ℕ) :
    hasLabel (r.column dimension (probe dimension p) j) labelMidi1X = true ↔
      j = p.location % 8 ∧ r.position = p.position := by
  have hcell : hasLabel (r.column dimension (probe dimension p) j) labelMidi1X = true ↔
      j * dimension + r.position = p.location % 8 * dimension + p.position := by
    simp only [MidiPort.column, probe]
    split_ifs with h <;> simp [h, hasLabel, labelMidi1X]
  rw [hcell]
  constructor
  · intro heq
    have hdim : 0 < dimension := Nat.zero_lt_of_lt hp
    have hrow : j = p.location % 8 := by
      have hdiv := congrArg (· / dimension) heq
      simpa only [Nat.mul_comm _ dimension, Nat.mul_add_div hdim, Nat.div_eq_of_lt hp,
        Nat.div_eq_of_lt hr, Nat.add_zero] using hdiv
    rw [hrow] at heq
    exact ⟨hrow, Nat.add_left_cancel heq⟩
  · rintro ⟨rfl, heq⟩
    rw [heq]

theorem length_filterMap_presentByte {l : List ℕ} (h : ∀ x ∈ l, (presentByte x).isSome) :
    (l.filterMap presentByte).length = l.length := by
  induction l with
  | nil => rfl
  | cons x l ih =>
    obtain ⟨hx, hl⟩ := List.forall_mem_cons.mp h
    obtain ⟨byte, hbyte⟩ := Option.isSome_iff_exists.mp hx
    rw [List.filterMap_cons_some hbyte, List.length_cons, List.length_cons, ih hl]

/-- The queue between two ports holds at most one byte. -/
structure AtMostOne (q : MidiQueue) : Prop where
  length_le : q.contents.length ≤ 1
  flagged : ∀ x ∈ q.contents, (presentByte x).isSome

def relocated (p : MidiPort) (l : ℕ) : MidiPort := { p with location := l }

/-- The decoder does not look at the location. -/
theorem decode_relocated (hactive : p.Active) (q : MidiQueue) (l : ℕ) :
    (relocated p l).decode dimension b q =
      ((p.decode dimension b q).1, relocated (p.decode dimension b q).2 l) := by
  obtain ⟨memory, hbuffer⟩ := Option.isSome_iff_exists.mp hactive.1
  simp only [relocated, MidiPort.decode, hbuffer, hactive.2]
  rfl

/-- The port's column has no byte in the first eight events but in event `l`. -/
def OnlyAt (p : MidiPort) (dimension : ℕ) (b : MidiBlock) (l : ℕ) : Prop :=
  ∀ j < 8, hasLabel (p.column dimension b j) labelMidi1X = true → j = l

/-- Over eight events with at most one byte, which is not in the first of them, a port behaves
as one that has the slot of that byte. -/
theorem eight_events_turn (hactive : p.Active) (h8 : b.nevents = 8) (hl : l % 8 ≠ 0)
    (hcol : OnlyAt p dimension b l) (hq : AtMostOne q) :
    Turn (relocated p l) dimension b q (p.decode dimension b q).1
        (relocated (p.decode dimension b q).2 l) ∧
      AtMostOne (p.decode dimension b q).1 := by
  have hclean : (relocated p l).Clean dimension b := by
    intro j hj hlabel
    rw [hcol j (h8 ▸ hj) hlabel]
    rfl
  have hturn := (relocated p l).decode_turn (q := q) hactive hclean
    ⟨hq.length_le, fun _ => ⟨hl, .inl rfl⟩⟩
  rw [decode_relocated hactive] at hturn
  exact ⟨hturn, hturn.waiting.1, hturn.flagged hq.flagged⟩

/-- A byte that comes is left behind. -/
theorem decode_leaves (hactive : p.Active) (h8 : b.nevents = 8) (hl : l % 8 ≠ 0) (hl8 : l < 8)
    (hcol : OnlyAt p dimension b l) (hq : AtMostOne q)
    (hlabel : hasLabel (p.column dimension b l) labelMidi1X = true) :
    (p.decode dimension b q).1.contents ≠ [] := by
  obtain ⟨hturn, -⟩ := eight_events_turn hactive h8 hl hcol hq
  exact hturn.kept l (by omega) hlabel hl (by omega)

/-- A byte that waits goes to the port. -/
theorem decode_delivers (hactive : p.Active) (h8 : b.nevents = 8) (hl : l % 8 ≠ 0) (hl8 : l < 8)
    (hcol : OnlyAt p dimension b l) (hq : AtMostOne q) (hne : q.contents ≠ []) :
    (p.decode dimension b q).2.delivered b ≠ [] := by
  intro hnil
  obtain ⟨hturn, hone⟩ := eight_events_turn hactive h8 hl hcol hq
  generalize p.decode dimension b q = t at *
  have hlen := congrArg List.length hturn.conserved
  have hdelivered : (relocated t.2 l).delivered b = [] := hnil
  rw [List.length_append, List.length_append, length_filterMap_presentByte hq.flagged,
    length_filterMap_presentByte hone.flagged, hdelivered, List.length_nil, h8] at hlen
  have hpos := List.length_pos_of_ne_nil hne
  -- the queue would keep the old byte, so it could not take one of these events
  have hwaits : t.1.contents ≠ [] := List.ne_nil_of_length_pos (by omega)
  rcases hturn.recent hwaits with ⟨hzero, -⟩ | ⟨i, hi, -, hsent⟩
  · omega
  · obtain rfl := hcol i (h8 ▸ hi) hsent
    have hcarried : midiByte (p.column dimension b i) ∈ (relocated p i).carried dimension b 8 := by
      refine List.mem_filterMap.mpr ⟨i, List.mem_range.mpr hl8, ?_⟩
      exact if_pos ⟨rfl, hsent⟩
    have := List.length_pos_of_mem hcarried
    have := hone.length_le
    omega

theorem decodePorts_atMostOne (h8 : b.nevents = 8) (hl : l % 8 ≠ 0)
    (hcol : ∀ p ∈ ports, OnlyAt p dimension b l) (hq : AtMostOne q) :
    AtMostOne (decodePorts dimension b q ports).1 := by
  induction ports generalizing q with
  | nil => exact hq
  | cons p ps ih =>
    obtain ⟨hp, hps⟩ := List.forall_mem_cons.mp hcol
    apply ih hps
    by_cases hactive : p.Active
    · exact (eight_events_turn hactive h8 hl hp hq).2
    · rwa [p.decode_of_not_active hactive]

/-- A byte that waits goes to the first port that is served. -/
theorem exists_receiver (h8 : b.nevents = 8) (hl : l % 8 ≠ 0) (hl8 : l < 8)
    (hcol : ∀ p ∈ ports, OnlyAt p dimension b l) (hq : AtMostOne q) (hne : q.contents ≠ [])
    (hserved : ∃ p ∈ ports, p.Active) :
    ∃ (i : ℕ) (r' : MidiPort), (decodePorts dimension b q ports).2[i]? = some r' ∧ r'.Active ∧
      r'.delivered b ≠ [] := by
  induction ports with
  | nil => simp at hserved
  | cons p ps ih =>
    obtain ⟨hp, hps⟩ := List.forall_mem_cons.mp hcol
    by_cases hactive : p.Active
    · obtain ⟨buffer, heq, hsome⟩ := p.decode_snd dimension b q
      exact ⟨0, _, rfl, (active_of_same heq hsome).mpr hactive,
        decode_delivers hactive h8 hl hl8 hp hq hne⟩
    · obtain ⟨i, r', hi, hgets⟩ := ih hps (by simpa [hactive] using hserved)
      refine ⟨i + 1, r', ?_, hgets⟩
      simpa [decodePorts, p.decode_of_not_active hactive] using hi

theorem decodePorts_append (dimension : ℕ) (b : MidiBlock) (q : MidiQueue)
    (ports ports' : List MidiPort) :
    decodePorts dimension b q (ports ++ ports') =
      ((decodePorts dimension b (decodePorts dimension b q ports).1 ports').1,
        (decodePorts dimension b q ports).2 ++
          (decodePorts dimension b (decodePorts dimension b q ports).1 ports').2) := by
  induction ports generalizing q with
  | nil => rfl
  | cons p ps ih => simp only [List.cons_append, decodePorts, ih]

theorem carried_probe (hp : p.position < dimension) (hr : r.position < dimension)
    (hslot : (r.position, r.location % 8) ≠ (p.position, p.location % 8)) :
    r.carried dimension (probe dimension p) 8 = [] := by
  rw [MidiPort.carried, List.filterMap_eq_nil_iff]
  intro j _
  refine if_neg ?_
  rintro ⟨hj, hlabel⟩
  obtain ⟨hrow, hcolumn⟩ := (hasLabel_probe_iff hp hr j).mp hlabel
  apply hslot
  rw [hcolumn, ← hj, hrow, Nat.mod_mod]

theorem carried_silence (r : MidiPort) (dimension : ℕ) : r.carried dimension silence 8 = [] := by
  simp [MidiPort.carried, hasLabel_silence]

theorem served_decodePorts :
    (∃ p ∈ (decodePorts dimension b q ports).2, p.Active) ↔ ∃ p ∈ ports, p.Active := by
  induction ports generalizing q with
  | nil => rfl
  | cons p ps ih =>
    obtain ⟨buffer, heq, hsome⟩ := p.decode_snd dimension b q
    simp only [decodePorts, List.exists_mem_cons_iff, ih, active_of_same heq hsome]

theorem not_intact_of_leak (hp : s.receiver.midiPorts[i]? = some p) (hactive : p.Active)
    (hcarried : (s.logs i).carried = []) (hgot : (s.logs i).delivered ≠ []) : ¬ s.Intact := by
  intro hintact
  have hprefix := (hintact i p hp hactive).1
  rw [hcarried] at hprefix
  exact hgot (List.prefix_nil.mp hprefix)

theorem owned_silence (s : MidiSession) : s.Owned silence := by
  refine ⟨dvd_rfl, ?_⟩
  intro p _ _ j _ hlabel
  rw [hasLabel_silence] at hlabel
  cases hlabel

/-- No two ports that are served have the same slot. -/
def DistinctSlots (ports : List MidiPort) : Prop :=
  ports.Pairwise fun p p' => p.Active → p'.Active →
    (p.position, p.location % 8) ≠ (p'.position, p'.location % 8)

theorem DistinctSlots.ne (h : DistinctSlots ports) {k : ℕ} (hr : ports[i]? = some r)
    (hp : ports[k]? = some p) (hne : i ≠ k) (hactive : r.Active) (hactive' : p.Active) :
    (r.position, r.location % 8) ≠ (p.position, p.location % 8) := by
  obtain ⟨hi, rfl⟩ := List.getElem?_eq_some_iff.mp hr
  obtain ⟨hk, rfl⟩ := List.getElem?_eq_some_iff.mp hp
  rcases Nat.lt_or_gt_of_ne hne with hlt | hgt
  · exact List.pairwise_iff_getElem.mp h i k hi hk hlt hactive hactive'
  · exact (List.pairwise_iff_getElem.mp h k i hk hi hgt hactive' hactive).symm

/-- What the first ports of the cache become does not depend on the ones after them. -/
theorem advance_getElem?_of_append {rest : List MidiPort}
    (hports : s.receiver.midiPorts = ports ++ rest)
    (hr : (decodePorts s.receiver.dimension b s.receiver.queue ports).2[i]? = some r) :
    (s.advance b).receiver.midiPorts[i]? = some r := by
  simp only [advance, MidiReceiver.decodeMidiPorts, hports, decodePorts_append]
  rw [List.getElem?_append_left (List.getElem?_eq_some_iff.mp hr).1, hr]

/-- The ports after them are decoded with the queue that the first ones leave. -/
theorem advance_getElem?_add {rest : List MidiPort} (hports : s.receiver.midiPorts = ports ++ rest)
    (hr : (decodePorts s.receiver.dimension b
      (decodePorts s.receiver.dimension b s.receiver.queue ports).1 rest).2[i]? = some r)
    :
    (s.advance b).receiver.midiPorts[ports.length + i]? = some r := by
  simp only [advance, MidiReceiver.decodeMidiPorts, hports, decodePorts_append]
  rw [(decodePorts_snd _ b _ ports).length_eq, List.getElem?_append_right (Nat.le_add_right _ _),
    Nat.add_sub_cancel_left, hr]

section Leak

variable {dimension : ℕ} {before after : List MidiPort} {p : MidiPort}
  (hpos : ∀ r ∈ before ++ [p] ++ after, r.position < dimension) (hactive : p.Active)
  (hloc : p.location % 8 ≠ 0)
include hpos

theorem position_lt : p.position < dimension := hpos p (by simp)

theorem probe_column {r : MidiPort} (hr : r ∈ before ++ [p] ++ after) {j : ℕ}
    (hlabel : hasLabel (r.column dimension (probe dimension p) j) labelMidi1X = true) :
    j = p.location % 8 :=
  ((hasLabel_probe_iff (position_lt hpos) (hpos r hr) j).mp hlabel).1

include hactive

theorem owned_probe (memory : ℕ → ℕ) :
    (start dimension (before ++ [p] ++ after) memory).Owned (probe dimension p) := by
  refine ⟨dvd_rfl, ?_⟩
  intro r hr _ j _ hlabel
  obtain ⟨hrow, hcolumn⟩ := (hasLabel_probe_iff (position_lt hpos) (hpos r hr) j).mp hlabel
  exact ⟨p, by simp [start], hactive, hcolumn.symm, by rw [hrow, Nat.mod_mod]⟩

include hloc

/-- The byte of the probe is still in the queue when its port's turn ends. -/
theorem probe_waits (memory : ℕ → ℕ) :
    AtMostOne (decodePorts dimension (probe dimension p) (.new memory) (before ++ [p])).1 ∧
      (decodePorts dimension (probe dimension p) (.new memory)
        (before ++ [p])).1.contents ≠ [] := by
  have hl : p.location % 8 % 8 ≠ 0 := by rwa [Nat.mod_mod]
  have hl8 : p.location % 8 < 8 := Nat.mod_lt _ (by decide)
  have hcol : ∀ r ∈ before, OnlyAt r dimension (probe dimension p) (p.location % 8) := by
    intro r hr j _ hlabel
    exact probe_column hpos (by simp [hr]) hlabel
  have hbefore := decodePorts_atMostOne (q := .new memory) rfl hl hcol ⟨by simp, by simp⟩
  have hown : OnlyAt p dimension (probe dimension p) (p.location % 8) := by
    intro j _ hlabel
    exact probe_column hpos (by simp) hlabel
  rw [decodePorts_append]
  refine ⟨(eight_events_turn hactive rfl hl hown hbefore).2,
    decode_leaves hactive rfl hl hl8 hown hbefore ?_⟩
  exact (hasLabel_probe_iff (position_lt hpos) (position_lt hpos) _).mpr ⟨rfl, rfl⟩

theorem probe_waits_for_next (hlast : ∀ r ∈ after, ¬ r.Active) (memory : ℕ → ℕ) :
    AtMostOne ((start dimension (before ++ [p] ++ after) memory).advance
        (probe dimension p)).receiver.queue ∧
      ((start dimension (before ++ [p] ++ after) memory).advance
        (probe dimension p)).receiver.queue.contents ≠ [] := by
  simp only [advance, MidiReceiver.decodeMidiPorts, start,
    decodePorts_append dimension _ _ (before ++ [p]), decodePorts_of_not_active _ _ hlast]
  exact probe_waits hpos hactive hloc memory

omit hloc
variable (hslots : DistinctSlots (before ++ [p] ++ after))
include hslots

theorem carried_after_probe {memory : ℕ → ℕ} {i : ℕ} {r' : MidiPort}
    (hr' : ((start dimension (before ++ [p] ++ after) memory).advance
      (probe dimension p)).receiver.midiPorts[i]? = some r')
    (hactive' : r'.Active) (hother : i ≠ before.length) :
    (((start dimension (before ++ [p] ++ after) memory).advance
      (probe dimension p)).logs i).carried = [] := by
  obtain ⟨r, hr, hserved, -, hlog⟩ := exists_before hr' hactive'
  have hp : (before ++ [p] ++ after)[before.length]? = some p := by simp
  rw [hlog]
  exact carried_probe (position_lt hpos) (hpos r (List.mem_of_getElem? hr))
    (hslots.ne hr hp hother hserved hactive)

include hloc

/-- If a later port is served, it gets the byte in the same block. -/
theorem leak_to_later (hserved : ∃ r ∈ after, r.Active) (memory : ℕ → ℕ) :
    ∃ s, Run (Guarded Owned step) (start dimension (before ++ [p] ++ after) memory)
      [probe dimension p] s ∧ ¬ s.Intact := by
  obtain ⟨hone, hne⟩ := probe_waits hpos hactive hloc memory
  obtain ⟨i, r', hr', hactive', hgets⟩ := exists_receiver (b := probe dimension p) rfl
    (by rwa [Nat.mod_mod]) (Nat.mod_lt _ (by decide))
    (fun r hr j _ hlabel => probe_column hpos (by simp [hr]) hlabel) hone hne hserved
  have hat := advance_getElem?_add (s := start dimension (before ++ [p] ++ after) memory) rfl hr'
  obtain ⟨r, -, -, -, hlog⟩ := exists_before hat hactive'
  refine ⟨_, .cons ⟨owned_probe hpos hactive memory, rfl⟩ (.nil _), ?_⟩
  refine not_intact_of_leak hat hactive' ?_ ?_
  · refine carried_after_probe hpos hactive hslots hat hactive' ?_
    rw [List.length_append, List.length_singleton]
    omega
  · rw [hlog]
    exact hgets

/-- If the later ports are not served, an earlier one gets the byte in the next block. -/
theorem leak_to_earlier (hserved : ∃ r ∈ before, r.Active) (hlast : ∀ r ∈ after, ¬ r.Active)
    (memory : ℕ → ℕ) :
    ∃ s, Run (Guarded Owned step) (start dimension (before ++ [p] ++ after) memory)
      [probe dimension p, silence] s ∧ ¬ s.Intact := by
  obtain ⟨hone, hne⟩ := probe_waits_for_next hpos hactive hloc hlast memory
  let served := (decodePorts dimension (probe dimension p) (.new memory) before).2
  have hquiet : ∀ r ∈ served, OnlyAt r dimension silence 1 := by
    intro r _ j _ hlabel
    rw [hasLabel_silence] at hlabel
    cases hlabel
  obtain ⟨i, r', hr', hactive', hgets⟩ := exists_receiver (b := silence) rfl (by decide)
    (by decide) hquiet hone hne (served_decodePorts.mpr hserved)
  have hbound : i < before.length := by
    rw [(decodePorts_snd _ _ _ _).length_eq, (decodePorts_snd _ _ _ _).length_eq]
    exact (List.getElem?_eq_some_iff.mp hr').1
  obtain ⟨rest, hports⟩ : ∃ rest, ((start dimension (before ++ [p] ++ after) memory).advance
      (probe dimension p)).receiver.midiPorts = served ++ rest := by
    simp only [advance, MidiReceiver.decodeMidiPorts, start, List.append_assoc,
      decodePorts_append dimension _ _ before]
    exact ⟨_, rfl⟩
  have hat := advance_getElem?_of_append hports hr'
  obtain ⟨r, hr, hactive₁, -, hlog⟩ := exists_before hat hactive'
  have hfirst := carried_after_probe hpos hactive hslots hr hactive₁ hbound.ne
  refine ⟨_, .cons ⟨owned_probe hpos hactive memory, rfl⟩
    (.cons ⟨owned_silence _, rfl⟩ (.nil _)), ?_⟩
  refine not_intact_of_leak hat hactive' ?_ ?_
  · rw [hlog, hfirst]
    exact carried_silence r dimension
  · rw [hlog]
    exact List.append_ne_nil_of_right_ne_nil _ hgets

end Leak

theorem countP_active_eq_zero (h : ∀ p ∈ ports, ¬ p.Active) :
    ports.countP (fun p => decide p.Active) = 0 := by
  simpa [List.countP_eq_zero] using h

/-- With a port outside the first slot and another one, some run passes a byte on. -/
theorem exists_leak (hpos : ∀ p ∈ ports, p.position < dimension) (hslots : DistinctSlots ports)
    (hcomp : ¬ Compatible ports) (memory : ℕ → ℕ) :
    ∃ blocks s, Run (Guarded Owned step) (start dimension ports memory) blocks s ∧
      ¬ s.Intact := by
  simp only [Compatible, not_or, not_forall] at hcomp
  obtain ⟨hlone, p, hp, hactive, hloc⟩ := hcomp
  obtain ⟨before, after, rfl⟩ := List.append_of_mem hp
  rw [← List.singleton_append, ← List.append_assoc] at *
  by_cases hlater : ∃ r ∈ after, r.Active
  · exact ⟨_, leak_to_later hpos hactive hloc hslots hlater memory⟩
  · have hlast : ∀ r ∈ after, ¬ r.Active := by simpa using hlater
    have hearlier : ∃ r ∈ before, r.Active := by
      by_contra hnone
      apply hlone
      have hbefore : ∀ r ∈ before, ¬ r.Active := by simpa using hnone
      simp [Lone, List.countP_append, countP_active_eq_zero hbefore, countP_active_eq_zero hlast,
        hactive]
    exact ⟨_, leak_to_earlier hpos hactive hloc hslots hearlier hlast memory⟩

/-- Every port gets just its own bytes along the runs whose blocks keep the ports apart. Ports
with a slot of their own get them along all runs exactly if they are compatible. -/
theorem midi_intact_iff_compatible (dimension : ℕ) (ports : List MidiPort) :
    (∀ memory blocks s, Run (Guarded Separated step) (start dimension ports memory) blocks s →
        s.Intact) ∧
      ((∀ p ∈ ports, p.position < dimension) → DistinctSlots ports →
        ((∀ memory blocks s, Run (Guarded Owned step) (start dimension ports memory) blocks s →
          s.Intact) ↔ Compatible ports)) := by
  refine ⟨fun memory blocks s hrun => intact_of_separated_run hrun, ?_⟩
  intro hpos hslots
  constructor
  · intro hall
    by_contra hcomp
    obtain ⟨blocks, s, hrun, hnot⟩ := exists_leak hpos hslots hcomp fun _ => 0
    exact hnot (hall _ blocks s hrun)
  · intro hcomp memory blocks s hrun
    exact intact_of_compatible hcomp hrun

/-- A port with a client's cleared buffer. -/
def clientPort (position location : ℕ) : MidiPort :=
  ⟨some fun _ => 0, true, position, location⟩

theorem midi_intact_iff_compatible_firstSlots :
    (∀ memory blocks s, Run (Guarded Owned step)
        (start 2 [clientPort 0 0, clientPort 1 8] memory) blocks s → s.Intact) ∧
      ¬ ∀ memory blocks s, Run (Guarded Owned step)
        (start 2 [clientPort 0 0, clientPort 0 1] memory) blocks s → s.Intact := by
  have hfirst := (midi_intact_iff_compatible 2 [clientPort 0 0, clientPort 1 8]).2 (by decide)
    (by simp [DistinctSlots, clientPort])
  have hmixed := (midi_intact_iff_compatible 2 [clientPort 0 0, clientPort 0 1]).2 (by decide)
    (by simp [DistinctSlots, clientPort])
  refine ⟨hfirst.mpr (.inr (by simp [clientPort])), fun hall => ?_⟩
  rcases hmixed.mp hall with hlone | hslot
  · rw [Lone] at hlone
    exact absurd hlone (by decide)
  · exact absurd (hslot (clientPort 0 1) (by simp) (by decide)) (by decide)

/-- One byte in the slot of the first port, and the second port gets it. -/
theorem byte_delivered_to_other_port :
    ∃ s, Run (Guarded Owned step) (start 2 [clientPort 0 1, clientPort 1 0] fun _ => 0)
        [probe 2 (clientPort 0 1)] s ∧
      (s.logs 0).carried = [0x90] ∧ (s.logs 0).delivered = [] ∧
      (s.logs 1).carried = [] ∧ (s.logs 1).delivered = [0x90] ∧ ¬ s.Intact := by
  have howned : (start 2 ([] ++ [clientPort 0 1] ++ [clientPort 1 0]) fun _ => 0).Owned
      (probe 2 (clientPort 0 1)) := owned_probe (by decide) (by decide) _
  refine ⟨_, .cons ⟨howned, rfl⟩ (.nil _), by decide +kernel, by decide +kernel,
    by decide +kernel, by decide +kernel, ?_⟩
  intro hintact
  have hprefix := (hintact 1 _ rfl (by decide +kernel)).1
  exact absurd hprefix (by decide +kernel)

end MidiSession

end Ffado
