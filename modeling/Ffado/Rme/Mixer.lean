import Ffado.Lib.LabelledRun
import Ffado.Rme.Fireface

/-!
# The matrix mixer of the Fireface devices

The driver keeps a fader and flags for each cell of the mixer, and writes the gain that results from
them to the mixer RAM of the device.
-/
namespace Ffado.Rme

open LabelledRun

inductive Ctype
  | input
  | playback
  | output
  deriving DecidableEq

/-- A fader: its source and its destination channel. Outputs have no destination, and the controls
name them with destination 0. -/
structure Cell where
  ctype : Ctype
  src : ℕ
  dest : ℕ
  deriving DecidableEq

/-- The two bits of the flags of a cell that the gain depends on. -/
structure MixerFlags where
  muted : Bool
  inverted : Bool

structure Mixer where
  faders : Ctype × ℕ → ℤ
  flags : Ctype × ℕ → MixerFlags
  ram : ℕ → ℤ

def Model.nChannels (model : Model) : ℕ := if model = .fireface400 then 18 else 28
def Model.ramOutputBlockSize (model : Model) : ℕ := if model = .fireface400 then 0x48 else 0x80
def Model.ramOutputs (model : Model) : ℕ := if model = .fireface400 then 0x0f80 else 0x1f80

def getMixerGainIndex (src dest : ℕ) : ℕ := dest * 28 + src

namespace Cell

/-- Where the settings of a cell are kept. -/
def key (c : Cell) : Ctype × ℕ :=
  (c.ctype, if c.ctype = .output then c.src else getMixerGainIndex c.src c.dest)

def ramAddr (model : Model) (c : Cell) : ℕ :=
  0x80080000 +
    match c.ctype with
    | .input => c.dest * 2 * model.ramOutputBlockSize + 4 * c.src
    | .playback => c.dest * 2 * model.ramOutputBlockSize + 4 * c.src + model.ramOutputBlockSize
    | .output => model.ramOutputs + 4 * c.src

def InRange (model : Model) (c : Cell) : Prop :=
  c.src < model.nChannels ∧ c.dest < model.nChannels ∧ (c.ctype = .output → c.dest = 0)

end Cell

variable {model : Model} {s s' : Mixer} {c c' : Cell} {val : ℤ}

/-- The gain that is sent for a fader. The hardware handles -1 better than an inverted 0. -/
def MixerFlags.gain (flags : MixerFlags) (val : ℤ) : ℤ :=
  let val := if flags.muted then 0 else val
  if flags.inverted then -(if val = 0 then 1 else val) else val

/-- The value of a fader that the device has not kept. -/
def Cell.initial (c : Cell) : ℤ :=
  match c.ctype with
  | .input => 0
  | .playback => if c.src = c.dest then 0x8000 else 0
  | .output => 0x8000

/-- The cells in the order of the loops. -/
def cells (model : Model) : List Cell :=
  ((List.range model.nChannels).flatMap fun dest =>
    (List.range model.nChannels).map (⟨.input, ·, dest⟩) ++
      (List.range model.nChannels).map (⟨.playback, ·, dest⟩)) ++
    (List.range model.nChannels).map (⟨.output, ·, 0⟩)

def Holds (model : Model) (s : Mixer) (c : Cell) : Prop :=
  s.ram (c.ramAddr model) = (s.flags c.key).gain (s.faders c.key) ∧ |s.faders c.key| ≤ 0x10000

end Ffado.Rme
