import Ffado.Streaming.BufferMode

/-!
# The readiness tests

The ISO thread asks `canProduce` before it hands frames to a running processor. The test
compares frames with the buffer size; the write is limited by the bytes of the ring, which is
rounded up to a power of two and keeps one byte free. The two agree but for one case: frames
that fill the buffer to its size do not fit if the buffer's bytes are a power of two already.
-/
namespace Ffado

open CircularMemory LabelledRun MachineInt TransferPlan

/-- The settings that `streamingParamsOk` falls back to, all of them `unsigned int`. -/
structure StreamingParams where
  period : ℕ
  nominalFramerate : ℕ
  nbBuffers : ℕ

/-- The arguments are `signed int`; a negative one stands for the current setting. -/
def streamingParamsOk (params : StreamingParams) (period rate nBuffers : ℤ) : Bool :=
  let period := if period < 0 then i32 params.period else period
  let rate := if rate < 0 then i32 params.nominalFramerate else rate
  let nBuffers := if nBuffers < 0 then i32 params.nbBuffers else nBuffers
  if nBuffers < 2 then false
  else
    let minPeriod := if rate < 56000 then 8 else if rate < 112000 then 16 else 32
    if period < minPeriod then false else true

namespace TimestampedBuffer

variable {tb : TimestampedBuffer} {rb : Ringbuffer} {n : ℕ}

end TimestampedBuffer

namespace StreamProcessor

variable (sp : StreamProcessor)

variable {sp} {rb : Ringbuffer} {k n : ℕ}

def runningThree : StreamProcessor :=
  { new .receive with
    state := .running
    nextState := .running
    dataBuffer := TimestampedBuffer.threeFramesPrepared.setTransparent false }

end StreamProcessor
end Ffado
