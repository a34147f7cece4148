import FrameSync.Sample
import FrameSync.Numeric.Circular
import FrameSync.Numeric.Remainder

/-!
A numerically controlled oscillator. Phase and frequency are kept in double precision, so a
long run gathers no visible error; what goes in and out is single precision.
-/

namespace FrameSync

/-- An oscillator: phase in radians within one turn, frequency in radians per sample. -/
structure Oscillator where
  angle : Float
  rate : Float
deriving DecidableEq

namespace Oscillator

instance : Inhabited Oscillator := ⟨⟨0, 0⟩⟩

def ofFrequency (frequency : Float32) : Oscillator :=
  ⟨0, widen frequency⟩

def phase (o : Oscillator) : Float32 := narrow o.angle

def frequency (o : Oscillator) : Float32 := narrow o.rate

def setPhase (o : Oscillator) (phase : Float32) : Oscillator :=
  { o with angle := wrapAngle (widen phase) }

def setFrequency (o : Oscillator) (frequency : Float32) : Oscillator :=
  { o with rate := widen frequency }

def step (o : Oscillator) : Oscillator :=
  let angle := o.angle + o.rate
  { o with angle := if fullTurn ≤ angle || angle < 0 then wrapAngle angle else angle }

def reset (o : Oscillator) : Oscillator :=
  { o with angle := 0 }

def phasor (o : Oscillator) : Sample :=
  ⟨cosine o.phase, sine o.phase⟩

def mixDown (o : Oscillator) (x : Sample) : Sample :=
  x * o.phasor.conj

end Oscillator

end FrameSync
