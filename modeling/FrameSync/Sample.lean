import FrameSync.Numeric.Conversion
import FrameSync.Numeric.Angle

/-!
Complex baseband samples in single precision. Every part of a result is rounded after each
operation, in the order written here, so sums and products are not associative.
-/

namespace FrameSync

structure Sample where
  re : Float32
  im : Float32
deriving DecidableEq, Inhabited

namespace Sample

instance : Zero Sample := ⟨⟨0, 0⟩⟩

instance : Add Sample := ⟨fun a b => ⟨a.re + b.re, a.im + b.im⟩⟩

instance : Mul Sample :=
  ⟨fun a b => ⟨a.re * b.re - a.im * b.im, a.re * b.im + a.im * b.re⟩⟩

def real (x : Float32) : Sample := ⟨x, 0⟩

def conj (a : Sample) : Sample := ⟨a.re, -a.im⟩

def scale (a : Sample) (r : Float32) : Sample := ⟨a.re * r, a.im * r⟩

def energy (a : Sample) : Float32 := a.re * a.re + a.im * a.im

/-- The distance from zero, taken in double precision and rounded once. It is infinite as soon
as one part is, whatever the other part holds. -/
def magnitude (a : Sample) : Float32 :=
  if a.re.isInf || a.im.isInf then 1 / 0
  else
    let re := widen a.re
    let im := widen a.im
    narrow (re * re + im * im).sqrt

def phase (a : Sample) : Float32 := angle a.im a.re

end Sample

/-- The sum of numbers from left to right. It starts from the negative zero, which leaves every
first term as it is. -/
def sumOf (xs : List Float32) : Float32 := xs.foldl (· + ·) (-0)

def Sample.sum (xs : List Sample) : Sample := xs.foldl (· + ·) 0

end FrameSync
