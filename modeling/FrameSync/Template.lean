import FrameSync.Fault
import FrameSync.Shaping
import FrameSync.Pulse

/-!
The waveform a detector looks for, and what its correlation with received samples tells. The
waveform is correlated in two halves: their sizes add up without regard to phase, so a moderate
carrier offset does no harm, and the phase step from one to the other gives that offset.
-/

namespace FrameSync

/-- A waveform in two halves, with its energy, the energy centroid of the first half in samples
and the distance between the centroids of the two. -/
structure Template where
  first : List Sample
  second : List Sample
  energy : Float32
  centroid : Float32
  lag : Float32
deriving DecidableEq

/-- What a detection says about the received frame: the correlation at its peak, the timing
offset in samples, the channel gain, and the carrier's frequency and phase. -/
structure Estimate where
  metric : Float32
  timing : Float32
  gain : Float32
  frequency : Float32
  phase : Float32
deriving DecidableEq

instance : Inhabited Estimate := ⟨⟨0, 0, 0, 0, 0⟩⟩

/-- The correlation of a stretch of samples with the two halves of a template, and its size
relative to the energies of both: one for an exact copy, zero for silence. -/
structure Correlation where
  metric : Float32
  first : Sample
  second : Sample
deriving DecidableEq

/-- Moves a number that is too small or too large to the bound it passes. What is not a number
stays. -/
def clamp (x low high : Float32) : Float32 :=
  let y := if x < low then low else x
  if high < y then high else y

namespace Template

def energyOf (xs : List Sample) : Float32 := sumOf (xs.map (·.energy))

def momentOf (start : Nat) (xs : List Sample) : Float32 :=
  sumOf (xs.mapIdx fun i x => ofCount (start + i) * x.energy)

def centroid? (start : Nat) (xs : List Sample) : Option Float32 :=
  let energy := energyOf xs
  if 0 < energy then some (momentOf start xs / energy) else none

/-- The centroids of two stretches that follow each other, or their middles if one of them is
silent. -/
def centroids (first second : List Sample) : Float32 × Float32 :=
  match centroid? 0 first, centroid? first.length second with
  | some c, some c' => (c, c')
  | _, _ =>
    let half := first.length
    let length := half + second.length
    ((ofCount half - 1) / 2, ofCount (half + length - 1) / 2)

def ofSamples (xs : List Sample) : Except Fault Template :=
  if xs.length < 2 then refuse .templateTooShort
  else
    let energy := energyOf xs
    if energy ≤ 0 then refuse .templateSilent
    else
      let first := xs.take (xs.length / 2)
      let second := xs.drop (xs.length / 2)
      let (c, c') := centroids first second
      .ok { first, second, energy, centroid := c, lag := c' - c }

def ofSequence (symbols : List Sample) (shape : PulseShape) (k m : Nat) (beta : Float32) :
    Except Fault Template := do
  if symbols.isEmpty then refuse .emptySequence
  else
    let pulse ← Pulse.design shape k m beta
    ofSamples (modulate symbols pulse.toList k (k * (symbols.length + 2 * m))).toList

def samples (t : Template) : List Sample := t.first ++ t.second

def length (t : Template) : Nat := t.first.length + t.second.length

def dot (xs waveform : List Sample) : Sample :=
  Sample.sum (List.zipWith (fun x s => x * s.conj) xs waveform)

def correlate (t : Template) (xs : List Sample) : Correlation :=
  let first := dot (xs.take t.first.length) t.first
  let second := dot (xs.drop t.first.length) t.second
  let received := energyOf xs
  let metric :=
    if 0 < received then (first.magnitude + second.magnitude) / (received * t.energy).sqrt
    else 0
  { metric, first, second }

/-- How far the top of the parabola through three neighbouring values lies from the middle one,
at most half a step. Values that do not bend downwards have no top. -/
def parabolaTop (left mid right : Float32) : Float32 :=
  let bend := left - 2 * mid + right
  if bend < -1e-9 then clamp (0.5 * (left - right) / bend) (-0.5) 0.5 else 0

def estimate (t : Template) (peak : Correlation) (left right range : Float32) : Estimate :=
  let frequency :=
    clamp ((peak.second * peak.first.conj).phase / t.lag) (-range) range
  { metric := peak.metric
    timing := parabolaTop left peak.metric right
    gain := (peak.first.magnitude + peak.second.magnitude) / t.energy
    frequency
    phase := peak.first.phase - frequency * t.centroid }

end Template

end FrameSync
