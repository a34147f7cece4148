import FrameSync.Template

/-!
The preamble detector. It correlates the latest samples with its template at every step. The
first metric above the threshold arms it; from then on it follows the metric up, and the first
one that is no greater than the last declares that last one a peak. With the peak come the
estimates and the samples from the start of the template to the present one.
-/

namespace FrameSync

/-- A correlation that may turn out to be the peak, and the metric before it. -/
structure Peak where
  correlation : Correlation
  left : Float32
deriving DecidableEq

/-- The latest samples, one more than the template has, are kept as a ring whose every cell is
written twice, a ring's length apart. So they always stand side by side. -/
structure Detector where
  template : Template
  ring : Array Sample
  /-- Where the next sample goes, and where the oldest one stands. -/
  next : Nat
  /-- The number of samples since the detector was armed, up to the length of the template. -/
  filled : Nat
  threshold : Float32
  range : Float32
  /-- The metric at the sample before. -/
  previous : Float32
  peak : Option Peak
  estimate : Estimate

namespace Detector

def windowLength (d : Detector) : Nat := d.template.length + 1

def ofTemplate (template : Template) : Detector where
  template
  ring := Array.replicate (2 * (template.length + 1)) 0
  next := 0
  filled := 0
  threshold := 0.5
  range := 0.3
  previous := 0
  peak := none
  estimate := default

def ofSamples (xs : List Sample) : Except Fault Detector :=
  ofTemplate <$> Template.ofSamples xs

def ofSequence (symbols : List Sample) (shape : PulseShape) (k m : Nat) (beta : Float32) :
    Except Fault Detector :=
  ofTemplate <$> Template.ofSequence symbols shape k m beta

def push (d : Detector) (x : Sample) : Detector :=
  let length := d.windowLength
  { d with
    ring := (d.ring.setIfInBounds d.next x).setIfInBounds (d.next + length) x
    next := (d.next + 1) % length
    filled := if d.filled < d.template.length then d.filled + 1 else d.filled }

def window (d : Detector) : Array Sample :=
  d.ring.extract d.next (d.next + d.windowLength)

def recent (d : Detector) : Array Sample :=
  d.ring.extract (d.next + 1) (d.next + d.windowLength)

def rearm (d : Detector) : Detector :=
  { d with filled := 0, peak := none, previous := 0 }

def track (d : Detector) (c : Correlation) : Detector × Option (Array Sample) :=
  match d.peak with
  | some peak =>
    if c.metric ≤ peak.correlation.metric then
      let estimate :=
        d.template.estimate peak.correlation peak.left c.metric d.range
      ({ d with estimate }.rearm, some d.window)
    else ({ d with peak := some ⟨c, d.previous⟩, previous := c.metric }, none)
  | none =>
    if d.threshold < c.metric then
      ({ d with peak := some ⟨c, d.previous⟩, previous := c.metric }, none)
    else ({ d with previous := c.metric }, none)

def execute (d : Detector) (x : Sample) : Detector × Option (Array Sample) :=
  let d := d.push x
  if d.filled < d.template.length then (d, none)
  else d.track (d.template.correlate d.recent.toList)

def reset (d : Detector) : Detector :=
  { d with ring := Array.replicate d.ring.size 0, next := 0 }.rearm

def setThreshold (d : Detector) (threshold : Float32) : Except Fault Detector :=
  if 0 < threshold && threshold ≤ 1 then .ok { d with threshold }
  else refuse (.threshold threshold)

def setRange (d : Detector) (range : Float32) : Except Fault Detector :=
  if 0 ≤ range && range ≤ 1 then .ok { d with range }
  else refuse (.searchRange range)

/-- How many of the samples taken in may still come back in a window: once a peak is followed,
the next sample can complete one. -/
def held (d : Detector) : Nat :=
  if d.peak.isSome then d.template.length else d.filled

theorem size_window_le (d : Detector) : d.window.size ≤ d.template.length + 1 := by
  simp only [window, windowLength, Array.size_extract]
  omega

theorem held_track_of_peak {d : Detector} {p : Peak} (h : d.peak = some p) (c : Correlation) :
    (d.track c).1.held + ((d.track c).2.elim 0 Array.size) ≤ d.template.length + 1 := by
  unfold track
  rw [h]
  dsimp only
  split
  · simpa [held, rearm] using d.size_window_le
  · simp [held]

theorem held_track_of_none {d : Detector} (h : d.peak = none) (c : Correlation)
    (full : d.template.length ≤ d.filled) :
    (d.track c).1.held + ((d.track c).2.elim 0 Array.size) ≤ d.filled := by
  unfold track
  rw [h]
  dsimp only
  split
  · simpa [held] using full
  · simp [held]

theorem held_execute (d : Detector) (x : Sample) :
    (d.execute x).1.held + ((d.execute x).2.elim 0 Array.size) ≤ d.held + 1 := by
  have filled : (d.push x).filled ≤ d.filled + 1 := by
    simp only [push]
    split <;> omega
  have template : (d.push x).template = d.template := rfl
  have peak : (d.push x).peak = d.peak := rfl
  unfold execute
  dsimp only
  split
  · simp only [held, Option.elim, peak, template]
    split <;> omega
  · next full =>
    cases h : d.peak with
    | none =>
      have := held_track_of_none (peak.trans h)
        ((d.push x).template.correlate (d.push x).recent.toList) (by omega)
      have : d.held = d.filled := by simp [held, h]
      omega
    | some p =>
      have := held_track_of_peak (peak.trans h)
        ((d.push x).template.correlate (d.push x).recent.toList)
      have : d.held = (d.push x).template.length := by simp [held, h, template]
      omega

end Detector

end FrameSync
