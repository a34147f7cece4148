import FrameSync.Detector
import FrameSync.Oscillator
import FrameSync.FilterBank

/-!
The three stages that a synchronizer drives: one that finds the preamble, one that removes the
carrier, and one that samples the matched filter at a fraction of a sample. Any type that offers
the operations of a stage can take its place.
-/

namespace FrameSync

class DetectorStage (D : Type) where
  /-- Takes in a sample; with a detection comes the window of samples that starts with the
  preamble, and a new search begins. -/
  execute : D → Sample → D × Option (Array Sample)
  reset : D → D
  threshold : D → Float32
  setThreshold : D → Float32 → Except Fault D
  range : D → Float32
  setRange : D → Float32 → Except Fault D
  estimate : D → Estimate
  /-- How many of the samples taken in may still come back in a window. -/
  held : D → Nat

/-- A detector that hands out only samples it was given since it last handed some out. -/
class LawfulDetectorStage (D : Type) [DetectorStage D] : Prop where
  held_reset (d : D) : DetectorStage.held (DetectorStage.reset d) ≤ DetectorStage.held d
  held_execute (d : D) (x : Sample) :
    DetectorStage.held (DetectorStage.execute d x).1
      + ((DetectorStage.execute d x).2.elim 0 Array.size) ≤ DetectorStage.held d + 1

class MixerStage (M : Type) where
  setFrequency : M → Float32 → M
  setPhase : M → Float32 → M
  frequency : M → Float32
  phase : M → Float32
  mixDown : M → Sample → Sample
  step : M → M
  reset : M → M

class BankStage (F : Type) where
  push : F → Sample → F
  output : F → Nat → Sample
  setScale : F → Float32 → F
  scale : F → Float32
  reset : F → F
  branchCount : F → Nat

instance : DetectorStage Detector where
  execute := Detector.execute
  reset := Detector.reset
  threshold := Detector.threshold
  setThreshold := Detector.setThreshold
  range := Detector.range
  setRange := Detector.setRange
  estimate := Detector.estimate
  held := Detector.held

instance : LawfulDetectorStage Detector where
  held_reset _ := Nat.zero_le _
  held_execute := Detector.held_execute

instance : MixerStage Oscillator where
  setFrequency := Oscillator.setFrequency
  setPhase := Oscillator.setPhase
  frequency := Oscillator.frequency
  phase := Oscillator.phase
  mixDown := Oscillator.mixDown
  step := Oscillator.step
  reset := Oscillator.reset

instance : BankStage FilterBank where
  push := FilterBank.push
  output := FilterBank.output
  setScale := FilterBank.setScale
  scale := FilterBank.scale
  reset := FilterBank.reset
  branchCount := FilterBank.branchCount

end FrameSync
