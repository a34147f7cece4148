import FrameSync.Proofs.Comparison
import FrameSync.Proofs.Sound

/-!
What a detection says of the frame. All of it is read off the correlation with the samples at the
beginning of the window, but for the timing, which also takes the metrics beside the peak. The
timing is within half a sample of the peak and the frequency within the range in force.
-/

namespace FrameSync

section Clamp

variable {x low high : Float32}

theorem clamp_eq_self (above : ¬x < low) (below : ¬high < x) : clamp x low high = x := by
  simp only [clamp, if_neg above, if_neg below]

theorem clamp_of_isNaN (none : x.isNaN = true) (low high : Float32) : clamp x low high = x := by
  apply clamp_eq_self
  · intro below
    cases none.symm.trans (single_lt_iff.mp below).1
  · intro above
    cases none.symm.trans (single_lt_iff.mp above).2.1

theorem clamp_bounds (ordered : low ≤ high) (number : x.isNaN = false) :
    low ≤ clamp x low high ∧ clamp x low high ≤ high := by
  obtain ⟨number₁, number₂, places⟩ := single_le_iff.mp ordered
  have refl (z : Float32) (number : z.isNaN = false) : z ≤ z :=
    single_le_iff.mpr ⟨number, number, le_rfl⟩
  unfold clamp
  dsimp only
  split_ifs with below above above
  · exact ⟨ordered, refl high number₂⟩
  · exact ⟨refl low number₁, ordered⟩
  · exact ⟨ordered, refl high number₂⟩
  · exact ⟨single_le_of_not_lt number number₁ below, single_le_of_not_lt number₂ number above⟩

theorem clamp_bounds_of_isNaN_clamp (ordered : low ≤ high) (number : (clamp x low high).isNaN = false) :
    low ≤ clamp x low high ∧ clamp x low high ≤ high := by
  apply clamp_bounds ordered
  rw [← Bool.not_eq_true]
  intro none
  rw [clamp_of_isNaN none, none] at number
  cases number

end Clamp

namespace Template

/-- By how much the carrier turns in a sample, going by the centroids of the two halves. -/
abbrev turnRate (t : Template) (c : Correlation) : Float32 :=
  (c.second * c.first.conj).phase / t.lag

theorem parabolaTop_bounds {left mid right : Float32}
    (number : (parabolaTop left mid right).isNaN = false) :
    -0.5 ≤ parabolaTop left mid right ∧ parabolaTop left mid right ≤ 0.5 := by
  unfold parabolaTop at number ⊢
  dsimp only at number ⊢
  split_ifs at number ⊢ with bends
  · exact clamp_bounds_of_isNaN_clamp (by decide +kernel) number
  · decide +kernel

end Template

structure Estimates (t : Template) (range : Float32) (peak : Correlation) (e : Estimate) :
    Prop where
  metric : e.metric = peak.metric
  timing : e.timing.isNaN = false → -0.5 ≤ e.timing ∧ e.timing ≤ 0.5
  gain : e.gain = (peak.first.magnitude + peak.second.magnitude) / t.energy
  frequency : -range ≤ t.turnRate peak → t.turnRate peak ≤ range → e.frequency = t.turnRate peak
  bounded : e.frequency.isNaN = false → -range ≤ e.frequency ∧ e.frequency ≤ range
  /-- Turned back from the centroid of the first half to the start of the window. -/
  phase : e.phase = peak.first.phase - e.frequency * t.centroid

theorem Template.estimates_estimate (t : Template) (peak : Correlation) (left right : Float32)
    {range : Float32} (nonneg : 0 ≤ range) :
    Estimates t range peak (t.estimate peak left right range) where
  metric := rfl
  timing := parabolaTop_bounds
  gain := rfl
  frequency above below := clamp_eq_self (not_lt_of_single_le above) (not_lt_of_single_le below)
  bounded := clamp_bounds_of_isNaN_clamp (neg_le_self nonneg)
  phase := rfl

/-- The peak of a detection is the correlation with all samples of the window but the last. -/
theorem Searched.estimates {t : Template} {seen : List Reading} {d d' : Detector}
    (searched : Searched t seen d) (positive : 0 < t.length) {x : Sample} {window : Array Sample}
    (step : d.execute x = (d', some window)) :
    Estimates t d.range (t.correlate (window.toList.take t.length)) d'.estimate := by
  have detects := searched.detects positive step
  rw [detects.estimate_eq, detects.peak_eq]
  exact t.estimates_estimate _ _ _ searched.tuned.range.1

end FrameSync
