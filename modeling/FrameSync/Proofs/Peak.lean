import FrameSync.Proofs.Comparison
import FrameSync.Proofs.Search

/-!
Whether a detection reports a true peak: a metric above the threshold that armed the detector, and
no metric since then above it. It does so as long as all metrics in between are numbers. One that is
not a number takes the place of any peak, and any number takes its place in turn.
-/

namespace FrameSync

variable {t : Template} {seen : List Reading} {d : Detector}

/-- The metric reported for a search is above the threshold that was in force when the detector was
armed, and it is not below any metric from there on. -/
def Genuine (t : Template) (seen : List Reading) (reported : Float32) : Prop :=
  ∃ a r, IsLeast {j | Exceeds t seen j} a ∧ seen[a - 1]? = some r ∧ r.threshold < reported ∧
    ∀ j, a ≤ j → j ≤ seen.length → ¬ reported < metricAt t (samplesIn seen) j

/-- All metrics from the arming of the detector up to the peak are numbers. -/
def Comparable (t : Template) (seen : List Reading) : Prop :=
  ∀ a, IsLeast {j | Exceeds t seen j} a → ∀ j, a ≤ j → j < seen.length →
    (metricAt t (samplesIn seen) j).isNaN = false

def metricPlace (t : Template) (seen : List Reading) (j : Nat) : ℤ ×ₗ ℤ ×ₗ ℤ :=
  place (metricAt t (samplesIn seen) j).toModel.unpack

theorem metricPlace_le {a i : Nat}
    (numbers : ∀ j, a ≤ j → j < i → (metricAt t (samplesIn seen) j).isNaN = false)
    (ever : ∀ j, a < j → j < i → ¬ Falls t seen j) {j n : Nat} (armed : a ≤ j) (order : j ≤ n)
    (before : n < i) : metricPlace t seen j ≤ metricPlace t seen n := by
  induction n, order using Nat.le_induction with
  | base => exact le_refl _
  | succ n order ih =>
    have grows := ever (n + 1) (by omega) before
    rw [Falls, Nat.add_sub_cancel, single_le_iff] at grows
    have above : metricPlace t seen n < metricPlace t seen (n + 1) := by
      apply lt_of_not_ge
      intro below
      exact grows ⟨numbers (n + 1) (by omega) before, numbers n (by omega) (by omega), below⟩
    exact le_of_lt (lt_of_le_of_lt (ih (by omega)) above)

theorem Declares.genuine (declares : Declares t seen) (comparable : Comparable t seen) :
    Genuine t seen (metricAt t (samplesIn seen) (seen.length - 1)) := by
  obtain ⟨a, least, before, ⟨-, falls⟩, first⟩ := declares
  obtain ⟨-, r, here, exceeds⟩ := least.1
  have numbers := comparable a least
  have ever (j : Nat) (after : a < j) (earlier : j < seen.length) : ¬ Falls t seen j := by
    intro falls
    exact absurd (first ⟨after, falls⟩) (by omega)
  have highest {j : Nat} (armed : a ≤ j) (earlier : j < seen.length) :
      metricPlace t seen j ≤ metricPlace t seen (seen.length - 1) :=
    metricPlace_le numbers ever armed (by omega) (by omega)
  refine ⟨a, r, least, here, ?_, ?_⟩
  · rw [single_lt_iff] at exceeds ⊢
    exact ⟨exceeds.1, numbers _ (by omega) (by omega),
      lt_of_lt_of_le exceeds.2.2 (highest (le_refl a) before)⟩
  · intro j armed within
    rw [single_lt_iff]
    rintro ⟨-, -, above⟩
    by_cases last : j = seen.length
    · -- The last metric is the one that has fallen.
      rw [last] at above
      exact absurd (single_le_iff.mp falls).2.2 (not_le_of_gt above)
    · exact absurd (highest armed (by omega)) (not_le_of_gt above)

theorem Detects.metric_eq {range : Float32} {window : Array Sample} {estimate : Estimate}
    (detects : Detects t seen range window estimate) (declares : Declares t seen) :
    estimate.metric = metricAt t (samplesIn seen) (seen.length - 1) := by
  obtain ⟨a, least, before, -⟩ := declares
  have enough := least.1.1
  have full : metricAt t (samplesIn seen) (seen.length - 1) =
      (correlationAt t (samplesIn seen) (seen.length - 1)).metric := if_neg (by omega)
  rw [detects.estimate_eq, full]
  rfl

/-- A detection is genuine unless a metric was not a number while the detector was armed. -/
theorem detection_genuine {waveform : List Sample} (made : Template.ofSamples waveform = .ok t)
    (searched : Searched t seen d) {x : Sample} {window : Array Sample}
    (found : (d.execute x).2 = some window)
    (comparable : Comparable t (seen ++ [⟨x, d.threshold⟩])) :
    Genuine t (seen ++ [⟨x, d.threshold⟩]) (d.execute x).1.estimate.metric := by
  have positive := Template.length_pos made
  have step : d.execute x = ((d.execute x).1, some window) := Prod.ext rfl found
  obtain ⟨d', missed, -⟩ | ⟨d', window', found, declares, -, detects⟩ :=
    (searched.follows positive).execute_cases positive (r := ⟨x, d.threshold⟩) rfl
  · cases step.symm.trans missed
  · have found : d.execute x = (d', some window') := found
    rw [found, detects.metric_eq declares]
    exact declares.genuine comparable

def loudTemplate : Template := ⟨[Sample.real 2], [Sample.real 2], 8, 0, 1⟩

theorem Searched.next (before : Searched t seen d) {x : Sample} (missed : (d.execute x).2 = none) :
    Searched t (seen ++ [⟨x, d.threshold⟩]) (d.execute x).1 :=
  .missed before (Prod.ext rfl missed)

theorem detection_genuine_loudTemplate :
    ∃ seen d, Template.ofSamples [Sample.real 2, Sample.real 2] = .ok loudTemplate ∧
      Searched loudTemplate seen d ∧ (d.execute (Sample.real 1)).2.isSome ∧
      Genuine loudTemplate (seen ++ [⟨Sample.real 1, d.threshold⟩])
        (d.execute (Sample.real 1)).1.estimate.metric := by
  have made : Template.ofSamples [Sample.real 2, Sample.real 2] = .ok loudTemplate := by
    decide +kernel
  have searched := ((Searched.made (t := loudTemplate)).next (x := Sample.real 1)
    (by decide +kernel)).next (x := Sample.real 1) (by decide +kernel)
  refine ⟨_, _, made, searched, by decide +kernel, ?_⟩
  refine detection_genuine made searched
    (by decide +kernel : _ = some #[Sample.real 1, Sample.real 1, Sample.real 1]) ?_
  rintro a - j - before
  revert j
  decide +kernel

/-- A sample whose energy exceeds all numbers has a metric that is none. Behind an exact copy of the
template it makes the detector forget the peak, and silence is reported as one. -/
theorem detection_not_genuine :
    ∃ seen d, Template.ofSamples [Sample.real 2, Sample.real 2] = .ok loudTemplate ∧
      Searched loudTemplate seen d ∧
      samplesIn seen = [Sample.real 1, Sample.real 1, Sample.real 3e38, 0, 0] ∧
      (d.execute 0).2 = some #[0, 0, 0] ∧ (d.execute 0).1.estimate.metric = 0 ∧
      metricAt loudTemplate (samplesIn seen) 2 = 1 ∧
      ¬ Genuine loudTemplate (seen ++ [⟨0, d.threshold⟩]) (d.execute 0).1.estimate.metric := by
  have made : Template.ofSamples [Sample.real 2, Sample.real 2] = .ok loudTemplate := by
    decide +kernel
  have searched := (((((Searched.made (t := loudTemplate)).next (x := Sample.real 1)
    (by decide +kernel)).next (x := Sample.real 1) (by decide +kernel)).next
    (x := Sample.real 3e38) (by decide +kernel)).next (x := 0) (by decide +kernel)).next (x := 0)
    (by decide +kernel)
  refine ⟨_, _, made, searched, rfl, by decide +kernel, by decide +kernel, by decide +kernel, ?_⟩
  rintro ⟨a, r, -, here, exceeds, -⟩
  have member := List.mem_of_getElem? here
  refine absurd exceeds ?_
  clear here exceeds
  revert r
  decide +kernel

end FrameSync
