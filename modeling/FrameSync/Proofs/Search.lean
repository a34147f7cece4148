import FrameSync.Proofs.Window
import Mathlib.Order.Bounds.Defs

/-!
What the detector finds, in terms of the plain list of samples since its search began. The metric
must exceed the threshold once; from there on, the first sample at which it does not grow any more
is the one after the peak, and it brings the window.
-/

namespace FrameSync

/-- A sample that the detector takes in, and the threshold in force then. -/
structure Reading where
  sample : Sample
  threshold : Float32

variable {t : Template}

def samplesIn (seen : List Reading) : List Sample := seen.map Reading.sample

@[simp] theorem length_samplesIn (seen : List Reading) : (samplesIn seen).length = seen.length :=
  List.length_map _

@[simp] theorem samplesIn_append (a b : List Reading) :
    samplesIn (a ++ b) = samplesIn a ++ samplesIn b := List.map_append

@[simp] theorem samplesIn_singleton (r : Reading) : samplesIn [r] = [r.sample] := rfl

/-- The correlation of the template with the samples that end with number `j`, counted from one. -/
def correlationAt (t : Template) (xs : List Sample) (j : Nat) : Correlation :=
  t.correlate ((xs.take j).drop (j - t.length))

def metricAt (t : Template) (xs : List Sample) (j : Nat) : Float32 :=
  if j < t.length then 0 else (correlationAt t xs j).metric

def Exceeds (t : Template) (seen : List Reading) (j : Nat) : Prop :=
  t.length ≤ j ∧ ∃ r, seen[j - 1]? = some r ∧ r.threshold < metricAt t (samplesIn seen) j

def Falls (t : Template) (seen : List Reading) (j : Nat) : Prop :=
  metricAt t (samplesIn seen) j ≤ metricAt t (samplesIn seen) (j - 1)

/-- A detector for the template, after any calls, and what it has taken in since it was made, was
reset or found the preamble last. -/
inductive Searched (t : Template) : List Reading → Detector → Prop
  | made : Searched t [] (.ofTemplate t)
  | missed {seen : List Reading} {d d' : Detector} {x : Sample} (before : Searched t seen d)
      (step : d.execute x = (d', none)) : Searched t (seen ++ [⟨x, d.threshold⟩]) d'
  | found {seen : List Reading} {d d' : Detector} {x : Sample} {window : Array Sample}
      (before : Searched t seen d) (step : d.execute x = (d', some window)) : Searched t [] d'
  | reset {seen : List Reading} {d : Detector} (before : Searched t seen d) :
      Searched t [] d.reset
  | setThreshold {seen : List Reading} {d d' : Detector} {threshold : Float32}
      (before : Searched t seen d) (set : d.setThreshold threshold = .ok d') : Searched t seen d'
  | setRange {seen : List Reading} {d d' : Detector} {range : Float32}
      (before : Searched t seen d) (set : d.setRange range = .ok d') : Searched t seen d'

theorem correlationAt_append {seen : List Reading} {j : Nat} (within : j ≤ seen.length)
    (more : List Reading) :
    correlationAt t (samplesIn (seen ++ more)) j = correlationAt t (samplesIn seen) j := by
  rw [correlationAt, correlationAt, samplesIn_append, List.take_append_of_le_length]
  rwa [length_samplesIn]

theorem metricAt_append {seen : List Reading} {j : Nat} (within : j ≤ seen.length)
    (more : List Reading) :
    metricAt t (samplesIn (seen ++ more)) j = metricAt t (samplesIn seen) j := by
  rw [metricAt, metricAt, correlationAt_append within]

theorem exceeds_append {seen : List Reading} {j : Nat} (positive : 0 < t.length)
    (within : j ≤ seen.length) (more : List Reading) :
    Exceeds t (seen ++ more) j ↔ Exceeds t seen j := by
  rw [Exceeds, Exceeds, metricAt_append within]
  apply and_congr_right
  intro enough
  have first : 0 < j := Nat.lt_of_lt_of_le positive enough
  rw [List.getElem?_append_left (by omega)]

theorem le_of_exceeds {seen : List Reading} {j : Nat} (positive : 0 < t.length)
    (exceeds : Exceeds t seen j) : j ≤ seen.length := by
  obtain ⟨enough, r, here, -⟩ := exceeds
  have first : 0 < j := Nat.lt_of_lt_of_le positive enough
  have bound := (List.getElem?_eq_some_iff.mp here).1
  omega

theorem exceeds_last {seen : List Reading} {r : Reading} :
    Exceeds t (seen ++ [r]) (seen.length + 1) ↔
      t.length ≤ seen.length + 1 ∧
        r.threshold < metricAt t (samplesIn (seen ++ [r])) (seen.length + 1) := by
  simp [Exceeds]

theorem falls_append {seen : List Reading} {j : Nat} (within : j ≤ seen.length)
    (more : List Reading) : Falls t (seen ++ more) j ↔ Falls t seen j := by
  rw [Falls, Falls, metricAt_append within, metricAt_append (Nat.le_trans (Nat.sub_le j 1) within)]

/-- The latest sample is the one after the peak. -/
def Declares (t : Template) (seen : List Reading) : Prop :=
  ∃ a, IsLeast {j | Exceeds t seen j} a ∧ a < seen.length ∧
    IsLeast {j | a < j ∧ Falls t seen j} seen.length

/-- The metric has exceeded the threshold, and it has grown at every sample since. The peak so far
is the latest sample. -/
structure Rising (t : Template) (seen : List Reading) (peak : Peak) : Prop where
  latest : peak = ⟨correlationAt t (samplesIn seen) seen.length,
    metricAt t (samplesIn seen) (seen.length - 1)⟩
  since : ∃ a, IsLeast {j | Exceeds t seen j} a ∧ ∀ j, a < j → j ≤ seen.length → ¬ Falls t seen j

section

variable {seen : List Reading} {r : Reading} {peak : Peak}

theorem isLeast_append (positive : 0 < t.length) {a : Nat}
    (least : IsLeast {j | Exceeds t seen j} a) :
    IsLeast {j | Exceeds t (seen ++ [r]) j} a := by
  have bound := le_of_exceeds positive least.1
  constructor
  · exact (exceeds_append positive bound [r]).mpr least.1
  · intro j exceeds
    by_cases within : j ≤ seen.length
    · exact least.2 ((exceeds_append positive within [r]).mp exceeds)
    · omega

theorem rising_first (positive : 0 < t.length) (never : ∀ j, ¬ Exceeds t seen j)
    (exceeds : Exceeds t (seen ++ [r]) (seen.length + 1)) :
    Rising t (seen ++ [r]) ⟨correlationAt t (samplesIn (seen ++ [r])) (seen.length + 1),
      metricAt t (samplesIn (seen ++ [r])) seen.length⟩ := by
  have length : (seen ++ [r]).length = seen.length + 1 := List.length_append
  refine ⟨by rw [length]; rfl, seen.length + 1, ⟨exceeds, ?_⟩, fun j after within => by omega⟩
  intro j exceeds'
  by_cases within : j ≤ seen.length
  · exact absurd ((exceeds_append positive within [r]).mp exceeds') (never j)
  · omega

theorem Rising.enough (rising : Rising t seen peak) (positive : 0 < t.length) :
    t.length ≤ seen.length := by
  obtain ⟨a, least, -⟩ := rising.since
  exact Nat.le_trans least.1.1 (le_of_exceeds positive least.1)

theorem Rising.falls_iff (rising : Rising t seen peak) (positive : 0 < t.length) :
    Falls t (seen ++ [r]) (seen.length + 1) ↔
      (correlationAt t (samplesIn (seen ++ [r])) (seen.length + 1)).metric ≤
        peak.correlation.metric := by
  have enough := rising.enough positive
  rw [rising.latest, Falls, metricAt, if_neg (by omega), Nat.add_sub_cancel,
    metricAt_append (Nat.le_refl _), metricAt, if_neg (by omega)]

theorem Rising.grow (rising : Rising t seen peak) (positive : 0 < t.length)
    (grows : ¬ Falls t (seen ++ [r]) (seen.length + 1)) :
    Rising t (seen ++ [r]) ⟨correlationAt t (samplesIn (seen ++ [r])) (seen.length + 1),
      metricAt t (samplesIn (seen ++ [r])) seen.length⟩ := by
  have length : (seen ++ [r]).length = seen.length + 1 := List.length_append
  obtain ⟨a, least, ever⟩ := rising.since
  refine ⟨by rw [length]; rfl, a, isLeast_append positive least, ?_⟩
  intro j after within
  by_cases earlier : j ≤ seen.length
  · rw [falls_append earlier]
    exact ever j after earlier
  · obtain rfl : j = seen.length + 1 := by omega
    exact grows

theorem Rising.declares (rising : Rising t seen peak) (positive : 0 < t.length)
    (falls : Falls t (seen ++ [r]) (seen.length + 1)) : Declares t (seen ++ [r]) := by
  have length : (seen ++ [r]).length = seen.length + 1 := List.length_append
  obtain ⟨a, least, ever⟩ := rising.since
  have bound := le_of_exceeds positive least.1
  rw [Declares, length]
  refine ⟨a, isLeast_append positive least, by omega, ⟨by omega, falls⟩, ?_⟩
  intro j after
  apply Nat.lt_of_not_le
  intro within
  exact ever j after.1 within ((falls_append within [r]).mp after.2)

theorem Rising.estimate_eq (rising : Rising t seen peak) (positive : 0 < t.length)
    (range : Float32) :
    t.estimate peak.correlation peak.left
        (correlationAt t (samplesIn (seen ++ [r])) (seen.length + 1)).metric range =
      t.estimate (correlationAt t (samplesIn (seen ++ [r])) seen.length)
        (metricAt t (samplesIn (seen ++ [r])) (seen.length - 1))
        (metricAt t (samplesIn (seen ++ [r])) (seen.length + 1)) range := by
  have enough := rising.enough positive
  have right : metricAt t (samplesIn (seen ++ [r])) (seen.length + 1) =
      (correlationAt t (samplesIn (seen ++ [r])) (seen.length + 1)).metric :=
    if_neg (by omega)
  rw [right, correlationAt_append (Nat.le_refl _), metricAt_append (Nat.sub_le _ _), rising.latest]

theorem not_declares_of_grows (grows : ¬ Falls t (seen ++ [r]) (seen.length + 1)) :
    ¬ Declares t (seen ++ [r]) := by
  intro declares
  have length : (seen ++ [r]).length = seen.length + 1 := List.length_append
  rw [Declares, length] at declares
  obtain ⟨a, -, -, falls, -⟩ := declares
  exact grows falls.2

theorem not_declares_of_never (positive : 0 < t.length) (never : ∀ j, ¬ Exceeds t seen j) :
    ¬ Declares t (seen ++ [r]) := by
  intro declares
  have length : (seen ++ [r]).length = seen.length + 1 := List.length_append
  obtain ⟨a, least, before, -⟩ := declares
  exact never a ((exceeds_append positive (by omega) [r]).mp least.1)

end

/-- The detector's state in terms of what it has taken in. Its window goes back further than the
search, but nothing else does. -/
structure Follows (t : Template) (seen : List Reading) (d : Detector) : Prop where
  same : d.template = t
  doubled : d.Doubled
  contents : ∃ older, older.length = t.length + 1 ∧
    d.window.toList = (older ++ samplesIn seen).drop seen.length
  filled : d.filled = min seen.length t.length
  previous : d.previous = metricAt t (samplesIn seen) seen.length
  idle : d.peak = none → ∀ j, ¬ Exceeds t seen j
  armed : ∀ peak, d.peak = some peak → Rising t seen peak

namespace Follows

variable {seen : List Reading} {d : Detector}

theorem start (positive : 0 < t.length) (same : d.template = t) (doubled : d.Doubled)
    (filled : d.filled = 0) (previous : d.previous = 0) (peak : d.peak = none) :
    Follows t [] d where
  same := same
  doubled := doubled
  contents := by
    refine ⟨d.window.toList, ?_, ?_⟩
    · rw [Array.length_toList, Detector.size_window doubled, Detector.windowLength, same]
    · exact (List.append_nil _).symm
  filled := by rw [filled, List.length_nil, Nat.zero_min]
  previous := previous.trans (if_pos positive).symm
  idle _ j exceeds := by
    obtain ⟨-, r, here, -⟩ := exceeds
    cases here
  armed p some := by
    rw [peak] at some
    cases some

theorem contents_push (follows : Follows t seen d) (r : Reading) :
    ∃ older, older.length = t.length + 1 ∧
      (d.push r.sample).window.toList =
        (older ++ samplesIn (seen ++ [r])).drop (seen.length + 1) := by
  obtain ⟨older, length, contents⟩ := follows.contents
  refine ⟨older, length, ?_⟩
  have whole : older ++ samplesIn (seen ++ [r]) = (older ++ samplesIn seen) ++ [r.sample] := by
    rw [samplesIn_append, samplesIn_singleton, List.append_assoc]
  have enough : seen.length + 1 ≤ (older ++ samplesIn seen).length := by
    rw [List.length_append, length_samplesIn]
    omega
  rw [Detector.window_push follows.doubled, contents, ← List.drop_one, List.drop_drop, whole,
    List.drop_append_of_le_length enough]

theorem filled_push (follows : Follows t seen d) (x : Sample) :
    (d.push x).filled = min (seen.length + 1) t.length := by
  have filled := follows.filled
  change (if d.filled < d.template.length then d.filled + 1 else d.filled) = _
  rw [follows.same]
  split <;> omega

theorem correlate_push (follows : Follows t seen d) (r : Reading)
    (enough : t.length ≤ seen.length + 1) :
    t.correlate (d.push r.sample).recent.toList =
      correlationAt t (samplesIn (seen ++ [r])) (seen.length + 1) := by
  obtain ⟨older, length, contents⟩ := follows.contents_push r
  rw [Detector.toList_recent, contents, correlationAt, List.take_of_length_le (by simp),
    ← List.drop_one, List.drop_drop, List.drop_append, length,
    List.drop_eq_nil_of_le (by omega), List.nil_append]
  congr 2
  omega

theorem advance (follows : Follows t seen d) (r : Reading) (peak : Option Peak) (previous : Float32)
    (latest : previous = metricAt t (samplesIn (seen ++ [r])) (seen.length + 1))
    (idle : peak = none → ∀ j, ¬ Exceeds t (seen ++ [r]) j)
    (armed : ∀ p, peak = some p → Rising t (seen ++ [r]) p) :
    Follows t (seen ++ [r]) { d.push r.sample with peak, previous } where
  same := follows.same
  doubled :=
    have doubled := Detector.doubled_push follows.doubled r.sample
    ⟨doubled.size, doubled.next, doubled.twice⟩
  contents := by
    rw [List.length_append]
    exact follows.contents_push r
  filled := by
    rw [List.length_append]
    exact follows.filled_push r.sample
  previous := by
    rw [List.length_append]
    exact latest
  idle := idle
  armed := armed

theorem raise (follows : Follows t seen d) (r : Reading) (enough : t.length ≤ seen.length + 1)
    (rising : Rising t (seen ++ [r]) ⟨correlationAt t (samplesIn (seen ++ [r])) (seen.length + 1),
      metricAt t (samplesIn (seen ++ [r])) seen.length⟩) :
    Follows t (seen ++ [r])
      { d.push r.sample with
        peak := some
          ⟨correlationAt t (samplesIn (seen ++ [r])) (seen.length + 1), (d.push r.sample).previous⟩
        previous := (correlationAt t (samplesIn (seen ++ [r])) (seen.length + 1)).metric } := by
  apply follows.advance r
  · exact (if_neg (by omega)).symm
  · intro none
    cases none
  · rintro _ ⟨⟩
    change Rising t (seen ++ [r]) ⟨_, d.previous⟩
    rwa [follows.previous, ← metricAt_append (Nat.le_refl _) [r]]

theorem execute_filling (follows : Follows t seen d) (x : Sample)
    (short : seen.length + 1 < t.length) : d.execute x = (d.push x, none) := by
  have filled := follows.filled_push x
  have same : (d.push x).template = t := follows.same
  rw [Detector.execute, if_pos]
  rw [filled, same]
  omega

theorem execute_full (follows : Follows t seen d) (r : Reading)
    (enough : t.length ≤ seen.length + 1) :
    d.execute r.sample =
      (d.push r.sample).track (correlationAt t (samplesIn (seen ++ [r])) (seen.length + 1)) := by
  have filled := follows.filled_push r.sample
  have same : (d.push r.sample).template = t := follows.same
  rw [Detector.execute, if_neg, same, follows.correlate_push r enough]
  rw [filled, same]
  omega

end Follows

namespace Detector

theorem setThreshold_eq_ok {d d' : Detector} {threshold : Float32} :
    d.setThreshold threshold = .ok d' ↔
      (0 < threshold ∧ threshold ≤ 1) ∧ d' = { d with threshold } := by
  unfold setThreshold
  split
  · next accepted =>
    rw [Bool.and_eq_true, decide_eq_true_eq, decide_eq_true_eq] at accepted
    simp [accepted, eq_comm]
  · next refused =>
    rw [Bool.and_eq_true, decide_eq_true_eq, decide_eq_true_eq] at refused
    simp [refused, refuse]

theorem setRange_eq_ok {d d' : Detector} {range : Float32} :
    d.setRange range = .ok d' ↔ (0 ≤ range ∧ range ≤ 1) ∧ d' = { d with range } := by
  unfold setRange
  split
  · next accepted =>
    rw [Bool.and_eq_true, decide_eq_true_eq, decide_eq_true_eq] at accepted
    simp [accepted, eq_comm]
  · next refused =>
    rw [Bool.and_eq_true, decide_eq_true_eq, decide_eq_true_eq] at refused
    simp [refused, refuse]

theorem track_falls {d : Detector} {p : Peak} (peak : d.peak = some p) {c : Correlation}
    (falls : c.metric ≤ p.correlation.metric) :
    d.track c =
      ({ d with estimate := d.template.estimate p.correlation p.left c.metric d.range }.rearm,
        some d.window) := by
  rw [track, peak]
  exact if_pos falls

theorem track_grows {d : Detector} {p : Peak} (peak : d.peak = some p) {c : Correlation}
    (grows : ¬ c.metric ≤ p.correlation.metric) :
    d.track c = ({ d with peak := some ⟨c, d.previous⟩, previous := c.metric }, none) := by
  rw [track, peak]
  exact if_neg grows

theorem track_exceeds {d : Detector} (idle : d.peak = none) {c : Correlation}
    (exceeds : d.threshold < c.metric) :
    d.track c = ({ d with peak := some ⟨c, d.previous⟩, previous := c.metric }, none) := by
  rw [track, idle]
  exact if_pos exceeds

theorem track_idle {d : Detector} (idle : d.peak = none) {c : Correlation}
    (below : ¬ d.threshold < c.metric) :
    d.track c = ({ d with previous := c.metric }, none) := by
  rw [track, idle]
  exact if_neg below

end Detector

/-- What comes with a detection at the latest sample. The peak is the sample before. -/
structure Detects (t : Template) (seen : List Reading) (range : Float32) (window : Array Sample)
    (estimate : Estimate) : Prop where
  size : window.size = t.length + 1
  window_eq : window.toList = (samplesIn seen).drop (seen.length - (t.length + 1))
  peak_eq : correlationAt t (samplesIn seen) (seen.length - 1) =
    t.correlate (window.toList.take t.length)
  estimate_eq : estimate = t.estimate (correlationAt t (samplesIn seen) (seen.length - 1))
    (metricAt t (samplesIn seen) (seen.length - 2)) (metricAt t (samplesIn seen) seen.length) range
  timing_eq : estimate.timing = Template.parabolaTop (metricAt t (samplesIn seen) (seen.length - 2))
    (metricAt t (samplesIn seen) (seen.length - 1)) (metricAt t (samplesIn seen) seen.length)

namespace Follows

variable {seen : List Reading} {d : Detector}

theorem window_push (follows : Follows t seen d) (r : Reading) (enough : t.length ≤ seen.length) :
    (d.push r.sample).window.toList =
      (samplesIn (seen ++ [r])).drop (seen.length - t.length) := by
  obtain ⟨older, length, contents⟩ := follows.contents_push r
  rw [contents, List.drop_append, length, List.drop_eq_nil_of_le (by omega), List.nil_append,
    Nat.add_sub_add_right]

theorem detects (follows : Follows t seen d) (positive : 0 < t.length) {r : Reading} {p : Peak}
    (peak : d.peak = some p) (falls : Falls t (seen ++ [r]) (seen.length + 1)) :
    ∃ d', d.execute r.sample = (d', some (d.push r.sample).window) ∧ Follows t [] d' ∧
      Detects t (seen ++ [r]) d.range (d.push r.sample).window d'.estimate := by
  have rising := follows.armed p peak
  have enough := rising.enough positive
  have doubled := Detector.doubled_push follows.doubled r.sample
  have same : (d.push r.sample).template = t := follows.same
  have window := follows.window_push r enough
  have whole : (seen ++ [r]).length = seen.length + 1 := List.length_append
  have middle : metricAt t (samplesIn (seen ++ [r])) seen.length =
      (correlationAt t (samplesIn (seen ++ [r])) seen.length).metric := if_neg (by omega)
  have estimate := rising.estimate_eq (r := r) positive d.range
  rw [rising.falls_iff positive] at falls
  rw [follows.execute_full r (by omega)]
  refine ⟨_, Detector.track_falls (d := d.push r.sample) peak falls, ?_, ?_⟩
  · exact .start positive same ⟨doubled.size, doubled.next, doubled.twice⟩ rfl rfl rfl
  rw [same]
  constructor
  · rw [Detector.size_window doubled, Detector.windowLength, same]
  · rw [whole, window, Nat.add_sub_add_right]
  · rw [whole, correlationAt, window, List.take_drop, Nat.add_sub_cancel, Nat.sub_add_cancel enough]
  · rw [whole]
    exact estimate
  · rw [whole, Nat.add_sub_cancel, middle]
    exact congrArg Estimate.timing estimate

theorem fills (follows : Follows t seen d) (positive : 0 < t.length) {r : Reading}
    (short : seen.length + 1 < t.length) :
    d.execute r.sample = (d.push r.sample, none) ∧ ¬ Declares t (seen ++ [r]) ∧
      Follows t (seen ++ [r]) (d.push r.sample) := by
  have never {more : List Reading} (within : more.length < t.length) (j : Nat) :
      ¬ Exceeds t more j := by
    intro exceeds
    have bound := le_of_exceeds positive exceeds
    have enough := exceeds.1
    omega
  have whole : (seen ++ [r]).length = seen.length + 1 := List.length_append
  refine ⟨follows.execute_filling r.sample short,
    not_declares_of_never positive (never (by omega)), follows.advance r d.peak d.previous ?_ ?_ ?_⟩
  · rw [follows.previous, metricAt, metricAt, if_pos (by omega), if_pos short]
  · exact fun _ => never (by omega)
  · intro p peak
    have enough := (follows.armed p peak).enough positive
    omega

theorem grows (follows : Follows t seen d) (positive : 0 < t.length) {r : Reading} {p : Peak}
    (peak : d.peak = some p) (grows : ¬ Falls t (seen ++ [r]) (seen.length + 1)) :
    ∃ d', d.execute r.sample = (d', none) ∧ Follows t (seen ++ [r]) d' ∧ d'.estimate = d.estimate := by
  have rising := follows.armed p peak
  have enough := rising.enough positive
  have grown := rising.grow positive grows
  rw [rising.falls_iff positive] at grows
  rw [follows.execute_full r (by omega)]
  exact ⟨_, Detector.track_grows (d := d.push r.sample) peak grows,
    follows.raise r (by omega) grown, rfl⟩

theorem exceeds (follows : Follows t seen d) (positive : 0 < t.length) {r : Reading}
    (inForce : r.threshold = d.threshold) (idle : d.peak = none)
    (exceeds : Exceeds t (seen ++ [r]) (seen.length + 1)) :
    ∃ d', d.execute r.sample = (d', none) ∧ Follows t (seen ++ [r]) d' ∧ d'.estimate = d.estimate := by
  have first := rising_first positive (follows.idle idle) exceeds
  obtain ⟨enough, above⟩ := exceeds_last.mp exceeds
  rw [metricAt, if_neg (by omega), inForce] at above
  rw [follows.execute_full r enough]
  exact ⟨_, Detector.track_exceeds (d := d.push r.sample) idle above,
    follows.raise r enough first, rfl⟩

theorem passes (follows : Follows t seen d) (positive : 0 < t.length) {r : Reading}
    (inForce : r.threshold = d.threshold) (idle : d.peak = none)
    (enough : t.length ≤ seen.length + 1)
    (below : ¬ Exceeds t (seen ++ [r]) (seen.length + 1)) :
    ∃ d', d.execute r.sample = (d', none) ∧ Follows t (seen ++ [r]) d' ∧ d'.estimate = d.estimate := by
  have under : ¬ d.threshold < (correlationAt t (samplesIn (seen ++ [r])) (seen.length + 1)).metric := by
    intro above
    apply below
    rw [exceeds_last, metricAt, if_neg (by omega), inForce]
    exact ⟨enough, above⟩
  rw [follows.execute_full r enough]
  refine ⟨_, Detector.track_idle (d := d.push r.sample) idle under,
    follows.advance r (d.push r.sample).peak _ ?_ ?_ ?_, rfl⟩
  · exact (if_neg (by omega)).symm
  · intro _ j exceeds
    have bound := le_of_exceeds positive exceeds
    rw [List.length_append, List.length_singleton] at bound
    by_cases last : j = seen.length + 1
    · exact below (last ▸ exceeds)
    · exact follows.idle idle j ((exceeds_append positive (by omega) [r]).mp exceeds)
  · intro p peak
    cases idle.symm.trans peak

theorem retune (follows : Follows t seen d) (threshold range : Float32) :
    Follows t seen { d with threshold, range } :=
  ⟨follows.same, ⟨follows.doubled.size, follows.doubled.next, follows.doubled.twice⟩,
    follows.contents, follows.filled, follows.previous, follows.idle, follows.armed⟩

theorem execute_cases (follows : Follows t seen d) (positive : 0 < t.length) {r : Reading}
    (inForce : r.threshold = d.threshold) :
    (∃ d', d.execute r.sample = (d', none) ∧ ¬ Declares t (seen ++ [r]) ∧
      Follows t (seen ++ [r]) d' ∧ d'.estimate = d.estimate) ∨
    (∃ d' window, d.execute r.sample = (d', some window) ∧ Declares t (seen ++ [r]) ∧
      Follows t [] d' ∧ Detects t (seen ++ [r]) d.range window d'.estimate) := by
  by_cases short : seen.length + 1 < t.length
  · obtain ⟨step, undeclared, follows'⟩ := follows.fills positive short
    exact .inl ⟨_, step, undeclared, follows', rfl⟩
  cases peak : d.peak with
  | some p =>
    by_cases falls : Falls t (seen ++ [r]) (seen.length + 1)
    · obtain ⟨d', step, follows', detects⟩ := follows.detects positive peak falls
      exact .inr ⟨d', _, step, (follows.armed p peak).declares positive falls, follows', detects⟩
    · obtain ⟨d', step, follows', kept⟩ := follows.grows positive peak falls
      exact .inl ⟨d', step, not_declares_of_grows falls, follows', kept⟩
  | none =>
    have undeclared := not_declares_of_never (r := r) positive (follows.idle peak)
    by_cases exceeds : Exceeds t (seen ++ [r]) (seen.length + 1)
    · obtain ⟨d', step, follows', kept⟩ := follows.exceeds positive inForce peak exceeds
      exact .inl ⟨d', step, undeclared, follows', kept⟩
    · obtain ⟨d', step, follows', kept⟩ := follows.passes positive inForce peak (by omega) exceeds
      exact .inl ⟨d', step, undeclared, follows', kept⟩

end Follows

theorem Template.length_of_ofSamples {waveform : List Sample} (made : ofSamples waveform = .ok t) :
    t.length = waveform.length ∧ 2 ≤ waveform.length := by
  unfold ofSamples at made
  split at made
  · simp [refuse] at made
  dsimp only at made
  split at made
  · simp [refuse] at made
  cases made
  rw [length, List.length_take, List.length_drop]
  omega

theorem Template.length_pos {waveform : List Sample} (made : ofSamples waveform = .ok t) :
    0 < t.length := by
  have length := length_of_ofSamples made
  omega

theorem Searched.follows (positive : 0 < t.length) {seen : List Reading} {d : Detector}
    (searched : Searched t seen d) : Follows t seen d := by
  induction searched with
  | made => exact .start positive rfl (Detector.doubled_ofTemplate t) rfl rfl rfl
  | @missed seen d d' x _ step ih =>
    obtain ⟨d'', step', -, follows, -⟩ | ⟨d'', window, step', -⟩ :=
      ih.execute_cases positive (r := ⟨x, d.threshold⟩) rfl
    · cases step.symm.trans step'
      exact follows
    · cases step.symm.trans step'
  | @found seen d d' x window _ step ih =>
    obtain ⟨d'', step', -⟩ | ⟨d'', window, step', -, follows, -⟩ :=
      ih.execute_cases positive (r := ⟨x, d.threshold⟩) rfl
    · cases step.symm.trans step'
    · cases step.symm.trans step'
      exact follows
  | reset _ ih => exact .start positive ih.same (Detector.doubled_reset ih.doubled) rfl rfl rfl
  | @setThreshold seen d d' threshold _ set ih =>
    obtain ⟨-, rfl⟩ := Detector.setThreshold_eq_ok.mp set
    exact ih.retune threshold d.range
  | @setRange seen d d' range _ set ih =>
    obtain ⟨-, rfl⟩ := Detector.setRange_eq_ok.mp set
    exact ih.retune d.threshold range

theorem Searched.detects {seen : List Reading} {d d' : Detector} (searched : Searched t seen d)
    (positive : 0 < t.length) {x : Sample} {window : Array Sample}
    (step : d.execute x = (d', some window)) :
    Detects t (seen ++ [⟨x, d.threshold⟩]) d.range window d'.estimate := by
  obtain ⟨d'', step', -⟩ | ⟨d'', window', step', -, -, detects⟩ :=
    (searched.follows positive).execute_cases positive (r := ⟨x, d.threshold⟩) rfl
  · cases step.symm.trans step'
  · cases step.symm.trans step'
    exact detects

theorem Detects.length_lt {seen : List Reading} {range : Float32} {window : Array Sample}
    {estimate : Estimate} (detects : Detects t seen range window estimate) :
    t.length < seen.length := by
  have length : window.toList.length = window.size := Array.length_toList
  rw [detects.window_eq, List.length_drop, length_samplesIn, detects.size] at length
  omega

theorem Detects.unique {seen : List Reading} {range : Float32} {window window' : Array Sample}
    {estimate estimate' : Estimate} (detects : Detects t seen range window estimate)
    (detects' : Detects t seen range window' estimate') :
    window' = window ∧ estimate' = estimate :=
  ⟨Array.ext' (detects'.window_eq.trans detects.window_eq.symm),
    detects'.estimate_eq.trans detects.estimate_eq.symm⟩

/-- The detector agrees with the plain list of the samples that its search has taken in. Nothing
that came before the search plays a part. -/
theorem execute_refines {waveform : List Sample} (made : Template.ofSamples waveform = .ok t)
    {seen : List Reading} {d : Detector} (searched : Searched t seen d) (x : Sample) :
    let seen' := seen ++ [⟨x, d.threshold⟩]
    t.length = waveform.length ∧
      ((d.execute x).2.isSome = true ↔ Declares t seen') ∧
      (∀ window, (d.execute x).2 = some window →
        Detects t seen' d.range window (d.execute x).1.estimate) ∧
      ((d.execute x).2 = none → (d.execute x).1.estimate = d.estimate) ∧
      ∀ other, Searched t seen other → other.threshold = d.threshold → other.range = d.range →
        (other.execute x).2 = (d.execute x).2 ∧
          ((d.execute x).2.isSome = true →
            (other.execute x).1.estimate = (d.execute x).1.estimate) := by
  intro seen'
  have length := Template.length_of_ofSamples made
  have positive : 0 < t.length := by omega
  refine ⟨length.1, ?_⟩
  have outcome := (searched.follows positive).execute_cases positive (r := ⟨x, d.threshold⟩) rfl
  have again (other : Detector) (searched' : Searched t seen other)
      (inForce : other.threshold = d.threshold) :=
    (searched'.follows positive).execute_cases positive (r := ⟨x, d.threshold⟩) inForce.symm
  obtain ⟨d', step, undeclared, -, kept⟩ | ⟨d', window, step, declares, -, detects⟩ := outcome
  · have step : d.execute x = (d', none) := step
    rw [step]
    refine ⟨iff_of_false (fun some => nomatch some) undeclared, (fun _ some => nomatch some),
      fun _ => kept, ?_⟩
    intro other searched' inForce _
    obtain ⟨d'', step', -⟩ | ⟨-, -, -, declares, -⟩ := again other searched' inForce
    · have step' : other.execute x = (d'', none) := step'
      rw [step']
      exact ⟨rfl, fun some => nomatch some⟩
    · exact absurd declares undeclared
  · have step : d.execute x = (d', some window) := step
    rw [step]
    refine ⟨iff_of_true rfl declares, ?_, (fun none => nomatch none), ?_⟩
    · intro window' same
      cases same
      exact detects
    · intro other searched' inForce range
      obtain ⟨-, -, undeclared, -⟩ | ⟨d'', window', step', -, -, detects'⟩ :=
        again other searched' inForce
      · exact absurd declares undeclared
      · have step' : other.execute x = (d'', some window') := step'
        rw [step']
        rw [range] at detects'
        obtain ⟨rfl, same⟩ := detects.unique detects'
        exact ⟨rfl, fun _ => same⟩

/-- A pair that turns by a quarter is found at the sample after it. The frequency stops at the end
of the range. -/
theorem execute_refines_pair :
    ∃ t seen d, Template.ofSamples [Sample.real 1, Sample.real 1] = .ok t ∧ Searched t seen d ∧
      Declares t (seen ++ [⟨0, d.threshold⟩]) ∧
      Detects t (seen ++ [⟨0, d.threshold⟩]) d.range #[⟨0, 2⟩, ⟨-2, 0⟩, 0]
        (d.execute 0).1.estimate ∧
      (d.execute 0).1.estimate =
        { metric := 1, timing := 0.27345908, gain := 2, frequency := 0.3, phase := 1.5707964 } := by
  have made : Template.ofSamples [Sample.real 1, Sample.real 1] =
      .ok ⟨[Sample.real 1], [Sample.real 1], 2, 0, 1⟩ := rfl
  have quiet (d : Detector) (x : Sample) (nothing : (d.execute x).2 = none) :
      d.execute x = ((d.execute x).1, none) := Prod.ext rfl nothing
  have first := Searched.missed
    (.made (t := ⟨[Sample.real 1], [Sample.real 1], 2, 0, 1⟩))
    (quiet _ ⟨0, 2⟩ (by decide +kernel))
  have second := first.missed (quiet _ ⟨-2, 0⟩ (by decide +kernel))
  obtain ⟨-, declares, detects, -⟩ := execute_refines made second 0
  exact ⟨_, _, _, made, second, declares.mp (by decide +kernel), detects _ (by decide +kernel),
    by decide +kernel⟩

end FrameSync
