import Mathlib.Data.List.GetD
import Mathlib.Data.List.Induction
import FrameSync.Proofs.Search

/-!
Modulation as a superposition. A symbol is written out as a copy of the pulse, cut off at the end of
the signal, and the first symbol that begins past the end stops the writing. Read at one position,
the signal is the sum of the symbols whose pulse reaches that far, each weighted by the tap that
falls there, and neither the end of the signal nor the stop can be seen in it.
-/

namespace FrameSync

/-- The numbers of the symbols, of the first `count`, whose pulse of `length` taps covers a
position. -/
def covering (count length k t : Nat) : List Nat :=
  (List.range count).filter fun i => i * k ≤ t ∧ t - i * k < length

/-- The pulses that meet at a position, added up in the order of their symbols. -/
def superposition (symbols : List Sample) (pulse : List Float32) (k t : Nat) : Sample :=
  .sum <| (covering symbols.length pulse.length k t).map fun i =>
    (symbols.getD i 0).scale (pulse.getD (t - i * k) 0)

section Gather

variable {symbols later : List Sample} {pulse : List Float32} {k t : Nat}

theorem covering_succ (count length k t : Nat) :
    covering (count + 1) length k t =
      covering count length k t ++
        if count * k ≤ t ∧ t - count * k < length then [count] else [] := by
  unfold covering
  rw [List.range_succ, List.filter_append]
  simp only [List.filter_cons, List.filter_nil, decide_eq_true_eq]

theorem superposition_concat (symbols : List Sample) (x : Sample) (pulse : List Float32)
    (k t : Nat) :
    superposition (symbols ++ [x]) pulse k t =
      if symbols.length * k ≤ t ∧ t - symbols.length * k < pulse.length then
        superposition symbols pulse k t + x.scale (pulse.getD (t - symbols.length * k) 0)
      else superposition symbols pulse k t := by
  have terms : ((covering symbols.length pulse.length k t).map fun i =>
        ((symbols ++ [x]).getD i 0).scale (pulse.getD (t - i * k) 0)) =
      (covering symbols.length pulse.length k t).map fun i =>
        (symbols.getD i 0).scale (pulse.getD (t - i * k) 0) := by
    apply List.map_congr_left
    intro i member
    have inside : i < symbols.length := List.mem_range.mp (List.mem_filter.mp member).1
    rw [List.getD_append _ _ _ _ inside]
  unfold superposition Sample.sum
  rw [List.length_append, List.length_singleton, covering_succ, List.map_append, terms,
    List.foldl_append]
  split
  · simp
  · rfl

theorem superposition_append (symbols later : List Sample) (pulse : List Float32)
    (early : t < k * symbols.length) :
    superposition (symbols ++ later) pulse k t = superposition symbols pulse k t := by
  induction later using List.reverseRecOn with
  | nil => rw [List.append_nil]
  | append_singleton later x ih =>
    have late : t < (symbols ++ later).length * k := by
      rw [List.length_append, Nat.add_mul, Nat.mul_comm]
      omega
    rw [← List.append_assoc, superposition_concat, if_neg (by omega), ih]

end Gather

section Scatter

variable (symbol : Sample) (pulse : List Float32) (start : Nat) (signal : Array Sample)

@[simp] theorem size_placePulse : (placePulse symbol pulse start signal).size = signal.size := by
  induction pulse generalizing start signal with
  | nil => rfl
  | cons c pulse ih =>
    unfold placePulse
    split
    · rw [ih, Array.size_modify]
    · rfl

theorem getElem?_placePulse (t : Nat) :
    (placePulse symbol pulse start signal)[t]? =
      signal[t]?.map fun y =>
        if start ≤ t ∧ t - start < pulse.length then y + symbol.scale (pulse.getD (t - start) 0)
        else y := by
  induction pulse generalizing start signal with
  | nil => simp [placePulse]
  | cons c pulse ih =>
    unfold placePulse
    split
    next inside =>
      rw [ih, Array.getElem?_modify]
      -- Only the tap at `start` is added here; the others are those of a pulse that begins later.
      rcases Nat.lt_trichotomy t start with before | rfl | behind
      · simp [show start ≠ t by omega, show ¬start + 1 ≤ t by omega, show ¬start ≤ t by omega]
      · simp only [Nat.not_succ_le_self, false_and, if_false, Option.map_map, Function.comp_def,
          Nat.le_refl, Nat.sub_self, List.length_cons, Nat.zero_lt_succ, and_self, if_true,
          List.getD_cons_zero]
      · obtain ⟨d, rfl⟩ := Nat.exists_eq_add_of_lt behind
        simp [show start ≠ start + d + 1 by omega, show start + d + 1 - start = d + 1 by omega,
          show start + d + 1 - (start + 1) = d by omega, show start ≤ start + d + 1 by omega]
    next outside =>
      by_cases short : t < signal.size
      · simp [short, show ¬start ≤ t by omega]
      · simp [Array.getElem?_eq_none (Nat.le_of_not_lt short)]

variable (k : Nat)

@[simp] theorem size_placeSymbols (symbols : List Sample) :
    (placeSymbols pulse k symbols start signal).size = signal.size := by
  induction symbols generalizing start signal with
  | nil => rfl
  | cons x symbols ih =>
    unfold placeSymbols
    split
    · rw [ih, size_placePulse]
    · rfl

theorem placeSymbols_of_le (symbols : List Sample) (past : signal.size ≤ start) :
    placeSymbols pulse k symbols start signal = signal := by
  cases symbols with
  | nil => rfl
  | cons x symbols => exact if_neg (Nat.not_lt.mpr past)

/-- Once the writing has stopped it would stop again at every later symbol. -/
theorem placeSymbols_append (symbols later : List Sample) :
    placeSymbols pulse k (symbols ++ later) start signal =
      placeSymbols pulse k later (start + symbols.length * k)
        (placeSymbols pulse k symbols start signal) := by
  induction symbols generalizing start signal with
  | nil => simp [placeSymbols]
  | cons x symbols ih =>
    by_cases inside : start < signal.size
    · rw [List.cons_append, placeSymbols, if_pos inside, ih, placeSymbols, if_pos inside,
        List.length_cons, Nat.succ_mul, Nat.add_right_comm, ← Nat.add_assoc]
    · have past : signal.size ≤ start := Nat.le_of_not_lt inside
      rw [placeSymbols_of_le _ _ _ _ _ past, placeSymbols_of_le _ _ _ _ _ past,
        placeSymbols_of_le _ _ _ _ _ (Nat.le_add_right_of_le past)]

theorem placeSymbols_singleton :
    placeSymbols pulse k [symbol] start signal = placePulse symbol pulse start signal := by
  by_cases inside : start < signal.size
  · rw [placeSymbols, if_pos inside, placeSymbols]
  · rw [placeSymbols_of_le _ _ _ _ _ (Nat.le_of_not_lt inside)]
    cases pulse with
    | nil => rfl
    | cons c pulse => exact (if_neg inside).symm

end Scatter

@[simp] theorem size_modulate (symbols : List Sample) (pulse : List Float32) (k len : Nat) :
    (modulate symbols pulse k len).size = len := by
  simp [modulate]

/-- Scattering the symbols and gathering them is the same, order of additions included. -/
theorem getElem?_modulate (symbols : List Sample) (pulse : List Float32) (k len t : Nat) :
    (modulate symbols pulse k len)[t]? =
      if t < len then some (superposition symbols pulse k t) else none := by
  unfold modulate
  induction symbols using List.reverseRecOn with
  | nil =>
    rw [placeSymbols, Array.getElem?_replicate]
    rfl
  | append_singleton symbols x ih =>
    rw [placeSymbols_append, placeSymbols_singleton, getElem?_placePulse, ih, Nat.zero_add,
      superposition_concat]
    by_cases inside : t < len
    · simp only [if_pos inside, Option.map_some]
    · simp only [if_neg inside, Option.map_none]

def preambleWaveform (symbols : List Sample) (shape : PulseShape) (k m : Nat) (beta : Float32) :
    List Sample :=
  (modulate symbols (Pulse.taps shape k m beta).toList k (k * (symbols.length + 2 * m))).toList

@[simp] theorem length_preambleWaveform (symbols : List Sample) (shape : PulseShape) (k m : Nat)
    (beta : Float32) :
    (preambleWaveform symbols shape k m beta).length = k * (symbols.length + 2 * m) := by
  simp [preambleWaveform]

section Template

variable {symbols waveform : List Sample} {shape : PulseShape} {k m : Nat} {beta : Float32}
variable {t : Template}

theorem Template.samples_of_ofSamples (made : ofSamples waveform = .ok t) :
    t.samples = waveform := by
  unfold ofSamples at made
  split at made
  · simp [refuse] at made
  dsimp only at made
  split at made
  · simp [refuse] at made
  cases made
  exact List.take_append_drop ..

theorem Template.samples_of_ofSequence (made : ofSequence symbols shape k m beta = .ok t) :
    t.samples = preambleWaveform symbols shape k m beta := by
  unfold ofSequence at made
  split at made
  · simp [refuse] at made
  cases pulse : Pulse.design shape k m beta with
  | error fault => simp [pulse, bind, Except.bind] at made
  | ok taps =>
    rw [pulse] at made
    obtain rfl := (Pulse.design_eq_ok.mp pulse).2.2.2
    exact samples_of_ofSamples made

end Template

/-- What modulation makes of symbols and a pulse, at `k` samples a symbol. -/
structure Superposes (symbols : List Sample) (pulse : List Float32) (k : Nat) : Prop where
  size (len : Nat) : (modulate symbols pulse k len).size = len
  entry (len t : Nat) (inside : t < len) :
    (modulate symbols pulse k len)[t]? = some (superposition symbols pulse k t)
  shorter (len len' : Nat) (less : len ≤ len') :
    modulate symbols pulse k len = (modulate symbols pulse k len').take len
  earlier (later : List Sample) (len t : Nat) (before : t < k * symbols.length) :
    (modulate (symbols ++ later) pulse k len)[t]? = (modulate symbols pulse k len)[t]?
  /-- Every frame begins like the template of its preamble. -/
  preamble (shape : PulseShape) (m : Nat) (beta : Float32) (d : Detector)
    (made : Detector.ofSequence symbols shape k m beta = .ok d) (later : List Sample) (len : Nat)
    (enough : k * symbols.length ≤ len) :
    (modulate (symbols ++ later) (Pulse.taps shape k m beta).toList k len).toList.take
        (k * symbols.length) = d.template.samples.take (k * symbols.length)

section Prefix

variable (symbols later : List Sample) (pulse : List Float32) (k : Nat) {len len' t : Nat}

theorem modulate_eq_take (less : len ≤ len') :
    modulate symbols pulse k len = (modulate symbols pulse k len').take len := by
  apply Array.ext_getElem?
  intro t
  rw [Array.take_eq_extract, Array.getElem?_extract, Nat.zero_add, size_modulate,
    Nat.min_eq_left less, Nat.sub_zero, getElem?_modulate, getElem?_modulate]
  split
  next inside => rw [if_pos (Nat.lt_of_lt_of_le inside less)]
  · rfl

theorem getElem?_modulate_append (before : t < k * symbols.length) :
    (modulate (symbols ++ later) pulse k len)[t]? = (modulate symbols pulse k len)[t]? := by
  rw [getElem?_modulate, getElem?_modulate, superposition_append _ _ _ before]

theorem take_modulate_append (enough : k * symbols.length ≤ len)
    (enough' : k * symbols.length ≤ len') :
    (modulate (symbols ++ later) pulse k len).toList.take (k * symbols.length) =
      (modulate symbols pulse k len').toList.take (k * symbols.length) := by
  apply List.ext_getElem?
  intro t
  rw [List.getElem?_take, List.getElem?_take]
  split
  next before =>
    rw [Array.getElem?_toList, Array.getElem?_toList, getElem?_modulate_append _ _ _ _ before,
      getElem?_modulate, getElem?_modulate, if_pos (by omega), if_pos (by omega)]
  · rfl

end Prefix

/-- Modulation is the convolution of symbols and pulse, cut off at the end of the signal. -/
theorem modulate_superposes (symbols : List Sample) (pulse : List Float32) (k : Nat) :
    Superposes symbols pulse k where
  size := size_modulate symbols pulse k
  entry len t inside := by rw [getElem?_modulate, if_pos inside]
  shorter len len' less := modulate_eq_take symbols pulse k less
  earlier later len t before := getElem?_modulate_append symbols later pulse k before
  preamble shape m beta d made later len enough := by
    cases template : Template.ofSequence symbols shape k m beta with
    | error fault => simp [Detector.ofSequence, template] at made
    | ok t =>
      rw [Detector.ofSequence, template] at made
      cases made
      change _ = t.samples.take _
      rw [Template.samples_of_ofSequence template]
      exact take_modulate_append _ _ _ _ enough (Nat.mul_le_mul_left k (Nat.le_add_right _ _))

/-- The pulses overlap at the third sample, where their real parts cancel. -/
example : modulate [.real 1, ⟨-1, 2⟩] [0.5, 1, 0.5] 2 6 =
    #[.real 0.5, .real 1, ⟨0, 1⟩, ⟨-1, 2⟩, ⟨-0.5, 1⟩, 0] := by
  decide +kernel

end FrameSync
