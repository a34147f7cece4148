import FrameSync.Proofs.Superposition
import FrameSync.Proofs.Polyphase

/-!
The construction of a receiver. Its parts check their parameters again, each in its own way, but once
the configuration has passed as a whole there is nothing left for them to find: only a preamble
without energy and a buffer that is too long for any storage are still refused.
-/

namespace FrameSync

variable {symbols : List Sample} {config : Config} {fault : Fault}

namespace Config

abbrev pulse (config : Config) : Array Float32 :=
  Pulse.taps config.shape config.k config.m config.beta

abbrev prototype (config : Config) : Array Float32 :=
  Pulse.taps config.shape (config.k * config.branches) config.m config.beta

abbrev waveform (config : Config) (symbols : List Sample) : List Sample :=
  preambleWaveform symbols config.shape config.k config.m config.beta

end Config

/-- The first thing that keeps a receiver from being made. Storage is refused beyond `storageLimit`
alone, so a lack of memory below it does not count. -/
def obstacle? (symbols : List Sample) (config : Config) : Option Fault :=
  if symbols.isEmpty then some (.configuration .emptySequence)
  else
    match config.validate with
    | .error fault => some fault
    | .ok () =>
      if Template.energyOf (config.waveform symbols) ≤ 0 then some (.configuration .templateSilent)
      else if storageLimit < config.bufferLength then some (.allocation config.bufferLength)
      else none

structure Idle {C : Type} (symbols : List Sample) (config : Config) (s : Receiver C) : Prop where
  configured : s.config = config
  mode : s.mode = .searching
  buffered : s.buffered = #[]
  bufferLength : s.bufferLength = config.bufferLength
  windowLength : s.detector.windowLength = config.k * (symbols.length + 2 * config.m) + 1
  window : s.detector.window.size = s.detector.windowLength
  branchCount : s.bank.branchCount = config.branches
  branches : ∀ taps ∈ s.bank.branches, taps.size = 2 * config.k * config.m + 1

/-- What the parts still refuse of a receiver whose parameters make sense. The design of its pulse,
at either rate, and the bank refuse nothing. -/
structure Settled (symbols : List Sample) (config : Config) : Prop where
  pulse : Pulse.design config.shape config.k config.m config.beta = .ok config.pulse
  prototype : Pulse.design config.shape (config.k * config.branches) config.m config.beta =
    .ok config.prototype
  long : 2 ≤ (config.waveform symbols).length
  template (fault : Fault) :
    Template.ofSamples (config.waveform symbols) = .error fault ↔
      Template.energyOf (config.waveform symbols) ≤ 0 ∧ fault = .configuration .templateSilent
  bank : ∃ b, FilterBank.ofPrototype config.prototype config.branches = .ok b ∧
    FilterBank.matched config.shape config.branches config.k config.m config.beta = .ok b ∧
    b.branchCount = config.branches ∧
    ∀ taps ∈ b.branches, taps.size = 2 * config.k * config.m + 1
  stages {C : Type} (detector : Detector) (mixer : Oscillator) (bank : FilterBank)
    (count : bank.branchCount = config.branches) (consumer : Option (Consumer C)) (context : C)
    (fault : Fault) :
    Synchronizer.ofStages symbols.length config detector mixer bank consumer context =
        .error fault ↔
      storageLimit < config.bufferLength ∧ fault = .allocation config.bufferLength

theorem Template.ofSamples_eq_error_iff {xs : List Sample} (long : 2 ≤ xs.length) :
    ofSamples xs = .error fault ↔ energyOf xs ≤ 0 ∧ fault = .configuration .templateSilent := by
  rw [ofSamples, if_neg (by omega)]
  dsimp only
  split
  next silent => simp [refuse, silent, eq_comm]
  next loud => simp [loud]

theorem SymbolBuffer.ofLength_eq_error_iff {l : ℕ} (positive : 0 < l) :
    ofLength l = .error fault ↔ storageLimit < l ∧ fault = .allocation l := by
  rw [ofLength, if_neg (by omega)]
  split
  next long => simp [long, eq_comm]
  next stored => simp [stored]

namespace Synchronizer

variable {C : Type} {consumer : Option (Consumer C)} {context : C}

theorem ofStages_eq_error_iff {sequenceLength : ℕ} {detector : Detector} {mixer : Oscillator}
    {bank : FilterBank} (nonempty : sequenceLength ≠ 0) (valid : config.validate = .ok ())
    (count : bank.branchCount = config.branches) :
    ofStages sequenceLength config detector mixer bank consumer context = .error fault ↔
      storageLimit < config.bufferLength ∧ fault = .allocation config.bufferLength := by
  have positive := (Config.validate_eq_ok.mp valid).2.2.2.2
  have count : BankStage.branchCount bank = config.branches := count
  rw [← SymbolBuffer.ofLength_eq_error_iff positive, ofStages, if_neg nonempty, valid]
  cases stored : SymbolBuffer.ofLength config.bufferLength with
  | error reason => simp [bind, Except.bind, count]
  | ok buffer => simp [bind, Except.bind, pure, Except.pure, count]

end Synchronizer

theorem settled_of_validate (nonempty : symbols ≠ []) (valid : config.validate = .ok ()) :
    Settled symbols config := by
  obtain ⟨rate, length, band, positive, -⟩ := Config.validate_eq_ok.mp valid
  have rate' : 0 < config.k := by omega
  have filled : 0 < symbols.length := List.length_pos_of_ne_nil nonempty
  -- One symbol alone has two samples.
  have long : 2 ≤ (config.waveform symbols).length := by
    rw [length_preambleWaveform]
    exact rate.trans (Nat.le_mul_of_pos_right _ (by omega))
  obtain ⟨b, made, matched, dealt⟩ := FilterBank.matched_eq_ok positive rate' length band
  refine ⟨Pulse.design_eq_ok.mpr ⟨rate', length, band, rfl⟩,
    Pulse.design_eq_ok.mpr ⟨Nat.mul_pos rate' positive, length, band, rfl⟩, long,
    fun fault => Template.ofSamples_eq_error_iff long, ⟨b, made, matched, dealt.count, ?_⟩,
    fun detector mixer bank count consumer context fault =>
      Synchronizer.ofStages_eq_error_iff filled.ne' valid count⟩
  intro taps member
  rw [dealt.sizes taps member, dealt.span, Pulse.reach_taps positive]

namespace Settled

variable {C : Type} {consumer : Option (Consumer C)} {context : C}

theorem template_ofSequence (settled : Settled symbols config) (nonempty : symbols ≠ []) :
    Template.ofSequence symbols config.shape config.k config.m config.beta =
      Template.ofSamples (config.waveform symbols) := by
  rw [Template.ofSequence, if_neg (by simpa using nonempty), settled.pulse]
  rfl

theorem ofSequence_eq_error_iff (settled : Settled symbols config) (nonempty : symbols ≠ [])
    (valid : config.validate = .ok ()) :
    Synchronizer.ofSequence symbols config consumer context = .error fault ↔
      if Template.energyOf (config.waveform symbols) ≤ 0 then fault = .configuration .templateSilent
      else storageLimit < config.bufferLength ∧ fault = .allocation config.bufferLength := by
  have sequence := settled.template_ofSequence nonempty
  obtain ⟨b, -, bank, count, -⟩ := settled.bank
  cases sampled : Template.ofSamples (config.waveform symbols) with
  | error reason =>
    obtain ⟨silent, rfl⟩ := (settled.template reason).mp sampled
    rw [if_pos silent, Synchronizer.ofSequence, if_neg (by simpa using nonempty), valid,
      Detector.ofSequence, sequence, sampled]
    simp [bind, Except.bind, eq_comm]
  | ok t =>
    have loud : ¬Template.energyOf (config.waveform symbols) ≤ 0 := by
      intro silent
      cases sampled.symm.trans ((settled.template _).mpr ⟨silent, rfl⟩)
    rw [if_neg loud, Synchronizer.ofSequence_eq (sequence.trans sampled) bank,
      settled.stages _ _ b count]

end Settled

namespace Synchronizer

variable {C : Type} {consumer : Option (Consumer C)} {context : C} {s : Receiver C}

theorem ofSequence_eq_error_iff :
    ofSequence symbols config consumer context = .error fault ↔
      obstacle? symbols config = some fault := by
  unfold obstacle?
  by_cases empty : symbols = []
  · subst empty
    simp [ofSequence, refuse]
  rw [if_neg (by simpa using empty)]
  cases valid : config.validate with
  | error reason => simp [ofSequence, empty, valid, bind, Except.bind]
  | ok =>
    rw [(settled_of_validate empty valid).ofSequence_eq_error_iff empty valid]
    dsimp only
    split_ifs <;> simp_all [eq_comm]

theorem idle_of_ofSequence
    (built : ofSequence symbols config consumer context = .ok s) :
    Idle symbols config s := by
  obtain ⟨t, b, template, bank⟩ := ofSequence_eq_ok built
  rw [ofSequence_eq template bank] at built
  obtain ⟨filled, valid, count, buffer, stored, rfl⟩ := ofStages_eq_ok_iff.mp built
  obtain ⟨-, room, -⟩ := SymbolBuffer.ofLength_eq_ok stored
  have nonempty : symbols ≠ [] := List.ne_nil_of_length_pos (Nat.pos_of_ne_zero filled)
  have settled := settled_of_validate nonempty valid
  rw [settled.template_ofSequence nonempty] at template
  have length := (Template.length_of_ofSamples template).1
  obtain ⟨b', -, bank', -, sizes⟩ := settled.bank
  cases bank.symm.trans bank'
  exact {
    configured := rfl
    mode := rfl
    buffered := SymbolBuffer.pending_eq_empty rfl
    bufferLength := room
    windowLength := by
      change t.length + 1 = _
      rw [length, length_preambleWaveform]
    window := Detector.size_window (Detector.doubled_reset (Detector.doubled_ofTemplate t))
    branchCount := count
    branches := sizes }

end Synchronizer

/-- A receiver is made unless there is something in the way, which is told then; the checks that
come after those of the parameters as a whole pass. -/
structure MadeUnlessObstacle {C : Type} (symbols : List Sample) (config : Config)
    (consumer : Option (Consumer C)) (context : C) : Prop where
  refused (fault : Fault) :
    Synchronizer.ofSequence symbols config consumer context = .error fault ↔
      obstacle? symbols config = some fault
  made (free : obstacle? symbols config = none) :
    ∃ s, Synchronizer.ofSequence symbols config consumer context = .ok s ∧ Idle symbols config s
  settled (nonempty : symbols ≠ []) (valid : config.validate = .ok ()) : Settled symbols config

theorem made_unless_obstacle {C : Type} (symbols : List Sample) (config : Config)
    (consumer : Option (Consumer C)) (context : C) :
    MadeUnlessObstacle symbols config consumer context where
  refused fault := Synchronizer.ofSequence_eq_error_iff
  made free := by
    cases built : Synchronizer.ofSequence symbols config consumer context with
    | error fault => cases free.symm.trans (Synchronizer.ofSequence_eq_error_iff.mp built)
    | ok s => exact ⟨s, rfl, Synchronizer.idle_of_ofSequence built⟩
  settled := settled_of_validate

/-- Silence is found before a buffer that no storage holds. The energy of what is not a number is
not zero or less, so such a preamble passes. -/
theorem made_unless_obstacle_rectangular :
    let config : Config := { shape := .rectangular, m := 1 }
    let long := { config with bufferLength := storageLimit + 1 }
    (∃ s, Synchronizer.ofSequence [.real 1] config none () = .ok s ∧ Idle [.real 1] config s) ∧
      Synchronizer.ofSequence [0] long none () = .error (.configuration .templateSilent) ∧
      Synchronizer.ofSequence [.real 1] long none () = .error (.allocation (storageLimit + 1)) ∧
      ∃ s, Synchronizer.ofSequence [.real (0 / 0)] config none () = .ok s := by
  intro config long
  have made (symbols : List Sample) (config : Config) :=
    made_unless_obstacle symbols config none ()
  obtain ⟨s, passes, -⟩ := (made [.real (0 / 0)] config).made (by decide +kernel)
  exact ⟨(made [.real 1] config).made (by decide +kernel),
    ((made [0] long).refused _).mpr (by decide +kernel),
    ((made [.real 1] long).refused _).mpr (by decide +kernel), s, passes⟩

end FrameSync
