import FrameSync.Proofs.Frames
import FrameSync.Proofs.SymbolStream

/-!
What holds of a receiver at every point of every run, however its stages were used before it was
made of them: the settings of the detector stay in range, the bank keeps its shape, and the buffer
is one that can be stored.
-/

namespace FrameSync

namespace Detector

structure Tuned (d : Detector) : Prop where
  threshold : 0 < d.threshold ∧ d.threshold ≤ 1
  range : 0 ≤ d.range ∧ d.range ≤ 1

theorem settings_track (d : Detector) (c : Correlation) :
    (d.track c).1.threshold = d.threshold ∧ (d.track c).1.range = d.range := by
  unfold track
  split <;> split <;> exact ⟨rfl, rfl⟩

theorem settings_execute (d : Detector) (x : Sample) :
    (d.execute x).1.threshold = d.threshold ∧ (d.execute x).1.range = d.range := by
  unfold execute
  dsimp only
  split
  · exact ⟨rfl, rfl⟩
  · exact settings_track (d.push x) _

theorem Tuned.execute {d d' : Detector} (tuned : d.Tuned) {x : Sample}
    {window : Option (Array Sample)} (step : d.execute x = (d', window)) : d'.Tuned := by
  have settings := d.settings_execute x
  rw [step] at settings
  constructor
  · rw [settings.1]
    exact tuned.threshold
  · rw [settings.2]
    exact tuned.range

end Detector

theorem Searched.tuned {t : Template} {seen : List Reading} {d : Detector}
    (searched : Searched t seen d) : d.Tuned := by
  induction searched with
  | made =>
    have threshold : (0 : Float32) < 0.5 ∧ (0.5 : Float32) ≤ 1 := by decide +kernel
    have range : (0 : Float32) ≤ 0.3 ∧ (0.3 : Float32) ≤ 1 := by decide +kernel
    exact ⟨threshold, range⟩
  | missed _ step ih => exact ih.execute step
  | found _ step ih => exact ih.execute step
  | reset _ ih => exact ⟨ih.threshold, ih.range⟩
  | setThreshold _ set ih =>
    obtain ⟨accepted, rfl⟩ := Detector.setThreshold_eq_ok.mp set
    exact ⟨accepted, ih.range⟩
  | setRange _ set ih =>
    obtain ⟨accepted, rfl⟩ := Detector.setRange_eq_ok.mp set
    exact ⟨ih.threshold, accepted⟩

namespace FilterBank

inductive Operated (b₀ : FilterBank) : FilterBank → Prop
  | made : Operated b₀ b₀
  | push {b : FilterBank} (before : Operated b₀ b) (x : Sample) : Operated b₀ (b.push x)
  | setScale {b : FilterBank} (before : Operated b₀ b) (scale : Float32) :
      Operated b₀ (b.setScale scale)
  | reset {b : FilterBank} (before : Operated b₀ b) : Operated b₀ b.reset

structure Regular (b : FilterBank) : Prop where
  branches : 0 < b.branchCount
  taps : ∀ taps ∈ b.branches, taps.size = b.span
  ring : b.ring.size = b.span
  next : b.next < b.span

theorem mem_deal {n span : Nat} (taps : List Float32) (i : Nat) (branches : Array (Array Float32))
    (sizes : ∀ branch ∈ branches, branch.size = span) :
    (deal n taps i branches).size = branches.size ∧
      ∀ branch ∈ deal n taps i branches, branch.size = span := by
  induction taps generalizing i branches with
  | nil => exact ⟨rfl, sizes⟩
  | cons c taps ih =>
    have dealt : ∀ branch ∈ branches.modify (i % n) (·.setIfInBounds (i / n) c),
        branch.size = span := by
      intro branch member
      obtain ⟨j, bound, rfl⟩ := Array.mem_iff_getElem.mp member
      rw [Array.getElem_modify]
      rw [Array.size_modify] at bound
      split
      · rw [Array.size_setIfInBounds]
        exact sizes _ (Array.getElem_mem bound)
      · exact sizes _ (Array.getElem_mem bound)
    have rest := ih (i + 1) _ dealt
    rw [Array.size_modify] at rest
    exact rest

theorem regular_ofPrototype {prototype : Array Float32} {n : Nat} {b : FilterBank}
    (made : ofPrototype prototype n = .ok b) : b.Regular := by
  unfold ofPrototype at made
  split at made
  · simp [refuse] at made
  next some =>
  split at made
  · simp [refuse] at made
  next nonempty =>
  cases made
  have positive : 0 < prototype.size := by
    rw [Array.isEmpty_iff_size_eq_zero] at nonempty
    omega
  have blank : ∀ branch ∈ Array.replicate n
      (Array.replicate ((prototype.size + n - 1) / n) (0 : Float32)),
      branch.size = (prototype.size + n - 1) / n := by
    intro branch member
    rw [Array.eq_of_mem_replicate member, Array.size_replicate]
  have dealt := @mem_deal n _ prototype.toList 0 _ blank
  refine ⟨?_, dealt.2, Array.size_replicate, ?_⟩
  · rw [branchCount, dealt.1, Array.size_replicate]
    omega
  · exact Nat.div_pos (by omega) (by omega)

theorem Operated.regular {b₀ b : FilterBank} (regular : b₀.Regular) (operated : Operated b₀ b) :
    b.Regular := by
  induction operated with
  | made => exact regular
  | push _ x ih =>
    refine ⟨ih.branches, ih.taps, ?_, Nat.mod_lt _ (Nat.zero_lt_of_lt ih.next)⟩
    exact Array.size_setIfInBounds.trans ih.ring
  | setScale _ scale ih => exact ⟨ih.branches, ih.taps, ih.ring, ih.next⟩
  | reset _ ih => exact ⟨ih.branches, ih.taps, Array.size_replicate, Nat.zero_lt_of_lt ih.next⟩

theorem Operated.same {b₀ b : FilterBank} (operated : Operated b₀ b) :
    b.branches = b₀.branches ∧ b.span = b₀.span := by
  induction operated with
  | made => exact ⟨rfl, rfl⟩
  | push _ x ih => exact ih
  | setScale _ scale ih => exact ih
  | reset _ ih => exact ih

end FilterBank

theorem Config.validate_eq_ok {config : Config} :
    config.validate = .ok () ↔ 2 ≤ config.k ∧ 1 ≤ config.m ∧ isBandwidth config.beta = true ∧
      0 < config.branches ∧ 0 < config.bufferLength := by
  unfold validate
  split_ifs with rate length band branches buffer
  · exact iff_of_false nofun fun valid => Nat.not_le.mpr rate valid.1
  · exact iff_of_false nofun fun valid => Nat.not_le.mpr length valid.2.1
  · exact iff_of_false nofun fun valid => by simp [valid.2.2.1] at band
  · exact iff_of_false nofun fun valid => Nat.ne_of_gt valid.2.2.2.1 branches
  · exact iff_of_false nofun fun valid => Nat.ne_of_gt valid.2.2.2.2 buffer
  · exact iff_of_true rfl ⟨Nat.le_of_not_lt rate, Nat.le_of_not_lt length, by simpa using band,
      Nat.pos_of_ne_zero branches, Nat.pos_of_ne_zero buffer⟩

namespace Synchronizer

variable {C : Type} {config : Config} {t : Template} {b₀ : FilterBank} {s : Receiver C}

/-- A receiver for the template, with a bank of the same taps as `b₀`. -/
structure Sound (config : Config) (t : Template) (b₀ : FilterBank) (s : Receiver C) : Prop where
  ready : s.Ready config
  stored : s.bufferLength ≤ storageLimit
  operated : FilterBank.Operated b₀ s.bank
  searched : ∃ seen, Searched t seen s.detector

theorem Sound.reset (sound : s.Sound config t b₀) : s.reset.Sound config t b₀ := by
  obtain ⟨seen, searched⟩ := sound.searched
  exact ⟨sound.ready.reset, sound.stored, .reset sound.operated, [], .reset searched⟩

theorem reset_reset (s : Receiver C) : s.reset.reset = s.reset := by
  have detector : s.detector.reset.reset = s.detector.reset := by
    simp [Detector.reset, Detector.rearm]
  change { s.reset with detector := s.detector.reset.reset } = s.reset
  rw [detector]
  rfl

theorem Sound.apply (sound : s.Sound config t b₀) (call : Call C) :
    (s.apply call).Sound config t b₀ := by
  have ready := sound.ready.apply call
  have searched : ∃ seen, Searched t seen (s.apply call).detector := by
    obtain ⟨seen, searched⟩ := sound.searched
    cases Placed.search_apply searched call with
    | inl fresh => exact ⟨[], fresh⟩
    | inr kept => exact ⟨seen, kept⟩
  obtain ⟨-, next⟩ | ⟨detector, buffer, consumer, context, next, -, resized⟩ :=
    s.apply_cases call <;> rw [next] at ready searched ⊢
  · exact ⟨ready, sound.stored, .reset sound.operated, searched⟩
  · refine ⟨ready, ?_, sound.operated, searched⟩
    obtain rfl | ⟨length, windows, done⟩ := resized
    · exact sound.stored
    · exact SymbolBuffer.length_le_of_resize sound.ready.room sound.stored done

theorem Sound.track (sound : s.Sound config t b₀) (frame : Tracking) (x : Sample) :
    (s.track frame x).Sound config t b₀ := by
  have stepped (context : C) : Sound config t b₀ { s.stepped frame x with context } := by
    refine ⟨sound.ready.stepped frame x context, ?_, .push sound.operated _, sound.searched⟩
    exact le_of_eq_of_le (length_bufferAt sound.ready.room frame x) sound.stored
  obtain ⟨context, next⟩ | ⟨w, context, -, next⟩ := s.track_cases frame x <;> rw [next]
  · exact stepped context
  · exact (stepped context).reset

theorem kept_sound : Kept (C := C) (Sound config t b₀) where
  apply call sound := sound.apply call
  track x sound _ := sound.track _ x
  missed sound mode step := by
    obtain ⟨seen, searched⟩ := sound.searched
    exact ⟨kept_ready.missed sound.ready mode step, sound.stored, sound.operated, _,
      .missed searched step⟩
  found sound mode step := by
    obtain ⟨seen, searched⟩ := sound.searched
    exact ⟨kept_ready.found sound.ready mode step, sound.stored, .setScale sound.operated _, [],
      .found searched step⟩
  withReplay replay sound :=
    ⟨kept_ready.withReplay replay sound.ready, sound.stored, sound.operated, sound.searched⟩

def blank (sequenceLength : Nat) (config : Config) (t : Template) (bank : FilterBank)
    (consumer : Option (Consumer C)) (context : C) : Receiver C where
  config
  sequenceLength
  detector := .ofTemplate t
  mixer := default
  bank
  mode := .searching
  buffer := ⟨Array.replicate config.bufferLength 0, 0⟩
  replay := #[]
  consumer
  context

theorem ofSequence_eq {symbols : List Sample}
    (template : Template.ofSequence symbols config.shape config.k config.m config.beta = .ok t)
    (bank : FilterBank.matched config.shape config.branches config.k config.m config.beta = .ok b₀)
    (consumer : Option (Consumer C)) (context : C) :
    ofSequence symbols config consumer context =
      ofStages symbols.length config (.ofTemplate t) default b₀ consumer context := by
  unfold ofSequence
  cases symbols with
  | nil => rfl
  | cons symbol symbols =>
    rw [Detector.ofSequence, template, bank]
    unfold ofStages
    cases config.validate <;> rfl

theorem ofSequence_eq_ok {symbols : List Sample} {consumer : Option (Consumer C)} {context : C}
    (built : ofSequence symbols config consumer context = .ok s) :
    ∃ t b₀, Template.ofSequence symbols config.shape config.k config.m config.beta = .ok t ∧
      FilterBank.matched config.shape config.branches config.k config.m config.beta = .ok b₀ := by
  unfold ofSequence at built
  split at built
  · simp [refuse] at built
  rw [Detector.ofSequence] at built
  cases valid : config.validate with
  | error fault => simp [valid, bind, Except.bind] at built
  | ok =>
    cases template : Template.ofSequence symbols config.shape config.k config.m config.beta with
    | error fault => simp [valid, template, bind, Except.bind] at built
    | ok t =>
      cases bank :
        FilterBank.matched config.shape config.branches config.k config.m config.beta with
      | error fault => simp [valid, template, bank, bind, Except.bind] at built
      | ok b₀ => exact ⟨t, b₀, rfl, rfl⟩

end Synchronizer

theorem Template.exists_ofSamples {symbols : List Sample} {shape : PulseShape} {k m : Nat}
    {beta : Float32} {t : Template} (made : ofSequence symbols shape k m beta = .ok t) :
    ∃ waveform, ofSamples waveform = .ok t := by
  unfold ofSequence at made
  split at made
  · simp [refuse] at made
  cases pulse : Pulse.design shape k m beta with
  | error fault => simp [pulse, bind, Except.bind] at made
  | ok taps =>
    rw [pulse] at made
    exact ⟨_, made⟩

theorem FilterBank.exists_ofPrototype {shape : PulseShape} {n k m : Nat} {beta : Float32}
    {b : FilterBank} (made : matched shape n k m beta = .ok b) :
    ∃ prototype, ofPrototype prototype n = .ok b := by
  unfold matched at made
  split at made
  · simp [refuse] at made
  cases pulse : Pulse.design shape (k * n) m beta with
  | error fault => simp [pulse, bind, Except.bind] at made
  | ok taps =>
    rw [pulse] at made
    exact ⟨_, made⟩

/-- How a receiver is made, together with the way to make another one with the same parameters,
but for the length of the window. The stages that it is made of may have been in use; those of the
other one are new. -/
inductive Made {C : Type} :
    (Nat → Option (Consumer C) → C → Except Fault (Receiver C)) → Receiver C → Prop
  | ofSequence {symbols : List Sample} {config : Config} {consumer : Option (Consumer C)}
      {context : C} {s : Receiver C}
      (built : Synchronizer.ofSequence symbols config consumer context = .ok s) :
      Made (fun length => Synchronizer.ofSequence symbols { config with bufferLength := length }) s
  | ofStages {waveform : List Sample} {t : Template} {seen : List Reading} {detector : Detector}
      {prototype : Array Float32} {n : Nat} {b₀ bank : FilterBank} {sequenceLength : Nat}
      {config : Config} {mixer : Oscillator} {consumer : Option (Consumer C)} {context : C}
      {s : Receiver C} (template : Template.ofSamples waveform = .ok t)
      (searched : Searched t seen detector)
      (dealt : FilterBank.ofPrototype prototype n = .ok b₀)
      (operated : FilterBank.Operated b₀ bank)
      (built : Synchronizer.ofStages sequenceLength config detector mixer bank consumer context =
        .ok s) :
      Made (fun length => Synchronizer.ofStages sequenceLength { config with bufferLength := length }
        (.ofTemplate t) default b₀) s

namespace Made

open Synchronizer

variable {C : Type} {s : Receiver C}
variable {remake : Nat → Option (Consumer C) → C → Except Fault (Receiver C)}

theorem exists_stages (made : Made remake s) :
    ∃ waveform t seen detector prototype n b₀ bank sequenceLength config mixer consumer context,
      Template.ofSamples waveform = .ok t ∧ Searched t seen detector ∧
      FilterBank.ofPrototype prototype n = .ok b₀ ∧ FilterBank.Operated b₀ bank ∧
      Synchronizer.ofStages sequenceLength config detector mixer bank consumer context = .ok s ∧
      remake = fun length => Synchronizer.ofStages sequenceLength
        { config with bufferLength := length } (.ofTemplate t) default b₀ := by
  cases made with
  | ofStages template searched dealt operated built =>
    exact ⟨_, _, _, _, _, _, _, _, _, _, _, _, _, template, searched, dealt, operated, built, rfl⟩
  | @ofSequence symbols config consumer context s built =>
    obtain ⟨t, b₀, template, bank⟩ := ofSequence_eq_ok built
    obtain ⟨waveform, sampled⟩ := Template.exists_ofSamples template
    obtain ⟨prototype, dealt⟩ := FilterBank.exists_ofPrototype bank
    have stages := built
    rw [ofSequence_eq template bank] at stages
    refine ⟨waveform, t, [], .ofTemplate t, prototype, config.branches, b₀, b₀, symbols.length,
      config, default, consumer, context, sampled, .made, dealt, .made, stages, ?_⟩
    funext length consumer context
    let config' := { config with bufferLength := length }
    exact @ofSequence_eq C config' t b₀ symbols template bank consumer context

theorem sound (made : Made remake s) :
    ∃ t b₀ sequenceLength, 0 < t.length ∧ b₀.Regular ∧ s.config.validate = .ok () ∧
      b₀.branchCount = s.config.branches ∧ s.Sound s.config t b₀ ∧ s.reset = s ∧
      ∀ length consumer context, 0 < length → length ≤ storageLimit →
        remake length consumer context = .ok (reset (blank sequenceLength
          { s.config with bufferLength := length } t b₀ consumer context)) := by
  obtain ⟨waveform, t, seen, detector, prototype, n, b₀, bank, sequenceLength, config, mixer,
    consumer, context, template, searched, dealt, operated, built, rfl⟩ := made.exists_stages
  have regular := FilterBank.regular_ofPrototype dealt
  obtain ⟨nonempty, valid, count, buffer, stored, rfl⟩ := ofStages_eq_ok_iff.mp built
  obtain ⟨room, length, empty⟩ := SymbolBuffer.ofLength_eq_ok stored
  have branches : b₀.branchCount = config.branches := by
    rw [← count]
    exact congrArg Array.size operated.same.1.symm
  have positive := Template.length_pos template
  refine ⟨t, b₀, sequenceLength, positive, regular, valid, branches, ?_, ?_, ?_⟩
  · apply Sound.reset
    exact ⟨⟨rfl, room, fun _ => empty⟩, SymbolBuffer.length_le_of_ofLength stored, operated, seen,
      searched⟩
  · exact reset_reset _
  · intro length consumer context positive stored
    rw [ofStages_eq_ok_iff]
    refine ⟨nonempty, ?_, branches, ?_⟩
    · rw [Config.validate_eq_ok] at valid ⊢
      exact ⟨valid.1, valid.2.1, valid.2.2.1, valid.2.2.2.1, positive⟩
    · exact ⟨_, SymbolBuffer.ofLength_of_le positive stored, rfl⟩

end Made

end FrameSync
