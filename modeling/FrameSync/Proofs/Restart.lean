import FrameSync.Proofs.Nesting
import FrameSync.Proofs.Sound
import FrameSync.Proofs.SymbolQueue

/-!
A receiver that has been reset against a new one. A reset leaves the estimates, the mixer, the scale
of the bank and the storage of the buffer as they are, but a hand-off sets all of these before a
frame uses them, and the rest of the storage is written before it is read. So nothing that a caller
can see depends on earlier frames.
-/

namespace FrameSync

namespace Detector

def withEstimate (d : Detector) (estimate : Estimate) : Detector := { d with estimate }

theorem track_withEstimate (d : Detector) (estimate : Estimate) (c : Correlation) :
    (d.track c).2 = none ∧
        (d.withEstimate estimate).track c = ((d.track c).1.withEstimate estimate, none) ∨
      (d.track c).2.isSome = true ∧ (d.withEstimate estimate).track c = d.track c := by
  unfold track withEstimate
  split
  · next p peak =>
    dsimp only
    rw [peak]
    dsimp only
    split
    · exact .inr ⟨rfl, rfl⟩
    · exact .inl ⟨rfl, rfl⟩
  · next idle =>
    dsimp only
    rw [idle]
    dsimp only
    split
    · exact .inl ⟨rfl, rfl⟩
    · exact .inl ⟨rfl, rfl⟩

theorem execute_withEstimate (d : Detector) (estimate : Estimate) (x : Sample) :
    (d.execute x).2 = none ∧
        (d.withEstimate estimate).execute x = ((d.execute x).1.withEstimate estimate, none) ∨
      (d.execute x).2.isSome = true ∧ (d.withEstimate estimate).execute x = d.execute x := by
  unfold execute
  dsimp only
  by_cases filling : (d.push x).filled < (d.push x).template.length
  · left
    rw [if_pos filling]
    exact ⟨rfl, if_pos filling⟩
  · have full : ¬ ((d.withEstimate estimate).push x).filled <
      ((d.withEstimate estimate).push x).template.length := filling
    rw [if_neg filling, if_neg full]
    exact (d.push x).track_withEstimate estimate _

theorem setThreshold_withEstimate (d : Detector) (estimate : Estimate) (threshold : Float32) :
    (d.withEstimate estimate).setThreshold threshold =
      (d.setThreshold threshold).map (·.withEstimate estimate) := by
  unfold setThreshold
  split_ifs <;> rfl

theorem setRange_withEstimate (d : Detector) (estimate : Estimate) (range : Float32) :
    (d.withEstimate estimate).setRange range =
      (d.setRange range).map (·.withEstimate estimate) := by
  unfold setRange
  split_ifs <;> rfl

end Detector

namespace Synchronizer

variable {C : Type} {opened : Bool} {s s' : Receiver C}

/-- Two receivers that differ in nothing but what a hand-off sets and what is never read. Once a
frame has been opened, the hand-off has set it. -/
structure Mirrors (opened : Bool) (s s' : Receiver C) : Prop where
  config : ∃ length, s'.config = { s.config with bufferLength := length }
  detector : ∃ estimate, s'.detector = s.detector.withEstimate estimate
  bank : ∃ scale, s'.bank = s.bank.setScale scale
  mode : s'.mode = s.mode
  buffer : s.buffer.Alike s'.buffer
  consumer : s'.consumer = s.consumer
  context : s'.context = s.context
  set : opened = true → s'.detector = s.detector ∧ s'.mixer = s.mixer ∧ s'.bank = s.bank
  tracking : s.isOpen = true → opened = true

theorem Mirrors.withReplay (mirrors : Mirrors opened s s') (replay replay' : Array Sample) :
    Mirrors opened (s.withReplay replay) (s'.withReplay replay') :=
  { mirrors with }

theorem Mirrors.reset (mirrors : Mirrors opened s s') : Mirrors opened s.reset s'.reset := by
  obtain ⟨estimate, detector⟩ := mirrors.detector
  obtain ⟨scale, bank⟩ := mirrors.bank
  refine ⟨mirrors.config, ⟨estimate, ?_⟩, ⟨scale, ?_⟩, rfl, mirrors.buffer.clear, mirrors.consumer,
    mirrors.context, ?_, fun isOpen => nomatch isOpen⟩
  · exact congrArg Detector.reset detector
  · exact congrArg FilterBank.reset bank
  · intro hasOpened
    obtain ⟨detector, mixer, bank⟩ := mirrors.set hasOpened
    exact ⟨congrArg Detector.reset detector, mixer, congrArg FilterBank.reset bank⟩

theorem Mirrors.answer (mirrors : Mirrors opened s s') (w : Window) : s'.answer w = s.answer w := by
  unfold Synchronizer.answer
  rw [mirrors.consumer, mirrors.context]

theorem Mirrors.withContext (mirrors : Mirrors opened s s') (context : C) :
    Mirrors opened { s with context } { s' with context } :=
  { mirrors with context := rfl }

theorem Mirrors.withDetector (mirrors : Mirrors opened s s') {detector detector' : Detector}
    (same : ∃ estimate, detector' = detector.withEstimate estimate)
    (set : opened = true → detector' = detector) :
    Mirrors opened { s with detector } { s' with detector := detector' } :=
  { mirrors with
    detector := same
    set := fun hasOpened => ⟨set hasOpened, (mirrors.set hasOpened).2⟩ }

theorem Mirrors.retune (mirrors : Mirrors opened s s') (set : Detector → Except Fault Detector)
    (commutes : ∀ d estimate,
      set (d.withEstimate estimate) = (set d).map (·.withEstimate estimate)) :
    Mirrors opened { s with detector := (set s.detector).toOption.getD s.detector }
      { s' with detector := (set s'.detector).toOption.getD s'.detector } := by
  obtain ⟨estimate, same⟩ := mirrors.detector
  refine mirrors.withDetector ⟨estimate, ?_⟩ fun hasOpened => ?_
  · rw [same, commutes]
    cases set s.detector <;> rfl
  · rw [(mirrors.set hasOpened).1]

theorem Mirrors.contextAfter (mirrors : Mirrors opened s s') (windows : List Window) :
    s'.contextAfter windows = s.contextAfter windows := by
  unfold Synchronizer.contextAfter
  rw [mirrors.context]
  congr 1
  funext context w
  exact congrArg Prod.fst ((mirrors.withContext context).answer w)

theorem Mirrors.offer (mirrors : Mirrors opened s s') (w : Option Window) :
    Mirrors opened (s.offer w) (s'.offer w) := by
  cases w with
  | none => exact mirrors
  | some w =>
    simp only [Synchronizer.offer, mirrors.answer]
    cases (s.answer w).2 with
    | proceed => exact mirrors.withContext _
    | reset => exact (mirrors.withContext _).reset

theorem Mirrors.track (mirrors : Mirrors true s s') (t : Tracking) (x : Sample) :
    s'.dueSymbol? t x = s.dueSymbol? t x ∧ s'.windowAt t x = s.windowAt t x ∧
      Mirrors true (s.track t x) (s'.track t x) := by
  obtain ⟨length, config⟩ := mirrors.config
  obtain ⟨detector, mixer, bank⟩ := mirrors.set rfl
  have due : s'.dueSymbol? t x = s.dueSymbol? t x := by
    unfold dueSymbol?
    rw [config, mixer, bank]
  have kept : s'.keptSymbol? t x = s.keptSymbol? t x := by
    unfold keptSymbol?
    rw [config, due]
    rfl
  have window : s'.windowAt t x = s.windowAt t x := by
    unfold windowAt
    rw [kept]
    cases s.keptSymbol? t x with
    | none => rfl
    | some y => exact (mirrors.buffer.push y).1
  have buffer : (s.bufferAt t x).Alike (s'.bufferAt t x) := by
    unfold bufferAt
    rw [kept]
    cases s.keptSymbol? t x with
    | none => exact mirrors.buffer
    | some y => exact (mirrors.buffer.push y).2
  have mixed : (s'.stepped t x).mixer = (s.stepped t x).mixer := congrArg MixerStage.step mixer
  have filtered : (s'.stepped t x).bank = (s.stepped t x).bank := by
    unfold stepped
    rw [mixer, bank]
  have stepped : Mirrors true (s.stepped t x) (s'.stepped t x) := by
    refine ⟨mirrors.config, mirrors.detector, ⟨_, filtered⟩, ?_, buffer, mirrors.consumer,
      mirrors.context, fun _ => ⟨detector, mixed, filtered⟩, fun _ => rfl⟩
    unfold Synchronizer.stepped
    rw [config]
  rw [track_eq, track_eq, window]
  exact ⟨due, rfl, stepped.offer _⟩

theorem Mirrors.missed (mirrors : Mirrors opened s s') {x : Sample} {detector : Detector}
    (step : s.detector.execute x = (detector, none)) :
    ∃ detector', s'.detector.execute x = (detector', none) ∧
      Mirrors opened { s with detector } { s' with detector := detector' } := by
  obtain ⟨estimate, same⟩ := mirrors.detector
  obtain ⟨-, step'⟩ | ⟨found, -⟩ := s.detector.execute_withEstimate estimate x
  · rw [step, ← same] at step'
    refine ⟨_, step', mirrors.withDetector ⟨estimate, rfl⟩ fun hasOpened => ?_⟩
    rw [(mirrors.set hasOpened).1, step] at step'
    exact (congrArg Prod.fst step').symm
  · rw [step] at found
    cases found

theorem Mirrors.found (mirrors : Mirrors opened s s') {x : Sample}
    {detector : Detector} {window : Array Sample}
    (step : s.detector.execute x = (detector, some window)) :
    s'.detector.execute x = (detector, some window) ∧
      Mirrors true { s with detector }.handOff { s' with detector }.handOff := by
  obtain ⟨length, config⟩ := mirrors.config
  obtain ⟨estimate, same⟩ := mirrors.detector
  obtain ⟨scale, bank⟩ := mirrors.bank
  obtain ⟨none, -⟩ | ⟨-, step'⟩ := s.detector.execute_withEstimate estimate x
  · rw [step] at none
    cases none
  · rw [step, ← same] at step'
    -- Both scales are set anew, and in nothing else have the banks differed.
    have filtered : { s' with detector }.handOff.bank = { s with detector }.handOff.bank := by
      simp only [handOff, config, bank]
      rfl
    refine ⟨step', mirrors.config, ⟨_, rfl⟩, ⟨_, filtered⟩, ?_, mirrors.buffer, mirrors.consumer,
      mirrors.context, fun _ => ⟨rfl, rfl, filtered⟩, fun _ => rfl⟩
    simp only [handOff, config]
    rfl

theorem Mirrors.apply (mirrors : Mirrors opened s s') (call : Call C) :
    s'.windowsOf call = s.windowsOf call ∧ Mirrors opened (s.apply call) (s'.apply call) := by
  cases call with
  | execute block => exact ⟨rfl, mirrors⟩
  | reset => exact ⟨rfl, mirrors.reset⟩
  | setBufferLength length =>
    obtain ⟨fault, done, done'⟩ | ⟨buffer, buffer', windows, done, done', alike⟩ :=
      mirrors.buffer.resize length
    · rw [apply_setBufferLength_of_error done, apply_setBufferLength_of_error done', windowsOf,
        windowsOf, done, done']
      exact ⟨rfl, mirrors⟩
    · rw [apply_setBufferLength_of_ok done, apply_setBufferLength_of_ok done', windowsOf, windowsOf,
        done, done', mirrors.contextAfter]
      exact ⟨rfl, { mirrors with buffer := alike, context := rfl }⟩
  | setConsumer consumer => exact ⟨rfl, { mirrors with consumer := rfl }⟩
  | setContext context => exact ⟨rfl, mirrors.withContext context⟩
  | setThreshold threshold =>
    rw [apply_setThreshold, apply_setThreshold]
    exact ⟨rfl, mirrors.retune (·.setThreshold threshold) fun d estimate =>
      d.setThreshold_withEstimate estimate threshold⟩
  | setRange range =>
    rw [apply_setRange, apply_setRange]
    exact ⟨rfl, mirrors.retune (·.setRange range) fun d estimate =>
      d.setRange_withEstimate estimate range⟩

theorem Mirrors.sample (mirrors : Mirrors opened s s') (number : Nat) (x : Sample)
    (rest : List Sample) :
    s'.event number x = s.event number x ∧
      (Work.advance ⟨s', x :: rest⟩).pending = (Work.advance ⟨s, x :: rest⟩).pending ∧
      Mirrors (opened || (s.event number x).opens) (Work.advance ⟨s, x :: rest⟩).sync
        (Work.advance ⟨s', x :: rest⟩).sync := by
  obtain ⟨t, mode, event, next⟩ | ⟨detector, mode, step, event, next⟩ |
    ⟨detector, window, mode, step, event, next⟩ := s.sample_cases number x rest <;> rw [event, next]
  · have mode' := mirrors.mode.trans mode
    obtain rfl := mirrors.tracking (isOpen_of_tracking mode)
    obtain ⟨due, handed, mirrors'⟩ := mirrors.track t x
    have shut : (s'.track t x).isOpen = (s.track t x).isOpen := by
      unfold isOpen tracking?
      rw [mirrors'.mode]
    rw [s'.event_tracking mode', Work.advance_tracking mode', due, handed, shut]
    exact ⟨rfl, rfl, mirrors'⟩
  · have mode' := mirrors.mode.trans mode
    obtain ⟨detector', step', mirrors'⟩ := mirrors.missed step
    rw [s'.event_missed mode' step', Work.advance_missed mode' step', Event.opens, Bool.or_false]
    · exact ⟨rfl, rfl, mirrors'⟩
    · simp
  · have mode' := mirrors.mode.trans mode
    obtain ⟨step', mirrors'⟩ := mirrors.found step
    rw [s'.event_found mode' step', Work.advance_found mode' step', Event.opens, Bool.or_true]
    exact ⟨rfl, rfl, mirrors'⟩

theorem Mirrors.symm (mirrors : Mirrors opened s s') : Mirrors opened s' s := by
  obtain ⟨length, config⟩ := mirrors.config
  obtain ⟨estimate, detector⟩ := mirrors.detector
  obtain ⟨scale, bank⟩ := mirrors.bank
  refine ⟨⟨s.config.bufferLength, by rw [config]⟩, ⟨s.detector.estimate, by rw [detector]; rfl⟩,
    ⟨s.bank.scale, by rw [bank]; rfl⟩, mirrors.mode.symm, mirrors.buffer.symm,
    mirrors.consumer.symm, mirrors.context.symm, ?_, ?_⟩
  · intro hasOpened
    obtain ⟨detector, mixer, bank⟩ := mirrors.set hasOpened
    exact ⟨detector.symm, mixer.symm, bank.symm⟩
  · intro isOpen
    apply mirrors.tracking
    rwa [Synchronizer.isOpen, tracking?, mirrors.mode] at isOpen

end Synchronizer

section

open Synchronizer

variable {C : Type} {opened : Bool} {s s' : Receiver C}

theorem Leads.mirrors {w₀ w : Work C Detector Oscillator FilterBank} {n₀ number : Nat}
    {log : List (Event C)} (run : Leads w₀ n₀ log w number)
    (w₀' : Work C Detector Oscillator FilterBank) (pending : w₀'.pending = w₀.pending)
    (mirrors : Mirrors opened w₀.sync w₀'.sync) :
    ∃ w', Leads w₀' n₀ log w' number ∧ w'.pending = w.pending ∧
      Mirrors (opened || log.any Event.opens) w.sync w'.sync := by
  induction run with
  | start => exact ⟨w₀', .start, pending, by rwa [List.any_nil, Bool.or_false]⟩
  | @call log s number _ call ih =>
    obtain ⟨⟨s', xs⟩, run', none, mirrors'⟩ := ih
    obtain rfl : xs = [] := none
    obtain ⟨windows, called⟩ := mirrors'.apply call
    have run' := run'.call call
    rw [windows] at run'
    refine ⟨_, run', rfl, ?_⟩
    rwa [List.any_append, List.any_cons, Event.opens, List.any_nil, Bool.or_false, Bool.or_false]
    simp
  | @sample log s x rest number _ ih =>
    obtain ⟨⟨s', xs⟩, run', same, mirrors'⟩ := ih
    obtain rfl : xs = x :: rest := same
    obtain ⟨event, left, sampled⟩ := mirrors'.sample number x rest
    have run' := run'.sample
    rw [event] at run'
    refine ⟨_, run', left, ?_⟩
    rwa [List.any_append, List.any_cons, List.any_nil, Bool.or_false, ← Bool.or_assoc]

theorem Synchronizer.Mirrors.drains (mirrors : Mirrors opened s s') {xs : List Sample}
    {s₁ : Receiver C} (run : s.Drains xs s₁) :
    ∃ opened' s₁', s'.Drains xs s₁' ∧ Mirrors opened' s₁ s₁' := by
  obtain ⟨n, run⟩ := run
  induction n generalizing opened s s' xs with
  | zero =>
    cases run
    exact ⟨opened, s', drains_nil.mpr rfl, mirrors⟩
  | succ n ih =>
    cases xs with
    | nil =>
      rw [Work.iterate_advance_nil] at run
      cases run
      exact ⟨opened, s', drains_nil.mpr rfl, mirrors⟩
    | cons x xs =>
      obtain ⟨-, left, sampled⟩ := mirrors.sample 0 x xs
      obtain ⟨opened', s₁', run', mirrors'⟩ :=
        ih sampled (show Work.advance^[n] ⟨_, (Work.advance ⟨s, x :: xs⟩).pending⟩ = _ from run)
      rw [← left] at run'
      exact ⟨opened', s₁', drains_cons.mpr run', mirrors'⟩

theorem Synchronizer.Mirrors.execute (mirrors : Mirrors opened s s') (xs : List Sample) :
    ∃ opened', Mirrors opened' (s.execute xs) (s'.execute xs) := by
  obtain ⟨depth, run⟩ := executes_execute s xs
  obtain ⟨opened', s₁', drained, mirrors'⟩ := mirrors.drains (drains_of_executeWithin run)
  obtain ⟨replay, run'⟩ := exists_executes_of_drains drained
  rw [(executes_execute s' xs).unique run']
  exact ⟨opened', mirrors'.withReplay (s.execute xs).replay replay⟩

theorem Synchronizer.Mirrors.perform (mirrors : Mirrors opened s s') (calls : List (Call C)) :
    ∃ opened', Mirrors opened' (s.perform calls) (s'.perform calls) := by
  induction calls generalizing opened s s' with
  | nil => exact ⟨opened, mirrors⟩
  | cons call calls ih =>
    obtain ⟨opened', executed⟩ := (mirrors.apply call).2.execute call.samples
    exact ih executed

/-- What a caller can see of both is the same. What a detection sets is the same once there has
been one. -/
structure LooksLike (opened : Bool) (s s' : Receiver C) : Prop where
  /-- The frame's counters, its branch and its carrier, or that there is none. -/
  mode : s'.mode = s.mode
  bufferLength : s'.bufferLength = s.bufferLength
  buffered : s'.buffered = s.buffered
  consumer : s'.consumer = s.consumer
  context : s'.context = s.context
  settings : s'.detector.threshold = s.detector.threshold ∧ s'.detector.range = s.detector.range
  /-- A new window length is refused alike, or the same windows are handed out. -/
  resizes (length : Nat) :
    (s'.buffer.resize length).map Prod.snd = (s.buffer.resize length).map Prod.snd
  set : opened = true → s'.detector.estimate = s.detector.estimate ∧ s'.mixer = s.mixer ∧
    s'.bank.scale = s.bank.scale

theorem Synchronizer.Mirrors.looksLike (mirrors : Mirrors opened s s') : LooksLike opened s s' where
  mode := mirrors.mode
  bufferLength := mirrors.buffer.length
  buffered := mirrors.buffer.pending
  consumer := mirrors.consumer
  context := mirrors.context
  settings := by
    obtain ⟨estimate, same⟩ := mirrors.detector
    rw [same]
    exact ⟨rfl, rfl⟩
  resizes length := by
    obtain ⟨fault, done, done'⟩ | ⟨_, _, _, done, done', -⟩ := mirrors.buffer.resize length
    · rw [done, done']
    · rw [done, done']
      rfl
  set hasOpened := by
    obtain ⟨detector, mixer, bank⟩ := mirrors.set hasOpened
    rw [detector, bank]
    exact ⟨rfl, mixer, rfl⟩

theorem LooksLike.weaken (looks : LooksLike opened s s') : LooksLike false s s' :=
  { looks with set := fun never => nomatch never }

/-- Whatever is run next does the same from both points, and conversely. -/
structure Indistinguishable (w w' : Work C Detector Oscillator FilterBank) (number : Nat) :
    Prop where
  forth {log : List (Event C)} {w₁ : Work C Detector Oscillator FilterBank} {n₁ : Nat} :
    Leads w number log w₁ n₁ →
    ∃ w₁', Leads w' number log w₁' n₁ ∧ w₁'.pending = w₁.pending ∧
      LooksLike (log.any Event.opens) w₁.sync w₁'.sync
  back {log : List (Event C)} {w₁' : Work C Detector Oscillator FilterBank} {n₁ : Nat} :
    Leads w' number log w₁' n₁ →
    ∃ w₁, Leads w number log w₁ n₁ ∧ w₁'.pending = w₁.pending ∧
      LooksLike (log.any Event.opens) w₁'.sync w₁.sync
  /-- In particular when the samples that are left are run, and any calls are made then. -/
  performed (calls : List (Call C)) :
    LooksLike false (w.sync.perform (.execute w.pending :: calls))
      (w'.sync.perform (.execute w'.pending :: calls))

theorem Synchronizer.Mirrors.indistinguishable (mirrors : Mirrors false s s') (xs : List Sample)
    (number : Nat) : Indistinguishable ⟨s, xs⟩ ⟨s', xs⟩ number where
  forth run := by
    obtain ⟨w₁', run', pending, mirrors'⟩ := run.mirrors ⟨s', xs⟩ rfl mirrors
    rw [Bool.false_or] at mirrors'
    exact ⟨w₁', run', pending, mirrors'.looksLike⟩
  back run := by
    obtain ⟨w₁, run', pending, mirrors'⟩ := run.mirrors ⟨s, xs⟩ rfl mirrors.symm
    rw [Bool.false_or] at mirrors'
    exact ⟨w₁, run', pending.symm, mirrors'.looksLike⟩
  performed calls := by
    obtain ⟨opened, mirrors'⟩ := mirrors.perform (.execute xs :: calls)
    exact mirrors'.looksLike.weaken

def renewed (remake : Nat → Option (Consumer C) → C → Except Fault (Receiver C)) (s : Receiver C) :
    Except Fault (Receiver C) := do
  let fresh ← remake s.bufferLength s.consumer s.context
  let fresh ← fresh.setThreshold s.detector.threshold
  fresh.setRange s.detector.range

/-- Wherever a run has just begun or been reset, the receiver is as good as a new one, for the
samples that are left and for all later calls. -/
def StartsAfresh (remake : Nat → Option (Consumer C) → C → Except Fault (Receiver C))
    (s₀ : Receiver C) : Prop :=
  ∀ log w number, Run s₀ log w number →
    (log = [] ∨ ∃ before e, log = before ++ [e] ∧ e.ends = true) →
    ∃ fresh, renewed remake w.sync = .ok fresh ∧ Indistinguishable w ⟨fresh, w.pending⟩ number

theorem Detector.withEstimate_of_reset {t : Template} {d : Detector} (doubled : d.Doubled)
    (same : d.template = t) (rested : d.reset = d) :
    { (Detector.ofTemplate t).reset with threshold := d.threshold, range := d.range } =
      d.withEstimate default := by
  have size := doubled.size
  rw [windowLength, same] at size
  rw [← rested]
  simp [withEstimate, Detector.reset, rearm, ofTemplate, size, same]

theorem FilterBank.setScale_of_reset {b₀ b : FilterBank} (operated : Operated b₀ b)
    (rested : b.reset = b) : b₀.reset = b.setScale b₀.scale := by
  rw [← rested]
  simp [setScale, FilterBank.reset, operated.same]

theorem set_of_tuned (s : Receiver C) {d : Detector} (tuned : d.Tuned) :
    (s.setThreshold d.threshold >>= fun s => s.setRange d.range) =
      .ok { s with
        detector := { s.detector with threshold := d.threshold, range := d.range } } := by
  have threshold := Detector.setThreshold_eq_ok (d := s.detector).mpr ⟨tuned.threshold, rfl⟩
  have range (e : Detector) := Detector.setRange_eq_ok (d := e).mpr ⟨tuned.range, rfl⟩
  change (s.detector.setThreshold d.threshold >>= _) >>= _ = _
  rw [threshold]
  change (Detector.setRange _ d.range >>= _) = _
  rw [range]
  rfl

theorem exists_renewed {config : Config} {t : Template} {b₀ : FilterBank}
    {remake : Nat → Option (Consumer C) → C → Except Fault (Receiver C)} {sequenceLength : Nat}
    (sound : s.Sound config t b₀) (positive : 0 < t.length) (rested : s.reset = s)
    (makes : ∀ length consumer context, 0 < length → length ≤ storageLimit →
      remake length consumer context = .ok (reset
        (blank sequenceLength { config with bufferLength := length } t b₀ consumer context))) :
    ∃ fresh, renewed remake s = .ok fresh ∧ Mirrors false s fresh := by
  obtain ⟨seen, searched⟩ := sound.searched
  have follows := searched.follows positive
  have tuned := searched.tuned
  have room : 0 < s.bufferLength := Nat.zero_lt_of_lt sound.ready.room
  have mode : s.mode = .searching := (congrArg Synchronizer.mode rested).symm
  have detector := Detector.withEstimate_of_reset follows.doubled follows.same
    (congrArg Synchronizer.detector rested)
  have bank := FilterBank.setScale_of_reset sound.operated (congrArg Synchronizer.bank rested)
  refine ⟨{ reset (blank sequenceLength { config with bufferLength := s.bufferLength } t b₀
    s.consumer s.context) with detector := s.detector.withEstimate default }, ?_, ?_⟩
  · rw [renewed, makes _ _ _ room sound.stored, ← detector]
    exact set_of_tuned _ tuned
  · refine ⟨⟨s.bufferLength, ?_⟩, ⟨default, rfl⟩, ⟨b₀.scale, bank⟩, mode.symm, ?_, rfl, rfl,
      (fun never => nomatch never),
      (fun isOpen => nomatch (isOpen_of_searching mode).symm.trans isOpen)⟩
    · rw [sound.ready.same]
      rfl
    · have length : (Array.replicate s.bufferLength (0 : Sample)).size = s.bufferLength :=
        Array.size_replicate
      refine ⟨sound.ready.room, Nat.lt_of_lt_of_eq room length.symm, length, ?_⟩
      rw [SymbolBuffer.pending_eq_empty (sound.ready.idle mode)]
      exact SymbolBuffer.pending_eq_empty rfl

theorem Leads.rested {w₀ w : Work C Detector Oscillator FilterBank} {n₀ number : Nat}
    {log : List (Event C)} {e : Event C} (run : Leads w₀ n₀ (log ++ [e]) w number)
    (ends : e.ends = true) : w.sync.reset = w.sync := by
  obtain ⟨s, call, -, rfl, rfl⟩ | ⟨s, x, rest, i, -, rfl, rfl, -⟩ := run.exists_of_append
  · cases call with
    | reset => exact reset_reset s
    | _ => cases ends
  · obtain ⟨t, -, event, next⟩ | ⟨detector, -, -, event, -⟩ | ⟨detector, window, -, -, event, -⟩ :=
      s.sample_cases i x rest <;> rw [event] at ends
    · have shut : (s.track t x).isOpen = false := (Bool.not_eq_true' _).mp ends
      rw [next]
      obtain ⟨context, tracked⟩ | ⟨window, context, -, tracked⟩ := s.track_cases t x
      · rw [tracked] at shut
        cases shut
      · dsimp only
        rw [tracked]
        exact reset_reset _
    · cases ends
    · cases ends

/-- After a reset nothing is left of earlier frames, nor of any use of the stages before. -/
theorem starts_afresh {s₀ : Receiver C}
    {remake : Nat → Option (Consumer C) → C → Except Fault (Receiver C)} (made : Made remake s₀) :
    StartsAfresh remake s₀ := by
  obtain ⟨t, b₀, sequenceLength, positive, -, -, -, sound, rested, makes⟩ := made.sound
  intro log w number run reset
  have sound' := kept_sound.leads run sound
  have rested' : w.sync.reset = w.sync := by
    obtain rfl | ⟨before, e, rfl, ends⟩ := reset
    · rw [run.eq_of_nil.1]
      exact rested
    · exact run.rested ends
  obtain ⟨fresh, built, mirrors⟩ := exists_renewed sound' positive rested' makes
  exact ⟨fresh, built, mirrors.indistinguishable w.pending number⟩

end

theorem Synchronizer.ends_event {C D M F : Type} [DetectorStage D] [MixerStage M] [BankStage F]
    (s : Synchronizer C D M F) (number : Nat) (x : Sample) (rest : List Sample) :
    (s.event number x).ends = (s.isOpen && !(Work.advance ⟨s, x :: rest⟩).sync.isOpen) := by
  obtain ⟨t, mode, event, next⟩ | ⟨detector, mode, -, event, -⟩ |
    ⟨detector, window, mode, -, event, -⟩ := s.sample_cases number x rest <;> rw [event]
  · rw [next, isOpen_of_tracking mode]
    rfl
  · rw [isOpen_of_searching mode]
    rfl
  · rw [isOpen_of_searching mode]
    rfl

theorem StartsAfresh.of_closed {C : Type} {s₀ : Receiver C}
    {remake : Nat → Option (Consumer C) → C → Except Fault (Receiver C)}
    (afresh : StartsAfresh remake s₀) {block : List Sample} {n : Nat}
    (isOpen : (Work.advance^[n] ⟨s₀, block⟩).sync.isOpen = true)
    (shut : (Work.advance^[n + 1] ⟨s₀, block⟩).sync.isOpen = false) :
    ∃ number fresh, renewed remake (Work.advance^[n + 1] ⟨s₀, block⟩).sync = .ok fresh ∧
      Indistinguishable (Work.advance^[n + 1] ⟨s₀, block⟩)
        ⟨fresh, (Work.advance^[n + 1] ⟨s₀, block⟩).pending⟩ number := by
  rw [Function.iterate_succ_apply'] at shut ⊢
  have begun : Run s₀ [] ⟨s₀, []⟩ 0 := .start
  obtain ⟨log, number, -, run⟩ := (begun.call (.execute block)).iterate (n := n)
  change Run s₀ _ (Work.advance^[n] ⟨s₀, block⟩) number at run
  generalize Work.advance^[n] ⟨s₀, block⟩ = w at isOpen shut run
  obtain ⟨s, _ | ⟨x, rest⟩⟩ := w
  · cases isOpen.symm.trans shut
  · have ends := s.ends_event number x rest
    rw [isOpen, shut] at ends
    exact ⟨_, afresh _ _ _ run.sample (.inr ⟨_, _, rfl, ends⟩)⟩

theorem starts_afresh_pairReceiver :
    ∃ remake s₀, pairReceiver = .ok s₀ ∧ Made remake s₀ ∧
      let w := Work.advance^[10] ⟨s₀, ones 10⟩
      w.sync.isOpen = false ∧ w.pending = ones 3 ∧
        ∃ number fresh, renewed remake w.sync = .ok fresh ∧
          Indistinguishable w ⟨fresh, w.pending⟩ number := by
  have waveform : Template.ofSamples [Sample.real 1, Sample.real 1] = .ok pairTemplate := rfl
  have dealt : FilterBank.ofPrototype #[1] 1 = .ok ⟨#[#[1]], 1, #[0], 0, 1⟩ := rfl
  have built : pairReceiver = .ok _ := rfl
  have made := Made.ofStages waveform .made dealt .made built
  exact ⟨_, _, built, made, by decide +kernel, by decide +kernel,
    (starts_afresh made).of_closed (n := 9) (by decide +kernel) (by decide +kernel)⟩

end FrameSync
