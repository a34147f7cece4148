import FrameSync.Proofs.Frames

/-!
How deep replays run inside one another. A replay brings one sample more than the template has, and
the frame takes the first of them. So a search that the consumer starts in the middle of the replay
gets too few samples for a window, and the detector finds nothing before the replay is over.
-/

namespace FrameSync

namespace Synchronizer

theorem Executes.unique {C D M F : Type} [DetectorStage D] [MixerStage M] [BankStage F]
    {s s₁ s₂ : Synchronizer C D M F} {xs : List Sample} (run₁ : s.Executes xs s₁)
    (run₂ : s.Executes xs s₂) : s₁ = s₂ := by
  obtain ⟨depth₁, run₁⟩ := run₁
  obtain ⟨depth₂, run₂⟩ := run₂
  have deeper₁ := executeWithin_mono (Nat.le_max_left depth₁ depth₂) run₁
  have deeper₂ := executeWithin_mono (Nat.le_max_right depth₁ depth₂) run₂
  exact Option.some.inj (deeper₁.symm.trans deeper₂)

variable {C M F : Type} {t : Template} {seen : List Reading} {s : Synchronizer C Detector M F}

/-- The detector has taken in these samples since its search began; none as long as a frame is
open. -/
structure Hunts (t : Template) (seen : List Reading) (s : Synchronizer C Detector M F) : Prop where
  searched : Searched t seen s.detector
  idle : s.isOpen = true → seen = []

theorem Hunts.withReplay (hunts : s.Hunts t seen) (replay : Array Sample) :
    (s.withReplay replay).Hunts t seen :=
  ⟨hunts.searched, hunts.idle⟩

theorem Hunts.missed (hunts : s.Hunts t seen) (mode : s.mode = .searching) {x : Sample}
    {detector : Detector} (step : s.detector.execute x = (detector, none)) :
    Hunts t (seen ++ [⟨x, s.detector.threshold⟩]) { s with detector } where
  searched := .missed hunts.searched step
  idle isOpen := nomatch (isOpen_of_searching mode).symm.trans isOpen

theorem Hunts.size_window (hunts : s.Hunts t seen) (positive : 0 < t.length) {x : Sample}
    {detector : Detector} {window : Array Sample}
    (step : s.detector.execute x = (detector, some window)) :
    window.size = t.length + 1 ∧ t.length ≤ seen.length := by
  have detects := hunts.searched.detects positive step
  have enough := detects.length_lt
  rw [List.length_append, List.length_singleton] at enough
  exact ⟨detects.size, Nat.le_of_lt_succ enough⟩

variable [MixerStage M] [BankStage F]

theorem Hunts.found (hunts : s.Hunts t seen) {x : Sample} {detector : Detector}
    {window : Array Sample} (step : s.detector.execute x = (detector, some window)) :
    Hunts t [] { s with detector }.handOff := by
  obtain ⟨mixer, bank, frame, -, next⟩ := handOff_eq { s with detector }
  rw [next]
  exact ⟨.found hunts.searched step, fun _ => rfl⟩

theorem Hunts.track (hunts : s.Hunts t seen) {frame : Tracking} (mode : s.mode = .tracking frame)
    (x : Sample) : (s.track frame x).Hunts t [] := by
  have searched := hunts.searched
  rw [hunts.idle (isOpen_of_tracking mode)] at searched
  cases s.track_cases frame x with
  | inl goesOn =>
    obtain ⟨context, next⟩ := goesOn
    rw [next]
    exact ⟨searched, fun _ => rfl⟩
  | inr ended =>
    obtain ⟨w, context, -, next⟩ := ended
    rw [next]
    exact ⟨.reset searched, fun _ => rfl⟩

omit [MixerStage M] in
theorem Hunts.apply (hunts : s.Hunts t seen) (call : Call C) :
    ∃ seen, (s.apply call).Hunts t seen := by
  cases Placed.search_apply hunts.searched call with
  | inl fresh => exact ⟨[], fresh, fun _ => rfl⟩
  | inr kept => exact ⟨seen, kept, fun isOpen => hunts.idle (isOpen_of_apply isOpen)⟩

theorem kept_hunts : Kept (C := C) (M := M) (F := F) fun s => ∃ seen, s.Hunts t seen where
  apply call hunts := hunts.elim fun _ hunts => hunts.apply call
  track x hunts mode := hunts.elim fun _ hunts => ⟨[], hunts.track mode x⟩
  missed hunts mode step := hunts.elim fun _ hunts => ⟨_, hunts.missed mode step⟩
  found hunts _ step := hunts.elim fun _ hunts => ⟨[], hunts.found step⟩
  withReplay replay hunts := hunts.elim fun seen hunts => ⟨seen, hunts.withReplay replay⟩

/-- As long as the samples since the search began are no more than the template has, the detector
finds nothing. A frame that is open takes the next one for itself. -/
theorem executeWithin_zero (positive : 0 < t.length) {xs : List Sample} (hunts : s.Hunts t seen)
    (short : seen.length + xs.length ≤ t.length + s.isOpen.toNat) :
    ∃ s', executeWithin 0 s xs = some s' := by
  induction xs generalizing s seen with
  | nil => exact ⟨s, executeWithin_nil 0 s⟩
  | cons x xs ih =>
    rw [List.length_cons] at short
    cases mode : s.mode with
    | tracking frame =>
      rw [isOpen_of_tracking mode, Bool.toNat_true] at short
      rw [executeWithin_tracking mode]
      refine ih (hunts.track mode x) ?_
      rw [List.length_nil]
      omega
    | searching =>
      rw [isOpen_of_searching mode, Bool.toNat_false] at short
      cases step : s.detector.execute x with
      | mk detector window =>
        cases window with
        | none =>
          rw [executeWithin_missed mode step]
          refine ih (hunts.missed mode step) ?_
          rw [List.length_append, List.length_singleton]
          omega
        | some window =>
          have enough := (hunts.size_window positive step).2
          omega

theorem Hunts.replay (hunts : s.Hunts t seen) (positive : 0 < t.length) {x : Sample}
    {detector : Detector} {window : Array Sample}
    (step : s.detector.execute x = (detector, some window)) :
    ∃ s', executeWithin 0 { { s with detector }.handOff with replay := #[] } window.toList =
      some s' := by
  refine executeWithin_zero positive ((hunts.found step).withReplay #[]) ?_
  have size := (hunts.size_window positive step).1
  change ([] : List Reading).length + window.toList.length ≤ t.length + true.toNat
  rw [List.length_nil, Array.length_toList, Bool.toNat_true]
  omega

theorem Hunts.executeWithin_one (hunts : s.Hunts t seen) (positive : 0 < t.length)
    (xs : List Sample) : ∃ s', executeWithin 1 s xs = some s' := by
  induction xs generalizing s seen with
  | nil => exact ⟨s, executeWithin_nil 1 s⟩
  | cons x xs ih =>
    cases mode : s.mode with
    | tracking frame =>
      rw [executeWithin_tracking mode]
      exact ih (hunts.track mode x)
    | searching =>
      cases step : s.detector.execute x with
      | mk detector window =>
        cases window with
        | none =>
          rw [executeWithin_missed mode step]
          exact ih (hunts.missed mode step)
        | some window =>
          obtain ⟨s₁, replayed⟩ := hunts.replay positive step
          obtain ⟨seen₁, hunts₁⟩ :=
            kept_hunts.executeWithin replayed ⟨[], (hunts.found step).withReplay #[]⟩
          rw [executeWithin_found mode step, replayed, Option.bind_some]
          exact ih (hunts₁.withReplay window)

/-- How a block is run when no replay holds another one. -/
structure NestsOnce (s : Synchronizer C Detector M F) (block : List Sample) : Prop where
  ends : executeWithin 1 s block = some (s.execute block)
  /-- The detector hands out no window for any sample of a replay, wherever the consumer has ended
  the frame. -/
  silent {front rest front' rest' : List Sample} {x y : Sample} {detector : Detector}
    {window : Array Sample} {s₁ s₂ : Synchronizer C Detector M F} :
    block = front ++ x :: rest → s.Executes front s₁ → s₁.mode = .searching →
    DetectorStage.execute s₁.detector x = (detector, some window) →
    window.toList = front' ++ y :: rest' →
    Executes { { s₁ with detector }.handOff with replay := #[] } front' s₂ → s₂.mode = .searching →
    (DetectorStage.execute s₂.detector y).2 = none

theorem Hunts.nestsOnce (hunts : s.Hunts t seen) (positive : 0 < t.length) (block : List Sample) :
    s.NestsOnce block where
  ends := by
    obtain ⟨s', run⟩ := hunts.executeWithin_one positive block
    rw [run, Executes.unique ⟨1, run⟩ (executes_execute s block)]
  silent := by
    rintro front rest front' rest' x y detector window s₁ s₂ - before mode step split inner mode'
    obtain ⟨depth, run⟩ := before
    obtain ⟨seen₁, hunts₁⟩ := kept_hunts.executeWithin run ⟨seen, hunts⟩
    obtain ⟨s₃, replayed⟩ := hunts₁.replay positive step
    rw [split, executeWithin_append] at replayed
    obtain ⟨s₂', run', last⟩ := Option.bind_eq_some_iff.mp replayed
    obtain rfl := inner.unique ⟨0, run'⟩
    cases again : DetectorStage.execute s₂.detector y with
    | mk detector' window' =>
      cases window' with
      | none => rfl
      | some window' =>
        rw [executeWithin_found_zero mode' again] at last
        cases last

end Synchronizer

/-- Whatever was called before, and whatever the consumer asks for, a block is run with at most one
replay at a time. -/
theorem replays_nest_once {C M F : Type} [MixerStage M] [BankStage F] {t : Template}
    {waveform : List Sample} (made : Template.ofSamples waveform = .ok t) {seen : List Reading}
    {detector : Detector} (searched : Searched t seen detector) {sequenceLength : Nat}
    {config : Config} {mixer : M} {bank : F} {consumer : Option (Consumer C)} {context : C}
    {s₀ : Synchronizer C Detector M F}
    (built : Synchronizer.ofStages sequenceLength config detector mixer bank consumer context =
      .ok s₀) (calls : List (Call C)) :
    s₀.Performs calls (s₀.perform calls) ∧
      ∀ s, s₀.Performs calls s → ∀ block, s.NestsOnce block := by
  have positive := Template.length_pos made
  have hunts : s₀.Hunts t [] := by
    obtain ⟨buffer, -, rfl⟩ := Synchronizer.ofStages_eq_ok built
    exact ⟨.reset searched, fun _ => rfl⟩
  refine ⟨s₀.performs_perform calls, fun s done block => ?_⟩
  obtain ⟨seen', hunts'⟩ := Synchronizer.kept_hunts.performs done ⟨[], hunts⟩
  exact hunts'.nestsOnce positive block

def ones (n : Nat) : List Sample := List.replicate n (Sample.real 1)

def sextTemplate : Template := ⟨ones 3, ones 3, 6, 1, 3⟩

/-- A receiver for six equal samples. Its consumer ends every frame with the first symbol. -/
def sextReceiver : Except Fault (Receiver (List Window)) :=
  Synchronizer.ofStages 3 { shape := .rectangular, m := 1, branches := 1, bufferLength := 1 }
    (.ofTemplate sextTemplate) default ⟨#[#[1]], 1, #[0], 0, 1⟩
    (some fun w windows => (windows ++ [w], .reset)) []

/-- The replay of seven samples ends a frame with its fifth one, and two of them are searched
again. -/
theorem replays_nest_once_sextReceiver :
    ∃ s₀, sextReceiver = .ok s₀ ∧ (∀ block, (s₀.perform [.execute (ones 9)]).NestsOnce block) ∧
      let at' n := Work.advance^[n] (⟨s₀, ones 9⟩ : Work _ _ _ _)
      (at' 7).sync.isOpen = true ∧ (at' 7).pending.length = 9 ∧
        (at' 12).sync.isOpen = false ∧ (at' 12).pending.length = 4 := by
  have waveform : Template.ofSamples (ones 6) = .ok sextTemplate := by decide +kernel
  have built : sextReceiver = .ok _ := rfl
  have nest := replays_nest_once waveform .made built [.execute (ones 9)]
  exact ⟨_, built, nest.2 _ nest.1, by decide +kernel⟩

end FrameSync
