import FrameSync.Proofs.Tracking
import FrameSync.Synchronizer.Depth

/-!
Running a block as a relation, which says nothing about the depth of the replays, and the calls
that drive a synchronizer. A block may be cut anywhere: running the parts one after the other is
running the whole.
-/

namespace FrameSync.Synchronizer

variable {C D M F : Type} [DetectorStage D] [MixerStage M] [BankStage F]

theorem executeWithin_nil (depth : Nat) (s : Synchronizer C D M F) :
    executeWithin depth s [] = some s := by
  rw [executeWithin]

theorem executeWithin_tracking {s : Synchronizer C D M F} {t : Tracking}
    (mode : s.mode = .tracking t) (depth : Nat) (x : Sample) (xs : List Sample) :
    executeWithin depth s (x :: xs) = executeWithin depth (s.track t x) xs := by
  rw [executeWithin, mode]

theorem executeWithin_missed {s : Synchronizer C D M F} {x : Sample} {detector : D}
    (mode : s.mode = .searching) (step : DetectorStage.execute s.detector x = (detector, none))
    (depth : Nat) (xs : List Sample) :
    executeWithin depth s (x :: xs) = executeWithin depth { s with detector } xs := by
  rw [executeWithin, mode]
  simp only [step]

theorem executeWithin_found {s : Synchronizer C D M F} {x : Sample} {detector : D}
    {window : Array Sample} (mode : s.mode = .searching)
    (step : DetectorStage.execute s.detector x = (detector, some window)) (depth : Nat)
    (xs : List Sample) :
    executeWithin (depth + 1) s (x :: xs) =
      (executeWithin depth { ({ s with detector }.handOff) with replay := #[] }
        window.toList).bind fun s' => executeWithin (depth + 1) { s' with replay := window } xs := by
  rw [executeWithin, mode]
  simp only [step]
  rfl

theorem executeWithin_found_zero {s : Synchronizer C D M F} {x : Sample} {detector : D}
    {window : Array Sample} (mode : s.mode = .searching)
    (step : DetectorStage.execute s.detector x = (detector, some window)) (xs : List Sample) :
    executeWithin 0 s (x :: xs) = none := by
  rw [executeWithin, mode]
  simp only [step]

theorem executeWithin_mono {depth depth' : Nat} (le : depth ≤ depth')
    {s s' : Synchronizer C D M F} {xs : List Sample}
    (run : executeWithin depth s xs = some s') : executeWithin depth' s xs = some s' := by
  fun_induction executeWithin depth s xs generalizing depth' s' with
  | case1 depth s => rwa [executeWithin_nil]
  | case2 depth s x xs t mode ih =>
    rw [executeWithin_tracking mode]
    exact ih le run
  | case3 depth s x xs mode detector step ih =>
    rw [executeWithin_missed mode step]
    exact ih le run
  | case4 => simp at run
  | case5 s x xs mode detector window step depth s₀ ih₁ =>
    rename_i ih₂
    obtain ⟨depth', rfl⟩ : ∃ d, depth' = d + 1 := ⟨depth' - 1, by omega⟩
    obtain ⟨s₁, run₁, run₂⟩ := Option.bind_eq_some_iff.mp run
    rw [executeWithin_found mode step]
    exact Option.bind_eq_some_iff.mpr ⟨s₁, ih₁ (by omega) run₁, ih₂ s₁ le run₂⟩

theorem executeWithin_append (depth : Nat) (s : Synchronizer C D M F) (xs ys : List Sample) :
    executeWithin depth s (xs ++ ys) =
      (executeWithin depth s xs).bind fun s' => executeWithin depth s' ys := by
  fun_induction executeWithin depth s xs with
  | case1 depth s => rfl
  | case2 depth s x xs t mode ih => rw [List.cons_append, executeWithin_tracking mode, ih]
  | case3 depth s x xs mode detector step ih =>
    rw [List.cons_append, executeWithin_missed mode step, ih]
  | case4 s x xs mode detector window step =>
    rw [List.cons_append, executeWithin_found_zero mode step]
    rfl
  | case5 s x xs mode detector window step depth s₀ ih₁ ih₂ =>
    rw [List.cons_append, executeWithin_found mode step, Option.bind_assoc]
    exact Option.bind_congr fun s₁ _ => ih₂ s₁

def Executes (s : Synchronizer C D M F) (xs : List Sample) (s' : Synchronizer C D M F) : Prop :=
  ∃ depth, executeWithin depth s xs = some s'

theorem executes_execute [LawfulDetectorStage D] (s : Synchronizer C D M F) (xs : List Sample) :
    s.Executes xs (s.execute xs) :=
  ⟨_, executeWithin_eq_some_execute s xs⟩

theorem executes_nil {s s' : Synchronizer C D M F} : s.Executes [] s' ↔ s' = s := by
  simp only [Executes, executeWithin_nil, Option.some.injEq, exists_const]
  exact eq_comm

theorem executes_tracking {s s' : Synchronizer C D M F} {t : Tracking}
    (mode : s.mode = .tracking t) {x : Sample} {xs : List Sample} :
    s.Executes (x :: xs) s' ↔ (s.track t x).Executes xs s' := by
  simp only [Executes, executeWithin_tracking mode]

theorem executes_missed {s s' : Synchronizer C D M F} {x : Sample} {detector : D}
    (mode : s.mode = .searching) (step : DetectorStage.execute s.detector x = (detector, none))
    {xs : List Sample} :
    s.Executes (x :: xs) s' ↔ Executes { s with detector } xs s' := by
  simp only [Executes, executeWithin_missed mode step]

theorem executes_found {s s' : Synchronizer C D M F} {x : Sample} {detector : D}
    {window : Array Sample} (mode : s.mode = .searching)
    (step : DetectorStage.execute s.detector x = (detector, some window)) {xs : List Sample} :
    s.Executes (x :: xs) s' ↔
      ∃ s₁, Executes { ({ s with detector }.handOff) with replay := #[] } window.toList s₁ ∧
        Executes { s₁ with replay := window } xs s' := by
  constructor
  · rintro ⟨_ | depth, run⟩
    · simp [executeWithin_found_zero mode step] at run
    · rw [executeWithin_found mode step] at run
      obtain ⟨s₁, run₁, run₂⟩ := Option.bind_eq_some_iff.mp run
      exact ⟨s₁, ⟨depth, run₁⟩, ⟨depth + 1, run₂⟩⟩
  · rintro ⟨s₁, ⟨depth₁, run₁⟩, ⟨depth₂, run₂⟩⟩
    refine ⟨max depth₁ depth₂ + 1, ?_⟩
    rw [executeWithin_found mode step]
    exact Option.bind_eq_some_iff.mpr
      ⟨s₁, executeWithin_mono (by omega) run₁, executeWithin_mono (by omega) run₂⟩

theorem executes_append {s s' : Synchronizer C D M F} {xs ys : List Sample} :
    s.Executes (xs ++ ys) s' ↔ ∃ s₁, s.Executes xs s₁ ∧ s₁.Executes ys s' := by
  constructor
  · rintro ⟨depth, run⟩
    rw [executeWithin_append] at run
    obtain ⟨s₁, run₁, run₂⟩ := Option.bind_eq_some_iff.mp run
    exact ⟨s₁, ⟨depth, run₁⟩, ⟨depth, run₂⟩⟩
  · rintro ⟨s₁, ⟨depth₁, run₁⟩, ⟨depth₂, run₂⟩⟩
    refine ⟨max depth₁ depth₂, ?_⟩
    rw [executeWithin_append]
    exact Option.bind_eq_some_iff.mpr
      ⟨s₁, executeWithin_mono (by omega) run₁, executeWithin_mono (by omega) run₂⟩

end FrameSync.Synchronizer

namespace FrameSync

inductive Call (C : Type) where
  | execute (block : List Sample)
  | reset
  | setBufferLength (length : Nat)
  | setConsumer (consumer : Option (Consumer C))
  | setContext (context : C)
  | setThreshold (threshold : Float32)
  | setRange (range : Float32)

def Call.samples {C : Type} : Call C → List Sample
  | execute block => block
  | _ => []

def samplesOf {C : Type} (calls : List (Call C)) : List Sample := calls.flatMap Call.samples

namespace Synchronizer

variable {C D M F : Type} [DetectorStage D] [BankStage F]

/-- What a call does before its samples are run. A refused setting changes nothing. -/
def apply (s : Synchronizer C D M F) : Call C → Synchronizer C D M F
  | .execute _ => s
  | .reset => s.reset
  | .setBufferLength length => (s.setBufferLength length).toOption.getD s
  | .setConsumer consumer => { s with consumer }
  | .setContext context => { s with context }
  | .setThreshold threshold => (s.setThreshold threshold).toOption.getD s
  | .setRange range => (s.setRange range).toOption.getD s

theorem apply_setBufferLength_of_ok {s : Synchronizer C D M F} {length : Nat}
    {buffer : SymbolBuffer} {windows : List Window}
    (done : s.buffer.resize length = .ok (buffer, windows)) :
    s.apply (.setBufferLength length) = { s with buffer, context := s.contextAfter windows } := by
  simp only [apply, setBufferLength_eq, done]
  rfl

theorem apply_setBufferLength_of_error {s : Synchronizer C D M F} {length : Nat} {fault : Fault}
    (refused : s.buffer.resize length = .error fault) : s.apply (.setBufferLength length) = s := by
  simp only [apply, setBufferLength_eq, refused]
  rfl

theorem apply_setThreshold (s : Synchronizer C D M F) (threshold : Float32) :
    s.apply (.setThreshold threshold) =
      { s with detector :=
          (DetectorStage.setThreshold s.detector threshold).toOption.getD s.detector } := by
  change (DetectorStage.setThreshold s.detector threshold >>= _).toOption.getD s = _
  cases DetectorStage.setThreshold s.detector threshold <;> rfl

theorem apply_setRange (s : Synchronizer C D M F) (range : Float32) :
    s.apply (.setRange range) =
      { s with detector := (DetectorStage.setRange s.detector range).toOption.getD s.detector } := by
  change (DetectorStage.setRange s.detector range >>= _).toOption.getD s = _
  cases DetectorStage.setRange s.detector range <;> rfl

theorem apply_cases (s : Synchronizer C D M F) (call : Call C) :
    (call = .reset ∧ s.apply call = s.reset) ∨
    (∃ detector buffer consumer context,
      s.apply call = { s with detector, buffer, consumer, context } ∧
      (detector = s.detector ∨
        (∃ threshold, DetectorStage.setThreshold s.detector threshold = .ok detector) ∨
        (∃ range, DetectorStage.setRange s.detector range = .ok detector)) ∧
      (buffer = s.buffer ∨ ∃ length windows, s.buffer.resize length = .ok (buffer, windows))) := by
  cases call with
  | reset => exact .inl ⟨rfl, rfl⟩
  | setBufferLength length =>
    cases done : s.buffer.resize length with
    | ok resized =>
      rw [apply_setBufferLength_of_ok done]
      exact .inr ⟨_, _, _, _, rfl, .inl rfl, .inr ⟨length, resized.2, done⟩⟩
    | error fault =>
      rw [apply_setBufferLength_of_error done]
      exact .inr ⟨_, _, _, _, rfl, .inl rfl, .inl rfl⟩
  | setThreshold threshold =>
    rw [apply_setThreshold]
    refine .inr ⟨_, _, _, _, rfl, ?_, .inl rfl⟩
    cases set : DetectorStage.setThreshold s.detector threshold with
    | ok detector => exact .inr (.inl ⟨threshold, set⟩)
    | error fault => exact .inl rfl
  | setRange range =>
    rw [apply_setRange]
    refine .inr ⟨_, _, _, _, rfl, ?_, .inl rfl⟩
    cases set : DetectorStage.setRange s.detector range with
    | ok detector => exact .inr (.inr ⟨range, set⟩)
    | error fault => exact .inl rfl
  | _ => exact .inr ⟨_, _, _, _, rfl, .inl rfl, .inl rfl⟩

theorem isOpen_apply (s : Synchronizer C D M F) {call : Call C} (kept : call ≠ .reset) :
    (s.apply call).isOpen = s.isOpen := by
  obtain ⟨reset, -⟩ | ⟨detector, buffer, consumer, context, next, -⟩ := s.apply_cases call
  · exact absurd reset kept
  · rw [next]
    rfl

theorem isOpen_of_apply {s : Synchronizer C D M F} {call : Call C}
    (isOpen : (s.apply call).isOpen = true) : s.isOpen = true := by
  by_cases reset : call = .reset
  · rw [reset] at isOpen
    cases isOpen
  · rwa [s.isOpen_apply reset] at isOpen

variable [MixerStage M]

/-- The calls, made one after the other from `s`, all come to an end, in `s'`. -/
def Performs (s : Synchronizer C D M F) : List (Call C) → Synchronizer C D M F → Prop
  | [], s' => s' = s
  | call :: calls, s' => ∃ s₁, (s.apply call).Executes call.samples s₁ ∧ s₁.Performs calls s'

def perform (s : Synchronizer C D M F) (calls : List (Call C)) : Synchronizer C D M F :=
  calls.foldl (fun s call => (s.apply call).execute call.samples) s

theorem performs_perform [LawfulDetectorStage D] (s : Synchronizer C D M F)
    (calls : List (Call C)) : s.Performs calls (s.perform calls) := by
  induction calls generalizing s with
  | nil => rfl
  | cons call calls ih => exact ⟨_, executes_execute _ _, ih _⟩

theorem performs_execute {s s' : Synchronizer C D M F} {blocks : List (List Sample)} :
    s.Performs (blocks.map .execute) s' ↔ s.Executes blocks.flatten s' := by
  induction blocks generalizing s with
  | nil => exact executes_nil.symm
  | cons block blocks ih =>
    rw [List.map_cons, List.flatten_cons, executes_append]
    exact exists_congr fun s₁ => and_congr_right fun _ => ih

end Synchronizer

end FrameSync
