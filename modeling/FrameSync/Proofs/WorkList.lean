import FrameSync.Proofs.Call
import FrameSync.Proofs.Tracking
import Mathlib.Logic.Function.Iterate

/-!
A synchronizer as a machine with one flat list of samples to run. It takes the samples one by one,
and a window of the detector goes in front of those still pending. The nested replays of
`execute` end where this machine ends, with the same calls of the consumer.
-/

namespace FrameSync

/-- A synchronizer and the samples it has still to run, first to last. -/
structure Work (C D M F : Type) where
  sync : Synchronizer C D M F
  pending : List Sample

namespace Synchronizer

variable {C D M F : Type}

def withReplay (s : Synchronizer C D M F) (replay : Array Sample) : Synchronizer C D M F :=
  { s with replay }

@[simp] theorem withReplay_withReplay (s : Synchronizer C D M F) (a b : Array Sample) :
    (s.withReplay a).withReplay b = s.withReplay b := rfl

@[simp] theorem withReplay_replay (s : Synchronizer C D M F) : s.withReplay s.replay = s := rfl

end Synchronizer

namespace Work

variable {C D M F : Type}

def withReplay (w : Work C D M F) (replay : Array Sample) : Work C D M F :=
  ⟨w.sync.withReplay replay, w.pending⟩

def append (w : Work C D M F) (rest : List Sample) : Work C D M F :=
  ⟨w.sync, w.pending ++ rest⟩

variable [DetectorStage D] [MixerStage M] [BankStage F]

/-- Runs the first pending sample. A frame that is open takes one step on it and the detector does
not see it. Otherwise the detector gets it; with a window a frame opens, and the window comes
before the samples that are still pending. -/
def advance (w : Work C D M F) : Work C D M F :=
  match w.pending with
  | [] => w
  | x :: rest =>
    match w.sync.mode with
    | .tracking t => ⟨w.sync.track t x, rest⟩
    | .searching =>
      match DetectorStage.execute w.sync.detector x with
      | (detector, none) => ⟨{ w.sync with detector }, rest⟩
      | (detector, some window) => ⟨{ w.sync with detector }.handOff, window.toList ++ rest⟩

theorem advance_tracking {s : Synchronizer C D M F} {t : Tracking} (mode : s.mode = .tracking t)
    (x : Sample) (rest : List Sample) : advance ⟨s, x :: rest⟩ = ⟨s.track t x, rest⟩ := by
  simp only [advance, mode]

theorem advance_missed {s : Synchronizer C D M F} {x : Sample} {detector : D}
    (mode : s.mode = .searching) (step : DetectorStage.execute s.detector x = (detector, none))
    (rest : List Sample) : advance ⟨s, x :: rest⟩ = ⟨{ s with detector }, rest⟩ := by
  simp only [advance, mode, step]

theorem advance_found {s : Synchronizer C D M F} {x : Sample} {detector : D}
    {window : Array Sample} (mode : s.mode = .searching)
    (step : DetectorStage.execute s.detector x = (detector, some window)) (rest : List Sample) :
    advance ⟨s, x :: rest⟩ = ⟨{ s with detector }.handOff, window.toList ++ rest⟩ := by
  simp only [advance, mode, step]

theorem advance_cases (s : Synchronizer C D M F) (x : Sample) (rest : List Sample) :
    (∃ t, s.mode = .tracking t ∧ advance ⟨s, x :: rest⟩ = ⟨s.track t x, rest⟩) ∨
    (∃ detector, s.mode = .searching ∧ DetectorStage.execute s.detector x = (detector, none) ∧
      advance ⟨s, x :: rest⟩ = ⟨{ s with detector }, rest⟩) ∨
    (∃ detector window, s.mode = .searching ∧
      DetectorStage.execute s.detector x = (detector, some window) ∧
      advance ⟨s, x :: rest⟩ = ⟨{ s with detector }.handOff, window.toList ++ rest⟩) := by
  obtain mode | ⟨t, mode⟩ : s.mode = .searching ∨ ∃ t, s.mode = .tracking t := by
    cases s.mode <;> simp
  · cases step : DetectorStage.execute s.detector x with
    | mk detector window =>
      cases window with
      | none => exact .inr (.inl ⟨detector, mode, rfl, advance_missed mode step rest⟩)
      | some window =>
        exact .inr (.inr ⟨detector, window, mode, rfl, advance_found mode step rest⟩)
  · exact .inl ⟨t, mode, advance_tracking mode x rest⟩

theorem advance_append {w : Work C D M F} (pending : w.pending ≠ []) (rest : List Sample) :
    (w.append rest).advance = w.advance.append rest := by
  obtain ⟨s, _ | ⟨x, xs⟩⟩ := w
  · exact absurd rfl pending
  · obtain ⟨t, mode, next⟩ | ⟨detector, mode, step, next⟩ | ⟨detector, window, mode, step, next⟩ :=
      advance_cases s x xs <;> rw [next]
    · exact advance_tracking mode x (xs ++ rest)
    · exact advance_missed mode step (xs ++ rest)
    · refine (advance_found mode step (xs ++ rest)).trans ?_
      rw [append, List.append_assoc]

end Work

namespace Synchronizer

variable {C D M F : Type} [DetectorStage D] [BankStage F]

theorem offer_withReplay (s : Synchronizer C D M F) (replay : Array Sample) (w : Option Window) :
    (s.withReplay replay).offer w = (s.offer w).withReplay replay := by
  cases w with
  | none => rfl
  | some w =>
    have same : (s.withReplay replay).answer w = s.answer w := rfl
    simp only [offer, same]
    cases (s.answer w).2 <;> rfl

theorem track_withReplay [MixerStage M] (s : Synchronizer C D M F) (replay : Array Sample) (t : Tracking)
    (x : Sample) : (s.withReplay replay).track t x = (s.track t x).withReplay replay := by
  rw [track_eq, track_eq, ← offer_withReplay]
  rfl

end Synchronizer

namespace Work

variable {C D M F : Type} [DetectorStage D] [MixerStage M] [BankStage F]

theorem advance_withReplay (w : Work C D M F) (replay : Array Sample) :
    (w.withReplay replay).advance = w.advance.withReplay replay := by
  obtain ⟨s, _ | ⟨x, xs⟩⟩ := w
  · rfl
  · obtain ⟨t, mode, next⟩ | ⟨detector, mode, step, next⟩ | ⟨detector, window, mode, step, next⟩ :=
      advance_cases s x xs <;> rw [next]
    · refine (advance_tracking (s := s.withReplay replay) mode x xs).trans ?_
      rw [Synchronizer.track_withReplay, withReplay]
    · exact advance_missed (s := s.withReplay replay) mode step xs
    · exact advance_found (s := s.withReplay replay) mode step xs

theorem iterate_withReplay {n : Nat} {w w' : Work C D M F} (run : advance^[n] w = w')
    (replay : Array Sample) : advance^[n] (w.withReplay replay) = w'.withReplay replay := by
  have semiconj : Function.Semiconj (withReplay (C := C) (D := D) (M := M) (F := F) · replay)
      advance advance := fun w => (advance_withReplay w replay).symm
  rw [← run]
  exact (semiconj.iterate_right n w).symm

@[simp] theorem iterate_advance_nil (n : Nat) (s : Synchronizer C D M F) :
    advance^[n] ⟨s, []⟩ = ⟨s, []⟩ :=
  Function.iterate_fixed rfl n

theorem iterate_append {n : Nat} {w : Work C D M F} {s₁ : Synchronizer C D M F}
    (run : advance^[n] w = ⟨s₁, []⟩) (rest : List Sample) :
    ∃ m, advance^[m] (w.append rest) = ⟨s₁, rest⟩ := by
  induction n generalizing w with
  | zero => exact ⟨0, by rw [show w = ⟨s₁, []⟩ from run]; rfl⟩
  | succ n ih =>
    by_cases pending : w.pending = []
    · obtain ⟨s, xs⟩ := w
      obtain rfl : xs = [] := pending
      rw [iterate_advance_nil] at run
      exact ⟨0, by rw [run]; rfl⟩
    · rw [Function.iterate_succ_apply] at run
      obtain ⟨m, front⟩ := ih run
      exact ⟨m + 1, by rwa [Function.iterate_succ_apply, advance_append pending]⟩

theorem exists_iterate_append {n : Nat} {w : Work C D M F} {rest : List Sample}
    {s' : Synchronizer C D M F} (run : advance^[n] (w.append rest) = ⟨s', []⟩) :
    ∃ m ≤ n, ∃ s₁, advance^[m] w = ⟨s₁, []⟩ ∧ advance^[n - m] ⟨s₁, rest⟩ = ⟨s', []⟩ := by
  -- The front part ends at the first step that finds it empty.
  induction n generalizing w with
  | zero =>
    obtain ⟨s, xs⟩ := w
    have ended : (⟨s, xs ++ rest⟩ : Work C D M F) = ⟨s', []⟩ := run
    simp only [Work.mk.injEq, List.append_eq_nil_iff] at ended
    obtain ⟨rfl, rfl, rfl⟩ := ended
    exact ⟨0, Nat.le_refl 0, s, rfl, rfl⟩
  | succ n ih =>
    by_cases pending : w.pending = []
    · obtain ⟨s, xs⟩ := w
      obtain rfl : xs = [] := pending
      exact ⟨0, Nat.zero_le _, s, rfl, run⟩
    · rw [Function.iterate_succ_apply, advance_append pending] at run
      obtain ⟨m, le, s₁, front, back⟩ := ih run
      refine ⟨m + 1, Nat.succ_le_succ le, s₁, ?_, ?_⟩
      · rwa [Function.iterate_succ_apply]
      · rwa [Nat.add_sub_add_right]

end Work

namespace Synchronizer

variable {C D M F : Type} [DetectorStage D] [MixerStage M] [BankStage F]

def Drains (s : Synchronizer C D M F) (xs : List Sample) (s' : Synchronizer C D M F) : Prop :=
  ∃ n, Work.advance^[n] ⟨s, xs⟩ = ⟨s', []⟩

theorem drains_nil {s s' : Synchronizer C D M F} : s.Drains [] s' ↔ s' = s := by
  simp only [Drains, Work.iterate_advance_nil, exists_const, Work.mk.injEq, and_true]
  exact eq_comm

theorem drains_cons {s s' : Synchronizer C D M F} {x : Sample} {xs : List Sample} :
    s.Drains (x :: xs) s' ↔ (Work.advance ⟨s, x :: xs⟩).sync.Drains
      (Work.advance ⟨s, x :: xs⟩).pending s' := by
  constructor
  · rintro ⟨_ | n, run⟩
    · simp at run
    · exact ⟨n, run⟩
  · rintro ⟨n, run⟩
    exact ⟨n + 1, run⟩

theorem drains_append {s s' : Synchronizer C D M F} {xs ys : List Sample} :
    s.Drains (xs ++ ys) s' ↔ ∃ s₁, s.Drains xs s₁ ∧ s₁.Drains ys s' := by
  constructor
  · rintro ⟨n, run⟩
    obtain ⟨m, -, s₁, front, back⟩ := Work.exists_iterate_append (w := ⟨s, xs⟩) run
    exact ⟨s₁, ⟨m, front⟩, ⟨n - m, back⟩⟩
  · rintro ⟨s₁, ⟨m, front⟩, ⟨n, back⟩⟩
    obtain ⟨m', front'⟩ := Work.iterate_append front ys
    refine ⟨n + m', ?_⟩
    rw [Function.iterate_add_apply]
    exact (congrArg Work.advance^[n] front').trans back

theorem Drains.withReplay {s s' : Synchronizer C D M F} {xs : List Sample}
    (run : s.Drains xs s') (replay : Array Sample) :
    (s.withReplay replay).Drains xs (s'.withReplay replay) := by
  obtain ⟨n, run⟩ := run
  exact ⟨n, Work.iterate_withReplay run replay⟩

theorem replay_track (s : Synchronizer C D M F) (t : Tracking) (x : Sample) :
    (s.track t x).replay = s.replay := by
  have same := s.track_withReplay s.replay t x
  rw [withReplay_replay] at same
  rw [same]
  rfl

/-- The flat machine ends where the nested replays end. -/
theorem drains_of_executeWithin {depth : Nat} {s s' : Synchronizer C D M F} {xs : List Sample}
    (run : executeWithin depth s xs = some s') : s.Drains xs (s'.withReplay s.replay) := by
  fun_induction executeWithin depth s xs generalizing s' with
  | case1 depth s =>
    cases run
    exact drains_nil.mpr rfl
  | case2 depth s x xs t mode ih =>
    rw [drains_cons, Work.advance_tracking mode, ← replay_track s t x]
    exact ih run
  | case3 depth s x xs mode detector step ih =>
    rw [drains_cons, Work.advance_missed mode step]
    exact ih run
  | case4 => simp at run
  | case5 s x xs mode detector window step depth s₀ ih₁ =>
    rename_i ih₂
    obtain ⟨s₁, run₁, run₂⟩ := Option.bind_eq_some_iff.mp run
    rw [drains_cons, Work.advance_found mode step, drains_append]
    -- Both parts of the nested run are brought to the contents that the flat machine started with.
    exact ⟨s₁.withReplay s.replay, (ih₁ run₁).withReplay s.replay,
      (ih₂ s₁ run₂).withReplay s.replay⟩

theorem exists_executes_of_drains {s s' : Synchronizer C D M F} {xs : List Sample}
    (run : s.Drains xs s') : ∃ replay, s.Executes xs (s'.withReplay replay) := by
  obtain ⟨n, run⟩ := run
  induction n using Nat.strongRecOn generalizing s s' xs with
  | ind n ih =>
    cases xs with
    | nil =>
      obtain rfl := drains_nil.mp ⟨n, run⟩
      exact ⟨s'.replay, executes_nil.mpr rfl⟩
    | cons x xs =>
      cases n with
      | zero => simp at run
      | succ n =>
        rw [Function.iterate_succ_apply] at run
        obtain ⟨t, mode, next⟩ | ⟨detector, mode, step, next⟩ | ⟨detector, window, mode, step, next⟩ :=
          Work.advance_cases s x xs <;> rw [next] at run
        · obtain ⟨replay, done⟩ := ih n (Nat.lt_succ_self n) run
          exact ⟨replay, (executes_tracking mode).mpr done⟩
        · obtain ⟨replay, done⟩ := ih n (Nat.lt_succ_self n) run
          exact ⟨replay, (executes_missed mode step).mpr done⟩
        · obtain ⟨m, le, s₁, front, back⟩ := Work.exists_iterate_append
            (w := ⟨{ s with detector }.handOff, window.toList⟩) run
          obtain ⟨replay₁, done₁⟩ := ih m (by omega) (Work.iterate_withReplay front #[])
          obtain ⟨replay₂, done₂⟩ := ih (n - m) (by omega) (Work.iterate_withReplay back window)
          exact ⟨replay₂, (executes_found mode step).mpr ⟨s₁.withReplay replay₁, done₁, done₂⟩⟩

end Synchronizer

end FrameSync
