import FrameSync.Proofs.Replay
import Mathlib.Data.List.Induction

/-!
Runs of a synchronizer, from its first call on, with a log of all that happens. The flat machine
takes the samples one by one, so a run may stop in the middle of a block or of a replay. Samples
go by their number in the input: the last sample of a window of the detector is the one at which
the window comes, so the number goes back by the others.
-/

namespace FrameSync

/-- What a frame makes of one sample: the output of the filter, if a symbol is due, the window
that is handed out, and whether the consumer ends the frame. -/
structure Yield where
  symbol : Option Sample
  window : Option Window
  closed : Bool

inductive Event (C : Type) where
  /-- The detector takes in a sample. -/
  | missed (number : Nat) (x : Sample)
  /-- The detector takes in a sample and finds the preamble. A frame opens. -/
  | found (number : Nat) (x : Sample) (window : Window)
  | tracked (number : Nat) (x : Sample) (yield : Yield)
  /-- A call is made, and windows are handed out in it. -/
  | called (call : Call C) (windows : List Window)

namespace Event

variable {C : Type}

def next (number : Nat) : Event C → Nat
  | missed _ _ | tracked _ _ _ => number + 1
  | found _ _ window => number + 1 - window.size
  | called _ _ => number

def symbols : Event C → List Sample
  | tracked _ _ yield => yield.symbol.toList
  | _ => []

def windows : Event C → List Window
  | tracked _ _ yield => yield.window.toList
  | called _ windows => windows
  | _ => []

def ends : Event C → Bool
  | tracked _ _ yield => yield.closed
  | called .reset _ => true
  | _ => false

def call? : Event C → Option (Call C)
  | called call _ => some call
  | _ => none

end Event

section

variable {C : Type}

def symbolsIn (log : List (Event C)) : List Sample := log.flatMap Event.symbols

def windowsIn (log : List (Event C)) : List Window := log.flatMap Event.windows

def callsIn (log : List (Event C)) : List (Call C) := log.filterMap Event.call?

@[simp] theorem symbolsIn_append (a b : List (Event C)) :
    symbolsIn (a ++ b) = symbolsIn a ++ symbolsIn b := List.flatMap_append

@[simp] theorem windowsIn_append (a b : List (Event C)) :
    windowsIn (a ++ b) = windowsIn a ++ windowsIn b := List.flatMap_append

@[simp] theorem symbolsIn_singleton (e : Event C) : symbolsIn [e] = e.symbols := List.append_nil _

@[simp] theorem windowsIn_singleton (e : Event C) : windowsIn [e] = e.windows := List.append_nil _

@[simp] theorem callsIn_append (a b : List (Event C)) :
    callsIn (a ++ b) = callsIn a ++ callsIn b := List.filterMap_append

@[simp] theorem callsIn_called (call : Call C) (windows : List Window) :
    callsIn [.called call windows] = [call] := rfl

end

namespace Synchronizer

variable {C D M F : Type}

def windowsOf (s : Synchronizer C D M F) : Call C → List Window
  | .setBufferLength length =>
    match s.buffer.resize length with
    | .ok (_, windows) => windows
    | .error _ => []
  | _ => []

variable [DetectorStage D] [MixerStage M] [BankStage F]

def event (s : Synchronizer C D M F) (number : Nat) (x : Sample) : Event C :=
  match s.mode with
  | .tracking t => .tracked number x ⟨s.dueSymbol? t x, s.windowAt t x, !(s.track t x).isOpen⟩
  | .searching =>
    match (DetectorStage.execute s.detector x).2 with
    | none => .missed number x
    | some window => .found number x window

end Synchronizer

variable {C D M F : Type} [DetectorStage D] [MixerStage M] [BankStage F]

/-- The events of a log lead from one point to another. A point is the work that is left and the
number of the next sample. A call is made when all samples of the one before have been run. -/
inductive Leads (w₀ : Work C D M F) (n₀ : Nat) : List (Event C) → Work C D M F → Nat → Prop
  | start : Leads w₀ n₀ [] w₀ n₀
  | call {log : List (Event C)} {s : Synchronizer C D M F} {number : Nat}
      (before : Leads w₀ n₀ log ⟨s, []⟩ number) (call : Call C) :
      Leads w₀ n₀ (log ++ [.called call (s.windowsOf call)]) ⟨s.apply call, call.samples⟩ number
  | sample {log : List (Event C)} {s : Synchronizer C D M F} {x : Sample} {rest : List Sample}
      {number : Nat} (before : Leads w₀ n₀ log ⟨s, x :: rest⟩ number) :
      Leads w₀ n₀ (log ++ [s.event number x]) (Work.advance ⟨s, x :: rest⟩)
        ((s.event number x).next number)

/-- What calls on `s₀` may have led to so far. -/
abbrev Run (s₀ : Synchronizer C D M F) (log : List (Event C)) (w : Work C D M F)
    (number : Nat) : Prop :=
  Leads ⟨s₀, []⟩ 0 log w number

namespace Synchronizer

omit [MixerStage M] in
theorem ofStages_eq_ok_iff {sequenceLength : Nat} {config : Config} {detector : D} {mixer : M}
    {bank : F} {consumer : Option (Consumer C)} {context : C} {s : Synchronizer C D M F} :
    ofStages sequenceLength config detector mixer bank consumer context = .ok s ↔
      sequenceLength ≠ 0 ∧ config.validate = .ok () ∧
      BankStage.branchCount bank = config.branches ∧
      ∃ buffer, SymbolBuffer.ofLength config.bufferLength = .ok buffer ∧
        s = reset
          { config, sequenceLength, detector, mixer, bank, mode := .searching, buffer,
            replay := #[], consumer, context } := by
  unfold ofStages
  by_cases empty : sequenceLength = 0
  · simp [empty, refuse]
  rw [if_neg empty]
  cases valid : config.validate with
  | error fault => simp [bind, Except.bind]
  | ok =>
    by_cases count : BankStage.branchCount bank = config.branches
    · cases stored : SymbolBuffer.ofLength config.bufferLength with
      | error fault => simp [bind, Except.bind, count]
      | ok buffer => simp [bind, Except.bind, pure, Except.pure, count, empty, eq_comm]
    · simp [bind, Except.bind, count, refuse]

omit [MixerStage M] in
theorem ofStages_eq_ok {sequenceLength : Nat} {config : Config} {detector : D} {mixer : M} {bank : F}
    {consumer : Option (Consumer C)} {context : C} {s : Synchronizer C D M F}
    (made : ofStages sequenceLength config detector mixer bank consumer context = .ok s) :
    ∃ buffer, SymbolBuffer.ofLength config.bufferLength = .ok buffer ∧
      s = reset
        { config, sequenceLength, detector, mixer, bank, mode := .searching, buffer,
          replay := #[], consumer, context } :=
  (ofStages_eq_ok_iff.mp made).2.2.2

theorem event_tracking (s : Synchronizer C D M F) {t : Tracking} (mode : s.mode = .tracking t)
    (number : Nat) (x : Sample) :
    s.event number x =
      .tracked number x ⟨s.dueSymbol? t x, s.windowAt t x, !(s.track t x).isOpen⟩ := by
  rw [event, mode]

theorem event_missed (s : Synchronizer C D M F) (mode : s.mode = .searching) {x : Sample}
    {detector : D} (step : DetectorStage.execute s.detector x = (detector, none)) (number : Nat) :
    s.event number x = .missed number x := by
  simp only [event, mode, step]

theorem event_found (s : Synchronizer C D M F) (mode : s.mode = .searching) {x : Sample}
    {detector : D} {window : Array Sample}
    (step : DetectorStage.execute s.detector x = (detector, some window))
    (number : Nat) : s.event number x = .found number x window := by
  simp only [event, mode, step]

/-- All that the next sample can do, with what is written down about it. -/
theorem sample_cases (s : Synchronizer C D M F) (number : Nat) (x : Sample) (rest : List Sample) :
    (∃ t, s.mode = .tracking t ∧
      s.event number x =
        .tracked number x ⟨s.dueSymbol? t x, s.windowAt t x, !(s.track t x).isOpen⟩ ∧
      Work.advance ⟨s, x :: rest⟩ = ⟨s.track t x, rest⟩) ∨
    (∃ detector, s.mode = .searching ∧ DetectorStage.execute s.detector x = (detector, none) ∧
      s.event number x = .missed number x ∧
      Work.advance ⟨s, x :: rest⟩ = ⟨{ s with detector }, rest⟩) ∨
    (∃ detector window, s.mode = .searching ∧
      DetectorStage.execute s.detector x = (detector, some window) ∧
      s.event number x = .found number x window ∧
      Work.advance ⟨s, x :: rest⟩ = ⟨{ s with detector }.handOff, window.toList ++ rest⟩) := by
  obtain ⟨t, mode, next⟩ | ⟨detector, mode, step, next⟩ | ⟨detector, window, mode, step, next⟩ :=
    Work.advance_cases s x rest
  · exact .inl ⟨t, mode, s.event_tracking mode number x, next⟩
  · exact .inr (.inl ⟨detector, mode, step, s.event_missed mode step number, next⟩)
  · exact .inr (.inr ⟨detector, window, mode, step, s.event_found mode step number, next⟩)

@[simp] theorem callsIn_event (s : Synchronizer C D M F) (number : Nat) (x : Sample) :
    callsIn [s.event number x] = [] := by
  obtain ⟨t, -, event, -⟩ | ⟨detector, -, -, event, -⟩ | ⟨detector, window, -, -, event, -⟩ :=
    s.sample_cases number x [] <;> rw [event] <;> rfl

omit [MixerStage M] in
theorem apply_withReplay (s : Synchronizer C D M F) (replay : Array Sample) (call : Call C) :
    (s.withReplay replay).apply call = (s.apply call).withReplay replay := by
  cases call with
  | setBufferLength length =>
    cases done : s.buffer.resize length with
    | ok resized =>
      rw [apply_setBufferLength_of_ok done]
      exact apply_setBufferLength_of_ok (s := s.withReplay replay) done
    | error fault =>
      rw [apply_setBufferLength_of_error done]
      exact apply_setBufferLength_of_error (s := s.withReplay replay) done
  | setThreshold threshold =>
    rw [apply_setThreshold, apply_setThreshold]
    rfl
  | setRange range =>
    rw [apply_setRange, apply_setRange]
    rfl
  | _ => rfl

end Synchronizer

namespace Leads

variable {w₀ w : Work C D M F} {n₀ number : Nat} {log : List (Event C)}

theorem exists_of_append {e : Event C} (run : Leads w₀ n₀ (log ++ [e]) w number) :
    (∃ s call, Leads w₀ n₀ log ⟨s, []⟩ number ∧ e = .called call (s.windowsOf call) ∧
      w = ⟨s.apply call, call.samples⟩) ∨
    (∃ s x rest before, Leads w₀ n₀ log ⟨s, x :: rest⟩ before ∧ e = s.event before x ∧
      w = Work.advance ⟨s, x :: rest⟩ ∧ number = (s.event before x).next before) := by
  generalize whole : log ++ [e] = log' at run
  cases run with
  | start => simp at whole
  | @call _ s _ before call =>
    obtain ⟨rfl, same⟩ := List.append_inj' whole rfl
    exact .inl ⟨s, call, before, List.singleton_inj.mp same, rfl⟩
  | @sample _ s x rest _ before =>
    obtain ⟨rfl, same⟩ := List.append_inj' whole rfl
    exact .inr ⟨s, x, rest, _, before, List.singleton_inj.mp same, rfl, rfl⟩

theorem eq_of_nil (run : Leads w₀ n₀ [] w number) : w = w₀ ∧ number = n₀ := by
  generalize whole : ([] : List (Event C)) = log at run
  cases run with
  | start => exact ⟨rfl, rfl⟩
  | call => simp at whole
  | sample => simp at whole

theorem trans {more : List (Event C)} {w' : Work C D M F} {number' : Nat}
    (run : Leads w₀ n₀ log w number) (run' : Leads w number more w' number') :
    Leads w₀ n₀ (log ++ more) w' number' := by
  induction run' with
  | start => rwa [List.append_nil]
  | call _ call ih =>
    rw [← List.append_assoc]
    exact ih.call call
  | sample _ ih =>
    rw [← List.append_assoc]
    exact ih.sample

theorem exists_split {more : List (Event C)} (run : Leads w₀ n₀ (log ++ more) w number) :
    ∃ w₁ n₁, Leads w₀ n₀ log w₁ n₁ ∧ Leads w₁ n₁ more w number := by
  induction more using List.reverseRecOn generalizing w number with
  | nil =>
    rw [List.append_nil] at run
    exact ⟨w, number, run, .start⟩
  | append_singleton more e ih =>
    rw [← List.append_assoc] at run
    cases run.exists_of_append with
    | inl called =>
      obtain ⟨s, call, before, rfl, rfl⟩ := called
      obtain ⟨w₁, n₁, front, back⟩ := ih before
      exact ⟨w₁, n₁, front, back.call call⟩
    | inr sample =>
      obtain ⟨s, x, rest, i, before, rfl, rfl, rfl⟩ := sample
      obtain ⟨w₁, n₁, front, back⟩ := ih before
      exact ⟨w₁, n₁, front, back.sample⟩

theorem exists_split_cons {before after : List (Event C)} {e : Event C}
    (run : Leads w₀ n₀ (before ++ e :: after) w number) :
    ∃ w₁ n₁ w₂ n₂, Leads w₀ n₀ before w₁ n₁ ∧ Leads w₁ n₁ [e] w₂ n₂ ∧
      Leads w₂ n₂ after w number := by
  rw [List.append_cons] at run
  obtain ⟨w₂, n₂, front, back⟩ := run.exists_split
  obtain ⟨w₁, n₁, front, here⟩ := front.exists_split
  exact ⟨w₁, n₁, w₂, n₂, front, here, back⟩

theorem exists_of_found {i : Nat} {x : Sample} {window : Window}
    (run : Leads w₀ n₀ [.found i x window] w number) :
    ∃ s rest detector, w₀ = ⟨s, x :: rest⟩ ∧ n₀ = i ∧ s.mode = .searching ∧
      DetectorStage.execute s.detector x = (detector, some window) ∧
      w = ⟨{ s with detector }.handOff, window.toList ++ rest⟩ ∧ number = i + 1 - window.size := by
  have run : Leads w₀ n₀ ([] ++ [.found i x window]) w number := run
  cases run.exists_of_append with
  | inl called =>
    obtain ⟨s, call, -, other, -⟩ := called
    cases other
  | inr sample =>
    obtain ⟨s, y, rest, j, before, event, rfl, rfl⟩ := sample
    obtain ⟨rfl, rfl⟩ := before.eq_of_nil
    obtain ⟨t, -, other, -⟩ | ⟨detector, -, -, other, -⟩ | ⟨detector, window, mode, step, same, next⟩ :=
      s.sample_cases j y rest
    · cases event.trans other
    · cases event.trans other
    · cases event.trans same
      rw [same, next]
      exact ⟨s, rest, detector, rfl, rfl, mode, step, rfl, rfl⟩

theorem exists_of_tracked {i : Nat} {x : Sample} {yield : Yield}
    (run : Leads w₀ n₀ [.tracked i x yield] w number) :
    ∃ s rest t, w₀ = ⟨s, x :: rest⟩ ∧ n₀ = i ∧ s.mode = .tracking t ∧
      yield = ⟨s.dueSymbol? t x, s.windowAt t x, !(s.track t x).isOpen⟩ ∧
      w = ⟨s.track t x, rest⟩ ∧ number = i + 1 := by
  have run : Leads w₀ n₀ ([] ++ [.tracked i x yield]) w number := run
  cases run.exists_of_append with
  | inl called =>
    obtain ⟨s, call, -, other, -⟩ := called
    cases other
  | inr sample =>
    obtain ⟨s, y, rest, j, before, event, rfl, rfl⟩ := sample
    obtain ⟨rfl, rfl⟩ := before.eq_of_nil
    obtain ⟨t, mode, same, next⟩ | ⟨detector, -, -, other, -⟩ | ⟨detector, window, -, -, other, -⟩ :=
      s.sample_cases j y rest
    · cases event.trans same
      rw [same, next]
      exact ⟨s, rest, t, rfl, rfl, mode, rfl, rfl, rfl⟩
    · cases event.trans other
    · cases event.trans other

theorem iterate {n : Nat} (run : Leads w₀ n₀ log w number) :
    ∃ more number', callsIn more = [] ∧ Leads w₀ n₀ (log ++ more) (Work.advance^[n] w) number' := by
  induction n generalizing log w number with
  | zero => exact ⟨[], number, rfl, by rwa [List.append_nil]⟩
  | succ n ih =>
    obtain ⟨s, _ | ⟨x, rest⟩⟩ := w
    · exact ⟨[], number, rfl, by rwa [List.append_nil, Work.iterate_advance_nil]⟩
    · obtain ⟨more, number', none, run'⟩ := ih run.sample
      refine ⟨[s.event number x] ++ more, number', ?_, ?_⟩
      · rw [callsIn_append, Synchronizer.callsIn_event, none]
        rfl
      · rwa [List.append_assoc] at run'

theorem exists_of_performs {s s' : Synchronizer C D M F} {replay : Array Sample}
    {calls : List (Call C)} (run : Leads w₀ n₀ log ⟨s.withReplay replay, []⟩ number)
    (done : s.Performs calls s') :
    ∃ more number', callsIn more = calls ∧
      Leads w₀ n₀ (log ++ more) ⟨s'.withReplay replay, []⟩ number' := by
  induction calls generalizing log s number with
  | nil =>
    cases done
    exact ⟨[], number, rfl, by rwa [List.append_nil]⟩
  | cons call calls ih =>
    obtain ⟨s₁, ⟨depth, block⟩, done⟩ := done
    obtain ⟨n, flat⟩ := (Synchronizer.drains_of_executeWithin block).withReplay replay
    have called := run.call call
    rw [Synchronizer.apply_withReplay] at called
    obtain ⟨more, number₁, uncalled, run₁⟩ := called.iterate (n := n)
    rw [flat, Synchronizer.withReplay_withReplay] at run₁
    obtain ⟨more', number', same, run'⟩ := ih run₁ done
    refine ⟨[.called call ((s.withReplay replay).windowsOf call)] ++ (more ++ more'), number',
      ?_, ?_⟩
    · rw [callsIn_append, callsIn_append, uncalled, same]
      rfl
    · rwa [List.append_assoc, List.append_assoc] at run'

end Leads

theorem exists_run_of_performs {s₀ s' : Synchronizer C D M F} {calls : List (Call C)}
    (done : s₀.Performs calls s') :
    ∃ log number, callsIn log = calls ∧ Run s₀ log ⟨s'.withReplay s₀.replay, []⟩ number := by
  have first : Run s₀ [] ⟨s₀.withReplay s₀.replay, []⟩ 0 := .start
  exact first.exists_of_performs done

namespace Synchronizer

structure Kept (P : Synchronizer C D M F → Prop) : Prop where
  apply {s : Synchronizer C D M F} (call : Call C) : P s → P (s.apply call)
  track {s : Synchronizer C D M F} {t : Tracking} (x : Sample) :
    P s → s.mode = .tracking t → P (s.track t x)
  missed {s : Synchronizer C D M F} {x : Sample} {detector : D} :
    P s → s.mode = .searching → DetectorStage.execute s.detector x = (detector, none) →
    P { s with detector }
  found {s : Synchronizer C D M F} {x : Sample} {detector : D} {window : Array Sample} :
    P s → s.mode = .searching → DetectorStage.execute s.detector x = (detector, some window) →
    P { s with detector }.handOff
  withReplay {s : Synchronizer C D M F} (replay : Array Sample) : P s → P (s.withReplay replay)

variable {P : Synchronizer C D M F → Prop}

theorem Kept.leads (kept : Kept P) {w₀ w : Work C D M F} {n₀ number : Nat} {log : List (Event C)}
    (run : Leads w₀ n₀ log w number) (start : P w₀.sync) : P w.sync := by
  induction run with
  | start => exact start
  | call _ call ih => exact kept.apply call ih
  | @sample log s x rest number _ ih =>
    obtain ⟨t, mode, next⟩ | ⟨detector, mode, step, next⟩ | ⟨detector, window, mode, step, next⟩ :=
      Work.advance_cases s x rest <;> rw [next]
    · exact kept.track x ih mode
    · exact kept.missed ih mode step
    · exact kept.found ih mode step

theorem Kept.executeWithin (kept : Kept P) {depth : Nat} {s s' : Synchronizer C D M F}
    {xs : List Sample} (run : executeWithin depth s xs = some s') (start : P s) : P s' := by
  fun_induction Synchronizer.executeWithin depth s xs generalizing s' with
  | case1 depth s =>
    cases run
    exact start
  | case2 depth s x xs t mode ih => exact ih run (kept.track x start mode)
  | case3 depth s x xs mode detector step ih => exact ih run (kept.missed start mode step)
  | case4 => cases run
  | case5 s x xs mode detector window step depth s₀ ih₁ =>
    rename_i ih₂
    obtain ⟨s₁, run₁, run₂⟩ := Option.bind_eq_some_iff.mp run
    have opened := kept.found start mode step
    have replayed := ih₁ run₁ (kept.withReplay #[] (kept.withReplay window opened))
    exact ih₂ s₁ run₂ (kept.withReplay window replayed)

theorem Kept.performs (kept : Kept P) {s s' : Synchronizer C D M F} {calls : List (Call C)}
    (done : s.Performs calls s') (start : P s) : P s' := by
  induction calls generalizing s with
  | nil =>
    cases done
    exact start
  | cons call calls ih =>
    obtain ⟨s₁, ⟨depth, block⟩, done⟩ := done
    exact ih done (kept.executeWithin block (kept.apply call start))

end Synchronizer

def pairTemplate : Template := ⟨[Sample.real 1], [Sample.real 1], 2, 0, 1⟩

/-- A receiver for two equal samples. Its consumer ends every frame with the first window. -/
def pairReceiver : Except Fault (Receiver (List Window)) :=
  Synchronizer.ofStages 2 { shape := .rectangular, m := 1, branches := 1, bufferLength := 2 }
    (.ofTemplate pairTemplate) default ⟨#[#[1]], 1, #[0], 0, 1⟩
    (some fun w windows => (windows ++ [w], .reset)) []

end FrameSync
