import FrameSync.Proofs.Run
import FrameSync.Proofs.SymbolBuffer

/-!
The symbols of a frame. At every point of it, the windows handed out since it opened and the
symbols still in the buffer are the filter's outputs since then, without those of the ramp. The
length of the windows may change meanwhile, and the consumer may end the frame.
-/

namespace FrameSync

theorem Synchronizer.rampUp_eq {config : Config} (small : config.m < 0x80000000) :
    rampUp config = 2 * config.m := by
  rw [rampUp, Nat.mod_eq_of_lt (by omega)]

theorem Tracking.tick_cases (t : Tracking) (k : Int) :
    ((t.tick k).2 = false ∧ (t.tick k).1.symbols = t.symbols) ∨
    ((t.tick k).2 = true ∧ (t.tick k).1.symbols = min (t.symbols + 1) maxSymbols) := by
  unfold tick
  dsimp only
  split
  · exact .inl ⟨rfl, rfl⟩
  · exact .inr ⟨rfl, rfl⟩

namespace Synchronizer

variable {C D M F : Type}

/-- What holds of a synchronizer between any two samples: it keeps its configuration, there is room
for a symbol, and no symbols wait while it searches. -/
structure Ready (config : Config) (s : Synchronizer C D M F) : Prop where
  same : s.config = config
  room : s.buffer.HasRoom
  idle : s.mode = .searching → s.buffer.count = 0

section

variable [DetectorStage D] [BankStage F] {config : Config} {s : Synchronizer C D M F}

theorem Ready.reset (ready : s.Ready config) : s.reset.Ready config :=
  ⟨ready.same, SymbolBuffer.hasRoom_clear ready.room, fun _ => rfl⟩

theorem ready_of_ofStages {sequenceLength : Nat} {detector : D} {mixer : M} {bank : F}
    {consumer : Option (Consumer C)} {context : C}
    (made : ofStages sequenceLength config detector mixer bank consumer context = .ok s) :
    s.Ready config := by
  obtain ⟨buffer, stored, rfl⟩ := ofStages_eq_ok made
  obtain ⟨room, -, empty⟩ := SymbolBuffer.ofLength_eq_ok stored
  exact Ready.reset ⟨rfl, room, fun _ => empty⟩

omit [DetectorStage D] [BankStage F] in
theorem Ready.resize {length : Nat} {buffer : SymbolBuffer} {windows : List Window}
    (ready : s.Ready config) (done : s.buffer.resize length = .ok (buffer, windows)) (context : C) :
    Ready config { s with buffer, context } := by
  obtain ⟨room, -, -, symbols⟩ := SymbolBuffer.resize_eq_ok ready.room done
  refine ⟨ready.same, room, fun mode => ?_⟩
  rw [SymbolBuffer.pending_eq_empty (ready.idle mode)] at symbols
  have none := (List.append_eq_nil_iff.mp symbols).2
  rw [← SymbolBuffer.size_pending room, ← Array.length_toList, none]
  rfl

theorem Ready.apply (ready : s.Ready config) (call : Call C) : (s.apply call).Ready config := by
  obtain ⟨-, next⟩ | ⟨detector, buffer, consumer, context, next, -, stored⟩ :=
    s.apply_cases call <;> rw [next]
  · exact ready.reset
  · obtain rfl | ⟨length, windows, done⟩ := stored
    · exact ⟨ready.same, ready.room, ready.idle⟩
    · have resized := ready.resize done context
      exact ⟨resized.same, resized.room, resized.idle⟩

end

/-- The buffer holds what is left of a frame's symbols. Given are all outputs of the filter since
it opened, and the windows handed out. -/
structure Carries (s : Synchronizer C D M F) (t : Tracking) (outputs : List Sample)
    (windows : List Window) : Prop where
  counted : t.symbols = min outputs.length maxSymbols
  kept : symbolsOf windows ++ s.buffered.toList = outputs.drop (2 * s.config.m)

theorem Carries.resize {s : Synchronizer C D M F} {t : Tracking} {outputs : List Sample}
    {windows more : List Window} {length : Nat} {buffer : SymbolBuffer}
    (carries : s.Carries t outputs windows) (room : s.buffer.HasRoom)
    (done : s.buffer.resize length = .ok (buffer, more)) (context : C) :
    Carries { s with buffer, context } t outputs (windows ++ more) := by
  have same := (SymbolBuffer.resize_eq_ok room done).2.2.2
  refine ⟨carries.counted, ?_⟩
  rw [symbolsOf, List.flatMap_append, List.append_assoc]
  exact (congrArg (symbolsOf windows ++ ·) same).trans carries.kept

variable [MixerStage M] [BankStage F]

theorem size_windowAt {s : Synchronizer C D M F} (room : s.buffer.HasRoom) {t : Tracking}
    {x : Sample} {w : Window} (handed : s.windowAt t x = some w) : w.size = s.bufferLength := by
  obtain ⟨y, -, full⟩ := Option.bind_eq_some_iff.mp handed
  exact (SymbolBuffer.push_eq_some room full).2.1

theorem hasRoom_bufferAt {s : Synchronizer C D M F} (room : s.buffer.HasRoom) (t : Tracking)
    (x : Sample) : (s.bufferAt t x).HasRoom := by
  unfold bufferAt
  cases s.keptSymbol? t x with
  | none => exact room
  | some y => exact SymbolBuffer.hasRoom_push room y

theorem length_bufferAt {s : Synchronizer C D M F} (room : s.buffer.HasRoom) (t : Tracking)
    (x : Sample) : (s.bufferAt t x).length = s.bufferLength := by
  unfold bufferAt
  cases s.keptSymbol? t x with
  | none => rfl
  | some y => exact SymbolBuffer.length_push room y

theorem count_bufferAt {s : Synchronizer C D M F} (room : s.buffer.HasRoom) {t : Tracking}
    {x : Sample} {w : Window} (handed : s.windowAt t x = some w) : (s.bufferAt t x).count = 0 := by
  obtain ⟨y, kept, full⟩ := Option.bind_eq_some_iff.mp handed
  rw [bufferAt, kept]
  exact (SymbolBuffer.push_eq_some room full).2.2

theorem symbolsOf_windowAt {s : Synchronizer C D M F} (room : s.buffer.HasRoom) (t : Tracking)
    (x : Sample) :
    symbolsOf (s.windowAt t x).toList ++ (s.bufferAt t x).pending.toList =
      s.buffered.toList ++ (s.keptSymbol? t x).toList := by
  unfold windowAt bufferAt
  cases s.keptSymbol? t x with
  | none => exact (List.append_nil _).symm
  | some y => exact SymbolBuffer.symbolsOf_push room y

/-- The ramp is over when the outputs so far are as many as it has, however far the count went. -/
theorem keptSymbol?_toList {s : Synchronizer C D M F} (small : s.config.m < 0x80000000) {t : Tracking}
    {outputs : List Sample} (counted : t.symbols = min outputs.length maxSymbols) (x : Sample) :
    outputs.drop (2 * s.config.m) ++ (s.keptSymbol? t x).toList =
      (outputs ++ (s.dueSymbol? t x).toList).drop (2 * s.config.m) := by
  rw [keptSymbol?, rampUp_eq small, List.drop_append]
  cases t.tick_cases (signed32 s.config.k) with
  | inl pause =>
    have none : s.dueSymbol? t x = none := by rw [dueSymbol?, pause.1]; rfl
    rw [none, ite_self]
    simp
  | inr due =>
    rw [due.2, counted]
    split
    · next past =>
      rw [Nat.sub_eq_zero_of_le (by omega), List.drop_zero]
    · next ramp =>
      have short : outputs.length < 2 * s.config.m := by
        unfold maxSymbols at ramp
        omega
      have dropped : (s.dueSymbol? t x).toList.drop (2 * s.config.m - outputs.length) = [] := by
        apply List.drop_eq_nil_of_le
        cases s.dueSymbol? t x with
        | none => exact Nat.zero_le _
        | some y =>
          simp only [Option.toList_some, List.length_singleton]
          omega
      rw [dropped]
      rfl

theorem Carries.stepped {s : Synchronizer C D M F} {t : Tracking} {outputs : List Sample}
    {windows : List Window} (carries : s.Carries t outputs windows) (room : s.buffer.HasRoom)
    (small : s.config.m < 0x80000000) (x : Sample) :
    (s.stepped t x).Carries (t.tick (signed32 s.config.k)).1
      (outputs ++ (s.dueSymbol? t x).toList) (windows ++ (s.windowAt t x).toList) := by
  constructor
  · rw [dueSymbol?, List.length_append]
    cases t.tick_cases (signed32 s.config.k) with
    | inl pause =>
      rw [pause.2, pause.1, carries.counted]
      simp
    | inr due =>
      rw [due.2, due.1, carries.counted]
      simp
      omega
  · rw [symbolsOf, List.flatMap_append, List.append_assoc]
    refine (congrArg (symbolsOf windows ++ ·) (symbolsOf_windowAt room t x)).trans ?_
    rw [← List.append_assoc, carries.kept]
    exact keptSymbol?_toList small carries.counted x

variable [DetectorStage D]

omit [DetectorStage D] in
theorem Ready.stepped {config : Config} {s : Synchronizer C D M F} (ready : s.Ready config)
    (t : Tracking) (x : Sample) (context : C) : Ready config { s.stepped t x with context } :=
  ⟨ready.same, hasRoom_bufferAt ready.room t x, fun mode => nomatch mode⟩

theorem Ready.track {config : Config} {s : Synchronizer C D M F} (ready : s.Ready config)
    (t : Tracking) (x : Sample) : (s.track t x).Ready config := by
  cases s.track_cases t x with
  | inl goesOn =>
    obtain ⟨context, next⟩ := goesOn
    rw [next]
    exact ready.stepped t x context
  | inr ended =>
    obtain ⟨w, context, -, next⟩ := ended
    rw [next]
    exact (ready.stepped t x context).reset

theorem Ready.handOff {config : Config} {s : Synchronizer C D M F} (ready : s.Ready config) :
    s.handOff.Ready config := by
  obtain ⟨mixer, bank, t, -, next⟩ := s.handOff_eq
  rw [next]
  exact ⟨ready.same, ready.room, fun mode => nomatch mode⟩

theorem kept_ready {config : Config} : Kept (C := C) (D := D) (M := M) (F := F) (Ready config) where
  apply call ready := ready.apply call
  track x ready _ := ready.track _ x
  missed ready _ _ := ⟨ready.same, ready.room, ready.idle⟩
  found ready _ _ := Ready.handOff ⟨ready.same, ready.room, ready.idle⟩
  withReplay _ ready := ⟨ready.same, ready.room, ready.idle⟩

omit [DetectorStage D] [MixerStage M] [BankStage F] in
theorem Ready.resized {config : Config} {s s' : Synchronizer C D M F} {length : Nat}
    (ready : s.Ready config) (done : s.setBufferLength length = .ok s') :
    s'.bufferLength = length ∧ s'.mode = s.mode ∧
      (∀ w ∈ s.windowsOf (.setBufferLength length), w.size = length) ∧
      s'.context = s.contextAfter (s.windowsOf (.setBufferLength length)) := by
  rw [setBufferLength_eq] at done
  cases cut : s.buffer.resize length with
  | error fault => simp [cut, Except.map] at done
  | ok pair =>
    have sizes := SymbolBuffer.resize_eq_ok ready.room cut
    simp only [cut, Except.map] at done
    cases done
    rw [windowsOf, cut]
    exact ⟨sizes.2.1, rfl, sizes.2.2.1, rfl⟩

omit [MixerStage M] in
theorem refused {s : Synchronizer C D M F} {length : Nat} {fault : Fault}
    (done : s.setBufferLength length = .error fault) :
    s.apply (.setBufferLength length) = s ∧ s.windowsOf (.setBufferLength length) = [] := by
  rw [setBufferLength_eq] at done
  cases cut : s.buffer.resize length with
  | ok pair => simp [cut, Except.map] at done
  | error fault =>
    rw [windowsOf, cut]
    exact ⟨apply_setBufferLength_of_error cut, rfl⟩

theorem context_track (s : Synchronizer C D M F) (t : Tracking) (x : Sample) :
    (s.track t x).context = s.contextAfter (s.windowAt t x).toList := by
  rw [track_eq]
  cases s.windowAt t x with
  | none => rfl
  | some w =>
    change _ = ((s.stepped t x).answer w).1
    simp only [offer]
    cases ((s.stepped t x).answer w).2 <;> rfl

theorem Ready.sampled {config : Config} {s : Synchronizer C D M F} {x : Sample} {rest : List Sample}
    (ready : s.Ready config) (i : Nat) :
    (∀ w ∈ (s.event i x).windows, w.size = s.bufferLength) ∧
      (Work.advance ⟨s, x :: rest⟩).sync.context = s.contextAfter (s.event i x).windows := by
  obtain ⟨t, -, event, next⟩ | ⟨detector, -, -, event, next⟩ | ⟨detector, window, -, -, event, next⟩ :=
    s.sample_cases i x rest <;> rw [event, next]
  · refine ⟨fun w member => ?_, s.context_track t x⟩
    exact size_windowAt ready.room (Option.mem_toList.mp member)
  · exact ⟨fun w member => absurd member List.not_mem_nil, rfl⟩
  · refine ⟨fun w member => absurd member List.not_mem_nil, ?_⟩
    obtain ⟨mixer, bank, t, -, opened⟩ := handOff_eq { s with detector }
    dsimp only
    rw [opened]
    rfl

theorem carries_handOff {s : Synchronizer C D M F} (idle : s.buffer.count = 0) :
    ∃ t, s.handOff.mode = .tracking t ∧ s.handOff.Carries t [] [] := by
  obtain ⟨mixer, bank, t, start, next⟩ := s.handOff_eq
  rw [next]
  refine ⟨t, rfl, start, ?_⟩
  rw [List.drop_nil]
  exact congrArg Array.toList (SymbolBuffer.pending_eq_empty idle)

theorem Carries.track {s : Synchronizer C D M F} {t : Tracking} {outputs : List Sample}
    {windows : List Window} (carries : s.Carries t outputs windows) (room : s.buffer.HasRoom)
    (small : s.config.m < 0x80000000) {x : Sample} (goesOn : (s.track t x).isOpen) :
    ∃ t', (s.track t x).mode = .tracking t' ∧
      (s.track t x).Carries t' (outputs ++ (s.dueSymbol? t x).toList)
        (windows ++ (s.windowAt t x).toList) := by
  have stepped := carries.stepped room small x
  cases s.track_cases t x with
  | inl next =>
    obtain ⟨context, next⟩ := next
    rw [next]
    exact ⟨_, rfl, stepped.counted, stepped.kept⟩
  | inr ended =>
    obtain ⟨w, context, -, next⟩ := ended
    rw [next] at goesOn
    cases goesOn

theorem Carries.ended {s : Synchronizer C D M F} {t : Tracking} {outputs : List Sample}
    {windows : List Window} (carries : s.Carries t outputs windows) (room : s.buffer.HasRoom)
    (small : s.config.m < 0x80000000) {x : Sample} (ended : (s.track t x).isOpen = false) :
    (s.track t x).buffered = #[] ∧
      symbolsOf (windows ++ (s.windowAt t x).toList) =
        (outputs ++ (s.dueSymbol? t x).toList).drop (2 * s.config.m) := by
  have stepped := (carries.stepped room small x).kept
  cases s.track_cases t x with
  | inl goesOn =>
    obtain ⟨context, next⟩ := goesOn
    rw [next] at ended
    cases ended
  | inr reset =>
    obtain ⟨w, context, handed, next⟩ := reset
    -- The consumer is asked only when a window is complete, and then the buffer starts over.
    have empty : (s.stepped t x).buffered = #[] :=
      SymbolBuffer.pending_eq_empty (count_bufferAt room handed)
    rw [empty, List.append_nil] at stepped
    rw [next]
    exact ⟨SymbolBuffer.pending_eq_empty rfl, stepped⟩

omit [MixerStage M] in
theorem Carries.apply {s : Synchronizer C D M F} {t : Tracking} {outputs : List Sample}
    {windows : List Window} {call : Call C} (mode : s.mode = .tracking t)
    (carries : s.Carries t outputs windows) (room : s.buffer.HasRoom) (kept : call ≠ .reset) :
    (s.apply call).mode = .tracking t ∧
      (s.apply call).Carries t outputs (windows ++ s.windowsOf call) := by
  cases call with
  | reset => exact absurd rfl kept
  | setBufferLength length =>
    cases done : s.buffer.resize length with
    | ok resized =>
      rw [apply_setBufferLength_of_ok done, windowsOf, done]
      exact ⟨mode, carries.resize room done _⟩
    | error fault =>
      rw [apply_setBufferLength_of_error done, windowsOf, done, List.append_nil]
      exact ⟨mode, carries⟩
  | setThreshold threshold =>
    rw [apply_setThreshold, windowsOf, List.append_nil]
    · exact ⟨mode, carries.counted, carries.kept⟩
    · simp
  | setRange range =>
    rw [apply_setRange, windowsOf, List.append_nil]
    · exact ⟨mode, carries.counted, carries.kept⟩
    · simp
  | _ =>
    rw [windowsOf, List.append_nil]
    · exact ⟨mode, carries.counted, carries.kept⟩
    · simp

end Synchronizer

namespace Leads

variable {C D M F : Type} [DetectorStage D] [MixerStage M] [BankStage F]
variable {config : Config} {w₀ w : Work C D M F} {n₀ number : Nat} {log : List (Event C)}

theorem ready (ready : w₀.sync.Ready config) (run : Leads w₀ n₀ log w number) :
    w.sync.Ready config :=
  Synchronizer.kept_ready.leads run ready

theorem carries (ready : w₀.sync.Ready config) (small : config.m < 0x80000000) {t₀ : Tracking}
    {outputs : List Sample} {windows : List Window} (mode : w₀.sync.mode = .tracking t₀)
    (carries : w₀.sync.Carries t₀ outputs windows) (run : Leads w₀ n₀ log w number)
    (goesOn : ∀ e ∈ log, e.ends = false) :
    ∃ t, w.sync.mode = .tracking t ∧
      w.sync.Carries t (outputs ++ symbolsIn log) (windows ++ windowsIn log) := by
  induction run with
  | start =>
    refine ⟨t₀, mode, ?_⟩
    rwa [symbolsIn, windowsIn, List.flatMap_nil, List.flatMap_nil, List.append_nil, List.append_nil]
  | @call log s number before call ih =>
    rw [List.forall_mem_append, List.forall_mem_singleton] at goesOn
    obtain ⟨t, mode, carries⟩ := ih goesOn.1
    have kept : call ≠ .reset := by
      rintro rfl
      cases goesOn.2
    rw [symbolsIn_append, windowsIn_append, symbolsIn_singleton, windowsIn_singleton,
      ← List.append_assoc, ← List.append_assoc, Event.symbols, List.append_nil]
    · exact ⟨t, carries.apply mode (before.ready ready).room kept⟩
    · simp
  | @sample log s x rest number before ih =>
    rw [List.forall_mem_append, List.forall_mem_singleton] at goesOn
    obtain ⟨t, mode, carries⟩ := ih goesOn.1
    have here := before.ready ready
    have last := goesOn.2
    rw [symbolsIn_append, windowsIn_append, symbolsIn_singleton, windowsIn_singleton,
      ← List.append_assoc, ← List.append_assoc]
    rw [s.event_tracking mode] at last ⊢
    rw [Work.advance_tracking mode]
    have isOpen : (s.track t x).isOpen = true := (Bool.not_eq_false' _).mp last
    exact carries.track here.room (here.same ▸ small) isOpen

theorem carries_found (ready : w₀.sync.Ready config) (small : config.m < 0x80000000)
    {before frame : List (Event C)} {i : Nat} {x : Sample} {window : Window}
    (run : Leads w₀ n₀ (before ++ .found i x window :: frame) w number)
    (goesOn : ∀ e ∈ frame, e.ends = false) :
    ∃ t, w.sync.mode = .tracking t ∧ w.sync.Carries t (symbolsIn frame) (windowsIn frame) := by
  obtain ⟨w₁, n₁, w₂, n₂, before, found, frame⟩ := run.exists_split_cons
  have here := before.ready ready
  have opened := found.ready here
  obtain ⟨s, rest, detector, rfl, -, mode, -, rfl, -⟩ := found.exists_of_found
  obtain ⟨t, mode', carries⟩ :=
    Synchronizer.carries_handOff (s := { s with detector }) (here.idle mode)
  exact frame.carries opened small mode' carries goesOn

theorem ended (ready : w₀.sync.Ready config) (small : config.m < 0x80000000)
    {before frame : List (Event C)} {i j : Nat} {x y : Sample} {window : Window} {yield : Yield}
    (run : Leads w₀ n₀ (before ++ .found i x window :: (frame ++ [.tracked j y yield])) w number)
    (goesOn : ∀ e ∈ frame, e.ends = false) (closed : yield.closed = true) :
    w.sync.isOpen = false ∧ w.sync.buffered = #[] ∧
      symbolsOf (windowsIn (frame ++ [.tracked j y yield])) =
        (symbolsIn (frame ++ [.tracked j y yield])).drop (2 * config.m) := by
  rw [← List.cons_append, ← List.append_assoc] at run
  obtain ⟨w₁, n₁, before, last⟩ := run.exists_split
  have here := before.ready ready
  obtain ⟨t, mode, carries⟩ := before.carries_found ready small goesOn
  obtain ⟨s, rest, t', rfl, -, mode', rfl, rfl, -⟩ := last.exists_of_tracked
  cases mode.symm.trans mode'
  have shut : (s.track t y).isOpen = false := (Bool.not_eq_true' _).mp closed
  rw [symbolsIn_append, windowsIn_append, symbolsIn_singleton, windowsIn_singleton]
  rw [← here.same] at small ⊢
  exact ⟨shut, carries.ended here.room small shut⟩

end Leads

section

variable {C D M F : Type} [DetectorStage D] [MixerStage M] [BankStage F]

/-- What becomes of the filter's outputs, at every point of every run from `s₀` on, when the ramp
is `m` symbols long on either side. -/
structure ConservesSymbols (m : Nat) (s₀ : Synchronizer C D M F) : Prop where
  /-- As long as a frame goes on, all outputs after the ramp have been handed out or are waiting. -/
  conserved {before frame : List (Event C)} {number i : Nat} {x : Sample} {window : Window}
    {w : Work C D M F} :
    Run s₀ (before ++ .found number x window :: frame) w i → (∀ e ∈ frame, e.ends = false) →
    w.sync.isOpen = true ∧
      symbolsOf (windowsIn frame) ++ w.sync.buffered.toList = (symbolsIn frame).drop (2 * m)
  /-- A consumer that ends the frame has got them all, with the window it answered to. -/
  ended {before frame : List (Event C)} {number i j : Nat} {x y : Sample} {window : Window}
    {yield : Yield} {w : Work C D M F} :
    Run s₀ (before ++ .found number x window :: (frame ++ [.tracked j y yield])) w i →
    (∀ e ∈ frame, e.ends = false) → yield.closed = true →
    w.sync.isOpen = false ∧ w.sync.buffered = #[] ∧
      symbolsOf (windowsIn (frame ++ [.tracked j y yield])) =
        (symbolsIn (frame ++ [.tracked j y yield])).drop (2 * m)
  /-- A sample hands out windows of the present length to the consumer. -/
  sampled {log : List (Event C)} {s : Synchronizer C D M F} {x : Sample} {rest : List Sample}
    {i : Nat} :
    Run s₀ log ⟨s, x :: rest⟩ i →
    (∀ w ∈ (s.event i x).windows, w.size = s.bufferLength) ∧
      (Work.advance ⟨s, x :: rest⟩).sync.context = s.contextAfter (s.event i x).windows
  /-- A change of the length hands out windows of the new length, and the frame goes on. -/
  resized {log : List (Event C)} {s s' : Synchronizer C D M F} {i length : Nat} :
    Run s₀ log ⟨s, []⟩ i → s.setBufferLength length = .ok s' →
    s'.bufferLength = length ∧ s'.mode = s.mode ∧
      (∀ w ∈ s.windowsOf (.setBufferLength length), w.size = length) ∧
      s'.context = s.contextAfter (s.windowsOf (.setBufferLength length))
  refused {s : Synchronizer C D M F} {length : Nat} {fault : Fault} :
    s.setBufferLength length = .error fault →
    s.apply (.setBufferLength length) = s ∧ s.windowsOf (.setBufferLength length) = []
  performed {calls : List (Call C)} {s' : Synchronizer C D M F} :
    s₀.Performs calls s' →
    ∃ log i, callsIn log = calls ∧ Run s₀ log ⟨s'.withReplay s₀.replay, []⟩ i

theorem conservesSymbols {sequenceLength : Nat} {config : Config} {detector : D} {mixer : M} {bank : F}
    {consumer : Option (Consumer C)} {context : C} {s₀ : Synchronizer C D M F}
    (made : Synchronizer.ofStages sequenceLength config detector mixer bank consumer context = .ok s₀)
    (small : config.m < 0x80000000) : ConservesSymbols config.m s₀ where
  conserved run goesOn := by
    have ready := Synchronizer.ready_of_ofStages made
    obtain ⟨t, mode, carries⟩ := run.carries_found ready small goesOn
    rw [← (run.ready ready).same]
    exact ⟨Synchronizer.isOpen_of_tracking mode, carries.kept⟩
  ended run goesOn closed := run.ended (Synchronizer.ready_of_ofStages made) small goesOn closed
  sampled run := (run.ready (Synchronizer.ready_of_ofStages made)).sampled _
  resized run done := (run.ready (Synchronizer.ready_of_ofStages made)).resized done
  refused done := Synchronizer.refused done
  performed done := exists_run_of_performs done

end

/-- The frame found in equal samples ends with its first window, and three samples are left for the
next search. -/
theorem conservesSymbols_pairReceiver :
    ∃ s₀, pairReceiver = .ok s₀ ∧ ConservesSymbols 1 s₀ ∧
      let w := Work.advance^[10] ⟨s₀, List.replicate 10 (Sample.real 1)⟩
      w.sync.context = [#[Sample.real 0.5, Sample.real 0.5]] ∧ w.sync.isOpen = false ∧
        w.pending = List.replicate 3 (Sample.real 1) := by
  have made : pairReceiver = .ok _ := rfl
  exact ⟨_, made, conservesSymbols made (by decide), by decide +kernel⟩

end FrameSync
