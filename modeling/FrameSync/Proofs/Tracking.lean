import FrameSync.Synchronizer.Basic

/-!
What one sample of a frame does. The symbol due at it, the window that this symbol completes and
the consumer's answer are named here; `track_eq` puts a step together from them, and
`setBufferLength_eq` a change of the window length.
-/

namespace FrameSync.Synchronizer

variable {C D M F : Type}

def answer (s : Synchronizer C D M F) (w : Window) : C × Action :=
  match s.consumer with
  | none => (s.context, .proceed)
  | some consumer => consumer w s.context

theorem consume_eq (s : Synchronizer C D M F) (w : Window) :
    s.consume w = ({ s with context := (s.answer w).1 }, (s.answer w).2) := by
  obtain ⟨config, sequenceLength, detector, mixer, bank, mode, buffer, replay, consumer, context⟩ := s
  cases consumer <;> rfl

def contextAfter (s : Synchronizer C D M F) (windows : List Window) : C :=
  windows.foldl (fun context w => (answer { s with context } w).1) s.context

theorem setBufferLength_eq (s : Synchronizer C D M F) (length : Nat) :
    s.setBufferLength length = (s.buffer.resize length).map fun resized =>
      { s with buffer := resized.1, context := s.contextAfter resized.2 } := by
  have fold (s : Synchronizer C D M F) (windows : List Window) :
      windows.foldl (fun s w => (s.consume w).1) s =
        { s with context := s.contextAfter windows } := by
    induction windows generalizing s with
    | nil => rfl
    | cons w windows ih =>
      rw [List.foldl_cons, ih, consume_eq]
      rfl
  unfold setBufferLength
  cases s.buffer.resize length with
  | error fault => rfl
  | ok resized => exact congrArg Except.ok (fold { s with buffer := resized.1 } resized.2)

section

variable [DetectorStage D] [BankStage F]

def offer (s : Synchronizer C D M F) : Option Window → Synchronizer C D M F
  | none => s
  | some w =>
    match (s.answer w).2 with
    | .proceed => { s with context := (s.answer w).1 }
    | .reset => reset { s with context := (s.answer w).1 }

theorem deliver_eq (s : Synchronizer C D M F) (y : Sample) :
    s.deliver y = offer { s with buffer := (s.buffer.push y).1 } (s.buffer.push y).2 := by
  unfold deliver offer
  obtain ⟨buffer, _ | w⟩ := s.buffer.push y
  · rfl
  · simp only [consume_eq]
    cases (answer { s with buffer } w).2 <;> rfl

end

section

variable [MixerStage M] [BankStage F]

def dueSymbol? (s : Synchronizer C D M F) (t : Tracking) (x : Sample) : Option Sample :=
  if (t.tick (signed32 s.config.k)).2 then
    some (BankStage.output (BankStage.push s.bank (MixerStage.mixDown s.mixer x))
      (t.tick (signed32 s.config.k)).1.branch)
  else none

def keptSymbol? (s : Synchronizer C D M F) (t : Tracking) (x : Sample) : Option Sample :=
  if rampUp s.config < (t.tick (signed32 s.config.k)).1.symbols then s.dueSymbol? t x else none

def windowAt (s : Synchronizer C D M F) (t : Tracking) (x : Sample) : Option Window :=
  (s.keptSymbol? t x).bind fun y => (s.buffer.push y).2

def bufferAt (s : Synchronizer C D M F) (t : Tracking) (x : Sample) : SymbolBuffer :=
  (s.keptSymbol? t x).elim s.buffer fun y => (s.buffer.push y).1

def stepped (s : Synchronizer C D M F) (t : Tracking) (x : Sample) : Synchronizer C D M F :=
  { s with
    mixer := MixerStage.step s.mixer
    bank := BankStage.push s.bank (MixerStage.mixDown s.mixer x)
    mode := .tracking (t.tick (signed32 s.config.k)).1
    buffer := s.bufferAt t x }

variable [DetectorStage D]

theorem handOff_eq (s : Synchronizer C D M F) :
    ∃ mixer bank t, t.symbols = 0 ∧ s.handOff = { s with mixer, bank, mode := .tracking t } := by
  simp only [handOff]
  exact ⟨_, _, _, rfl, rfl⟩

theorem track_eq (s : Synchronizer C D M F) (t : Tracking) (x : Sample) :
    s.track t x = (s.stepped t x).offer (s.windowAt t x) := by
  unfold track stepped windowAt bufferAt keptSymbol? dueSymbol?
  by_cases kept : rampUp s.config < (t.tick (signed32 s.config.k)).1.symbols
  · cases due : (t.tick (signed32 s.config.k)).2 with
    | false => simp [offer, due]
    | true => simp [deliver_eq, due, kept]
  · simp [offer, kept]

theorem track_cases (s : Synchronizer C D M F) (t : Tracking) (x : Sample) :
    (∃ context, s.track t x = { s.stepped t x with context }) ∨
    (∃ w context, s.windowAt t x = some w ∧ s.track t x = reset { s.stepped t x with context }) := by
  rw [track_eq]
  cases s.windowAt t x with
  | none => exact .inl ⟨_, rfl⟩
  | some w =>
    cases asked : ((s.stepped t x).answer w).2 with
    | proceed => exact .inl ⟨((s.stepped t x).answer w).1, by simp only [offer, asked]⟩
    | reset => exact .inr ⟨w, ((s.stepped t x).answer w).1, rfl, by simp only [offer, asked]⟩

end

end FrameSync.Synchronizer
