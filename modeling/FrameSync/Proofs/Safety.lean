import FrameSync.Proofs.Checked
import FrameSync.Proofs.Nesting

/-!
No run of a receiver stops at a check, whatever is called with whatever arguments, and whatever the
consumer asks for. The receiver is run a second time with a check before every access and after
every sum of machine words; both runs end in the same state.
-/

namespace FrameSync

open Checked

theorem signed32_eq {n : Nat} (small : n < 0x80000000) : signed32 n = n := by
  unfold signed32
  dsimp only
  rw [Nat.mod_eq_of_lt (by omega), if_pos small]

theorem saturate32_bounds (s : Float.Model.UnpackedFloat.Sign) (size : Nat) :
    -0x80000000 ≤ saturate32 s size ∧ saturate32 s size < 0x80000000 := by
  cases s <;> simp only [saturate32] <;> omega

theorem nearestInt32_bounds (x : Float32) :
    -0x80000000 ≤ nearestInt32 x ∧ nearestInt32 x < 0x80000000 := by
  unfold nearestInt32
  split
  · omega
  · omega
  · exact saturate32_bounds _ _
  · exact saturate32_bounds _ _

structure Config.Fits (config : Config) : Prop where
  k : 2 ≤ config.k ∧ config.k < 0x80000000
  m : config.m < 0x80000000
  branches : 0 < config.branches ∧ config.branches < 0x80000000

namespace Tracking

def Timed (k : Int) (t : Tracking) : Prop := -1 ≤ t.timer ∧ t.timer ≤ k - 1

theorem Timed.tick {k : Int} {t : Tracking} (timed : t.Timed k) (positive : 0 < k) :
    (t.tick k).1.Timed k := by
  unfold Timed at *
  unfold Tracking.tick
  dsimp only
  split
  · dsimp only
    omega
  · dsimp only
    omega

theorem branch_tick (t : Tracking) (k : Int) : (t.tick k).1.branch = t.branch := by
  unfold tick
  dsimp only
  split <;> rfl

def checkedTick (t : Tracking) (k : Int) : Checked (Tracking × Bool) := do
  let timer ← int32 (t.timer + 1)
  let last ← int32 (k - 1)
  if timer < last then return ({ t with timer }, false)
  else
    let timer ← int32 (timer - k)
    return ({ t with timer, symbols := min (t.symbols + 1) maxSymbols }, true)

theorem checkedTick_eq {k : Int} {t : Tracking} (timed : t.Timed k) (positive : 0 < k)
    (small : k < 0x80000000) : t.checkedTick k = .ok (t.tick k) := by
  unfold Timed at timed
  rw [checkedTick, int32_eq (by omega) (by omega), ok_bind, int32_eq (by omega) (by omega), ok_bind,
    tick]
  split
  · rfl
  · rw [int32_eq (by omega) (by omega)]
    rfl

end Tracking

namespace Synchronizer

section

variable {config : Config}

theorem alignment_timer (offset : Float32) :
    (alignment config offset).1 = signed32 config.k - 1 ∨
      (alignment config offset).1 = signed32 config.k - 2 := by
  unfold alignment
  dsimp only
  split
  · exact .inl rfl
  · exact .inr rfl

def checkedAlignment (c : Config) (offset : Float32) : Checked (Int × Nat) := do
  let offset ← clamped offset (-0.5) 0.5
  let n := signed32 c.branches
  let timer ← int32 (signed32 c.k - 2)
  let r := nearestInt32 (offset * ofInteger n)
  let (timer, branch) ←
    if r < 0 then do
      let timer ← int32 (timer + 1)
      let branch ← int32 (r + n)
      pure (timer, branch)
    else pure (timer, r)
  let last ← int32 (n - 1)
  return (timer, unsigned64 (min branch last))

theorem checkedAlignment_eq (fits : config.Fits) (offset : Float32) :
    checkedAlignment config offset = .ok (alignment config offset) := by
  have half : (-0.5 : Float32) ≤ 0.5 := by decide +kernel
  have k := signed32_eq fits.k.2
  have n := signed32_eq fits.branches.2
  have bounds :=
    nearestInt32_bounds (clamp offset (-0.5) 0.5 * ofInteger (signed32 config.branches))
  have many := fits.k
  have some := fits.branches
  rw [checkedAlignment, clamped_eq half, ok_bind, int32_eq (by omega) (by omega), ok_bind,
    alignment]
  generalize
    nearestInt32 (clamp offset (-0.5) 0.5 * ofInteger (signed32 config.branches)) = r at bounds
  dsimp only
  split
  · have next : signed32 config.k - 2 + 1 = signed32 config.k - 1 := by omega
    rw [int32_eq (by omega) (by omega), ok_bind, int32_eq (by omega) (by omega), ok_bind,
      pure_eq_ok, ok_bind, int32_eq (by omega) (by omega), next]
    rfl
  · rw [pure_eq_ok, ok_bind, int32_eq (by omega) (by omega)]
    rfl

end

variable {C : Type}

def checkedHandOff (s : Receiver C) : Checked (Receiver C) := do
  let e := s.detector.estimate
  let (timer, branch) ← checkedAlignment s.config e.timing
  return { s with
    bank := s.bank.setScale (1 / (ofCount s.config.k * e.gain))
    mixer := (s.mixer.setFrequency e.frequency).setPhase e.phase
    mode := .tracking
      { timer, branch, symbols := 0, frequency := e.frequency, phase := e.phase } }

theorem checkedHandOff_eq {s : Receiver C} (fits : s.config.Fits) :
    s.checkedHandOff = .ok s.handOff := by
  rw [checkedHandOff, checkedAlignment_eq fits]
  rfl

def checkedDeliver (s : Receiver C) (y : Sample) : Checked (Receiver C) := do
  let (buffer, window) ← s.buffer.checkedPush y
  let s := { s with buffer }
  match window with
  | none => return s
  | some w =>
    match s.consume w with
    | (s, .proceed) => return s
    | (s, .reset) => return s.reset

theorem checkedDeliver_eq (s : Receiver C) (room : s.buffer.HasRoom) (y : Sample) :
    s.checkedDeliver y = .ok (s.deliver y) := by
  rw [checkedDeliver, SymbolBuffer.checkedPush_eq room, ok_bind, deliver]
  obtain ⟨buffer, _ | w⟩ := s.buffer.push y
  · rfl
  · dsimp only
    cases { s with buffer }.consume w with
    | mk s action => cases action <;> rfl

def checkedRampUp (c : Config) : Checked Nat := word32 (2 * (c.m % 0x100000000))

def checkedTrack (s : Receiver C) (t : Tracking) (x : Sample) : Checked (Receiver C) := do
  let bank ← s.bank.checkedPush (s.mixer.mixDown x)
  let y ← bank.checkedOutput t.branch
  let (t, due) ← t.checkedTick (signed32 s.config.k)
  let s := { s with mixer := s.mixer.step, bank, mode := .tracking t }
  if due then
    let ramp ← checkedRampUp s.config
    if ramp < t.symbols then s.checkedDeliver y else return s
  else return s

theorem checkedTrack_eq {s : Receiver C} (fits : s.config.Fits) (room : s.buffer.HasRoom)
    (regular : s.bank.Regular) {t : Tracking} (timed : t.Timed s.config.k) (x : Sample) :
    s.checkedTrack t x = .ok (s.track t x) := by
  have k := signed32_eq fits.k.2
  have many := fits.k
  have m := fits.m
  have pushed : (s.bank.push (s.mixer.mixDown x)).Regular :=
    FilterBank.Operated.regular regular (.push .made _)
  have ramp : checkedRampUp s.config = .ok (rampUp s.config) :=
    word32_eq (by omega)
  rw [← k] at timed
  rw [checkedTrack, FilterBank.checkedPush_eq regular, ok_bind, FilterBank.checkedOutput_eq pushed,
    ok_bind, Tracking.checkedTick_eq timed (by omega) (by omega), ok_bind, track]
  have branch := t.branch_tick (signed32 s.config.k)
  generalize t.tick (signed32 s.config.k) = ticked at branch
  obtain ⟨t', due⟩ := ticked
  dsimp only at branch ⊢
  rw [ramp, ok_bind, branch]
  cases due with
  | false => rfl
  | true =>
    rw [if_pos rfl, Bool.true_and]
    by_cases past : rampUp s.config < t'.symbols
    · rw [if_pos past, if_pos (decide_eq_true past)]
      refine (checkedDeliver_eq _ ?_ _).trans rfl
      exact room
    · rw [if_neg past, if_neg (by simpa using past)]
      rfl

def checkedExecuteWithin : Nat → Receiver C → List Sample → Checked (Option (Receiver C))
  | _, s, [] => return some s
  | depth, s, x :: xs =>
    match s.mode with
    | .tracking t => do
      let s ← s.checkedTrack t x
      checkedExecuteWithin depth s xs
    | .searching => do
      match ← s.detector.checkedExecute x with
      | (detector, none) => checkedExecuteWithin depth { s with detector } xs
      | (detector, some window) =>
        match depth with
        | 0 => return none
        | depth + 1 => do
          let s ← checkedHandOff { s with detector, replay := window }
          match ← checkedExecuteWithin depth { s with replay := #[] } s.replay.toList with
          | none => return none
          | some s' => checkedExecuteWithin (depth + 1) { s' with replay := s.replay } xs
termination_by depth _ xs => (depth, xs.length)

theorem checkedExecuteWithin_tracking {s : Receiver C} {t : Tracking} (mode : s.mode = .tracking t)
    (depth : Nat) (x : Sample) (xs : List Sample) :
    s.checkedExecuteWithin depth (x :: xs) =
      s.checkedTrack t x >>= fun s => s.checkedExecuteWithin depth xs := by
  rw [checkedExecuteWithin, mode]

theorem checkedExecuteWithin_missed {s : Receiver C} {x : Sample} {detector : Detector}
    (mode : s.mode = .searching) (step : s.detector.checkedExecute x = .ok (detector, none))
    (depth : Nat) (xs : List Sample) :
    s.checkedExecuteWithin depth (x :: xs) =
      checkedExecuteWithin depth { s with detector } xs := by
  rw [checkedExecuteWithin, mode, step]
  rfl

theorem checkedExecuteWithin_found_zero {s : Receiver C} {x : Sample} {detector : Detector}
    {window : Array Sample} (mode : s.mode = .searching)
    (step : s.detector.checkedExecute x = .ok (detector, some window)) (xs : List Sample) :
    s.checkedExecuteWithin 0 (x :: xs) = .ok none := by
  rw [checkedExecuteWithin, mode, step]
  rfl

theorem checkedExecuteWithin_found {s : Receiver C} {x : Sample} {detector : Detector}
    {window : Array Sample} (mode : s.mode = .searching)
    (step : s.detector.checkedExecute x = .ok (detector, some window)) (depth : Nat)
    (xs : List Sample) :
    s.checkedExecuteWithin (depth + 1) (x :: xs) = (do
      let s₀ ← checkedHandOff { s with detector, replay := window }
      match ← checkedExecuteWithin depth { s₀ with replay := #[] } s₀.replay.toList with
      | none => return none
      | some s' => checkedExecuteWithin (depth + 1) { s' with replay := s₀.replay } xs) := by
  rw [checkedExecuteWithin, mode, step]
  rfl

/-- What holds at every point of a run, and lets all checks pass. -/
structure Safe (config : Config) (t : Template) (b₀ : FilterBank) (s : Receiver C) : Prop where
  sound : s.Sound config t b₀
  timed : ∀ frame, s.mode = .tracking frame → frame.Timed config.k

variable {config : Config} {t : Template} {b₀ : FilterBank} {s : Receiver C}

theorem kept_safe (fits : config.Fits) : Kept (C := C) (Safe config t b₀) where
  apply {s} call safe := by
    refine ⟨safe.sound.apply call, ?_⟩
    obtain ⟨-, next⟩ | ⟨detector, buffer, consumer, context, next, -, -⟩ := s.apply_cases call
    · rw [next]
      exact fun frame mode => nomatch mode
    · rw [next]
      exact safe.timed
  track {s frame} x safe mode := by
    refine ⟨safe.sound.track frame x, ?_⟩
    have k := signed32_eq fits.k.2
    have many := fits.k
    have timed := safe.timed frame mode
    rw [← k] at timed ⊢
    have ticked := timed.tick (by omega)
    obtain ⟨context, next⟩ | ⟨w, context, -, next⟩ := s.track_cases frame x
    · rw [next]
      rintro frame' ⟨⟩
      rw [safe.sound.ready.same]
      exact ticked
    · rw [next]
      exact fun frame mode => nomatch mode
  missed safe mode step := ⟨kept_sound.missed safe.sound mode step, safe.timed⟩
  found {s x detector window} safe mode step := by
    refine ⟨kept_sound.found safe.sound mode step, ?_⟩
    have k := signed32_eq fits.k.2
    have many := fits.k
    have timer := @alignment_timer s.config detector.estimate.timing
    rw [safe.sound.ready.same, k] at timer
    rintro frame' ⟨⟩
    change -1 ≤ (alignment s.config detector.estimate.timing).1 ∧
      (alignment s.config detector.estimate.timing).1 ≤ (config.k : Int) - 1
    rw [safe.sound.ready.same]
    omega
  withReplay replay safe := ⟨kept_sound.withReplay replay safe.sound, safe.timed⟩

theorem Safe.checkedTrack_eq (safe : s.Safe config t b₀) (fits : config.Fits)
    (regular : b₀.Regular) {frame : Tracking} (mode : s.mode = .tracking frame) (x : Sample) :
    s.checkedTrack frame x = .ok (s.track frame x) := by
  have same := safe.sound.ready.same
  apply Synchronizer.checkedTrack_eq
  · rwa [same]
  · exact safe.sound.ready.room
  · exact safe.sound.operated.regular regular
  · rw [same]
    exact safe.timed frame mode

theorem Safe.checkedExecute_eq (safe : s.Safe config t b₀) (positive : 0 < t.length) (x : Sample) :
    s.detector.checkedExecute x = .ok (s.detector.execute x) := by
  obtain ⟨seen, searched⟩ := safe.sound.searched
  exact s.detector.checkedExecute_eq (searched.follows positive).doubled searched.tuned.range.1 x

theorem Safe.checkedExecuteWithin_eq (safe : s.Safe config t b₀) (fits : config.Fits)
    (regular : b₀.Regular) (positive : 0 < t.length) (depth : Nat) (xs : List Sample) :
    s.checkedExecuteWithin depth xs = .ok (executeWithin depth s xs) := by
  have kept : Kept (C := C) (Safe config t b₀) := kept_safe fits
  fun_induction executeWithin depth s xs with
  | case1 depth s => rw [checkedExecuteWithin]; rfl
  | case2 depth s x xs frame mode ih =>
    rw [checkedExecuteWithin_tracking mode, safe.checkedTrack_eq fits regular mode, ok_bind]
    exact ih (kept.track x safe mode)
  | case3 depth s x xs mode detector step ih =>
    have step' := (safe.checkedExecute_eq positive x).trans (congrArg _ step)
    rw [checkedExecuteWithin_missed mode step']
    exact ih (kept.missed safe mode step)
  | case4 s x xs mode detector window step =>
    have step' := (safe.checkedExecute_eq positive x).trans (congrArg _ step)
    rw [checkedExecuteWithin_found_zero mode step']
  | case5 s x xs mode detector window step depth s₀ ih₁ ih₂ =>
    have step' := (safe.checkedExecute_eq positive x).trans (congrArg _ step)
    have fits' : s.config.Fits := safe.sound.ready.same ▸ fits
    have opened := kept.withReplay window (kept.found safe mode step)
    have replayed := ih₁ (kept.withReplay #[] opened)
    have handed := checkedHandOff_eq (s := { s with detector, replay := window }) fits'
    rw [checkedExecuteWithin_found mode step', handed, ok_bind, replayed, ok_bind]
    split
    · next none =>
      rw [none, Option.bind_none]
      rfl
    · next s₁ run =>
      rw [run, Option.bind_some]
      exact ih₂ s₁ (kept.withReplay window (kept.executeWithin run (kept.withReplay #[] opened)))

def checkedExecute (s : Receiver C) (xs : List Sample) : Checked (Receiver C) := do
  let s' ← s.checkedExecuteWithin (xs.length + DetectorStage.held s.detector) xs
  return s'.getD s

def checkedApply (s : Receiver C) : Call C → Checked (Receiver C)
  | .setBufferLength length => do
    match ← s.buffer.checkedResize length with
    | .ok (buffer, windows) => return windows.foldl (fun s w => (s.consume w).1) { s with buffer }
    | .error _ => return s
  | call => return s.apply call

theorem checkedApply_eq {s : Receiver C} (room : s.buffer.HasRoom) (call : Call C) :
    s.checkedApply call = .ok (s.apply call) := by
  cases call with
  | setBufferLength length =>
    rw [checkedApply, SymbolBuffer.checkedResize_eq room, ok_bind, apply, setBufferLength]
    cases s.buffer.resize length <;> rfl
  | _ => rfl

def checkedPerform (s : Receiver C) : List (Call C) → Checked (Receiver C)
  | [] => return s
  | call :: calls => do
    let s ← s.checkedApply call
    let s ← s.checkedExecute call.samples
    s.checkedPerform calls

theorem Safe.checkedPerform_eq (safe : s.Safe config t b₀) (fits : config.Fits)
    (regular : b₀.Regular) (positive : 0 < t.length) (calls : List (Call C)) :
    s.checkedPerform calls = .ok (s.perform calls) := by
  induction calls generalizing s with
  | nil => rfl
  | cons call calls ih =>
    have called := (kept_safe fits).apply call safe
    have run := executeWithin_eq_some_execute (s.apply call) call.samples
    have block : (s.apply call).checkedExecute call.samples =
        .ok ((s.apply call).execute call.samples) := by
      rw [checkedExecute, called.checkedExecuteWithin_eq fits regular positive, ok_bind, run]
      rfl
    rw [checkedPerform, checkedApply_eq safe.sound.ready.room, ok_bind, block, ok_bind]
    exact ih ((kept_safe fits).executeWithin run called)

end Synchronizer

/-- All checks pass, whatever is called. -/
structure NeverTraps {C : Type} (s₀ : Receiver C) : Prop where
  /-- With the checks, all calls lead where they lead without. -/
  performs (calls : List (Call C)) : s₀.checkedPerform calls = .ok (s₀.perform calls)
  /-- The pending symbols can be read at any point. -/
  buffered {log : List (Event C)} {w : Work C Detector Oscillator FilterBank} {number : Nat} :
    Run s₀ log w number → w.sync.buffer.checkedPending = .ok w.sync.buffered
  tuned {log : List (Event C)} {w : Work C Detector Oscillator FilterBank} {number : Nat} :
    Run s₀ log w number →
    (0 < w.sync.detector.threshold ∧ w.sync.detector.threshold ≤ 1) ∧
      0 ≤ w.sync.detector.range ∧ w.sync.detector.range ≤ 1
  timed {log : List (Event C)} {w : Work C Detector Oscillator FilterBank} {number : Nat}
    {frame : Tracking} :
    Run s₀ log w number → w.sync.mode = .tracking frame →
    -1 ≤ frame.timer ∧ frame.timer ≤ (s₀.config.k : Int) - 1

theorem never_traps {C : Type} {s₀ : Receiver C}
    {remake : Nat → Option (Consumer C) → C → Except Fault (Receiver C)} (made : Made remake s₀)
    (k : s₀.config.k < 0x80000000) (m : s₀.config.m < 0x80000000)
    (branches : s₀.config.branches < 0x80000000) : NeverTraps s₀ := by
  obtain ⟨t, b₀, -, positive, regular, valid, -, sound, rested, -⟩ := made.sound
  obtain ⟨few, -, -, some, -⟩ := Config.validate_eq_ok.mp valid
  have fits : s₀.config.Fits := ⟨⟨few, k⟩, m, some, branches⟩
  have safe : s₀.Safe s₀.config t b₀ := by
    refine ⟨sound, fun frame mode => ?_⟩
    rw [← rested] at mode
    cases mode
  have reached {log : List (Event C)} {w : Work C Detector Oscillator FilterBank} {number : Nat}
      (run : Run s₀ log w number) : w.sync.Safe s₀.config t b₀ :=
    (Synchronizer.kept_safe fits).leads run safe
  constructor
  · exact safe.checkedPerform_eq fits regular positive
  · exact fun run => SymbolBuffer.checkedPending_eq (reached run).sound.ready.room
  · intro log w number run
    obtain ⟨seen, searched⟩ := (reached run).sound.searched
    exact ⟨searched.tuned.threshold, searched.tuned.range⟩
  · exact fun run mode => (reached run).timed _ mode

theorem NeverTraps.within {C : Type} {s₀ : Receiver C} (safe : NeverTraps s₀)
    (block : List Sample) (n : Nat) :
    let s := (Work.advance^[n] ⟨s₀, block⟩).sync
    s.buffer.checkedPending = .ok s.buffered := by
  have begun : Run s₀ [] ⟨s₀, []⟩ 0 := .start
  obtain ⟨log, number, -, run⟩ := (begun.call (.execute block)).iterate (n := n)
  exact safe.buffered run

theorem never_traps_pairReceiver :
    ∃ remake s₀, pairReceiver = .ok s₀ ∧ Made remake s₀ ∧ NeverTraps s₀ ∧
      let s := (Work.advance^[9] ⟨s₀, ones 9⟩).sync
      s.isOpen = true ∧ s.buffered.size = 1 ∧ s.buffer.checkedPending = .ok s.buffered := by
  have waveform : Template.ofSamples [Sample.real 1, Sample.real 1] = .ok pairTemplate := rfl
  have dealt : FilterBank.ofPrototype #[1] 1 = .ok ⟨#[#[1]], 1, #[0], 0, 1⟩ := rfl
  have built : pairReceiver = .ok _ := rfl
  have made := Made.ofStages waveform .made dealt .made built
  have safe := never_traps made (by decide) (by decide) (by decide)
  exact ⟨_, _, built, made, safe, by decide +kernel, by decide +kernel, safe.within _ 9⟩

end FrameSync
