import FrameSync.Proofs.Run
import FrameSync.Proofs.Search

/-!
Where the frames lie in the input. The samples of all calls are numbered from zero on. Each frame
takes a stretch of them that starts with the preamble, before the sample at which the detector
found it, and the search goes on right behind the frame.
-/

namespace FrameSync

section

variable {C : Type}

namespace Event

def tracked? : Event C → Option Nat
  | tracked number _ _ => some number
  | _ => none

def opens : Event C → Bool
  | found _ _ _ => true
  | _ => false

end Event

def trackedIn (log : List (Event C)) : List Nat := log.filterMap Event.tracked?

@[simp] theorem trackedIn_append (a b : List (Event C)) :
    trackedIn (a ++ b) = trackedIn a ++ trackedIn b := List.filterMap_append

@[simp] theorem trackedIn_tracked (number : Nat) (x : Sample) (yield : Yield) :
    trackedIn [(.tracked number x yield : Event C)] = [number] := rfl

@[simp] theorem trackedIn_missed (number : Nat) (x : Sample) :
    trackedIn [(.missed number x : Event C)] = [] := rfl

@[simp] theorem trackedIn_found (number : Nat) (x : Sample) (window : Window) :
    trackedIn [(.found number x window : Event C)] = [] := rfl

@[simp] theorem trackedIn_called (call : Call C) (windows : List Window) :
    trackedIn [.called call windows] = [] := rfl

@[simp] theorem samplesOf_append (a b : List (Call C)) :
    samplesOf (a ++ b) = samplesOf a ++ samplesOf b := List.flatMap_append

@[simp] theorem samplesOf_singleton (call : Call C) : samplesOf [call] = call.samples :=
  List.append_nil _

end

variable {C M F : Type} {t : Template}

/-- Where a synchronizer stands in its input. What is pending is the input from the next sample on.
The search has taken in the samples right before that one, and frames took only earlier ones. -/
structure Placed (t : Template) (input : List Sample) (tracked : List Nat)
    (w : Work C Detector M F) (number : Nat) : Prop where
  pending : w.pending = input.drop number
  within : number ≤ input.length
  search : ∃ seen, Searched t seen w.sync.detector ∧ seen.length ≤ number ∧
    samplesIn seen = (input.take number).drop (number - seen.length) ∧
    (∀ j ∈ tracked, j < number - seen.length) ∧ (w.sync.isOpen = true → seen = [])

namespace Placed

variable {input : List Sample} {tracked : List Nat} {s : Synchronizer C Detector M F} {x : Sample}
variable {rest : List Sample} {number : Nat}

theorem fresh {w : Work C Detector M F} (pending : w.pending = input.drop number)
    (within : number ≤ input.length) (searched : Searched t [] w.sync.detector)
    (earlier : ∀ j ∈ tracked, j < number) : Placed t input tracked w number where
  pending := pending
  within := within
  search := by
    refine ⟨[], searched, Nat.zero_le _, ?_, earlier, fun _ => rfl⟩
    rw [List.length_nil, Nat.sub_zero, List.drop_eq_nil_of_le (List.length_take_le _ _)]
    rfl

theorem earlier {w : Work C Detector M F} (placed : Placed t input tracked w number) :
    ∀ j ∈ tracked, j < number := by
  obtain ⟨seen, -, -, -, earlier, -⟩ := placed.search
  intro j member
  exact Nat.lt_of_lt_of_le (earlier j member) (Nat.sub_le _ _)

theorem rest_eq (placed : Placed t input tracked ⟨s, x :: rest⟩ number) :
    number < input.length ∧ input[number]? = some x ∧ rest = input.drop (number + 1) := by
  have pending : x :: rest = input.drop number := placed.pending
  have bound : number < input.length := by
    by_contra outside
    rw [List.drop_eq_nil_of_le (by omega)] at pending
    cases pending
  rw [List.drop_eq_getElem_cons bound] at pending
  cases pending
  exact ⟨bound, List.getElem?_eq_getElem bound, rfl⟩

theorem samplesIn_next (placed : Placed t input tracked ⟨s, x :: rest⟩ number)
    {seen : List Reading} (shorter : seen.length ≤ number)
    (latest : samplesIn seen = (input.take number).drop (number - seen.length))
    (threshold : Float32) :
    samplesIn (seen ++ [⟨x, threshold⟩]) =
      (input.take (number + 1)).drop (number - seen.length) := by
  obtain ⟨bound, here, -⟩ := placed.rest_eq
  have shorter : number - seen.length ≤ (input.take number).length := by
    rw [List.length_take]
    omega
  rw [samplesIn_append, samplesIn_singleton, latest, List.take_add_one, here,
    List.drop_append_of_le_length shorter]
  rfl

theorem missed (placed : Placed t input tracked ⟨s, x :: rest⟩ number)
    (mode : s.mode = .searching) {detector : Detector}
    (step : s.detector.execute x = (detector, none)) :
    Placed t input tracked ⟨{ s with detector }, rest⟩ (number + 1) := by
  obtain ⟨bound, -, rest⟩ := placed.rest_eq
  obtain ⟨seen, searched, shorter, latest, earlier, -⟩ := placed.search
  have whole : (seen ++ [⟨x, s.detector.threshold⟩] : List Reading).length = seen.length + 1 :=
    List.length_append
  refine ⟨rest, bound, seen ++ [⟨x, s.detector.threshold⟩], .missed searched step, ?_, ?_, ?_, ?_⟩
  · omega
  · rw [placed.samplesIn_next shorter latest, whole, Nat.add_sub_add_right]
  · rwa [whole, Nat.add_sub_add_right]
  · intro isOpen
    cases (Synchronizer.isOpen_of_searching mode).symm.trans isOpen

variable [MixerStage M] [BankStage F]

theorem found (placed : Placed t input tracked ⟨s, x :: rest⟩ number) (positive : 0 < t.length)
    {detector : Detector} {window : Array Sample}
    (step : s.detector.execute x = (detector, some window)) :
    window.size = t.length + 1 ∧ t.length ≤ number ∧
      window.toList = (input.take (number + 1)).drop (number - t.length) ∧
      (∀ j ∈ tracked, j < number - t.length) ∧
      Placed t input tracked ⟨{ s with detector }.handOff, window.toList ++ rest⟩
        (number - t.length) := by
  obtain ⟨bound, -, rest⟩ := placed.rest_eq
  obtain ⟨seen, searched, shorter, latest, earlier, -⟩ := placed.search
  have whole : (seen ++ [⟨x, s.detector.threshold⟩] : List Reading).length = seen.length + 1 :=
    List.length_append
  have detects := searched.detects positive step
  have enough := detects.length_lt
  rw [whole] at enough
  have window_eq : window.toList = (input.take (number + 1)).drop (number - t.length) := by
    rw [detects.window_eq, placed.samplesIn_next shorter latest, List.drop_drop, whole]
    congr 1
    omega
  have behind : ∀ j ∈ tracked, j < number - t.length := by
    intro j member
    have before := earlier j member
    omega
  refine ⟨detects.size, by omega, window_eq, behind, fresh ?_ (by omega) ?_ behind⟩
  · have reaches : number - t.length ≤ (input.take (number + 1)).length := by
      rw [List.length_take]
      omega
    rw [window_eq, rest, ← List.drop_append_of_le_length reaches, List.take_append_drop]
  · obtain ⟨mixer, bank, frame, -, next⟩ := Synchronizer.handOff_eq { s with detector }
    dsimp only
    rw [next]
    exact .found searched step

theorem track (placed : Placed t input tracked ⟨s, x :: rest⟩ number) {frame : Tracking}
    (mode : s.mode = .tracking frame) :
    Placed t input (tracked ++ [number]) ⟨s.track frame x, rest⟩ (number + 1) := by
  obtain ⟨bound, -, rest⟩ := placed.rest_eq
  obtain ⟨seen, searched, -, -, -, idle⟩ := placed.search
  rw [idle (Synchronizer.isOpen_of_tracking mode)] at searched
  apply fresh rest bound
  · cases s.track_cases frame x with
    | inl goesOn =>
      obtain ⟨context, next⟩ := goesOn
      rw [next]
      exact searched
    | inr ended =>
      obtain ⟨w, context, -, next⟩ := ended
      rw [next]
      exact .reset searched
  · intro j member
    cases List.mem_append.mp member with
    | inl old => exact Nat.lt_succ_of_lt (placed.earlier j old)
    | inr new =>
      rw [List.mem_singleton.mp new]
      exact Nat.lt_succ_self number

omit [MixerStage M] in
theorem search_apply {seen : List Reading} (searched : Searched t seen s.detector) (call : Call C) :
    Searched t [] (s.apply call).detector ∨ Searched t seen (s.apply call).detector := by
  obtain ⟨-, next⟩ | ⟨detector, buffer, consumer, context, next, search, -⟩ :=
    s.apply_cases call <;> rw [next]
  · exact .inl (.reset searched)
  · right
    obtain rfl | ⟨threshold, set⟩ | ⟨range, set⟩ := search
    · exact searched
    · exact .setThreshold searched set
    · exact .setRange searched set

omit [MixerStage M] in
theorem call (placed : Placed t input tracked ⟨s, []⟩ number) (call : Call C) :
    Placed t (input ++ call.samples) tracked ⟨s.apply call, call.samples⟩ number := by
  have within := placed.within
  have ended : input.length ≤ number := List.drop_eq_nil_iff.mp placed.pending.symm
  have pending : call.samples = (input ++ call.samples).drop number := by
    rw [List.drop_append, List.drop_eq_nil_of_le ended, Nat.sub_eq_zero_of_le within]
    rfl
  have within' : number ≤ (input ++ call.samples).length := by
    rw [List.length_append]
    omega
  obtain ⟨seen, searched, shorter, latest, earlier, idle⟩ := placed.search
  cases search_apply searched call with
  | inl dropped => exact fresh pending within' dropped placed.earlier
  | inr kept =>
    refine ⟨pending, within', seen, kept, shorter, ?_, earlier,
      fun isOpen => idle (Synchronizer.isOpen_of_apply isOpen)⟩
    rw [List.take_append_of_le_length within]
    exact latest

end Placed

namespace Leads

variable [MixerStage M] [BankStage F] {w₀ w : Work C Detector M F} {n₀ number : Nat}
variable {log : List (Event C)} {input : List Sample} {tracked : List Nat}

theorem placed (positive : 0 < t.length) (placed : Placed t input tracked w₀ n₀)
    (run : Leads w₀ n₀ log w number) :
    Placed t (input ++ samplesOf (callsIn log)) (tracked ++ trackedIn log) w number := by
  induction run with
  | start =>
    rw [show samplesOf (callsIn ([] : List (Event C))) = [] from rfl,
      show trackedIn ([] : List (Event C)) = [] from rfl, List.append_nil, List.append_nil]
    exact placed
  | @call log s number _ call ih =>
    rw [callsIn_append, trackedIn_append, callsIn_called, trackedIn_called, samplesOf_append,
      samplesOf_singleton, List.append_nil, ← List.append_assoc]
    exact ih.call call
  | @sample log s x rest number _ ih =>
    rw [callsIn_append, trackedIn_append, Synchronizer.callsIn_event, List.append_nil,
      ← List.append_assoc]
    obtain ⟨frame, mode, event, next⟩ | ⟨detector, mode, step, event, next⟩ |
      ⟨detector, window, mode, step, event, next⟩ := s.sample_cases number x rest <;> rw [event, next]
    · exact ih.track mode
    · rw [trackedIn_missed, List.append_nil]
      exact ih.missed mode step
    · -- The window is one longer than the template, so the next sample is its first one.
      obtain ⟨size, -, -, -, opened⟩ := ih.found positive step
      rw [trackedIn_found, List.append_nil, Event.next, size, Nat.add_sub_add_right]
      exact opened

theorem opened (positive : 0 < t.length) (placed : Placed t input tracked w₀ n₀) {i : Nat}
    {x : Sample} {window : Window} (run : Leads w₀ n₀ [.found i x window] w number) :
    number = i - t.length ∧ w.sync.isOpen = true ∧ w.pending ≠ [] ∧ t.length ≤ i ∧
      i < input.length ∧ window.toList = (input.take (i + 1)).drop (i - t.length) ∧
      ∀ j ∈ tracked, j < i - t.length := by
  obtain ⟨s, rest, detector, rfl, rfl, -, step, rfl, rfl⟩ := run.exists_of_found
  obtain ⟨size, enough, window_eq, earlier, -⟩ := placed.found positive step
  refine ⟨?_, rfl, ?_, enough, placed.rest_eq.1, window_eq, earlier⟩
  · rw [size, Nat.add_sub_add_right]
  · intro none
    have nothing : window.toList.length = 0 := by rw [(List.append_eq_nil_iff.mp none).1]; rfl
    rw [Array.length_toList] at nothing
    omega

theorem once (positive : 0 < t.length) (placed : Placed t input [] w₀ n₀)
    (run : Leads w₀ n₀ log w number) : (trackedIn log).Pairwise (· < ·) := by
  induction run with
  | start => exact .nil
  | @call log s number _ call ih =>
    rw [trackedIn_append, trackedIn_called, List.append_nil]
    exact ih
  | @sample log s x rest number before ih =>
    rw [trackedIn_append]
    obtain ⟨frame, -, event, -⟩ | ⟨detector, -, -, event, -⟩ | ⟨detector, window, -, -, event, -⟩ :=
      s.sample_cases number x rest <;> rw [event]
    · have earlier := (before.placed positive placed).earlier
      rw [trackedIn_tracked, List.pairwise_append]
      refine ⟨ih, List.pairwise_singleton _ _, fun j old i new => ?_⟩
      cases List.mem_singleton.mp new
      exact earlier j old
    · rwa [trackedIn_missed, List.append_nil]
    · rwa [trackedIn_found, List.append_nil]

end Leads

section

variable [MixerStage M] [BankStage F] {s₀ : Synchronizer C Detector M F}

end

end FrameSync
