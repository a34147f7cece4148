import FrameSync.Proofs.Alignment
import FrameSync.Proofs.SymbolStream

/-!
When a frame produces symbols. The sample counter goes up by one at every sample and down by `k` at
every symbol, so after `n` samples both of its values can be written down: the first sample brings a
symbol, and then every `k`-th one does, all of them a sample early in a frame whose branch was
wrapped.
-/

namespace FrameSync

def IsDue (k wrap n : ℕ) : Prop := n = 0 ∨ ∃ q, 1 ≤ q ∧ n + wrap = q * k

def symbolsDue (k wrap n : ℕ) : ℕ := if n = 0 then 0 else (n + wrap) ⌈/⌉ k

theorem ceilDiv_bounds {k : ℕ} (positive : 0 < k) (n : ℕ) :
    n ≤ k * (n ⌈/⌉ k) ∧ k * (n ⌈/⌉ k) < n + k := by
  have below := Nat.mul_div_le (n + k - 1) k
  rw [← Nat.ceilDiv_eq_add_pred_div] at below
  exact ⟨le_smul_ceilDiv positive, by omega⟩

theorem ceilDiv_eq {k n q : ℕ} (low : n ≤ k * q) (high : k * q < n + k) : n ⌈/⌉ k = q := by
  have positive : 0 < k := by omega
  apply le_antisymm ((ceilDiv_le_iff_le_mul positive).mpr low)
  have above := (ceilDiv_bounds positive n).1
  apply Nat.le_of_lt_succ
  apply Nat.lt_of_mul_lt_mul_left (a := k)
  rw [Nat.mul_succ]
  omega

section

variable {k wrap : ℕ}

theorem isDue_iff (positive : 0 < k) (n : ℕ) :
    IsDue k wrap n ↔ k * symbolsDue k wrap n ≤ n + wrap := by
  unfold IsDue symbolsDue
  split
  next first => simp [first]
  next later =>
    rw [or_iff_right later]
    obtain ⟨low, high⟩ := ceilDiv_bounds positive (n + wrap)
    constructor
    · rintro ⟨q, -, whole⟩
      rw [Nat.mul_comm] at whole
      have exact : (n + wrap) ⌈/⌉ k = q := ceilDiv_eq (by omega) (by omega)
      rw [exact, whole]
    · intro reached
      refine ⟨(n + wrap) ⌈/⌉ k, Nat.pos_of_ne_zero ?_, ?_⟩
      · intro none
        rw [none] at low
        omega
      · rw [Nat.mul_comm]
        exact low.antisymm reached

theorem symbolsDue_succ (two : 2 ≤ k) (slight : wrap ≤ 1) (n : ℕ) :
    symbolsDue k wrap (n + 1) =
      if k * symbolsDue k wrap n ≤ n + wrap then symbolsDue k wrap n + 1
      else symbolsDue k wrap n := by
  have next : symbolsDue k wrap (n + 1) = (n + wrap + 1) ⌈/⌉ k := by
    rw [symbolsDue, if_neg (Nat.succ_ne_zero n), Nat.add_right_comm]
  rw [next]
  by_cases first : n = 0
  · rw [symbolsDue, if_pos first, Nat.mul_zero, if_pos (Nat.zero_le _)]
    apply ceilDiv_eq <;> omega
  · rw [symbolsDue, if_neg first]
    obtain ⟨low, high⟩ := ceilDiv_bounds (show 0 < k by omega) (n + wrap)
    split
    next reached => apply ceilDiv_eq <;> rw [Nat.mul_succ] <;> omega
    next ahead => apply ceilDiv_eq <;> omega

end

structure InTime (k wrap branch n : ℕ) (t : Tracking) : Prop where
  timer : t.timer = k - 2 + wrap + n - (k * symbolsDue k wrap n : ℕ)
  symbols : t.symbols = min (symbolsDue k wrap n) maxSymbols
  branch : t.branch = branch

theorem min_succ (n m : ℕ) : min (min n m + 1) m = min (n + 1) m := by omega

theorem InTime.tick {k wrap branch n : ℕ} {t : Tracking} (inTime : InTime k wrap branch n t)
    (two : 2 ≤ k) (slight : wrap ≤ 1) :
    ((t.tick k).2 = true ↔ IsDue k wrap n) ∧ InTime k wrap branch (n + 1) (t.tick k).1 := by
  obtain ⟨timer, symbols, branch⟩ := inTime
  have next := symbolsDue_succ two slight n
  rw [isDue_iff (show 0 < k by omega)]
  unfold Tracking.tick
  dsimp only
  by_cases reached : k * symbolsDue k wrap n ≤ n + wrap
  · rw [if_pos reached] at next
    rw [if_neg (by omega)]
    refine ⟨iff_of_true rfl reached, ?_, ?_, branch⟩
    · rw [next, Nat.mul_succ]
      dsimp only
      omega
    · change min (t.symbols + 1) maxSymbols = _
      rw [next, symbols, min_succ]
  · rw [if_neg reached] at next
    rw [if_pos (by omega)]
    refine ⟨iff_of_false Bool.false_ne_true reached, ?_, ?_, branch⟩
    · rw [next]
      dsimp only
      omega
    · rw [next, ← symbols]

section

variable {C : Type}

def Event.yield? : Event C → Option Yield
  | .tracked _ _ yield => some yield
  | _ => none

def yieldsIn (log : List (Event C)) : List Yield := log.filterMap Event.yield?

@[simp] theorem yieldsIn_append (a b : List (Event C)) :
    yieldsIn (a ++ b) = yieldsIn a ++ yieldsIn b := List.filterMap_append

@[simp] theorem yieldsIn_called (call : Call C) (windows : List Window) :
    yieldsIn [.called call windows] = [] := rfl

def symbolAt? (log : List (Event C)) (n : ℕ) : Option Sample := (yieldsIn log)[n]?.bind (·.symbol)

theorem exists_tracked {log : List (Event C)} {n : ℕ} (within : n < (yieldsIn log).length) :
    ∃ before i x yield after, log = before ++ .tracked i x yield :: after ∧
      (yieldsIn before).length = n ∧ symbolAt? log n = yield.symbol := by
  induction log generalizing n with
  | nil => cases within
  | cons e log ih =>
    cases e with
    | tracked i x yield =>
      cases n with
      | zero => exact ⟨[], i, x, yield, log, rfl, rfl, rfl⟩
      | succ n =>
        obtain ⟨before, j, y, yield', after, rfl, count, symbol⟩ :=
          ih (Nat.lt_of_succ_lt_succ within)
        exact ⟨.tracked i x yield :: before, j, y, yield', after, rfl, congrArg Nat.succ count,
          symbol⟩
    | _ =>
      obtain ⟨before, j, y, yield, after, rfl, count, symbol⟩ := ih within
      exact ⟨_ :: before, j, y, yield, after, rfl, count, symbol⟩

end

section

variable {C D M F : Type} [DetectorStage D] [MixerStage M] [BankStage F]

open Synchronizer

theorem Leads.inTime {w₀ w : Work C D M F} {n₀ number k wrap branch : ℕ} {log : List (Event C)}
    {t₀ : Tracking} (two : 2 ≤ k) (slight : wrap ≤ 1) (same : signed32 w₀.sync.config.k = k)
    (mode : w₀.sync.mode = .tracking t₀) (start : InTime k wrap branch 0 t₀)
    (run : Leads w₀ n₀ log w number) (goesOn : ∀ e ∈ log, e.ends = false) :
    signed32 w.sync.config.k = k ∧
      ∃ t, w.sync.mode = .tracking t ∧ InTime k wrap branch (yieldsIn log).length t := by
  induction run with
  | start => exact ⟨same, t₀, mode, start⟩
  | @call log s number before call ih =>
    rw [List.forall_mem_append, List.forall_mem_singleton] at goesOn
    obtain ⟨same, t, mode, inTime⟩ := ih goesOn.1
    rw [yieldsIn_append, yieldsIn_called, List.append_nil]
    obtain ⟨rfl, -⟩ | ⟨detector, buffer, consumer, context, next, -⟩ := s.apply_cases call
    · cases goesOn.2
    · rw [next]
      exact ⟨same, t, mode, inTime⟩
  | @sample log s x rest number before ih =>
    rw [List.forall_mem_append, List.forall_mem_singleton] at goesOn
    obtain ⟨same, t, mode, inTime⟩ := ih goesOn.1
    have last := goesOn.2
    rw [s.event_tracking mode] at last ⊢
    rw [Work.advance_tracking mode, yieldsIn_append, List.length_append]
    have ticked := (inTime.tick two slight).2
    obtain ⟨context, next⟩ | ⟨w, context, -, next⟩ := s.track_cases t x
    · rw [next]
      refine ⟨same, _, rfl, ?_⟩
      rw [same]
      exact ticked
    · have isOpen : (s.track t x).isOpen = true := (Bool.not_eq_false' _).mp last
      rw [next] at isOpen
      cases isOpen

omit [DetectorStage D] in
theorem isSome_dueSymbol? (s : Synchronizer C D M F) (t : Tracking) (x : Sample) :
    (s.dueSymbol? t x).isSome = (t.tick (signed32 s.config.k)).2 := by
  unfold dueSymbol?
  cases (t.tick (signed32 s.config.k)).2 <;> rfl

theorem Leads.isSome_symbolAt? {w₀ w : Work C D M F} {n₀ number n k wrap branch : ℕ}
    {log : List (Event C)} {t₀ : Tracking} (two : 2 ≤ k) (slight : wrap ≤ 1)
    (same : signed32 w₀.sync.config.k = k) (mode : w₀.sync.mode = .tracking t₀)
    (start : InTime k wrap branch 0 t₀) (run : Leads w₀ n₀ log w number)
    (goesOn : ∀ e ∈ log.dropLast, e.ends = false) (within : n < (yieldsIn log).length) :
    (symbolAt? log n).isSome = true ↔ IsDue k wrap n := by
  obtain ⟨before, i, x, yield, after, rfl, count, symbol⟩ := exists_tracked within
  rw [List.dropLast_append_of_ne_nil (List.cons_ne_nil _ _), List.forall_mem_append] at goesOn
  obtain ⟨w₁, n₁, w₂, n₂, front, here, -⟩ := run.exists_split_cons
  obtain ⟨same, t, mode, inTime⟩ := front.inTime two slight same mode start goesOn.1
  obtain ⟨s, rest, t', rfl, -, mode', rfl, -, -⟩ := here.exists_of_tracked
  cases mode.symm.trans mode'
  rw [symbol, isSome_dueSymbol?, same, ← count]
  exact (inTime.tick two slight).1

/-- When the symbols of a frame come. The frame begins at `w₀`, with the samples of the detector's
window to be run first. -/
structure KeepsTime (k wrap branch : ℕ) (w₀ : Work C D M F) : Prop where
  opened : ∃ t, w₀.sync.mode = .tracking t ∧ t.timer = k - 2 + wrap ∧ t.branch = branch ∧
    t.symbols = 0
  /-- Sample `n` brings a symbol if it is the first one, or `wrap` samples before a multiple of `k`.
  The last sample may end the frame. -/
  produced {n₀ number n : ℕ} {log : List (Event C)} {w : Work C D M F} :
    Leads w₀ n₀ log w number → (∀ e ∈ log.dropLast, e.ends = false) → n < (yieldsIn log).length →
    ((symbolAt? log n).isSome = true ↔ n = 0 ∨ ∃ q, 1 ≤ q ∧ n + wrap = q * k)
  /-- Counters and branch depend on the number of samples only. -/
  counted {n₀ number : ℕ} {log : List (Event C)} {w : Work C D M F} :
    Leads w₀ n₀ log w number → (∀ e ∈ log, e.ends = false) → 1 ≤ (yieldsIn log).length →
    ∃ t, w.sync.mode = .tracking t ∧ t.branch = branch ∧
      t.symbols = min (((yieldsIn log).length + wrap) ⌈/⌉ k) maxSymbols ∧
      t.timer = k - 2 + wrap + (yieldsIn log).length -
        k * (((yieldsIn log).length + wrap) ⌈/⌉ k : ℕ)
  called {call : Call C} : call ≠ .reset → ∀ s : Synchronizer C D M F, (s.apply call).mode = s.mode
  /-- From the second symbol on they come `k` samples apart. -/
  apart {n₀ number n n' : ℕ} {log : List (Event C)} {w : Work C D M F} :
    Leads w₀ n₀ log w number → (∀ e ∈ log.dropLast, e.ends = false) → 1 ≤ n → n < n' →
    n' < (yieldsIn log).length → (symbolAt? log n).isSome = true →
    (symbolAt? log n').isSome = true →
    (∀ j, n < j → j < n' → symbolAt? log j = none) → n' = n + k
  /-- Each of them comes `wrap` samples before one is due in a frame that is not wrapped. -/
  early {n₀ number n : ℕ} {log : List (Event C)} {w : Work C D M F} :
    Leads w₀ n₀ log w number → (∀ e ∈ log.dropLast, e.ends = false) → 1 ≤ n →
    n < (yieldsIn log).length → ((symbolAt? log n).isSome = true ↔ IsDue k 0 (n + wrap))

theorem keepsTime {w₀ : Work C D M F} {k wrap branch : ℕ} {t₀ : Tracking} (two : 2 ≤ k)
    (slight : wrap ≤ 1) (same : signed32 w₀.sync.config.k = k)
    (mode : w₀.sync.mode = .tracking t₀) (start : InTime k wrap branch 0 t₀) :
    KeepsTime k wrap branch w₀ where
  opened := by
    have timer := start.timer
    have symbols := start.symbols
    rw [symbolsDue, if_pos rfl] at timer symbols
    exact ⟨t₀, mode, by omega, start.branch, symbols.trans (Nat.zero_min _)⟩
  produced run goesOn within := run.isSome_symbolAt? two slight same mode start goesOn within
  counted {n₀ number log w} run goesOn begun := by
    obtain ⟨-, t, mode', inTime⟩ := run.inTime two slight same mode start goesOn
    have timer := inTime.timer
    have symbols := inTime.symbols
    rw [symbolsDue, if_neg (by omega)] at timer symbols
    exact ⟨t, mode', inTime.branch, symbols, timer⟩
  called {call} kept s := by
    obtain ⟨reset, -⟩ | ⟨detector, buffer, consumer, context, next, -⟩ := s.apply_cases call
    · exact absurd reset kept
    · rw [next]
  apart {n₀ number n n' log w} run goesOn later behind within here next between := by
    have due (j : ℕ) (bound : j < (yieldsIn log).length) :=
      run.isSome_symbolAt? two slight same mode start goesOn bound
    obtain zero | ⟨q, positive, whole⟩ := (due n (by omega)).mp here
    · omega
    obtain zero | ⟨q', positive', whole'⟩ := (due n' within).mp next
    · omega
    have above : (q + 1) * k ≤ q' * k := by
      apply Nat.mul_le_mul_right
      by_contra below
      have most : q' * k ≤ q * k := Nat.mul_le_mul_right k (by omega)
      omega
    rw [Nat.add_mul, Nat.one_mul] at above
    by_contra gap
    have missing : (symbolAt? log (n + k)).isSome = true := by
      refine (due (n + k) (by omega)).mpr (.inr ⟨q + 1, by omega, ?_⟩)
      rw [Nat.add_mul, Nat.one_mul]
      omega
    rw [between (n + k) (by omega) (by omega)] at missing
    cases missing
  early {n₀ number n log w} run goesOn later within := by
    rw [run.isSome_symbolAt? two slight same mode start goesOn within, IsDue, IsDue,
      or_iff_right (by omega), or_iff_right (by omega), Nat.add_zero]

/-- Every frame keeps time, from its detection on, whatever is called meanwhile. What calls make of
it, the first of them with the samples that follow the detection, is such a run. -/
theorem frame_keeps_time {s : Synchronizer C D M F}
    (k : 2 ≤ s.config.k ∧ s.config.k < 0x80000000) (mode : s.mode = .searching) {x : Sample}
    {detector : D} {window : Array Sample}
    (step : DetectorStage.execute s.detector x = (detector, some window)) (rest : List Sample) :
    let offset := (DetectorStage.estimate detector).timing
    let w₀ := Work.advance ⟨s, x :: rest⟩
    KeepsTime s.config.k (wrap s.config offset) (alignment s.config offset).2 w₀ ∧
      ∀ s₁ s' calls n₀, s.Executes (x :: rest) s₁ → s₁.Performs calls s' →
        ∃ log number, callsIn log = calls ∧
          Leads w₀ n₀ log ⟨s'.withReplay s.replay, []⟩ number := by
  intro offset w₀
  have opened : w₀ = ⟨{ s with detector }.handOff, window.toList ++ rest⟩ :=
    Work.advance_found mode step rest
  refine ⟨?_, ?_⟩
  · have timer := alignment_timer_eq k.2 offset
    have same : signed32 s.config.k = s.config.k := signed32_eq k.2
    rw [opened]
    refine keepsTime k.1 (wrap_le_one _ _) same rfl ⟨?_, rfl, rfl⟩
    rw [symbolsDue, if_pos rfl]
    change (alignment s.config offset).1 = _
    omega
  · intro s₁ s' calls n₀ ⟨depth, block⟩ done
    obtain ⟨n, flat⟩ := drains_cons.mp (drains_of_executeWithin block)
    have first : Leads w₀ n₀ [] w₀ n₀ := .start
    obtain ⟨more, number, uncalled, run⟩ := first.iterate (n := n)
    rw [flat, List.nil_append] at run
    obtain ⟨more', number', same, run'⟩ := run.exists_of_performs done
    refine ⟨more ++ more', number', ?_, run'⟩
    rw [callsIn_append, uncalled, same]
    rfl

end

/-- A wrapped frame at two samples a symbol: of seven samples, numbers 0, 1, 3 and 5 bring one. -/
theorem frame_keeps_time_climbing :
    let w₀ := Work.advance ⟨climbingReceiver, ⟨0, -1⟩ :: List.replicate 4 (.real 1)⟩
    (climbingReceiver.detector.execute ⟨0, -1⟩).2.isSome = true ∧ KeepsTime 2 1 3 w₀ ∧
      (Work.advance^[7] w₀).sync.tracking?.map (fun t => (t.symbols, t.timer)) = some (4, 0) := by
  intro w₀
  obtain ⟨k, branches, mode, detector, window, step, offset, -⟩ := climbingReceiver_detects
  have wrapped : Synchronizer.wrap climbingReceiver.config
      (DetectorStage.estimate detector).timing = 1 := if_pos (by omega)
  have branch : (Synchronizer.alignment climbingReceiver.config
      (DetectorStage.estimate detector).timing).2 = 3 := by
    rw [Synchronizer.alignment_branch_eq (by omega), wrapped, offset, branches]
    rfl
  have keeps := (frame_keeps_time (by omega) mode step (List.replicate 4 (.real 1))).1
  rw [k, wrapped, branch] at keeps
  exact ⟨congrArg (·.2.isSome) step, keeps, by decide +kernel⟩

end FrameSync
