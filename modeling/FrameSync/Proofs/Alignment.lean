import FrameSync.Proofs.Estimate
import FrameSync.Proofs.Safety
import FrameSync.Proofs.Wrapping

/-!
How a detection sets the timing of a frame. The offset is at most half a sample, so in branches it
is at most half of their number, rounded up. To the left of zero it takes a branch of the sample
before, and the sample counter starts one further. Branch and counter together are the offset that
was asked for.
-/

namespace FrameSync

open Float.Model (UnpackedFloat)
open Float.Model.UnpackedFloat

section Single

variable {x : Float32}

theorem place_half : place (0.5 : Float32).toModel.unpack = toLex (1, toLex (-24, 0x800000)) := by
  decide +kernel

theorem place_neg_half :
    place (-0.5 : Float32).toModel.unpack = toLex (-1, toLex (24, -0x800000)) := by
  decide +kernel

theorem scaled_le_half {m : ℕ} {e : ℤ} (canonical : Canonical .binary32 m e)
    (below : e < -24 ∨ e = -24 ∧ m ≤ 0x800000) : scaled m e ≤ 1 / 2 := by
  obtain lower | ⟨rfl, less⟩ := below
  · have most : scaled m e < 2 ^ (e + 24) := scaled_lt canonical.short
    have between : (2 : ℚ) ^ (e + 24) ≤ 2 ^ (-1 : ℤ) := zpow_le_zpow_right₀ one_le_two (by omega)
    norm_num at between
    linarith
  · have most : scaled m (-24) ≤ scaled 0x800000 (-24) := scaled_le_scaled.mpr less
    norm_num [scaled] at most ⊢
    linarith

theorem half_cases (low : -0.5 ≤ x) (high : x ≤ 0.5) :
    (∃ s, x.toModel.unpack = .zero s) ∨
    ∃ s m e positive, x.toModel.unpack = .finite s m e positive ∧ scaled m e ≤ 1 / 2 := by
  obtain ⟨-, number, low⟩ := single_le_iff.mp low
  obtain ⟨-, -, high⟩ := single_le_iff.mp high
  rw [place_neg_half] at low
  rw [place_half] at high
  cases unpacked : x.toModel.unpack with
  | zero s => exact .inl ⟨s, rfl⟩
  | notANumber =>
    change x.toModel.unpack.isNaN = false at number
    rw [unpacked] at number
    cases number
  | infinity s =>
    rw [unpacked] at low high
    cases s <;> simp [place, Prod.Lex.le_iff] at low high
  | finite s m e positive =>
    have canonical := canonical_of_unpack unpacked
    refine .inr ⟨s, m, e, positive, rfl, scaled_le_half canonical ?_⟩
    rw [unpacked] at low high
    cases s with
    | positive =>
      simp [place, Prod.Lex.le_iff] at high
      omega
    | negative =>
      simp [place, Prod.Lex.le_iff] at low
      omega

/-- The product with a number of at most a half is rounded once more, but not past half of the
other factor, which is a single too. -/
theorem unpack_half_mul {n : ℕ} (positive : 0 < n) (small : n ≤ 0x1000000) (low : -0.5 ≤ x)
    (high : x ≤ 0.5) :
    (∃ s, (x * ofInteger n).toModel.unpack = .zero s) ∨
    ∃ s m e positive, (x * ofInteger n).toModel.unpack = .finite s m e positive ∧
      scaled m e ≤ n / 2 := by
  obtain ⟨m', e', positive', factor, canonical', full, whole, low', high'⟩ :=
    unpack_ofInteger positive small
  rw [unpack_mul, factor]
  obtain ⟨s, zero⟩ | ⟨s, m, e, positive, unpacked, half⟩ := half_cases low high
  · rw [zero]
    exact .inl ⟨_, unpack_packedZero⟩
  have once : UnpackedFloat.mul .binary32 (.finite s m e positive)
      (.finite .positive m' e' positive') =
        roundWithAccuracy .binary32 (s * .positive) (m * m') (e + e') .exact := rfl
  have bounded : scaled (m * m') (e + e') ≤ scaled m' (e' - 1) := by
    have nonneg := scaled_nonneg m' e'
    rw [scaled_mul, scaled_sub_one]
    nlinarith
  -- The second factor has a full mantissa, so the product has no place too few.
  have long : e + e' ≤ max ((m * m').log2 + 1 + (e + e') - 24) (-149) := by
    have log : 23 ≤ (m * m').log2 :=
      (Nat.le_log2 (by positivity)).mpr (full.trans (Nat.le_mul_of_pos_left _ positive))
    omega
  have fits : e' - 1 + 24 + 127 + 23 + 1 < 2 ^ 8 := by omega
  rw [unpacked, once, ← whole, ← scaled_sub_one]
  cases unpack_pack_roundWithAccuracy (s * .positive) (by positivity) long canonical'.short
      (show -149 ≤ e' - 1 by omega) bounded fits with
  | inl zero => exact .inl ⟨_, zero⟩
  | inr rounded =>
    obtain ⟨m'', e'', positive'', rounded, most⟩ := rounded
    exact .inr ⟨_, m'', e'', positive'', rounded, most⟩

theorem nearestNat_le {m n : ℕ} {e : ℤ} (bounded : scaled m e ≤ n / 2) :
    nearestNat m e ≤ (n + 1) / 2 := by
  unfold nearestNat
  rw [le_div_iff₀ two_pos] at bounded
  split
  next whole =>
    obtain ⟨d, rfl⟩ : ∃ d : ℕ, e = d := ⟨e.toNat, by omega⟩
    rw [scaled, zpow_natCast] at bounded
    have bounded : m * 2 ^ d * 2 ≤ n := by exact_mod_cast bounded
    rw [Int.toNat_natCast, Nat.shiftLeft_eq]
    omega
  next part =>
    obtain ⟨d, rfl⟩ : ∃ d : ℕ, e = -d := ⟨(-e).toNat, by omega⟩
    rw [scaled, zpow_neg, zpow_natCast, mul_right_comm, mul_inv_le_iff₀ (by positivity)] at bounded
    have bounded : m * 2 ≤ n * 2 ^ d := by exact_mod_cast bounded
    rw [neg_neg, Int.toNat_natCast, Nat.shiftLeft_eq, Nat.one_mul, Nat.shiftRight_eq_div_pow,
      Nat.pow_succ, ← Nat.mul_div_mul_right (n + 1) 2 (Nat.two_pow_pos d), Nat.mul_comm 2 (2 ^ d)]
    exact Nat.div_le_div_right (by rw [Nat.add_mul]; omega)

theorem natAbs_saturate32_le (s : Sign) (size : ℕ) : (saturate32 s size).natAbs ≤ size := by
  cases s <;> simp only [saturate32] <;> omega

theorem natAbs_nearestInt32_le {n : ℕ} (positive : 0 < n) (small : n ≤ 0x1000000)
    (low : -0.5 ≤ x) (high : x ≤ 0.5) :
    (nearestInt32 (x * ofInteger n)).natAbs ≤ (n + 1) / 2 := by
  unfold nearestInt32
  obtain ⟨s, zero⟩ | ⟨s, m, e, _, product, bounded⟩ := unpack_half_mul positive small low high
  · rw [zero]
    exact Nat.zero_le _
  · rw [product]
    exact (natAbs_saturate32_le _ _).trans (nearestNat_le bounded)

end Single

namespace Synchronizer

section

variable {c : Config}

def branchOffset (c : Config) (offset : Float32) : ℤ :=
  nearestInt32 (clamp offset (-0.5) 0.5 * ofInteger (signed32 c.branches))

/-- By how many samples all symbols of a frame but the first come early. -/
def wrap (c : Config) (offset : Float32) : ℕ := if branchOffset c offset < 0 then 1 else 0

theorem branchOffset_of_isNaN {offset : Float32} (none : offset.isNaN = true) :
    branchOffset c offset = 0 := by
  have unpacked : (offset * ofInteger (signed32 c.branches)).toModel.unpack = .notANumber := by
    obtain rfl : offset = Float32.nan := by simpa using none
    exact unpack_packedNaN
  rw [branchOffset, clamp_of_isNaN none, nearestInt32, unpacked]

theorem natAbs_branchOffset_le (positive : 0 < c.branches) (small : c.branches ≤ 0x1000000)
    (offset : Float32) : (branchOffset c offset).natAbs ≤ (c.branches + 1) / 2 := by
  cases number : offset.isNaN with
  | true =>
    rw [branchOffset_of_isNaN number]
    exact Nat.zero_le _
  | false =>
    have half : (-0.5 : Float32) ≤ 0.5 := by decide +kernel
    obtain ⟨low, high⟩ := clamp_bounds half number
    rw [branchOffset, signed32_eq (by omega)]
    exact natAbs_nearestInt32_le positive small low high

theorem wrap_cases (c : Config) (offset : Float32) :
    wrap c offset = 1 ∧ branchOffset c offset < 0 ∨
      wrap c offset = 0 ∧ 0 ≤ branchOffset c offset := by
  unfold wrap
  split
  next left => exact .inl ⟨rfl, left⟩
  next right => exact .inr ⟨rfl, Int.not_lt.mp right⟩

theorem wrap_le_one (c : Config) (offset : Float32) : wrap c offset ≤ 1 := by
  cases wrap_cases c offset <;> omega

theorem alignment_timer_eq (small : c.k < 0x80000000) (offset : Float32) :
    (alignment c offset).1 = c.k - 2 + wrap c offset := by
  unfold alignment wrap branchOffset
  rw [signed32_eq small]
  dsimp only
  split
  · push_cast
    omega
  · simp

theorem alignment_branch_eq (few : c.branches < 0x80000000) (offset : Float32) :
    (alignment c offset).2 =
      unsigned64 (min (branchOffset c offset + wrap c offset * c.branches) (c.branches - 1)) := by
  unfold alignment wrap branchOffset
  rw [signed32_eq few]
  dsimp only
  split <;> simp

end

/-- The timing that an estimate asks for: branch and counter of a frame that has just begun. -/
structure Aligned (c : Config) (e : Estimate) (t : Tracking) : Prop where
  bounded : (branchOffset c e.timing).natAbs ≤ (c.branches + 1) / 2
  none : e.timing.isNaN = true → branchOffset c e.timing = 0
  timer : t.timer = c.k - 2 + wrap c e.timing
  inside : t.branch < c.branches
  /-- Branch and wrap together are the offset. -/
  exact : 2 ≤ c.branches → (t.branch : ℤ) - wrap c e.timing * c.branches = branchOffset c e.timing
  /-- A single branch cannot follow an offset of a half that is rounded up. -/
  clipped : (t.branch : ℤ) - wrap c e.timing * c.branches ≠ branchOffset c e.timing →
    c.branches = 1 ∧ branchOffset c e.timing = 1
  symbols : t.symbols = 0
  frequency : t.frequency = e.frequency
  phase : t.phase = e.phase

theorem unsigned64_of_nonneg {i : ℤ} (nonneg : 0 ≤ i) : (unsigned64 i : ℤ) = i := by
  cases i with
  | ofNat n => rfl
  | negSucc n => omega

theorem aligned_alignment {c : Config} (small : c.k < 0x80000000) (positive : 0 < c.branches)
    (few : c.branches ≤ 0x1000000) (e : Estimate) :
    Aligned c e ⟨(alignment c e.timing).1, (alignment c e.timing).2, 0, e.frequency, e.phase⟩ := by
  have bounded := natAbs_branchOffset_le positive few e.timing
  have sides : (wrap c e.timing : ℤ) * c.branches = c.branches ∧ branchOffset c e.timing < 0 ∨
      (wrap c e.timing : ℤ) * c.branches = 0 ∧ 0 ≤ branchOffset c e.timing := by
    obtain ⟨wrapped, left⟩ | ⟨wrapped, right⟩ := wrap_cases c e.timing
    · exact .inl ⟨by simp [wrapped], left⟩
    · exact .inr ⟨by simp [wrapped], right⟩
  have index : ((alignment c e.timing).2 : ℤ) =
      min (branchOffset c e.timing + wrap c e.timing * c.branches) (c.branches - 1) := by
    rw [alignment_branch_eq (by omega)]
    exact unsigned64_of_nonneg (by omega)
  refine ⟨bounded, branchOffset_of_isNaN, alignment_timer_eq small e.timing, ?_, ?_, ?_, rfl, rfl,
    rfl⟩ <;> dsimp only <;> omega

end Synchronizer

/-- What this library's stages report after a detection has set them. The phase is brought into one
turn. -/
structure Reports (scale : Float32) (e : Estimate) (bank : FilterBank) (mixer : Oscillator) :
    Prop where
  scale : bank.scale = scale
  frequency : mixer.frequency = e.frequency
  angle : mixer.angle = wrapAngle (widen e.phase)

namespace Reports

variable {scale : Float32} {e : Estimate} {bank : FilterBank} {mixer : Oscillator}

theorem phase (reports : Reports scale e bank mixer) (nonneg : 0 ≤ widen e.phase)
    (below : widen e.phase < fullTurn) : mixer.phase = e.phase := by
  rw [Oscillator.phase, reports.angle]
  exact Oscillator.phase_setPhase (o := mixer) nonneg below

theorem whole_turns (reports : Reports scale e bank mixer) {p : ℚ}
    (value : HasValue (widen e.phase) p) (nonneg : 0 ≤ p) :
    ∃ k : ℤ, HasValue mixer.angle (p - k * turn) := by
  rw [reports.angle]
  exact value.wrapAngle_of_nonneg nonneg

/-- One turn is added to a phase below zero. Where the sum is rounded to a turn, the mixer starts
from zero. -/
theorem angle_of_neg (reports : Reports scale e bank mixer) {p : ℚ}
    (value : HasValue (widen e.phase) p) (low : -turn < p) (negative : p < 0) :
    mixer.angle =
      if fullTurn ≤ widen e.phase + fullTurn then 0 else widen e.phase + fullTurn := by
  rw [reports.angle]
  exact value.wrapAngle_of_neg low negative

end Reports

namespace Synchronizer

variable {C D M F : Type} [DetectorStage D] [MixerStage M] [BankStage F]

/-- With a detection, stages and timing are set from the estimate, before the first sample of the
window is run again; nothing else changes. -/
theorem handoff_keeps_timing {s : Synchronizer C D M F}
    (k : 2 ≤ s.config.k ∧ s.config.k < 0x80000000)
    (branches : 1 ≤ s.config.branches ∧ s.config.branches ≤ 0x1000000) (mode : s.mode = .searching)
    {x : Sample} {detector : D} {window : Array Sample}
    (step : DetectorStage.execute s.detector x = (detector, some window)) :
    let e := DetectorStage.estimate detector
    let scale := 1 / (ofCount s.config.k * e.gain)
    ∃ t, Aligned s.config e t ∧
      (∀ rest, Work.advance ⟨s, x :: rest⟩ =
        ⟨{ s with
            detector
            bank := BankStage.setScale s.bank scale
            mixer := MixerStage.setPhase (MixerStage.setFrequency s.mixer e.frequency) e.phase
            mode := .tracking t }, window.toList ++ rest⟩) ∧
      ∀ (bank : FilterBank) (mixer : Oscillator),
        Reports scale e (bank.setScale scale)
          ((mixer.setFrequency e.frequency).setPhase e.phase) := by
  intro e scale
  refine ⟨_, aligned_alignment k.2 branches.1 branches.2 e, ?_, ?_⟩
  · exact Work.advance_found mode step
  · exact fun bank mixer => ⟨rfl, narrow_widen e.frequency, rfl⟩

end Synchronizer

def climbingReceiver : Receiver Unit :=
  let fresh : Receiver Unit := Synchronizer.blank 2
    { shape := .rectangular, m := 1, branches := 4, bufferLength := 2 } pairTemplate
    ⟨#[#[1], #[1], #[1], #[1]], 1, #[0], 0, 1⟩ none ()
  (Work.advance^[3] ⟨fresh, [.real 1, ⟨0, 2⟩, .real (-3)]⟩).sync

theorem climbingReceiver_detects :
    climbingReceiver.config.k = 2 ∧ climbingReceiver.config.branches = 4 ∧
      climbingReceiver.mode = .searching ∧
      ∃ detector window,
        DetectorStage.execute climbingReceiver.detector ⟨0, -1⟩ = (detector, some window) ∧
        let e := DetectorStage.estimate detector
        Synchronizer.branchOffset climbingReceiver.config e.timing = -1 ∧
          e.gain = 2.5 ∧ e.frequency = 0.3 ∧ e.phase = 1.5707964 := by
  have config : climbingReceiver.config.k = 2 ∧ climbingReceiver.config.branches = 4 := by
    decide +kernel
  have mode : climbingReceiver.mode = .searching := by decide +kernel
  have found : (climbingReceiver.detector.execute ⟨0, -1⟩).2.isSome := by decide +kernel
  have estimate : let e := (climbingReceiver.detector.execute ⟨0, -1⟩).1.estimate
      Synchronizer.branchOffset climbingReceiver.config e.timing = -1 ∧
        e.gain = 2.5 ∧ e.frequency = 0.3 ∧ e.phase = 1.5707964 := by decide +kernel
  generalize climbingReceiver = s at *
  generalize step : s.detector.execute ⟨0, -1⟩ = result at *
  obtain ⟨detector, window⟩ := result
  obtain ⟨window, rfl⟩ := Option.isSome_iff_exists.mp found
  exact ⟨config.1, config.2, mode, detector, window, step, estimate⟩

theorem handoff_keeps_timing_climbing :
    ∃ detector window, climbingReceiver.mode = .searching ∧
      climbingReceiver.detector.execute ⟨0, -1⟩ = (detector, some window) ∧
      ∃ t, Synchronizer.Aligned climbingReceiver.config detector.estimate t ∧
        Synchronizer.branchOffset climbingReceiver.config detector.estimate.timing = -1 ∧
        t.branch = 3 ∧ t.timer = 1 ∧
        let s := (Work.advance ⟨climbingReceiver, [⟨0, -1⟩]⟩).sync
        s.mode = .tracking t ∧ s.bank.scale = 0.2 ∧ s.mixer.frequency = 0.3 ∧
          s.mixer.phase = 1.5707964 := by
  obtain ⟨k, branches, mode, detector, window, step, offset, gain, frequency, phase⟩ :=
    climbingReceiver_detects
  obtain ⟨t, aligned, opens, reports⟩ :=
    Synchronizer.handoff_keeps_timing (by omega) (by omega) mode step
  have reports := reports climbingReceiver.bank climbingReceiver.mixer
  have wrapped := Synchronizer.wrap_cases climbingReceiver.config
    (DetectorStage.estimate detector).timing
  have branch := aligned.exact (by omega)
  have timer := aligned.timer
  rw [branches] at branch
  refine ⟨detector, window, mode, step, t, aligned, offset, by omega, by omega, ?_⟩
  rw [opens]
  refine ⟨rfl, ?_, ?_, ?_⟩
  · refine reports.scale.trans ?_
    rw [k, gain]
    decide +kernel
  · exact reports.frequency.trans frequency
  · refine (reports.phase ?_ ?_).trans phase <;> rw [phase] <;> decide +kernel

end FrameSync
