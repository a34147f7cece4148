import FrameSync.Stage
import FrameSync.Proofs.Doubles
import FrameSync.Proofs.Narrowing

/-!
The phase of an oscillator. Wrapping takes whole turns away and leaves an angle within one turn as it
is. Whatever finite frequencies and phases an oscillator is given, the angle it keeps is never below
zero and always less than a turn. The phase that is read of it is the nearest single, and for an
angle that is nearer to a whole turn than to the single before it this is the whole turn.
-/

namespace FrameSync

open Float.Model (UnpackedFloat)
open Float.Model.UnpackedFloat

section Angle

variable {m n : ℕ} {e f : ℤ}

theorem remainderNat_value (m : ℕ) (e : ℤ) (n : ℕ) (f : ℤ) :
    ∃ q : ℕ, scaled (remainderNat m e n f) (min e f) = scaled m e - q * scaled n f := by
  refine ⟨(m <<< (e - min e f).toNat) / (n <<< (f - min e f).toNat), ?_⟩
  have parts := Nat.mod_add_div (m <<< (e - min e f).toNat) (n <<< (f - min e f).toNat)
  rw [← scaled_shiftLeft m (min_le_left e f), ← scaled_shiftLeft n (min_le_right e f), remainderNat]
  generalize m <<< (e - min e f).toNat = a at *
  generalize n <<< (f - min e f).toNat = b at *
  rw [eq_sub_iff_add_eq, scaled, scaled, scaled, ← mul_assoc, ← add_mul, mul_comm (_ : ℚ) (b : ℚ)]
  congr 1
  exact_mod_cast parts

theorem apply_remainderNat (s : Sign) (m : ℕ) (e : ℤ) (n : ℕ) (f : ℤ) :
    ∃ k : ℤ, (s.apply m * 2 ^ e - k * scaled n f : ℚ) =
      s.apply (remainderNat m e n f) * 2 ^ min e f := by
  obtain ⟨q, whole⟩ := remainderNat_value m e n f
  refine ⟨s.apply q, ?_⟩
  simp only [scaled] at whole ⊢
  cases s with
  | positive => exact whole.symm
  | negative =>
    simp only [Sign.apply]
    push_cast
    linarith

theorem remainderNat_lt (m : ℕ) (e : ℤ) (positive : 0 < n) (f : ℤ) :
    scaled (remainderNat m e n f) (min e f) < scaled n f := by
  rw [← scaled_shiftLeft n (min_le_right e f)]
  refine lt_of_not_ge fun least => Nat.not_le.mpr ?_ (scaled_le_scaled.mp least)
  apply Nat.mod_lt
  rw [Nat.shiftLeft_eq]
  positivity

theorem remainderNat_of_lt (less : scaled m e < scaled n f) :
    remainderNat m e n f = m <<< (e - min e f).toNat := by
  apply Nat.mod_eq_of_lt
  rw [← scaled_shiftLeft m (min_le_left e f), ← scaled_shiftLeft n (min_le_right e f)] at less
  exact lt_of_not_ge fun least => absurd (scaled_le_scaled.mpr least) (not_le.mpr less)

/-- The mantissa on the finer grid is not shifted, so a remainder needs no more places than one of
the two has. -/
theorem remainderNat_short {b : ℕ} (short : m < b) (short' : n < b) (positive : 0 < n) :
    remainderNat m e n f < b := by
  rcases le_total e f with finer | coarser
  · have same : (e - min e f).toNat = 0 := by omega
    rw [remainderNat, same, Nat.shiftLeft_zero]
    exact (Nat.mod_le _ _).trans_lt short
  · have same : (f - min e f).toNat = 0 := by omega
    rw [remainderNat, same, Nat.shiftLeft_zero]
    exact (Nat.mod_lt _ positive).trans short'

def turn : ℚ := scaled 7074237752028440 (-50)

theorem turn_pos : 0 < turn := scaled_pos (by decide) _

theorem turn_le : turn ≤ 8 := by norm_num [turn, scaled]

theorem unpack_fullTurn :
    fullTurn.toModel.unpack = .finite .positive 7074237752028440 (-50) (by decide) := rfl

theorem hasValue_fullTurn : HasValue fullTurn turn := rfl

theorem exists_hasValue_of_lt {x : Float} (nonneg : 0 ≤ x) (below : x < fullTurn) :
    ∃ p, HasValue x p ∧ 0 ≤ p ∧ p < turn := by
  have value : ∃ p, HasValue x p := by
    obtain ⟨-, number, low⟩ := double_le_iff.mp nonneg
    obtain ⟨-, -, high⟩ := double_lt_iff.mp below
    change x.toModel.unpack.isNaN = false at number
    change toLex (0, toLex (0, 0)) ≤ _ at low
    rw [unpack_fullTurn] at high
    unfold HasValue
    cases unpacked : x.toModel.unpack with
    | notANumber => simp [unpacked, UnpackedFloat.isNaN] at number
    | infinity s =>
      rw [unpacked] at low high
      cases s <;> simp [place, Prod.Lex.le_iff, Prod.Lex.lt_iff] at low high
    | zero s => exact ⟨0, rfl⟩
    | finite s m e positive => cases s <;> exact ⟨_, rfl⟩
  obtain ⟨p, value⟩ := value
  exact ⟨p, value, (hasValue_zero.le_iff value).mp nonneg, (value.lt_iff hasValue_fullTurn).mp below⟩

namespace HasValue

variable {x : Float} {p : ℚ}

/-- The remainder is exact: it differs from the number by whole turns. -/
theorem remainder (value : HasValue x p) :
    ∃ k : ℤ, HasValue (remainder x fullTurn) (p - k * turn) ∧ |p - k * turn| < turn ∧
      (0 ≤ p → 0 ≤ p - k * turn) := by
  unfold HasValue FrameSync.remainder
  rw [unpack_fullTurn]
  obtain ⟨s, unpacked, rfl⟩ | ⟨s, m, e, positive, unpacked, rfl⟩ := value.zero_or_finite
  · rw [unpacked]
    refine ⟨0, ?_, by simpa using turn_pos, by simp⟩
    rw [Int.cast_zero, zero_mul, sub_zero]
    cases s <;> rfl
  · have canonical : Canonical .binary64 m e := canonical_of_unpack unpacked
    have low : -1074 ≤ min e (-50) := le_min canonical.low (by decide)
    have short : remainderNat m e 7074237752028440 (-50) < 2 ^ 53 :=
      remainderNat_short canonical.short (by decide) (by decide)
    have less : scaled (remainderNat m e 7074237752028440 (-50)) (min e (-50)) < turn :=
      remainderNat_lt m e (by decide) (-50)
    obtain ⟨k, left⟩ := apply_remainderNat s m e 7074237752028440 (-50)
    rw [unpacked]
    dsimp only
    generalize remainderNat m e 7074237752028440 (-50) = r at *
    refine ⟨k, ?_, ?_, ?_⟩ <;> rw [turn, left]
    · cases r with
      | zero => cases s <;> simp [Sign.apply] <;> rfl
      | succ r => exact round s (Nat.succ_pos r) short low (by omega)
    · rw [abs_apply]
      exact less
    · intro nonneg
      obtain rfl := sign_of_nonneg positive nonneg
      exact scaled_nonneg r _

theorem remainder_eq_self (value : HasValue x p) (within : |p| < turn) :
    FrameSync.remainder x fullTurn = x := by
  unfold FrameSync.remainder
  rw [unpack_fullTurn]
  obtain ⟨s, unpacked, rfl⟩ | ⟨s, m, e, positive, unpacked, rfl⟩ := value.zero_or_finite
  · have same : x = .ofModel (.pack (.zero s)) := by rw [← unpacked, pack_unpack_double]
    rw [unpacked, same]
  · have canonical : Canonical .binary64 m e := canonical_of_unpack unpacked
    have shifted := scaled_shiftLeft m (min_le_left e (-50))
    have same : x = .ofModel (.pack (.finite s m e positive)) := by
      rw [← unpacked, pack_unpack_double]
    rw [abs_apply] at within
    rw [unpacked, same]
    dsimp only
    rw [remainderNat_of_lt within]
    cases written : m <<< (e - min e (-50)).toNat with
    | zero =>
      rw [Nat.shiftLeft_eq] at written
      have := Nat.mul_pos positive (Nat.two_pow_pos (e - min e (-50)).toNat)
      omega
    | succ r =>
      rw [written] at shifted
      exact congrArg (Float.ofModel <| .pack ·) (round_exact s canonical positive shifted)

theorem lift {t : ℚ} (value : HasValue x t) (bounded : |t| < turn) :
    ∃ u, HasValue (if x < 0 then x + fullTurn else x) u ∧ 0 ≤ u := by
  obtain ⟨least, most⟩ := abs_lt.mp bounded
  split
  next =>
    have above : 0 ≤ t + turn := by linarith
    have small : |t + turn| ≤ 2 ^ 200 := by
      have turn_le := turn_le
      rw [abs_of_nonneg above]
      linarith
    obtain ⟨u, sum, nonneg⟩ := value.add hasValue_fullTurn small
    exact ⟨u, sum, nonneg above⟩
  next nonneg => exact ⟨t, value, not_lt.mp (mt (value.lt_iff hasValue_zero).mpr nonneg)⟩

theorem wrapAngle (value : HasValue x p) : ∃ a, HasValue (wrapAngle x) a ∧ 0 ≤ a ∧ a < turn := by
  obtain ⟨k, rest, bounded, -⟩ := value.remainder
  obtain ⟨u, lifted, nonneg⟩ := rest.lift bounded
  unfold FrameSync.wrapAngle
  dsimp only
  generalize (if FrameSync.remainder x fullTurn < 0 then FrameSync.remainder x fullTurn + fullTurn
    else FrameSync.remainder x fullTurn) = r at lifted ⊢
  split
  next => exact ⟨0, hasValue_zero, le_rfl, turn_pos⟩
  next below =>
    exact ⟨u, lifted, nonneg, not_le.mp (mt (hasValue_fullTurn.le_iff lifted).mpr below)⟩

theorem wrapAngle_eq_remainder {t : ℚ} (rest : HasValue (FrameSync.remainder x fullTurn) t)
    (nonneg : 0 ≤ t) (below : t < turn) :
    FrameSync.wrapAngle x = FrameSync.remainder x fullTurn := by
  have inside : ¬FrameSync.remainder x fullTurn < 0 := by rwa [rest.lt_iff hasValue_zero, not_lt]
  have short : ¬fullTurn ≤ FrameSync.remainder x fullTurn := by
    rwa [hasValue_fullTurn.le_iff rest, not_le]
  rw [FrameSync.wrapAngle, if_neg inside, if_neg short]

theorem wrapAngle_of_nonneg (value : HasValue x p) (nonneg : 0 ≤ p) :
    ∃ k : ℤ, HasValue (FrameSync.wrapAngle x) (p - k * turn) := by
  obtain ⟨k, rest, bounded, above⟩ := value.remainder
  refine ⟨k, ?_⟩
  rwa [wrapAngle_eq_remainder rest (above nonneg) (abs_lt.mp bounded).2]

theorem wrapAngle_eq_self (value : HasValue x p) (nonneg : 0 ≤ p) (below : p < turn) :
    FrameSync.wrapAngle x = x := by
  have same := value.remainder_eq_self (show |p| < turn by rwa [abs_of_nonneg nonneg])
  rw [wrapAngle_eq_remainder (same.symm ▸ value) nonneg below, same]

theorem wrapAngle_of_neg (value : HasValue x p) (low : -turn < p) (negative : p < 0) :
    FrameSync.wrapAngle x = if fullTurn ≤ x + fullTurn then 0 else x + fullTurn := by
  have within : |p| < turn := by
    rw [abs_of_neg negative]
    linarith
  rw [FrameSync.wrapAngle, value.remainder_eq_self within,
    if_pos ((value.lt_iff hasValue_zero).mpr negative)]

end HasValue

end Angle

inductive OscillatorCall where
  | setFrequency (frequency : Float32)
  | setPhase (phase : Float32)
  | step
  | reset

def OscillatorCall.isFinite : OscillatorCall → Bool
  | .setFrequency x | .setPhase x => x.isFinite
  | .step | .reset => true

namespace Oscillator

variable {o : Oscillator}

def perform (o : Oscillator) : OscillatorCall → Oscillator
  | .setFrequency frequency => o.setFrequency frequency
  | .setPhase phase => o.setPhase phase
  | .step => o.step
  | .reset => o.reset

def after (o : Oscillator) (calls : List OscillatorCall) : Oscillator :=
  calls.foldl perform o

/-- An angle within one turn, and a frequency such that their sum is a number. -/
structure Turning (o : Oscillator) : Prop where
  angle : ∃ a, HasValue o.angle a ∧ 0 ≤ a ∧ a < turn
  rate : ∃ r, HasValue o.rate r ∧ |r| ≤ 2 ^ 128

theorem turning_ofFrequency {frequency : Float32} (finite : frequency.isFinite = true) :
    Turning (ofFrequency frequency) :=
  ⟨⟨0, hasValue_zero, le_rfl, turn_pos⟩, exists_hasValue_widen finite⟩

theorem turning_default : Turning default :=
  ⟨⟨0, hasValue_zero, le_rfl, turn_pos⟩, ⟨0, hasValue_zero, by simp⟩⟩

theorem Turning.setFrequency {frequency : Float32} (turning : Turning o)
    (finite : frequency.isFinite = true) : Turning (o.setFrequency frequency) :=
  ⟨turning.angle, exists_hasValue_widen finite⟩

theorem Turning.setPhase {phase : Float32} (turning : Turning o) (finite : phase.isFinite = true) :
    Turning (o.setPhase phase) := by
  obtain ⟨p, value, -⟩ := exists_hasValue_widen finite
  exact ⟨value.wrapAngle, turning.rate⟩

theorem Turning.reset (turning : Turning o) : Turning o.reset :=
  ⟨⟨0, hasValue_zero, le_rfl, turn_pos⟩, turning.rate⟩

theorem Turning.step (turning : Turning o) : Turning o.step := by
  refine ⟨?_, turning.rate⟩
  obtain ⟨a, angle, nonneg, below⟩ := turning.angle
  obtain ⟨r, rate, bounded⟩ := turning.rate
  have small : |a + r| ≤ 2 ^ 200 :=
    calc |a + r| ≤ |a| + |r| := abs_add_le a r
      _ ≤ 8 + 2 ^ 128 := by
        rw [abs_of_nonneg nonneg]
        exact add_le_add (below.le.trans turn_le) bounded
      _ ≤ 2 ^ 200 := by norm_num
  obtain ⟨s, sum, -⟩ := angle.add rate small
  unfold Oscillator.step
  dsimp only
  generalize o.angle + o.rate = x at *
  split
  next => exact sum.wrapAngle
  next inside =>
    rw [Bool.or_eq_true, decide_eq_true_iff, decide_eq_true_iff, hasValue_fullTurn.le_iff sum,
      sum.lt_iff hasValue_zero] at inside
    exact ⟨s, sum, not_lt.mp fun low => inside (.inr low), not_le.mp fun high => inside (.inl high)⟩

theorem Turning.perform {call : OscillatorCall} (turning : Turning o)
    (finite : call.isFinite = true) : Turning (o.perform call) := by
  cases call with
  | setFrequency => exact turning.setFrequency finite
  | setPhase => exact turning.setPhase finite
  | step => exact turning.step
  | reset => exact turning.reset

theorem Turning.after {calls : List OscillatorCall} (turning : Turning o)
    (finite : ∀ call ∈ calls, call.isFinite = true) : Turning (o.after calls) := by
  induction calls generalizing o with
  | nil => exact turning
  | cons call calls ih =>
    rw [List.forall_mem_cons] at finite
    exact ih (turning.perform finite.1) finite.2

theorem phase_setPhase {phase : Float32} (nonneg : 0 ≤ widen phase)
    (below : widen phase < fullTurn) : (o.setPhase phase).phase = phase := by
  obtain ⟨p, value, nonneg, below⟩ := exists_hasValue_of_lt nonneg below
  change narrow (wrapAngle (widen phase)) = phase
  rw [value.wrapAngle_eq_self nonneg below, narrow_widen]

structure Wrapped (o : Oscillator) : Prop where
  angle_nonneg : 0 ≤ o.angle
  angle_lt : o.angle < fullTurn
  phase_nonneg : 0 ≤ o.phase
  phase_le : o.phase ≤ 2 * halfTurn
  /-- The phase that is read is a whole turn for angles beyond the midpoint, and only for these. -/
  phase_lt_iff : o.phase < 2 * halfTurn ↔ o.angle ≤ turnMidpoint
  /-- A synchronizer reads the same phase of the oscillator that it mixes with. -/
  mixer : MixerStage.phase o = o.phase

theorem Turning.wrapped (turning : Turning o) : Wrapped o := by
  obtain ⟨a, angle, nonneg, below⟩ := turning.angle
  have angle_nonneg : 0 ≤ o.angle := (hasValue_zero.le_iff angle).mpr nonneg
  have angle_lt : o.angle < fullTurn := (angle.lt_iff hasValue_fullTurn).mpr below
  obtain ⟨phase_nonneg, phase_le, phase_lt_iff⟩ := narrow_turn angle_nonneg angle_lt
  exact { angle_nonneg, angle_lt, phase_nonneg, phase_le, phase_lt_iff, mixer := rfl }

/-- An oscillator stays within one turn, and the phase that is read of it is less than a turn unless
the angle is past the midpoint between a turn and the single before it. -/
theorem stays_wrapped
    (fresh : o = default ∨ ∃ frequency, frequency.isFinite = true ∧ o = ofFrequency frequency)
    (calls : List OscillatorCall) (finite : ∀ call ∈ calls, call.isFinite = true) :
    (o.after calls).Wrapped := by
  have turning : Turning o := by
    obtain rfl | ⟨frequency, finite, rfl⟩ := fresh
    · exact turning_default
    · exact turning_ofFrequency finite
  exact (turning.after finite).wrapped

def backwards : List OscillatorCall :=
  [.step, .setPhase (-1e-8), .step, .setFrequency 3e38, .step]

theorem stays_wrapped_backwards :
    (-7 : Float32).isFinite = true ∧ (∀ call ∈ backwards, call.isFinite = true) ∧
      ((ofFrequency (-7)).after backwards).Wrapped := by
  have finite : ∀ call ∈ backwards, call.isFinite = true := by decide +kernel
  have fresh : (-7 : Float32).isFinite = true := by decide +kernel
  exact ⟨fresh, finite, stays_wrapped (.inr ⟨-7, fresh, rfl⟩) backwards finite⟩

/-- A phase just below zero is wrapped to an angle less than a turn, and read as a whole one. -/
theorem phase_reaches_turn :
    (∀ call ∈ [OscillatorCall.setPhase (-1e-8)], call.isFinite = true) ∧
      (after default [.setPhase (-1e-8)]).angle < fullTurn ∧
      (after default [.setPhase (-1e-8)]).phase = 2 * halfTurn ∧
      ¬(after default [.setPhase (-1e-8)]).phase < 2 * halfTurn := by
  decide +kernel

end Oscillator

end FrameSync
