import FrameSync.Proofs.Conversion
import FrameSync.Proofs.WholeNumbers

/-!
Doubles as the numbers that they are. They compare as these numbers, a sum of two that is not too
large is a number again, with the sign of the exact sum, and every finite single is far from too large.
-/

namespace FrameSync

open Float.Model (Format UnpackedFloat totalExponent)
open Float.Model.UnpackedFloat

section Format

variable {spec : Format} {m b : ℕ} {e c : ℤ}

theorem exists_value?_finite {r : ℚ} (s : Sign) (positive : 0 < m) (bounded : scaled m e ≤ r) :
    ∃ q, value? (.finite s m e positive) = some q ∧ |q| ≤ r ∧ (s = .positive → 0 ≤ q) := by
  have size := scaled_nonneg m e
  cases s with
  | positive => exact ⟨_, rfl, by rwa [abs_of_nonneg size], fun _ => size⟩
  | negative => exact ⟨_, rfl, by rwa [abs_neg, abs_of_nonneg size], nofun⟩

theorem exists_round_eq (spec : Format) (s : Sign) (positive : 0 < m) (e : ℤ) :
    ∃ n : ℕ, UnpackedFloat.round spec s m e =
        roundWithAccuracy spec s (m * 2 ^ n) (e - n) .exact ∧
      e - n ≤ spec.targetExponent (totalExponent (m * 2 ^ n) (e - n)) := by
  refine ⟨(e - spec.targetExponent (totalExponent m e)).toNat, ?_, ?_⟩
  · rw [← Nat.shiftLeft_eq]
    rfl
  · generalize places : (e - spec.targetExponent (totalExponent m e)).toNat = n
    change (e - max (m.log2 + 1 + e - spec.mantissaBits) spec.minExponent).toNat = n at places
    change e - n ≤ max ((m * 2 ^ n).log2 + 1 + (e - n) - spec.mantissaBits) spec.minExponent
    rw [log2_mul_two_pow positive]
    omega

theorem exists_value?_round (s : Sign) (positive : 0 < m) (short : b < 2 ^ spec.mantissaBits)
    (low : spec.minExponent ≤ c) (bounded : scaled m e ≤ scaled b c)
    (fits : c + spec.mantissaBits + spec.exponentBias + spec.mantissaBitsWithoutImplicit + 1 <
      2 ^ spec.exponentBits) :
    ∃ q, value? (unpack spec (pack spec (UnpackedFloat.round spec s m e))) = some q ∧
      |q| ≤ scaled b c ∧ (s = .positive → 0 ≤ q) := by
  obtain ⟨n, extended, long⟩ := exists_round_eq spec s positive e
  have same : scaled (m * 2 ^ n) (e - n) = scaled m e := by rw [scaled_shift, Int.sub_add_cancel]
  rw [← same] at bounded
  rw [extended]
  obtain zero | ⟨m', e', positive', rounded, most⟩ :=
    unpack_pack_roundWithAccuracy s (by positivity) long short low bounded fits
  · rw [zero]
    exact ⟨0, rfl, by simpa using scaled_nonneg b c, fun _ => le_rfl⟩
  · rw [rounded]
    exact exists_value?_finite s positive' most

theorem exists_value?_normalize {M : ℤ} (s : Sign) (short : b < 2 ^ spec.mantissaBits)
    (low : spec.minExponent ≤ c) (bounded : |(M * 2 ^ e : ℚ)| ≤ scaled b c)
    (fits : c + spec.mantissaBits + spec.exponentBias + spec.mantissaBitsWithoutImplicit + 1 <
      2 ^ spec.exponentBits) :
    ∃ q, value? (unpack spec (pack spec (UnpackedFloat.normalize spec M e s))) = some q ∧
      |q| ≤ scaled b c ∧ (0 ≤ M → 0 ≤ q) := by
  have size : scaled M.natAbs e ≤ scaled b c := by
    rw [abs_mul, abs_of_pos (show (0 : ℚ) < 2 ^ e by positivity)] at bounded
    rw [scaled, Nat.cast_natAbs, Int.cast_abs]
    exact bounded
  unfold UnpackedFloat.normalize
  rcases lt_trichotomy M 0 with negative | rfl | positive
  · rw [compare_lt_iff_lt.mpr negative]
    dsimp only
    rw [show (-M).toNat = M.natAbs by omega]
    obtain ⟨q, value, most, -⟩ := exists_value?_round .negative (by omega) short low size fits
    exact ⟨q, value, most, fun nonneg => absurd negative (not_lt.mpr nonneg)⟩
  · rw [compare_eq_iff_eq.mpr rfl]
    dsimp only
    rw [show pack spec (.zero s) = packedZero spec s from rfl, unpack_packedZero]
    exact ⟨0, rfl, by simpa using scaled_nonneg b c, fun _ => le_rfl⟩
  · rw [compare_gt_iff_gt.mpr positive]
    dsimp only
    rw [show M.toNat = M.natAbs by omega]
    obtain ⟨q, value, most, nonneg⟩ := exists_value?_round .positive (by omega) short low size fits
    exact ⟨q, value, most, fun _ => nonneg rfl⟩

theorem unpackExponent_ne_of_isFinite {w : BitVec spec.numBits}
    (finite : (unpack spec w).isFinite = true) : unpackExponent w ≠ -1#_ := by
  intro top
  unfold unpack at finite
  dsimp only at finite
  rw [if_pos top] at finite
  split_ifs at finite <;> cases finite

theorem exists_value?_unpack {w : BitVec spec.numBits} {n : ℕ} (normal : 0 < n)
    (finite : n + 1 < 2 ^ spec.exponentBits) (field : (unpackExponent w).toNat ≤ n) :
    ∃ q, value? (unpack spec w) = some q ∧ |q| ≤ 2 ^ (n + 1 - spec.exponentBias : ℤ) := by
  have least := minExponent_eq spec
  have bits := two_pow_mantissaBits spec
  have width : spec.mantissaBits = 1 + spec.mantissaBitsWithoutImplicit := rfl
  have fraction := (unpackMantissa w).isLt
  have top : unpackExponent w ≠ -1#_ := by
    intro top
    rw [top, toNat_minus_one] at field
    omega
  have size (s : Sign) {m : ℕ} {e : ℤ} (positive : 0 < m) (short : m < 2 ^ spec.mantissaBits)
      (low : e + spec.mantissaBits ≤ n + 1 - spec.exponentBias) :
      ∃ q, value? (.finite s m e positive) = some q ∧
        |q| ≤ 2 ^ (n + 1 - spec.exponentBias : ℤ) := by
    have most := (scaled_lt short).le.trans (zpow_le_zpow_right₀ one_le_two low)
    obtain ⟨q, value, bounded, -⟩ := exists_value?_finite s positive most
    exact ⟨q, value, bounded⟩
  unfold unpack
  dsimp only
  rw [if_neg top]
  split_ifs with subnormal zero
  · exact ⟨0, rfl, by simpa using zpow_nonneg zero_le_two _⟩
  · apply size _ _ (by omega)
    rw [subnormal, BitVec.toNat_ofNat, Nat.zero_mod]
    omega
  · apply size _ _ (by rw [toNat_implicit]; omega)
    omega

end Format

def HasValue (x : Float) (q : ℚ) : Prop := value? x.toModel.unpack = some q

theorem hasValue_zero : HasValue 0 0 := rfl

theorem add_eq (x y : Float) :
    x + y = .ofModel (.pack (UnpackedFloat.add .binary64 x.toModel.unpack y.toModel.unpack)) := rfl

theorem apply_shiftLeft (s : Sign) (m : ℕ) {e f : ℤ} (lower : f ≤ e) :
    (s.apply (m <<< (e - f).toNat : ℕ) * 2 ^ f : ℚ) = s.apply m * 2 ^ e := by
  have shifted := scaled_shiftLeft m lower
  rw [scaled, scaled] at shifted
  cases s with
  | positive => exact_mod_cast shifted
  | negative =>
    rw [Sign.apply, Sign.apply, Int.cast_neg, Int.cast_neg, Int.cast_natCast, Int.cast_natCast,
      neg_mul, neg_mul, shifted]

theorem abs_apply (s : Sign) (m : ℕ) (e : ℤ) : |(s.apply m * 2 ^ e : ℚ)| = scaled m e := by
  have size := scaled_nonneg m e
  rw [scaled] at size ⊢
  cases s with
  | positive => exact abs_of_nonneg size
  | negative =>
    rw [Sign.apply]
    push_cast
    rw [neg_mul, abs_neg, abs_of_nonneg size]

theorem sign_of_nonneg {s : Sign} {m : ℕ} {e : ℤ} (positive : 0 < m)
    (nonneg : 0 ≤ (s.apply m * 2 ^ e : ℚ)) : s = .positive := by
  cases s with
  | positive => rfl
  | negative =>
    have size := scaled_pos positive e
    rw [scaled] at size
    rw [Sign.apply] at nonneg
    push_cast at nonneg
    linarith

namespace HasValue

variable {x y : Float} {p q : ℚ}

theorem lt_iff (value : HasValue x p) (value' : HasValue y q) : x < y ↔ p < q := by
  change x.lt y = true ↔ _
  rw [Float.lt, decide_eq_true_iff]
  exact unpack_lt_iff value value'

theorem le_iff (value : HasValue x p) (value' : HasValue y q) : x ≤ y ↔ p ≤ q := by
  change x.le y = true ↔ _
  rw [Float.le, decide_eq_true_iff]
  exact unpack_le_iff value value'

theorem zero_or_finite (value : HasValue x p) :
    (∃ s, x.toModel.unpack = .zero s ∧ p = 0) ∨ ∃ s m e positive,
      x.toModel.unpack = .finite s m e positive ∧ p = s.apply m * 2 ^ e := by
  unfold HasValue at value
  cases unpacked : x.toModel.unpack with
  | notANumber => simp [unpacked, value?] at value
  | infinity s => simp [unpacked, value?] at value
  | zero s =>
    rw [unpacked] at value
    exact .inl ⟨s, rfl, (Option.some.inj value).symm⟩
  | finite s m e positive =>
    rw [unpacked] at value
    refine .inr ⟨s, m, e, positive, rfl, ?_⟩
    cases s with
    | positive => exact (Option.some.inj value).symm
    | negative =>
      rw [← Option.some.inj value, scaled, Sign.apply]
      push_cast
      ring

theorem round (s : Sign) {m : ℕ} {e : ℤ} (positive : 0 < m) (short : m < 2 ^ 53) (low : -1074 ≤ e)
    (high : e ≤ 900) :
    HasValue (.ofModel (.pack (UnpackedFloat.round .binary64 s m e))) (s.apply m * 2 ^ e) := by
  obtain ⟨m', e', canonical, positive', same, below⟩ :=
    @exists_canonical_of_short .binary64 m e positive short low
  have stored : unpack .binary64 (pack .binary64 (.finite s m' e' positive')) =
      .finite s m' e' positive' := by
    apply unpack_pack s canonical positive'
    norm_num [Format.exponentBias]
    omega
  rw [round_exact s canonical positive' same.symm]
  change value? (unpack .binary64 (pack .binary64 (.finite s m' e' positive'))) = _
  rw [stored]
  cases s with
  | positive => exact congrArg some same
  | negative =>
    rw [value?, same, scaled, Sign.apply]
    push_cast
    rw [neg_mul]

theorem add (value : HasValue x p) (value' : HasValue y q) (bounded : |p + q| ≤ 2 ^ 200) :
    ∃ t, HasValue (x + y) t ∧ (0 ≤ p + q → 0 ≤ t) := by
  obtain ⟨s, unpacked, rfl⟩ | ⟨s, m, e, positive, unpacked, rfl⟩ := value.zero_or_finite <;>
    obtain ⟨s', unpacked', rfl⟩ | ⟨s', m', e', positive', unpacked', rfl⟩ := value'.zero_or_finite
  · refine ⟨0, ?_, fun _ => le_rfl⟩
    rw [add_eq, unpacked, unpacked']
    cases s <;> cases s' <;> rfl
  · have same : x + y = y :=
      calc x + y = .ofModel (.pack y.toModel.unpack) := by rw [add_eq, unpacked, unpacked']; rfl
        _ = y := pack_unpack_double y
    rw [same, zero_add]
    exact ⟨_, value', id⟩
  · have same : x + y = x :=
      calc x + y = .ofModel (.pack x.toModel.unpack) := by rw [add_eq, unpacked, unpacked']; rfl
        _ = x := pack_unpack_double x
    rw [same, add_zero]
    exact ⟨_, value, id⟩
  · -- In units of the smaller exponent both mantissas are whole, and so is their sum.
    have aligned := apply_shiftLeft s m (min_le_left e e')
    have aligned' := apply_shiftLeft s' m' (min_le_right e e')
    have unit : (0 : ℚ) < 2 ^ min e e' := by positivity
    rw [← aligned, ← aligned', ← add_mul, ← Int.cast_add] at bounded ⊢
    have one : (2 : ℚ) ^ 200 = scaled 1 200 := by rw [scaled, Nat.cast_one, one_mul]; norm_cast
    rw [one] at bounded
    obtain ⟨t, sum, -, nonneg⟩ := @exists_value?_normalize .binary64 1 (min e e') 200 _ .positive
      (by decide) (by decide) bounded (by decide)
    refine ⟨t, ?_, fun above => nonneg ?_⟩
    · rw [add_eq, unpacked, unpacked']
      exact sum
    · exact_mod_cast nonneg_of_mul_nonneg_left above unit

end HasValue

theorem widenedBits_lt {exponent fraction : ℕ} (finite : exponent < 255)
    (small : fraction < 0x800000) : widenedBits exponent fraction < 1151 * 2 ^ 52 := by
  unfold widenedBits
  simp only [Nat.shiftLeft_eq]
  split_ifs with top normal zero
  · omega
  · omega
  · omega
  · obtain ⟨log, -, high⟩ := lead_bounds zero small
    omega

theorem exists_hasValue_widen {x : Float32} (finite : x.isFinite = true) :
    ∃ q, HasValue (widen x) q ∧ |q| ≤ 2 ^ 128 := by
  have top := unpackExponent_ne_of_isFinite finite
  rw [Ne, ← BitVec.toNat_inj, @toNat_unpackExponent .binary32, toNat_minus_one] at top
  change ¬x.toBits.toNat / 2 ^ 23 % 2 ^ 8 = 2 ^ 8 - 1 at top
  have number : x.isNaN = false := by
    rw [← Bool.not_eq_true]
    intro nan
    exact top ((@isNaN_unpack_iff .binary32 x.toBits.toBitVec).mp nan).1
  obtain ⟨short, small, -⟩ := fields_of_isNaN number
  obtain ⟨-, bits⟩ := toNat_toBits_widen number
  have below := widenedBits_lt (show x.toBits.toNat % 2 ^ 31 / 0x800000 < 255 by omega) small
  have field : (@unpackExponent .binary64 (widen x).toBits.toBitVec).toNat ≤ 1150 := by
    rw [@toNat_unpackExponent .binary64, UInt64.toNat_toBitVec, bits]
    change _ / 2 ^ 52 % 2 ^ 11 ≤ 1150
    omega
  exact @exists_value?_unpack .binary64 _ 1150 (by decide) (by decide) field

end FrameSync
