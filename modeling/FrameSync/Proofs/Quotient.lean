import FrameSync.Proofs.Rounding

/-!
Quotients of floating-point numbers. A division keeps more places of the quotient than the format
has, and what it knows of the rest is whether it is zero, and how it compares with half a place. That
is enough to round once, and correctly, so that the result depends on the exact quotient alone.
-/

namespace FrameSync

open Float.Model (Format UnpackedFloat totalExponent)
open Float.Model.UnpackedFloat

section Fraction

variable {num num' den den' : ℕ}

/-- A fraction as a whole number and what is known of the rest. -/
def ofFraction (num den : ℕ) : ExtendedMantissa :=
  .ofMantissaAndAccuracy (num / den) (accuracyOfFraction (num % den) den)

theorem accuracyOfFraction_mul (rest den : ℕ) {c : ℕ} (positive : 0 < c) :
    accuracyOfFraction (rest * c) (den * c) = accuracyOfFraction rest den := by
  unfold accuracyOfFraction
  have zero : rest * c = 0 ↔ rest = 0 := by simp [positive.ne']
  have order : compare (2 * (rest * c)) (den * c) = compare (2 * rest) den := by
    rw [← Nat.mul_assoc]
    rcases Nat.lt_trichotomy (2 * rest) den with less | same | more
    · rw [compare_lt_iff_lt.mpr less, compare_lt_iff_lt]
      exact Nat.mul_lt_mul_of_pos_right less positive
    · rw [same]
      simp
    · rw [compare_gt_iff_gt.mpr more, compare_gt_iff_gt]
      exact Nat.mul_lt_mul_of_pos_right more positive
  simp only [zero, order]

theorem ofFraction_mul (num den : ℕ) {c : ℕ} (positive : 0 < c) :
    ofFraction (num * c) (den * c) = ofFraction num den := by
  rw [ofFraction, Nat.mul_div_mul_right _ _ positive, Nat.mul_mod_mul_right,
    accuracyOfFraction_mul _ _ positive]
  rfl

theorem ofFraction_congr (positive : 0 < den) (positive' : 0 < den')
    (same : (num / den : ℚ) = num' / den') : ofFraction num den = ofFraction num' den' := by
  rw [div_eq_div_iff (by positivity) (by positivity)] at same
  have same : num * den' = num' * den := by exact_mod_cast same
  rw [← ofFraction_mul num den positive', same, Nat.mul_comm den, ofFraction_mul _ _ positive]

theorem ofFraction_one (num : ℕ) : ofFraction num 1 = ⟨num, false, false⟩ := by
  simp [ofFraction, accuracyOfFraction, ExtendedMantissa.ofMantissaAndAccuracy, Nat.mod_one]

theorem shiftRightOne_ofFraction (num : ℕ) (positive : 0 < den) :
    (ofFraction num den).shiftRightOne = ofFraction num (den * 2) := by
  have whole : num / (den * 2) = num / den / 2 := (Nat.div_div_eq_div_mul ..).symm
  have rest : num % (den * 2) = num % den + den * (num / den % 2) := Nat.mod_mul
  have short : num % den < den := Nat.mod_lt _ positive
  unfold ofFraction
  rw [whole, rest]
  generalize num / den = q at *
  generalize num % den = r at *
  unfold accuracyOfFraction
  -- The digit that goes is zero, and what is left less than a half, or one, and it is not less.
  obtain even | odd := Nat.mod_two_eq_zero_or_one q
  · have below : compare (2 * r) (den * 2) = .lt := compare_lt_iff_lt.mpr (by omega)
    rw [even, Nat.mul_zero, Nat.add_zero, below]
    by_cases zero : r = 0
    · simp [zero, ExtendedMantissa.ofMantissaAndAccuracy, ExtendedMantissa.shiftRightOne, even]
    · rw [if_neg zero, if_neg zero]
      cases compare (2 * r) den <;>
        simp [ExtendedMantissa.ofMantissaAndAccuracy, ExtendedMantissa.shiftRightOne, even]
  · rw [odd, Nat.mul_one, if_neg (show ¬r + den = 0 by omega)]
    by_cases zero : r = 0
    · have half : compare (2 * (r + den)) (den * 2) = .eq := compare_eq_iff_eq.mpr (by omega)
      rw [half, if_pos zero]
      simp [ExtendedMantissa.ofMantissaAndAccuracy, ExtendedMantissa.shiftRightOne, odd]
    · have above : compare (2 * (r + den)) (den * 2) = .gt := compare_gt_iff_gt.mpr (by omega)
      rw [above, if_neg zero]
      cases compare (2 * r) den <;>
        simp [ExtendedMantissa.ofMantissaAndAccuracy, ExtendedMantissa.shiftRightOne, odd]

theorem shiftRight_ofFraction (num : ℕ) (positive : 0 < den) (n : ℕ) :
    ofFraction num den >>> n = ofFraction num (den * 2 ^ n) := by
  change n.repeat ExtendedMantissa.shiftRightOne _ = _
  induction n with
  | zero => simp [Nat.repeat]
  | succ n ih =>
    rw [Nat.repeat, ih, shiftRightOne_ofFraction num (by positivity), Nat.pow_succ, Nat.mul_assoc]

end Fraction

section Divide

variable {spec : Format} {m₁ m₂ m₃ m₄ b : ℕ} {e₁ e₂ e₃ e₄ c : ℤ}

theorem roundWithAccuracy_congr {m m' : ℕ} {e e' : ℤ} {a a' : Accuracy} (s : Sign)
    (same : shiftToTargetExponent spec m e a = shiftToTargetExponent spec m' e' a') :
    roundWithAccuracy spec s m e a = roundWithAccuracy spec s m' e' a' := by
  unfold roundWithAccuracy
  rw [same]

theorem log_div {m : ℕ} (positive : 0 < m₂) (whole : m / m₂ ≠ 0) (e : ℤ) :
    Int.log 2 ((m / m₂ : ℚ) * 2 ^ e) = (m / m₂).log2 + e := by
  have divisor : (0 : ℚ) < m₂ := by positivity
  have quotient : 0 < (m / m₂ : ℚ) * 2 ^ e := by
    have dividend : 0 < m := Nat.pos_of_ne_zero (by rintro rfl; simp at whole)
    positivity
  apply le_antisymm
  · rw [← Int.lt_add_one_iff, ← Int.lt_zpow_iff_log_lt one_lt_two quotient,
      Int.add_right_comm, Nat.cast_ofNat, zpow_add₀ two_ne_zero]
    gcongr
    rw [div_lt_iff₀ divisor, ← Nat.cast_add_one, zpow_natCast]
    have below : m < 2 ^ ((m / m₂).log2 + 1) * m₂ :=
      (Nat.div_lt_iff_lt_mul positive).mp Nat.lt_log2_self
    exact_mod_cast below
  · rw [← Int.zpow_le_iff_le_log one_lt_two quotient, Nat.cast_ofNat, zpow_add₀ two_ne_zero]
    gcongr
    rw [le_div_iff₀ divisor, zpow_natCast]
    have above : 2 ^ (m / m₂).log2 * m₂ ≤ m :=
      (Nat.le_div_iff_mul_le positive).mp (Nat.log2_self_le whole)
    exact_mod_cast above

theorem log_scaled_div_bounds (positive₁ : 0 < m₁) (positive₂ : 0 < m₂) (e₁ e₂ : ℤ) :
    (e₁ + m₁.log2) - (e₂ + m₂.log2 + 1) ≤ Int.log 2 (scaled m₁ e₁ / scaled m₂ e₂) ∧
      Int.log 2 (scaled m₁ e₁ / scaled m₂ e₂) ≤ (e₁ + m₁.log2) - (e₂ + m₂.log2) := by
  have low₁ := le_scaled (e := e₁) (Nat.log2_self_le positive₁.ne')
  have low₂ := le_scaled (e := e₂) (Nat.log2_self_le positive₂.ne')
  have high₁ := scaled_lt (e := e₁) (Nat.lt_log2_self (n := m₁))
  have high₂ := scaled_lt (e := e₂) (Nat.lt_log2_self (n := m₂))
  have dividend : 0 < scaled m₁ e₁ := lt_of_lt_of_le (by positivity) low₁
  have divisor : 0 < scaled m₂ e₂ := lt_of_lt_of_le (by positivity) low₂
  have quotient : 0 < scaled m₁ e₁ / scaled m₂ e₂ := div_pos dividend divisor
  push_cast at high₁ high₂
  constructor
  · rw [← Int.zpow_le_iff_le_log one_lt_two quotient, Nat.cast_ofNat, zpow_sub₀ two_ne_zero,
      add_assoc]
    exact div_le_div₀ dividend.le low₁ divisor high₂.le
  · rw [← Int.lt_add_one_iff, ← Int.lt_zpow_iff_log_lt one_lt_two quotient, Nat.cast_ofNat,
      sub_add_eq_add_sub, add_assoc, zpow_sub₀ two_ne_zero]
    exact div_lt_div₀ high₁ low₂ (by positivity) (by positivity)

theorem shiftToTargetExponent_divCore (positive₁ : 0 < m₁) (positive₂ : 0 < m₂)
    (normal : spec.minExponent + spec.mantissaBits ≤ Int.log 2 (scaled m₁ e₁ / scaled m₂ e₂)) :
    let last := Int.log 2 (scaled m₁ e₁ / scaled m₂ e₂) + 1 - spec.mantissaBits
    let core := divCore spec m₁ e₁ m₂ e₂
    ∃ num den : ℕ, 0 < den ∧ (num / den : ℚ) = scaled m₁ e₁ / scaled m₂ e₂ / 2 ^ last ∧
      shiftToTargetExponent spec core.1 core.2.1 core.2.2 = (ofFraction num den, last) := by
  intro last core
  obtain ⟨low, high⟩ := log_scaled_div_bounds positive₁ positive₂ e₁ e₂
  -- The division is carried out in units of `2 ^ t`, its result then cut down to `2 ^ last`.
  let t := min (e₁ - e₂) (spec.targetExponent (totalExponent m₁ e₁ - totalExponent m₂ e₂))
  let m := m₁ * 2 ^ (e₁ - e₂ - t).toNat
  have enough : t ≤ last := by
    have target : t ≤ max ((m₁.log2 + 1 + e₁) - (m₂.log2 + 1 + e₂) - spec.mantissaBits)
      spec.minExponent := min_le_right ..
    omega
  have value : (m / m₂ : ℚ) * 2 ^ t = scaled m₁ e₁ / scaled m₂ e₂ := by
    have exponent : t + (e₁ - e₂ - t).toNat = e₁ - e₂ := by omega
    have divisor : (m₂ : ℚ) ≠ 0 := by positivity
    have shifted : scaled m t = scaled m₁ (e₁ - e₂) := by rw [scaled_shift, exponent]
    rw [div_mul_eq_mul_div]
    change scaled m t / m₂ = _
    rw [shifted, scaled, scaled, scaled, zpow_sub₀ two_ne_zero]
    field_simp
  have whole : m / m₂ ≠ 0 := by
    have below : t ≤ Int.log 2 (scaled m₁ e₁ / scaled m₂ e₂) := by
      have bits : spec.mantissaBits = 1 + spec.mantissaBitsWithoutImplicit := rfl
      omega
    have quotient : 0 < scaled m₁ e₁ / scaled m₂ e₂ := by
      unfold scaled
      positivity
    rw [← Int.zpow_le_iff_le_log one_lt_two quotient, Nat.cast_ofNat, ← value,
      le_mul_iff_one_le_left (by positivity), one_le_div₀ (by positivity)] at below
    exact (Nat.div_pos (by exact_mod_cast below) positive₂).ne'
  have log := log_div positive₂ whole t
  rw [value] at log
  have target : spec.targetExponent (totalExponent (m / m₂) t) = last := by
    change max ((m / m₂).log2 + 1 + t - spec.mantissaBits) spec.minExponent = last
    omega
  have exponent : t + (last - t).toNat = last := by omega
  refine ⟨m, m₂ * 2 ^ (last - t).toNat, by positivity, ?_, ?_⟩
  · generalize (last - t).toNat = n at exponent
    rw [← value, ← exponent, zpow_add₀ two_ne_zero, zpow_natCast]
    push_cast
    field_simp
  · have parts : core = (m / m₂, t, accuracyOfFraction (m % m₂) m₂) := by
      simp only [core, divCore, Nat.shiftLeft_eq]
      rfl
    rw [parts, ← shiftRight_ofFraction m positive₂]
    change (ofFraction m m₂ >>> (spec.targetExponent (totalExponent (m / m₂) t) - t).toNat,
      t + (spec.targetExponent (totalExponent (m / m₂) t) - t).toNat) = _
    rw [target, exponent]

variable {s₁ s₂ s₃ s₄ : Sign} {positive₁ : 0 < m₁} {positive₂ : 0 < m₂} {positive₃ : 0 < m₃}
  {positive₄ : 0 < m₄}

/-- A quotient is rounded once, so it depends on its exact value alone. -/
theorem div_congr
    (normal : spec.minExponent + spec.mantissaBits ≤ Int.log 2 (scaled m₁ e₁ / scaled m₂ e₂))
    (sign : s₁ / s₂ = s₃ / s₄)
    (same : scaled m₁ e₁ / scaled m₂ e₂ = scaled m₃ e₃ / scaled m₄ e₄) :
    UnpackedFloat.div spec (.finite s₁ m₁ e₁ positive₁) (.finite s₂ m₂ e₂ positive₂) =
      UnpackedFloat.div spec (.finite s₃ m₃ e₃ positive₃) (.finite s₄ m₄ e₄ positive₄) := by
  obtain ⟨num, den, positive, fraction, cut⟩ :=
    shiftToTargetExponent_divCore positive₁ positive₂ normal
  rw [same] at normal
  obtain ⟨num', den', positive', fraction', cut'⟩ :=
    shiftToTargetExponent_divCore positive₃ positive₄ normal
  have fractions : ofFraction num den = ofFraction num' den' := by
    apply ofFraction_congr positive positive'
    rw [fraction, fraction', same]
  rw [fractions, same, ← cut'] at cut
  change roundWithAccuracy spec (s₁ / s₂) _ _ _ = roundWithAccuracy spec (s₃ / s₄) _ _ _
  rw [sign]
  exact roundWithAccuracy_congr _ cut

theorem div_exact (canonical : Canonical spec b c)
    (full : 2 ^ spec.mantissaBitsWithoutImplicit ≤ b) (positive : 0 < b)
    (room : spec.minExponent < c) (exact : scaled m₁ e₁ / scaled m₂ e₂ = scaled b c) :
    UnpackedFloat.div spec (.finite s₁ m₁ e₁ positive₁) (.finite s₂ m₂ e₂ positive₂) =
      .finite (s₁ / s₂) b c positive := by
  have log : b.log2 = spec.mantissaBitsWithoutImplicit :=
    (Nat.log2_eq_iff positive.ne').mpr ⟨full, by
      rw [Nat.pow_succ, ← two_pow_mantissaBits]
      exact canonical.short⟩
  have bits : spec.mantissaBits = 1 + spec.mantissaBitsWithoutImplicit := rfl
  have place : Int.log 2 (scaled b c) = spec.mantissaBitsWithoutImplicit + c := by
    have place := log_div (m := b) one_pos (by omega) c
    rwa [Nat.div_one, log, Nat.cast_one, div_one] at place
  have normal :
      spec.minExponent + spec.mantissaBits ≤ Int.log 2 (scaled m₁ e₁ / scaled m₂ e₂) := by
    rw [exact, place]
    omega
  obtain ⟨num, den, divisor, fraction, cut⟩ :=
    shiftToTargetExponent_divCore positive₁ positive₂ normal
  have last : (spec.mantissaBitsWithoutImplicit + c + 1 - spec.mantissaBits : ℤ) = c := by omega
  rw [exact, place, last] at fraction cut
  have whole : ofFraction num den = ofFraction b 1 := by
    apply ofFraction_congr divisor one_pos
    rw [fraction, scaled, Nat.cast_one, div_one, mul_div_cancel_right₀ _ (by positivity)]
  have target : spec.targetExponent (totalExponent b c) = c := canonical.targetExponent positive
  -- What is exact is cut down to the same mantissa, so both are rounded alike.
  have held : shiftToTargetExponent spec b c .exact = (ofFraction b 1, c) := by
    rw [shiftToTargetExponent, target, shiftToExponent, sub_self, ofFraction_one]
    simp only [Int.toNat_zero, Nat.cast_zero, add_zero]
    rfl
  rw [whole, ← held] at cut
  have rounded := roundWithAccuracy_exact (s₁ / s₂) canonical positive 0
  rw [Nat.pow_zero, Nat.mul_one, Nat.cast_zero, sub_zero] at rounded
  exact (roundWithAccuracy_congr _ cut).trans rounded

end Divide

theorem unpack_div (x y : Float32) :
    (x / y).toModel.unpack = unpack .binary32 (pack .binary32
      (UnpackedFloat.div .binary32 x.toModel.unpack y.toModel.unpack)) := rfl

end FrameSync
