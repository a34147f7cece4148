import FrameSync.Numeric.Conversion
import FrameSync.Proofs.Comparison

/-!
Rounding to a floating-point format. A format holds the numbers `m * 2 ^ e` whose mantissa is short
enough and whose exponent is not too low. Those are not changed by rounding, and no other number is
rounded past one of them.
-/

namespace FrameSync

open Float.Model (Format UnpackedFloat totalExponent)
open Float.Model.UnpackedFloat

def scaled (m : ℕ) (e : ℤ) : ℚ := m * 2 ^ e

theorem scaled_nonneg (m : ℕ) (e : ℤ) : 0 ≤ scaled m e := by
  unfold scaled
  positivity

theorem scaled_shift (m n : ℕ) (e : ℤ) : scaled (m * 2 ^ n) e = scaled m (e + n) := by
  rw [scaled, scaled, zpow_add₀ two_ne_zero, zpow_natCast]
  push_cast
  ring

theorem scaled_shiftLeft (m : ℕ) {e c : ℤ} (finer : c ≤ e) :
    scaled (m <<< (e - c).toNat) c = scaled m e := by
  rw [Nat.shiftLeft_eq, scaled_shift]
  congr 1
  omega

theorem scaled_mul (m m' : ℕ) (e e' : ℤ) :
    scaled (m * m') (e + e') = scaled m e * scaled m' e' := by
  rw [scaled, scaled, scaled, zpow_add₀ two_ne_zero]
  push_cast
  ring

theorem scaled_sub_one (m : ℕ) (e : ℤ) : scaled m (e - 1) = scaled m e / 2 := by
  rw [scaled, scaled, zpow_sub₀ two_ne_zero, zpow_one]
  ring

theorem scaled_le_scaled {m m' : ℕ} {e : ℤ} : scaled m e ≤ scaled m' e ↔ m ≤ m' := by
  have positive : (0 : ℚ) < 2 ^ e := by positivity
  rw [scaled, scaled, mul_le_mul_iff_left₀ positive, Nat.cast_le]

theorem scaled_lt {m p : ℕ} {e : ℤ} (short : m < 2 ^ p) : scaled m e < 2 ^ (e + p) := by
  have positive : (0 : ℚ) < 2 ^ e := by positivity
  rw [scaled, zpow_add₀ two_ne_zero, zpow_natCast, mul_comm]
  exact mul_lt_mul_of_pos_left (by exact_mod_cast short) positive

theorem le_scaled {m p : ℕ} {e : ℤ} (long : 2 ^ p ≤ m) : (2 : ℚ) ^ (e + p) ≤ scaled m e := by
  rw [scaled, zpow_add₀ two_ne_zero, zpow_natCast, mul_comm]
  gcongr
  exact_mod_cast long

theorem exponent_le {m p : ℕ} {e c : ℤ} (long : 2 ^ p ≤ m) (bounded : scaled m e ≤ 2 ^ c) :
    e + p ≤ c :=
  (zpow_le_zpow_iff_right₀ one_lt_two).mp ((le_scaled long).trans bounded)

def absValue : UnpackedFloat → ℚ
  | .finite _ m e _ => scaled m e
  | _ => 0

section Shift

def roundedShift (m n : ℕ) : ℕ :=
  ((⟨m, false, false⟩ : ExtendedMantissa) >>> n).roundedMantissa

theorem mantissa_shiftRight (em : ExtendedMantissa) (n : ℕ) :
    (em >>> n).mantissa = em.mantissa / 2 ^ n := by
  change (n.repeat ExtendedMantissa.shiftRightOne em).mantissa = _
  induction n with
  | zero => simp [Nat.repeat]
  | succ n ih =>
    change (n.repeat ExtendedMantissa.shiftRightOne em).mantissa / 2 = _
    rw [ih, Nat.div_div_eq_div_mul, Nat.pow_succ]

theorem roundedShift_bounds (m n : ℕ) :
    m / 2 ^ n ≤ roundedShift m n ∧ roundedShift m n ≤ m / 2 ^ n + 1 := by
  rw [← mantissa_shiftRight ⟨m, false, false⟩ n]
  unfold roundedShift ExtendedMantissa.roundedMantissa
  generalize (⟨m, false, false⟩ : ExtendedMantissa) >>> n = em
  obtain ⟨m, roundBit, stickyBit⟩ := em
  cases roundBit <;> cases stickyBit <;>
    simp only [ExtendedMantissa.accuracy, Accuracy.roundToNearestEven] <;> omega

theorem roundedShift_exact (m n : ℕ) : roundedShift (m * 2 ^ n) n = m := by
  have shifted (m : ℕ) : n.repeat ExtendedMantissa.shiftRightOne ⟨m * 2 ^ n, false, false⟩ =
      ⟨m, false, false⟩ := by
    induction n generalizing m with
    | zero => simp [Nat.repeat]
    | succ n ih =>
      rw [Nat.repeat, Nat.pow_succ, Nat.mul_comm (2 ^ n), ← Nat.mul_assoc, ih]
      simp [ExtendedMantissa.shiftRightOne]
  change (n.repeat ExtendedMantissa.shiftRightOne _).roundedMantissa = m
  rw [shifted]
  rfl

theorem roundedShift_le {m n b : ℕ} (bounded : m ≤ b * 2 ^ n) : roundedShift m n ≤ b := by
  obtain rfl | below := Nat.eq_or_lt_of_le bounded
  · exact (roundedShift_exact b n).le
  · have quotient : m / 2 ^ n < b := (Nat.div_lt_iff_lt_mul (by positivity)).mpr below
    have bounds := roundedShift_bounds m n
    omega

end Shift

section Round

variable {spec : Format}

/-- A mantissa and an exponent that the format holds. -/
structure Canonical (spec : Format) (m : ℕ) (e : ℤ) : Prop where
  short : m < 2 ^ spec.mantissaBits
  low : spec.minExponent ≤ e
  full : 2 ^ spec.mantissaBitsWithoutImplicit ≤ m ∨ e = spec.minExponent

/-- By how many places a mantissa is too long. -/
def surplus (spec : Format) (m : ℕ) (e : ℤ) : ℕ :=
  (spec.targetExponent (totalExponent m e) - e).toNat

theorem two_pow_mantissaBits (spec : Format) :
    2 ^ spec.mantissaBits = 2 ^ spec.mantissaBitsWithoutImplicit * 2 := by
  rw [Format.mantissaBits, Nat.add_comm, Nat.pow_succ]

theorem surplus_eq (spec : Format) (m : ℕ) (e : ℤ) :
    (surplus spec m e : ℤ) =
      max (max (m.log2 + 1 + e - spec.mantissaBits) spec.minExponent - e) 0 := by
  rw [surplus, Int.ofNat_toNat]
  rfl

theorem roundedShift_surplus_le (spec : Format) (m : ℕ) (e : ℤ) :
    roundedShift m (surplus spec m e) ≤ 2 ^ spec.mantissaBits := by
  apply roundedShift_le
  have enough : m.log2 + 1 ≤ spec.mantissaBits + surplus spec m e := by
    have surplus := surplus_eq spec m e
    omega
  calc m ≤ 2 ^ (m.log2 + 1) := Nat.lt_log2_self.le
    _ ≤ 2 ^ (spec.mantissaBits + surplus spec m e) := Nat.pow_le_pow_right two_pos enough
    _ = _ := Nat.pow_add ..

def ofParts (s : Sign) (m : ℕ) (e : ℤ) : UnpackedFloat :=
  if h : m = 0 then .zero s else .finite s m e (Nat.pos_of_ne_zero h)

theorem absValue_ofParts (s : Sign) (m : ℕ) (e : ℤ) : absValue (ofParts s m e) = scaled m e := by
  unfold ofParts
  split
  next zero => simp [absValue, scaled, zero]
  next => rfl

theorem roundedShift_surplus_eq {m : ℕ} {e : ℤ}
    (carried : ¬roundedShift m (surplus spec m e) < 2 ^ spec.mantissaBits) :
    roundedShift m (surplus spec m e) = 2 ^ spec.mantissaBits :=
  (roundedShift_surplus_le spec m e).antisymm (Nat.le_of_not_lt carried)

/-- Rounding drops the places that are too many. When that carries into a place more, the mantissa
is a power of two and the exponent goes up. -/
theorem roundWithAccuracy_eq (spec : Format) (s : Sign) (m : ℕ) (e : ℤ) :
    let n := surplus spec m e
    roundWithAccuracy spec s m e .exact =
      if roundedShift m n < 2 ^ spec.mantissaBits then ofParts s (roundedShift m n) (e + n)
      else ofParts s (2 ^ spec.mantissaBitsWithoutImplicit) (e + n + 1) := by
  intro n
  have low : spec.minExponent ≤ e + n := by
    have surplus := surplus_eq spec m e
    omega
  -- The second shift drops the carry, if there is one.
  have second : roundWithAccuracy spec s m e .exact =
      ofParts s (roundedShift m n / 2 ^ surplus spec (roundedShift m n) (e + n))
        (e + n + surplus spec (roundedShift m n) (e + n)) := by
    rw [← mantissa_shiftRight ⟨roundedShift m n, false, false⟩]
    rfl
  rw [second]
  split
  next short =>
    have none : surplus spec (roundedShift m n) (e + n) = 0 := by
      have surplus := surplus_eq spec (roundedShift m n) (e + n)
      have log : (roundedShift m n).log2 + 1 ≤ spec.mantissaBits := by
        by_cases zero : roundedShift m n = 0
        · rw [zero, Nat.log2_zero, Format.mantissaBits]
          omega
        · exact (Nat.log2_lt zero).mpr short
      omega
    simp [none]
  next long =>
    have carried : roundedShift m n = 2 ^ spec.mantissaBits := roundedShift_surplus_eq long
    have one : surplus spec (2 ^ spec.mantissaBits) (e + n) = 1 := by
      have surplus := surplus_eq spec (2 ^ spec.mantissaBits) (e + n)
      rw [Nat.log2_two_pow] at surplus
      omega
    rw [carried, one, two_pow_mantissaBits, Nat.pow_one, Nat.mul_div_cancel _ two_pos]
    rfl

theorem absValue_roundWithAccuracy (spec : Format) (s : Sign) (m : ℕ) (e : ℤ) :
    absValue (roundWithAccuracy spec s m e .exact) =
      scaled (roundedShift m (surplus spec m e)) (e + surplus spec m e) := by
  rw [roundWithAccuracy_eq]
  split
  next => exact absValue_ofParts ..
  next long =>
    rw [absValue_ofParts, roundedShift_surplus_eq long, two_pow_mantissaBits, ← Nat.pow_one 2,
      ← Nat.pow_mul, scaled_shift]
    simp

theorem absValue_roundWithAccuracy_le {m b : ℕ} {e c : ℤ} (s : Sign)
    (short : b < 2 ^ spec.mantissaBits) (low : spec.minExponent ≤ c)
    (bounded : scaled m e ≤ scaled b c) :
    absValue (roundWithAccuracy spec s m e .exact) ≤ scaled b c := by
  rw [absValue_roundWithAccuracy]
  have surplus := surplus_eq spec m e
  generalize FrameSync.surplus spec m e = n at surplus
  cases n with
  | zero =>
    have same := roundedShift_exact m 0
    rw [Nat.pow_zero, Nat.mul_one] at same
    simpa [same] using bounded
  | succ n =>
    have above : e + (n + 1 : ℕ) ≤ c := by
      by_contra below
      have zero : m ≠ 0 := by
        rintro rfl
        rw [Nat.log2_zero, Format.mantissaBits] at surplus
        omega
      have least : (2 : ℚ) ^ (e + m.log2) ≤ scaled m e := le_scaled (Nat.log2_self_le zero)
      have most : scaled b c < 2 ^ (c + spec.mantissaBits) := scaled_lt short
      have between : (2 : ℚ) ^ (c + spec.mantissaBits) ≤ 2 ^ (e + m.log2) :=
        zpow_le_zpow_right₀ one_le_two (by omega)
      linarith
    obtain ⟨d, rfl⟩ := Int.le.dest above
    rw [← scaled_shift b d, ← scaled_shift, scaled_le_scaled] at bounded
    rw [← scaled_shift b d, scaled_le_scaled]
    exact roundedShift_le bounded

theorem Canonical.targetExponent {m : ℕ} {e : ℤ} (canonical : Canonical spec m e)
    (positive : 0 < m) :
    max (m.log2 + 1 + e - spec.mantissaBits) spec.minExponent = e := by
  have low := canonical.low
  have log := (Nat.log2_lt positive.ne').mpr canonical.short
  cases canonical.full with
  | inl full =>
    have log' := (Nat.le_log2 positive.ne').mpr full
    rw [Format.mantissaBits] at *
    omega
  | inr lowest => omega

theorem mul_two_pow_bounds {m : ℕ} (positive : 0 < m) (n : ℕ) :
    2 ^ (m.log2 + n) ≤ m * 2 ^ n ∧ m * 2 ^ n < 2 ^ (m.log2 + n + 1) := by
  rw [Nat.add_right_comm, Nat.pow_add, Nat.pow_add]
  constructor
  · exact Nat.mul_le_mul_right _ (Nat.log2_self_le positive.ne')
  · exact Nat.mul_lt_mul_of_pos_right Nat.lt_log2_self (by positivity)

theorem log2_mul_two_pow {m : ℕ} (positive : 0 < m) (n : ℕ) : (m * 2 ^ n).log2 = m.log2 + n :=
  (Nat.log2_eq_iff (by positivity)).mpr (mul_two_pow_bounds positive n)

theorem roundWithAccuracy_exact {m : ℕ} {e : ℤ} (s : Sign) (canonical : Canonical spec m e)
    (positive : 0 < m) (n : ℕ) :
    roundWithAccuracy spec s (m * 2 ^ n) (e - n) .exact = .finite s m e positive := by
  have target := canonical.targetExponent positive
  have places : surplus spec (m * 2 ^ n) (e - n) = n := by
    have surplus := surplus_eq spec (m * 2 ^ n) (e - n)
    rw [log2_mul_two_pow positive] at surplus
    omega
  rw [roundWithAccuracy_eq, places, roundedShift_exact, if_pos canonical.short, Int.sub_add_cancel,
    ofParts, dif_neg positive.ne']

theorem round_exact {m m' : ℕ} {e e' : ℤ} (s : Sign) (canonical : Canonical spec m e)
    (positive : 0 < m) (same : scaled m' e' = scaled m e) :
    UnpackedFloat.round spec s m' e' = .finite s m e positive := by
  have target := canonical.targetExponent positive
  cases Int.le_total e e' with
  | inl above =>
    obtain ⟨d, rfl⟩ := Int.le.dest above
    rw [← scaled_shift] at same
    obtain rfl : m' * 2 ^ d = m :=
      le_antisymm (scaled_le_scaled.mp same.le) (scaled_le_scaled.mp same.ge)
    have positive' : 0 < m' := Nat.pos_of_mul_pos_right positive
    rw [log2_mul_two_pow positive'] at target
    have places : spec.targetExponent (totalExponent m' (e + d)) = e := by
      change max (m'.log2 + 1 + (e + d) - spec.mantissaBits) spec.minExponent = e
      omega
    have exact := roundWithAccuracy_exact s canonical positive 0
    simpa [UnpackedFloat.round, places, decreaseExponent, Nat.shiftLeft_eq] using exact
  | inr below =>
    obtain ⟨d, rfl⟩ := Int.le.dest below
    rw [← scaled_shift] at same
    obtain rfl : m' = m * 2 ^ d :=
      le_antisymm (scaled_le_scaled.mp same.le) (scaled_le_scaled.mp same.ge)
    have places : spec.targetExponent (totalExponent (m * 2 ^ d) e') = e' + d := by
      change max ((m * 2 ^ d).log2 + 1 + e' - spec.mantissaBits) spec.minExponent = e' + d
      rw [log2_mul_two_pow positive]
      omega
    have exact := roundWithAccuracy_exact s canonical positive d
    simpa [UnpackedFloat.round, places, decreaseExponent] using exact

theorem exists_canonical {n : ℕ} (positive : 0 < n) (small : n ≤ 2 ^ spec.mantissaBits)
    (room : spec.minExponent + spec.mantissaBitsWithoutImplicit ≤ 0) :
    ∃ m e, Canonical spec m e ∧ 2 ^ spec.mantissaBitsWithoutImplicit ≤ m ∧ scaled m e = n ∧
      -spec.mantissaBitsWithoutImplicit ≤ e := by
  have bits := two_pow_mantissaBits spec
  obtain rfl | short := Nat.eq_or_lt_of_le small
  · refine ⟨2 ^ spec.mantissaBitsWithoutImplicit, 1, ⟨?_, by omega, .inl le_rfl⟩, le_rfl, ?_,
      by omega⟩
    · have := Nat.two_pow_pos spec.mantissaBitsWithoutImplicit
      omega
    · rw [scaled, bits]
      push_cast
      ring
  · have log := (Nat.log2_lt positive.ne').mpr short
    rw [Format.mantissaBits] at log
    obtain ⟨d, places⟩ := Nat.exists_eq_add_of_le (Nat.lt_succ_iff.mp (Nat.add_comm 1 _ ▸ log))
    obtain ⟨full, short'⟩ := mul_two_pow_bounds positive d
    rw [← places] at full short'
    rw [Nat.pow_succ, ← bits] at short'
    refine ⟨n * 2 ^ d, -d, ⟨short', by omega, .inl full⟩, full, ?_, by omega⟩
    rw [scaled_shift, neg_add_cancel, scaled, zpow_zero, mul_one]

theorem exists_canonical_of_short {m : ℕ} {e : ℤ} (positive : 0 < m)
    (short : m < 2 ^ spec.mantissaBits) (low : spec.minExponent ≤ e) :
    ∃ m' e', Canonical spec m' e' ∧ 0 < m' ∧ scaled m' e' = scaled m e ∧ e' ≤ e := by
  have log := (Nat.log2_lt positive.ne').mpr short
  rw [Format.mantissaBits] at log
  generalize places :
    min (spec.mantissaBitsWithoutImplicit - m.log2) (e - spec.minExponent).toNat = d
  obtain ⟨full, below⟩ := mul_two_pow_bounds positive d
  refine ⟨m * 2 ^ d, e - d, ⟨?_, by omega, ?_⟩, by positivity, ?_, by omega⟩
  · refine below.trans_le (Nat.pow_le_pow_right two_pos ?_)
    rw [Format.mantissaBits]
    omega
  · by_cases lowest : e - d = spec.minExponent
    · exact .inr lowest
    · exact .inl ((Nat.pow_le_pow_right two_pos (by omega)).trans full)
  · rw [scaled_shift, Int.sub_add_cancel]

theorem ofParts_cases (s : Sign) (m : ℕ) (e : ℤ) :
    ofParts s m e = .zero s ∨ ∃ positive, ofParts s m e = .finite s m e positive := by
  unfold ofParts
  split
  next => exact .inl rfl
  next nonzero => exact .inr ⟨Nat.pos_of_ne_zero nonzero, rfl⟩

theorem roundWithAccuracy_cases {m : ℕ} {e : ℤ} (s : Sign) (positive : 0 < m)
    (long : e ≤ spec.targetExponent (totalExponent m e)) :
    roundWithAccuracy spec s m e .exact = .zero s ∨
    ∃ m' e' positive', roundWithAccuracy spec s m e .exact = .finite s m' e' positive' ∧
      Canonical spec m' e' := by
  have surplus := surplus_eq spec m e
  have least := (roundedShift_bounds m (FrameSync.surplus spec m e)).1
  have exponent : e + FrameSync.surplus spec m e =
      max (m.log2 + 1 + e - spec.mantissaBits) spec.minExponent := by
    change e ≤ max (m.log2 + 1 + e - spec.mantissaBits) spec.minExponent at long
    omega
  rw [roundWithAccuracy_eq]
  generalize FrameSync.surplus spec m e = n at *
  split
  next short =>
    obtain zero | ⟨positive', parts⟩ := ofParts_cases s (roundedShift m n) (e + n)
    · exact .inl zero
    refine .inr ⟨_, _, positive', parts, short, by omega, ?_⟩
    by_cases lowest : e + n = spec.minExponent
    · exact .inr lowest
    · left
      refine le_trans ?_ least
      rw [Nat.le_div_iff_mul_le (by positivity), ← Nat.pow_add]
      refine le_trans (Nat.pow_le_pow_right two_pos ?_) (Nat.log2_self_le positive.ne')
      rw [Format.mantissaBits] at exponent
      omega
  next carried =>
    have power := Nat.two_pow_pos spec.mantissaBitsWithoutImplicit
    have bits := two_pow_mantissaBits spec
    rw [ofParts, dif_neg power.ne']
    exact .inr ⟨_, _, power, rfl, by omega, by omega, .inl le_rfl⟩

end Round

section Pack

variable {spec : Format}

theorem toNat_implicit {n : ℕ} (fraction : BitVec n) :
    (1#1 ++ fraction).toNat = 2 ^ n + fraction.toNat := by
  rw [BitVec.toNat_append, BitVec.toNat_ofNat, ← Nat.shiftLeft_add_eq_or_of_lt fraction.isLt]
  simp [Nat.shiftLeft_eq]

theorem minExponent_eq (spec : Format) :
    spec.minExponent = 1 - (spec.exponentBias + spec.mantissaBitsWithoutImplicit : ℤ) := by
  have positive := Nat.two_pow_pos (spec.exponentBits - 1)
  have power : ((2 ^ (spec.exponentBits - 1) : ℕ) : ℤ) = 2 ^ (spec.exponentBits - 1) := by norm_cast
  rw [Format.minExponent, Format.exponentBias, Format.mantissaBits]
  omega

theorem canonical_of_unpack {b : BitVec spec.numBits} {s : Sign} {m : ℕ} {e : ℤ} {positive : 0 < m}
    (unpacked : unpack spec b = .finite s m e positive) : Canonical spec m e := by
  have low := minExponent_eq spec
  have bits := two_pow_mantissaBits spec
  have short := (unpackMantissa b).isLt
  unfold unpack at unpacked
  dsimp only at unpacked
  split_ifs at unpacked with top infinite subnormal zero
  · cases unpacked
    have field : (unpackExponent b).toNat = 0 := by rw [subnormal, BitVec.toNat_ofNat, Nat.zero_mod]
    exact ⟨by omega, by omega, .inr (by omega)⟩
  · cases unpacked
    have field : (unpackExponent b).toNat ≠ 0 := fun none => subnormal (BitVec.eq_of_toNat_eq none)
    rw [toNat_implicit]
    exact ⟨by omega, by omega, .inl (Nat.le_add_right ..)⟩

theorem toNat_minus_one (n : ℕ) : (-1#_ : BitVec n).toNat = 2 ^ n - 1 := by
  rw [BitVec.neg_one_eq_allOnes, BitVec.toNat_allOnes]

theorem ofNat_ne_minus_one {n i : ℕ} (below : i + 1 < 2 ^ n) : BitVec.ofNat n i ≠ -1#_ := by
  intro same
  have same := congrArg BitVec.toNat same
  rw [BitVec.toNat_ofNat, Nat.mod_eq_of_lt (by omega), toNat_minus_one] at same
  omega

theorem ofNat_ne_zero {n i : ℕ} (positive : 0 < i) (below : i < 2 ^ n) :
    BitVec.ofNat n i ≠ 0#_ := by
  intro same
  have same := congrArg BitVec.toNat same
  rw [BitVec.toNat_ofNat, Nat.mod_eq_of_lt below, BitVec.toNat_ofNat, Nat.zero_mod] at same
  omega

theorem unpack_normal {field m : ℕ} (s : Sign) (positive : 0 < m) (above : 0 < field)
    (below : field + 1 < 2 ^ spec.exponentBits) (full : 2 ^ spec.mantissaBitsWithoutImplicit ≤ m)
    (short : m < 2 ^ spec.mantissaBits) :
    unpack spec (packComponents spec s (.ofNat _ field) (.ofNat _ m)) =
      .finite s m (field - (spec.exponentBias + spec.mantissaBitsWithoutImplicit)) positive := by
  have bits := two_pow_mantissaBits spec
  have stored : (BitVec.ofNat spec.exponentBits field).toNat = field := by
    rw [BitVec.toNat_ofNat, Nat.mod_eq_of_lt (by omega)]
  have top := ofNat_ne_minus_one below
  have bottom := ofNat_ne_zero above (Nat.lt_of_succ_lt below)
  have mantissa : (1#1 ++ BitVec.ofNat spec.mantissaBitsWithoutImplicit m).toNat = m := by
    rw [toNat_implicit, BitVec.toNat_ofNat, Nat.mod_eq_sub_mod full, Nat.mod_eq_of_lt (by omega)]
    omega
  unfold unpack
  simp only [unpackExponent_packComponents, unpackMantissa_packComponents,
    unpackSign_packComponents, Sign.ofBitVec_toBitVec, if_neg top, if_neg bottom, mantissa, stored]

theorem unpack_subnormal {m : ℕ} (s : Sign) (positive : 0 < m)
    (short : m < 2 ^ spec.mantissaBitsWithoutImplicit) :
    unpack spec (packComponents spec s 0#_ (.ofNat _ m)) =
      .finite s m spec.minExponent positive := by
  have top : (0#_ : BitVec spec.exponentBits) ≠ -1#_ :=
    ofNat_ne_minus_one (Nat.one_lt_two_pow spec.he.ne')
  have mantissa : (BitVec.ofNat spec.mantissaBitsWithoutImplicit m).toNat = m := by
    rw [BitVec.toNat_ofNat, Nat.mod_eq_of_lt short]
  have nonzero := ofNat_ne_zero positive short
  have exponent : ((0#_ : BitVec spec.exponentBits).toNat : ℤ)
      - (spec.exponentBias + spec.mantissaBitsWithoutImplicit) + 1 = spec.minExponent := by
    rw [minExponent_eq, BitVec.toNat_ofNat, Nat.zero_mod]
    omega
  unfold unpack
  simp only [unpackExponent_packComponents, unpackMantissa_packComponents,
    unpackSign_packComponents, Sign.ofBitVec_toBitVec, if_neg top, dif_neg nonzero, mantissa,
    exponent, if_true]

theorem unpack_pack {m : ℕ} {e : ℤ} (s : Sign) (canonical : Canonical spec m e)
    (positive : 0 < m)
    (fits : e + spec.exponentBias + spec.mantissaBitsWithoutImplicit + 1 < 2 ^ spec.exponentBits) :
    unpack spec (pack spec (.finite s m e positive)) = .finite s m e positive := by
  have low := minExponent_eq spec
  have bits := two_pow_mantissaBits spec
  have least := canonical.low
  have short := canonical.short
  obtain ⟨field, exponent⟩ := Int.eq_ofNat_of_zero_le
    (show 0 ≤ e + spec.exponentBias + spec.mantissaBitsWithoutImplicit by omega)
  have below : field + 1 < 2 ^ spec.exponentBits := by
    rw [exponent] at fits
    exact_mod_cast fits
  have log := Nat.log2_eq_iff (k := spec.mantissaBitsWithoutImplicit) positive.ne'
  rw [Nat.pow_succ, ← bits] at log
  rw [pack, exponent, Int.toNat_natCast, if_neg (Nat.not_le.mpr below)]
  split_ifs with normal
  · have full := (log.mp (by rw [Format.mantissaBits] at normal; omega)).1
    rw [unpack_normal s positive (by omega) below full short]
    congr 1
    omega
  · have small : m < 2 ^ spec.mantissaBitsWithoutImplicit := by
      by_contra full
      exact normal (by rw [log.mpr ⟨by omega, short⟩, Format.mantissaBits, Nat.add_comm])
    rw [unpack_subnormal s positive small, canonical.full.resolve_left (by omega)]

theorem unpack_pack_roundWithAccuracy {m b : ℕ} {e c : ℤ} (s : Sign) (positive : 0 < m)
    (long : e ≤ spec.targetExponent (totalExponent m e)) (short : b < 2 ^ spec.mantissaBits)
    (low : spec.minExponent ≤ c) (bounded : scaled m e ≤ scaled b c)
    (fits : c + spec.mantissaBits + spec.exponentBias + spec.mantissaBitsWithoutImplicit + 1 <
      2 ^ spec.exponentBits) :
    unpack spec (pack spec (roundWithAccuracy spec s m e .exact)) = .zero s ∨
    ∃ m' e' positive', unpack spec (pack spec (roundWithAccuracy spec s m e .exact)) =
      .finite s m' e' positive' ∧ scaled m' e' ≤ scaled b c := by
  have most := absValue_roundWithAccuracy_le s short low bounded
  obtain zero | ⟨m', e', positive', rounded, canonical⟩ := roundWithAccuracy_cases s positive long
  · rw [zero]
    exact .inl unpack_packedZero
  · rw [rounded] at most ⊢
    change scaled m' e' ≤ scaled b c at most
    have below : e' + 0 ≤ c + spec.mantissaBits :=
      exponent_le (p := 0) positive' (most.trans (scaled_lt short).le)
    exact .inr ⟨m', e', positive', unpack_pack s canonical positive' (by omega), most⟩

end Pack

theorem unpack_mul (x y : Float32) :
    (x * y).toModel.unpack = unpack .binary32 (pack .binary32
      (UnpackedFloat.mul .binary32 x.toModel.unpack y.toModel.unpack)) := rfl

theorem unpack_pack_round {n m' : ℕ} {e' : ℤ} (s : Sign) (positive : 0 < n) (small : n ≤ 0x1000000)
    (same : scaled m' e' = n) :
    ∃ m e positive, unpack .binary32 (pack .binary32 (UnpackedFloat.round .binary32 s m' e')) =
        .finite s m e positive ∧
      Canonical .binary32 m e ∧ 2 ^ 23 ≤ m ∧ scaled m e = n ∧ -23 ≤ e ∧ e ≤ 1 := by
  obtain ⟨m, e, canonical, full, whole, low⟩ :=
    @exists_canonical .binary32 n positive (by exact small) (by decide)
  have positive' : 0 < m := lt_of_lt_of_le (by decide) full
  have below : e + 23 ≤ 24 := by
    apply exponent_le full
    rw [whole]
    exact_mod_cast small
  refine ⟨m, e, positive', ?_, canonical, full, whole, low, by omega⟩
  rw [round_exact s canonical positive' (same.trans whole.symm)]
  apply unpack_pack _ canonical
  norm_num [Format.exponentBias]
  omega

theorem unpack_ofInteger {n : ℕ} (positive : 0 < n) (small : n ≤ 0x1000000) :
    ∃ m e positive, (ofInteger n).toModel.unpack = .finite .positive m e positive ∧
      Canonical .binary32 m e ∧ 2 ^ 23 ≤ m ∧ scaled m e = n ∧ -23 ≤ e ∧ e ≤ 1 := by
  have above : compare (n : ℤ) 0 = .gt := compare_gt_iff_gt.mpr (by omega)
  have normal : UnpackedFloat.ofInt .binary32 n = UnpackedFloat.round .binary32 .positive n 0 := by
    rw [UnpackedFloat.ofInt, UnpackedFloat.normalize, above]
    rfl
  change ∃ m e positive, unpack .binary32 (pack .binary32 (UnpackedFloat.ofInt .binary32 n)) = _ ∧ _
  rw [normal]
  exact unpack_pack_round .positive positive small (by simp [scaled])

end FrameSync
