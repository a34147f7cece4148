import FrameSync.Pulse
import FrameSync.Proofs.Quotient

/-!
Whole numbers in single precision. Up to two to the 24th they are exact, and so are their differences
and halves; a quotient of two of them is the quotient in lowest terms, rounded. Numbers that are exact
compare as the numbers they are.
-/

namespace FrameSync

open Float.Model (Format UnpackedFloat)
open Float.Model.UnpackedFloat

section Order

variable {spec : Format} {m m' : ℕ} {e e' : ℤ} {a b : UnpackedFloat} {p q : ℚ}

def value? : UnpackedFloat → Option ℚ
  | .zero _ => some 0
  | .finite .positive m e _ => some (scaled m e)
  | .finite .negative m e _ => some (-scaled m e)
  | _ => none

theorem scaled_pos (positive : 0 < m) (e : ℤ) : 0 < scaled m e := by
  unfold scaled
  positivity

theorem Canonical.scaled_lt_scaled (canonical : Canonical spec m e)
    (canonical' : Canonical spec m' e') (less : e < e' ∨ e = e' ∧ m < m') :
    scaled m e < scaled m' e' := by
  obtain lower | ⟨rfl, less⟩ := less
  · have full : 2 ^ spec.mantissaBitsWithoutImplicit ≤ m' := by
      have low := canonical.low
      exact canonical'.full.resolve_right (by omega)
    have bits : spec.mantissaBits = 1 + spec.mantissaBitsWithoutImplicit := rfl
    calc scaled m e < 2 ^ (e + spec.mantissaBits) := FrameSync.scaled_lt canonical.short
      _ ≤ 2 ^ (e' + spec.mantissaBitsWithoutImplicit) :=
        zpow_le_zpow_right₀ one_le_two (by omega)
      _ ≤ scaled m' e' := le_scaled full
  · exact lt_of_not_ge fun least => Nat.not_le.mpr less (scaled_le_scaled.mp least)

theorem lt_of_place_lt (held : ∀ s m e positive, a = .finite s m e positive → Canonical spec m e)
    (held' : ∀ s m e positive, b = .finite s m e positive → Canonical spec m e)
    (value : value? a = some p) (value' : value? b = some q) (less : place a < place b) : p < q := by
  rcases a with _ | _ | _ | ⟨_ | _, m, e, positive⟩ <;>
    rcases b with _ | _ | _ | ⟨_ | _, m', e', positive'⟩ <;>
    simp [value?, place, Prod.Lex.lt_iff] at value value' less <;> subst value <;> subst value'
  case zero.finite.positive => exact scaled_pos positive' e'
  case finite.negative.zero => simpa using scaled_pos positive e
  case finite.negative.finite.negative =>
    have canonical := held _ _ _ _ rfl
    have canonical' := held' _ _ _ _ rfl
    exact neg_lt_neg (canonical'.scaled_lt_scaled canonical (by omega))
  case finite.negative.finite.positive =>
    have := scaled_pos positive e
    have := scaled_pos positive' e'
    linarith
  case finite.positive.finite.positive =>
    exact (held _ _ _ _ rfl).scaled_lt_scaled (held' _ _ _ _ rfl) (by omega)

theorem eq_of_place_eq (value : value? a = some p) (value' : value? b = some q)
    (same : place a = place b) : p = q := by
  rcases a with _ | _ | _ | ⟨_ | _, m, e, positive⟩ <;>
    rcases b with _ | _ | _ | ⟨_ | _, m', e', positive'⟩ <;>
    simp [value?, place] at value value' same <;> subst value <;> subst value'
  case zero.zero => rfl
  case finite.negative.finite.negative => rw [same.1, same.2]
  case finite.positive.finite.positive => rw [same.1, same.2]

theorem isNaN_of_value? (value : value? a = some p) : a.isNaN = false := by
  cases a with
  | notANumber => simp [value?] at value
  | _ => rfl

theorem unpack_lt_iff {c d : BitVec spec.numBits} (value : value? (unpack spec c) = some p)
    (value' : value? (unpack spec d) = some q) :
    (unpack spec c).lt (unpack spec d) = true ↔ p < q := by
  have held (b : BitVec spec.numBits) : ∀ s m e positive, unpack spec b = .finite s m e positive →
      Canonical spec m e := fun _ _ _ _ unpacked => canonical_of_unpack unpacked
  rw [lt_iff_place, and_iff_right (isNaN_of_value? value), and_iff_right (isNaN_of_value? value')]
  refine ⟨lt_of_place_lt (held c) (held d) value value', fun less => ?_⟩
  rcases lt_trichotomy (place (unpack spec c)) (place (unpack spec d)) with before | same | behind
  · exact before
  · exact absurd (eq_of_place_eq value value' same) less.ne
  · exact absurd (lt_of_place_lt (held d) (held c) value' value behind) less.asymm

theorem unpack_le_iff {c d : BitVec spec.numBits} (value : value? (unpack spec c) = some p)
    (value' : value? (unpack spec d) = some q) :
    (unpack spec c).le (unpack spec d) = true ↔ p ≤ q := by
  have strict := unpack_lt_iff value' value
  rw [lt_iff_place, and_iff_right (isNaN_of_value? value'),
    and_iff_right (isNaN_of_value? value)] at strict
  rw [le_iff_place, and_iff_right (isNaN_of_value? value), and_iff_right (isNaN_of_value? value'),
    ← not_lt, ← not_lt]
  exact not_congr strict

end Order

def IsExact (x : Float32) (q : ℚ) : Prop := value? x.toModel.unpack = some q

namespace IsExact

variable {x y : Float32} {p q : ℚ}

theorem lt_iff (exact : IsExact x p) (exact' : IsExact y q) : x < y ↔ p < q := by
  change x.lt y = true ↔ _
  rw [Float32.lt, decide_eq_true_iff]
  exact unpack_lt_iff exact exact'

theorem le_iff (exact : IsExact x p) (exact' : IsExact y q) : x ≤ y ↔ p ≤ q := by
  change x.le y = true ↔ _
  rw [Float32.le, decide_eq_true_iff]
  exact unpack_le_iff exact exact'

end IsExact

section Whole

variable {n i j k : ℕ}

theorem ofCount_eq (small : n < 2 ^ 64) : ofCount n = ofInteger n := by
  have stored : n.toUInt64.toNat = n := Nat.mod_eq_of_lt small
  change Float32.ofModel (.pack (UnpackedFloat.ofNat .binary32 n.toUInt64.toNat)) = _
  rw [stored]
  rfl

theorem unpack_ofCount_zero : (ofCount 0).toModel.unpack = .zero .positive := rfl

theorem unpack_ofCount (positive : 0 < n) (small : n ≤ 0x1000000) :
    ∃ m e positive, (ofCount n).toModel.unpack = .finite .positive m e positive ∧
      Canonical .binary32 m e ∧ 2 ^ 23 ≤ m ∧ scaled m e = n ∧ -23 ≤ e ∧ e ≤ 1 := by
  rw [ofCount_eq (by omega)]
  exact unpack_ofInteger positive small

theorem value?_normalize {z M e : ℤ} (small : z.natAbs ≤ 0x1000000) (same : (M * 2 ^ e : ℚ) = z)
    (s : Sign) :
    value? (unpack .binary32 (pack .binary32 (UnpackedFloat.normalize .binary32 M e s))) =
      some (z : ℚ) := by
  have unit : (0 : ℚ) < 2 ^ e := by positivity
  unfold UnpackedFloat.normalize
  rcases lt_trichotomy M 0 with negative | rfl | positive
  · obtain ⟨m', rfl⟩ := Int.exists_eq_neg_ofNat negative.le
    have below : (z : ℚ) < 0 := by
      rw [← same]
      exact mul_neg_of_neg_of_pos (by exact_mod_cast negative) unit
    obtain ⟨n, rfl⟩ := Int.exists_eq_neg_ofNat (Int.cast_nonpos.mp below.le)
    have size : scaled m' e = n := by
      rw [scaled]
      push_cast at same
      linarith
    obtain ⟨m, c, _, unpacked, -, -, whole, -⟩ :=
      unpack_pack_round .negative (n := n) (by simpa using below) (by omega) size
    rw [compare_lt_iff_lt.mpr negative]
    dsimp only
    rw [neg_neg, Int.toNat_natCast, unpacked, value?, whole]
    push_cast
    rfl
  · obtain rfl : z = 0 := by simpa using same.symm
    rw [compare_eq_iff_eq.mpr rfl]
    dsimp only
    rw [show pack .binary32 (.zero s) = packedZero .binary32 s from rfl, unpack_packedZero]
    rfl
  · obtain ⟨m', rfl⟩ := Int.eq_ofNat_of_zero_le positive.le
    have above : (0 : ℚ) < z := by
      rw [← same]
      exact mul_pos (by exact_mod_cast positive) unit
    obtain ⟨n, rfl⟩ := Int.eq_ofNat_of_zero_le (Int.cast_pos.mp above).le
    have size : scaled m' e = n := by
      rw [scaled]
      exact_mod_cast same
    obtain ⟨m, c, _, unpacked, -, -, whole, -⟩ :=
      unpack_pack_round .positive (n := n) (by simpa using above) (by omega) size
    rw [compare_gt_iff_gt.mpr positive]
    dsimp only
    rw [Int.toNat_natCast, unpacked, value?, whole]
    push_cast
    rfl

theorem unpack_pack_single {m : ℕ} {e : ℤ} (s : Sign) (canonical : Canonical .binary32 m e)
    (positive : 0 < m) (fits : e ≤ 104) :
    unpack .binary32 (pack .binary32 (.finite s m e positive)) = .finite s m e positive := by
  apply unpack_pack _ canonical
  norm_num [Format.exponentBias]
  omega

theorem isExact_sub (small : i ≤ 0x1000000) (small' : j ≤ 0x1000000) :
    IsExact (ofCount i - ofCount j) (i - j) := by
  change value? (unpack .binary32 (pack .binary32 (UnpackedFloat.sub .binary32
    (ofCount i).toModel.unpack (ofCount j).toModel.unpack))) = _
  obtain rfl | positive := Nat.eq_zero_or_pos i <;> obtain rfl | positive' := Nat.eq_zero_or_pos j
  · decide +kernel
  · obtain ⟨m, e, nonzero, unpacked, canonical, -, whole, -, high⟩ := unpack_ofCount positive' small'
    rw [unpacked, unpack_ofCount_zero]
    change value? (unpack .binary32 (pack .binary32 (.finite .negative m e nonzero))) = _
    rw [unpack_pack_single _ canonical nonzero (by omega), value?, whole]
    simp
  · obtain ⟨m, e, nonzero, unpacked, canonical, -, whole, -, high⟩ := unpack_ofCount positive small
    rw [unpacked, unpack_ofCount_zero]
    change value? (unpack .binary32 (pack .binary32 (.finite .positive m e nonzero))) = _
    rw [unpack_pack_single _ canonical nonzero (by omega), value?, whole]
    simp
  · obtain ⟨m, e, _, unpacked, -, -, whole, -⟩ := unpack_ofCount positive small
    obtain ⟨m', e', _, unpacked', -, -, whole', -⟩ := unpack_ofCount positive' small'
    -- In units of the smaller exponent both mantissas are whole, and so is their difference.
    have aligned : scaled (m <<< (e - min e e').toNat) (min e e') = i := by
      rw [scaled_shiftLeft m (min_le_left e e'), whole]
    have aligned' : scaled (m' <<< (e' - min e e').toNat) (min e e') = j := by
      rw [scaled_shiftLeft m' (min_le_right e e'), whole']
    rw [unpacked, unpacked']
    change value? (unpack .binary32 (pack .binary32 (UnpackedFloat.normalize .binary32
      ((m <<< (e - min e e').toNat : ℕ) - (m' <<< (e' - min e e').toNat : ℕ)) (min e e') _))) = _
    generalize m <<< (e - min e e').toNat = l at *
    generalize m' <<< (e' - min e e').toNat = l' at *
    have same : ((l - l' : ℤ) * 2 ^ min e e' : ℚ) = (i - j : ℤ) := by
      rw [scaled] at aligned aligned'
      push_cast
      rw [sub_mul, aligned, aligned']
    rw [value?_normalize (by omega) same]
    push_cast
    rfl

theorem unpack_two : (2 : Float32).toModel.unpack = .finite .positive 0x800000 (-22) (by decide) :=
  rfl

theorem isExact_half (positive : 0 < k) (small : k ≤ 0x1000000) :
    IsExact (ofCount k / 2) (k / 2) ∧ IsExact (-(ofCount k / 2)) (-(k / 2)) := by
  obtain ⟨m, e, nonzero, unpacked, canonical, full, whole, low, high⟩ := unpack_ofCount positive small
  have lower : Canonical .binary32 m (e - 1) :=
    ⟨canonical.short, show -149 ≤ e - 1 by omega, .inl full⟩
  have two : scaled 0x800000 (-22) = 2 := by norm_num [scaled]
  have half : (ofCount k / 2).toModel.unpack = .finite .positive m (e - 1) nonzero := by
    rw [unpack_div, unpacked, unpack_two, div_exact lower full nonzero (show -149 < e - 1 by omega)]
    · exact unpack_pack_single _ lower nonzero (by omega)
    · rw [two, scaled_sub_one]
  constructor
  · rw [IsExact, half, value?, scaled_sub_one, whole]
  · change value? (unpack .binary32 (pack .binary32 (ofCount k / 2).toModel.unpack.neg)) = _
    rw [half]
    change value? (unpack .binary32 (pack .binary32 (.finite .negative m (e - 1) nonzero))) = _
    rw [unpack_pack_single _ lower nonzero (by omega), value?, scaled_sub_one, whole]

theorem ofCount_mul_div_mul (positive : 0 < n) (divisor : 0 < k) (small : j * n ≤ 0x1000000)
    (small' : k * n ≤ 0x1000000) : ofCount (j * n) / ofCount (k * n) = ofCount j / ofCount k := by
  have shrinks (i : ℕ) : i ≤ i * n := Nat.le_mul_of_pos_right i positive
  have less := shrinks j
  have less' := shrinks k
  obtain ⟨m₂, e₂, _, unpacked₂, -, -, whole₂, -⟩ :=
    unpack_ofCount (Nat.mul_pos divisor positive) small'
  obtain ⟨m₄, e₄, _, unpacked₄, -, -, whole₄, -⟩ := unpack_ofCount divisor (less'.trans small')
  change Float32.ofModel (.pack (UnpackedFloat.div .binary32 _ (ofCount (k * n)).toModel.unpack)) =
    Float32.ofModel (.pack (UnpackedFloat.div .binary32 _ (ofCount k).toModel.unpack))
  congr 2
  obtain rfl | dividend := Nat.eq_zero_or_pos j
  · rw [unpacked₂, unpacked₄, Nat.zero_mul, unpack_ofCount_zero]
    rfl
  · obtain ⟨m₁, e₁, _, unpacked₁, -, -, whole₁, -⟩ :=
      unpack_ofCount (Nat.mul_pos dividend positive) small
    obtain ⟨m₃, e₃, _, unpacked₃, -, -, whole₃, -⟩ := unpack_ofCount dividend (less.trans small)
    rw [unpacked₁, unpacked₂, unpacked₃, unpacked₄]
    apply div_congr _ rfl
    · rw [whole₁, whole₂, whole₃, whole₄]
      push_cast
      field_simp
    -- The quotient is far from where the format runs out of places.
    · have numerator : (1 : ℚ) ≤ (j * n : ℕ) := by exact_mod_cast Nat.mul_pos dividend positive
      have denominator : ((k * n : ℕ) : ℚ) ≤ 2 ^ 24 := by exact_mod_cast small'
      have nonzero : (0 : ℚ) < (k * n : ℕ) := by exact_mod_cast Nat.mul_pos divisor positive
      have least : (2 : ℚ) ^ (-24 : ℤ) ≤ (j * n : ℕ) / (k * n : ℕ) := by
        rw [zpow_neg, ← one_div]
        exact div_le_div₀ (by positivity) numerator nonzero denominator
      rw [whole₁, whole₂]
      refine le_trans ?_ ((Int.zpow_le_iff_le_log one_lt_two (by positivity)).mp least)
      decide

end Whole

end FrameSync
