import FrameSync.Numeric.Angle
import FrameSync.Numeric.Remainder
import FrameSync.Proofs.Conversion

/-!
Which single an angle in double precision is read as. Numbers of the positive sign stand in the order
of their bits, in every format, so the rounding can be followed on the bits alone. A full turn in double
precision is a little less than a full turn in single precision, and the angles nearest to it are
read as the greater one.
-/

namespace FrameSync

open Float.Model (Format UnpackedFloat)
open Float.Model.UnpackedFloat

section Order

variable {spec : Format} {b b' : BitVec spec.numBits}

/-- Bits of a number, an infinity among them, with the positive sign. -/
structure IsUpright (b : BitVec spec.numBits) : Prop where
  positive : b.toNat < 2 ^ (spec.mantissaBitsWithoutImplicit + spec.exponentBits)
  number : (unpack spec b).isNaN = false

def placeOfFields (spec : Format) (field fraction : ℕ) : ℤ ×ₗ ℤ ×ₗ ℤ :=
  if field = 2 ^ spec.exponentBits - 1 then toLex (2, toLex (0, 0))
  else if field = 0 ∧ fraction = 0 then toLex (0, toLex (0, 0))
  else if field = 0 then toLex (1, toLex (spec.minExponent, fraction))
  else toLex (1, toLex (field - (spec.exponentBias + spec.mantissaBitsWithoutImplicit),
    2 ^ spec.mantissaBitsWithoutImplicit + fraction))

theorem toNat_unpackSign (b : BitVec spec.numBits) :
    (unpackSign b).toNat =
      b.toNat / 2 ^ (spec.mantissaBitsWithoutImplicit + spec.exponentBits) % 2 := by
  rw [unpackSign, BitVec.toNat_cast, BitVec.extractLsb_toNat, Nat.shiftRight_eq_div_pow]
  congr 1
  simp

theorem sign_positive
    (low : b.toNat < 2 ^ (spec.mantissaBitsWithoutImplicit + spec.exponentBits)) :
    Sign.ofBitVec (unpackSign b) = .positive := by
  rw [Sign.ofBitVec, if_pos]
  apply BitVec.eq_of_toNat_eq
  rw [toNat_unpackSign, Nat.div_eq_of_lt low]
  rfl

theorem sign_negative
    (high : 2 ^ (spec.mantissaBitsWithoutImplicit + spec.exponentBits) ≤ b.toNat) :
    Sign.ofBitVec (unpackSign b) = .negative := by
  have power := Nat.two_pow_pos (spec.mantissaBitsWithoutImplicit + spec.exponentBits)
  have word := b.isLt
  have width : 2 ^ spec.numBits = 2 * 2 ^ (spec.mantissaBitsWithoutImplicit + spec.exponentBits) := by
    rw [← Nat.pow_succ', Format.numBits]
    congr 1
    omega
  have one : b.toNat / 2 ^ (spec.mantissaBitsWithoutImplicit + spec.exponentBits) = 1 := by
    rw [Nat.div_eq_iff power]
    omega
  rw [Sign.ofBitVec, if_neg]
  intro same
  have same := congrArg BitVec.toNat same
  rw [toNat_unpackSign, one] at same
  exact absurd same (by decide)

theorem unpack_eq_zero_of_negative (sign : Sign.ofBitVec (unpackSign b) = .negative)
    (number : (unpack spec b).isNaN = false) (above : toLex (0, toLex (0, 0)) ≤ place (unpack spec b)) :
    unpack spec b = .zero .negative := by
  unfold unpack at above number ⊢
  simp only [sign] at above number ⊢
  split_ifs at above number ⊢ <;> simp [place, isNaN, Prod.Lex.le_iff] at above number ⊢

theorem isUpright_of_le
    (bounded : b.toNat ≤ (2 ^ spec.exponentBits - 1) * 2 ^ spec.mantissaBitsWithoutImplicit) :
    IsUpright b := by
  have power := Nat.two_pow_pos spec.mantissaBitsWithoutImplicit
  have fields := Nat.two_pow_pos spec.exponentBits
  have parts := Nat.div_add_mod b.toNat (2 ^ spec.mantissaBitsWithoutImplicit)
  have short : b.toNat / 2 ^ spec.mantissaBitsWithoutImplicit < 2 ^ spec.exponentBits := by
    have := Nat.div_le_of_le_mul (Nat.mul_comm _ _ ▸ bounded)
    omega
  constructor
  · rwa [Nat.div_lt_iff_lt_mul power, ← Nat.pow_add, Nat.add_comm] at short
  · rw [← Bool.not_eq_true, isNaN_unpack_iff, not_and, not_not, Nat.mod_eq_of_lt short]
    intro top
    rw [top, Nat.mul_comm] at parts
    omega

theorem IsUpright.field_lt (upright : IsUpright b) :
    b.toNat / 2 ^ spec.mantissaBitsWithoutImplicit < 2 ^ spec.exponentBits := by
  rw [Nat.div_lt_iff_lt_mul (Nat.two_pow_pos _), ← Nat.pow_add, Nat.add_comm]
  exact upright.positive

theorem IsUpright.place_unpack (upright : IsUpright b) :
    place (unpack spec b) = placeOfFields spec
      (b.toNat / 2 ^ spec.mantissaBitsWithoutImplicit)
      (b.toNat % 2 ^ spec.mantissaBitsWithoutImplicit) := by
  have least := minExponent_eq spec
  have sign := sign_positive upright.positive
  have field : (unpackExponent b).toNat = b.toNat / 2 ^ spec.mantissaBitsWithoutImplicit := by
    rw [toNat_unpackExponent, Nat.mod_eq_of_lt upright.field_lt]
  have number := upright.number
  rw [← Bool.not_eq_true, isNaN_unpack, not_and, not_not] at number
  rw [← field, ← toNat_unpackMantissa, placeOfFields, ← toNat_minus_one]
  unfold unpack
  simp only [sign, toNat_implicit, BitVec.toNat_inj]
  by_cases top : unpackExponent b = -1#_
  · simp [top, number top, place]
  rw [if_neg top, if_neg top]
  by_cases subnormal : unpackExponent b = 0#_
  · by_cases zero : unpackMantissa b = 0#_
    · simp [subnormal, zero, place]
    · have nonzero : (unpackMantissa b).toNat ≠ 0 := fun none => zero (BitVec.eq_of_toNat_eq none)
      simp [subnormal, zero, nonzero, place, least]
      ring
  · have nonzero : (unpackExponent b).toNat ≠ 0 :=
      fun none => subnormal (BitVec.eq_of_toNat_eq none)
    simp [subnormal, nonzero, place]

theorem placeOfFields_lt {field field' fraction fraction' : ℕ}
    (short : fraction < 2 ^ spec.mantissaBitsWithoutImplicit)
    (most : field' ≤ 2 ^ spec.exponentBits - 1)
    (number : field' = 2 ^ spec.exponentBits - 1 → fraction' = 0)
    (less : field < field' ∨ field = field' ∧ fraction < fraction') :
    placeOfFields spec field fraction < placeOfFields spec field' fraction' := by
  have least := minExponent_eq spec
  have below : field < 2 ^ spec.exponentBits - 1 := by omega
  have power : ((2 ^ spec.mantissaBitsWithoutImplicit : ℕ) : ℤ) =
      2 ^ spec.mantissaBitsWithoutImplicit := by norm_cast
  unfold placeOfFields
  rw [if_neg below.ne]
  split_ifs <;> simp [Prod.Lex.lt_iff] <;> omega

theorem IsUpright.place_lt_place (upright : IsUpright b) (upright' : IsUpright b')
    (less : b.toNat < b'.toNat) : place (unpack spec b) < place (unpack spec b') := by
  have power := Nat.two_pow_pos spec.mantissaBitsWithoutImplicit
  have number := upright'.number
  rw [← Bool.not_eq_true, isNaN_unpack_iff, not_and, not_not, Nat.mod_eq_of_lt upright'.field_lt]
    at number
  rw [upright.place_unpack, upright'.place_unpack]
  apply placeOfFields_lt (Nat.mod_lt _ power) (Nat.le_sub_one_of_lt upright'.field_lt) number
  have order := Nat.div_le_div_right (c := 2 ^ spec.mantissaBitsWithoutImplicit) less.le
  have parts := Nat.div_add_mod b.toNat (2 ^ spec.mantissaBitsWithoutImplicit)
  have parts' := Nat.div_add_mod b'.toNat (2 ^ spec.mantissaBitsWithoutImplicit)
  obtain same | before := order.eq_or_lt
  · rw [same] at parts
    omega
  · exact .inl before

theorem IsUpright.place_lt_iff (upright : IsUpright b) (upright' : IsUpright b') :
    place (unpack spec b) < place (unpack spec b') ↔ b.toNat < b'.toNat := by
  refine ⟨fun less => ?_, upright.place_lt_place upright'⟩
  by_contra least
  obtain same | more := (Nat.le_of_not_lt least).eq_or_lt
  · rw [BitVec.toNat_inj.mp same] at less
    exact lt_irrefl _ less
  · exact lt_asymm less (upright'.place_lt_place upright more)

end Order

section Words

theorem single_lt_iff_toBits {x y : Float32} (upright : @IsUpright .binary32 x.toBits.toBitVec)
    (upright' : @IsUpright .binary32 y.toBits.toBitVec) :
    x < y ↔ x.toBits.toNat < y.toBits.toNat := by
  have number : x.isNaN = false := upright.number
  have number' : y.isNaN = false := upright'.number
  rw [single_lt_iff, and_iff_right number, and_iff_right number']
  exact upright.place_lt_iff upright'

theorem single_le_iff_toBits {x y : Float32} (upright : @IsUpright .binary32 x.toBits.toBitVec)
    (upright' : @IsUpright .binary32 y.toBits.toBitVec) :
    x ≤ y ↔ x.toBits.toNat ≤ y.toBits.toNat := by
  have number : x.isNaN = false := upright.number
  have number' : y.isNaN = false := upright'.number
  rw [single_le_iff, and_iff_right number, and_iff_right number', ← not_lt, ← Nat.not_lt]
  exact not_congr (upright'.place_lt_iff upright)

theorem double_lt_iff_toBits {x y : Float} (upright : @IsUpright .binary64 x.toBits.toBitVec)
    (upright' : @IsUpright .binary64 y.toBits.toBitVec) :
    x < y ↔ x.toBits.toNat < y.toBits.toNat := by
  have number : x.isNaN = false := upright.number
  have number' : y.isNaN = false := upright'.number
  rw [double_lt_iff, and_iff_right number, and_iff_right number']
  exact upright.place_lt_iff upright'

theorem double_le_iff_toBits {x y : Float} (upright : @IsUpright .binary64 x.toBits.toBitVec)
    (upright' : @IsUpright .binary64 y.toBits.toBitVec) :
    x ≤ y ↔ x.toBits.toNat ≤ y.toBits.toNat := by
  have number : x.isNaN = false := upright.number
  have number' : y.isNaN = false := upright'.number
  rw [double_le_iff, and_iff_right number, and_iff_right number', ← not_lt, ← Nat.not_lt]
  exact not_congr (upright'.place_lt_iff upright)

theorem eq_neg_zero_or_isUpright {x : Float} (nonneg : 0 ≤ x) :
    x = -0 ∨ @IsUpright .binary64 x.toBits.toBitVec := by
  obtain ⟨-, number, above⟩ := double_le_iff.mp nonneg
  by_cases positive : x.toBits.toNat < 2 ^ 63
  · exact .inr ⟨positive, number⟩
  · left
    have unpacked : x.toModel.unpack = .zero .negative :=
      unpack_eq_zero_of_negative (sign_negative (Nat.le_of_not_lt positive)) number above
    rw [← pack_unpack_double x, unpacked]
    decide +kernel

end Words

section Turn

/-- Half way between a full turn in single precision and the number before it. -/
def turnMidpoint : Float := 6.283185243606567

theorem roundedQuotient_le (num den : ℕ) : roundedQuotient num den ≤ num / den + 1 := by
  unfold roundedQuotient
  dsimp only
  split_ifs <;> omega

/-- The numbers here are the bits of a turn in double precision, of a turn in single precision, and of
the midpoint. From an exponent field of 897 on the last 29 places are rounded off, and more below. -/
theorem narrowedBits_turn {size : ℕ} (below : size < 0x401921fb54442d18) :
    narrowedBits (size / 0x10000000000000) (size % 0x10000000000000) ≤ 0x40c90fdb ∧
      (narrowedBits (size / 0x10000000000000) (size % 0x10000000000000) < 0x40c90fdb ↔
        size ≤ 0x401921fb50000000) := by
  unfold narrowedBits
  simp only [Nat.shiftLeft_eq]
  split_ifs with subnormal
  · have many : 2 ^ 30 ≤ 1 * 2 ^ (926 - size / 0x10000000000000) := by
      rw [Nat.one_mul]
      exact Nat.pow_le_pow_right two_pos (by omega)
    have small := roundedQuotient_le (size % 0x10000000000000 + 1 * 2 ^ 52)
      (1 * 2 ^ (926 - size / 0x10000000000000))
    have cut :=
      Nat.div_le_div_left (a := size % 0x10000000000000 + 1 * 2 ^ 52) many (by positivity)
    omega
  · unfold roundedQuotient
    dsimp only
    split_ifs <;> omega

theorem toNat_toBits_narrow {x : Float} (number : x.isNaN = false)
    (below : x.toBits.toNat < 0x401921fb54442d18) :
    (narrow x).toBits.toNat =
      narrowedBits (x.toBits.toNat / 0x10000000000000) (x.toBits.toNat % 0x10000000000000) := by
  have most := (narrowedBits_turn below).1
  have positive : x.toBits.toNat < 2 ^ 63 := by omega
  unfold narrow
  rw [number, if_neg (by decide)]
  dsimp only
  rw [toNat_size_double, Nat.mod_eq_of_lt positive]
  generalize narrowedBits (x.toBits.toNat / 0x10000000000000)
    (x.toBits.toNat % 0x10000000000000) = bits at *
  have word := toNat_narrow_word x.toBits (show bits < 2 ^ 31 by omega)
  rw [Nat.div_eq_of_lt positive, Nat.zero_mul, Nat.zero_add] at word
  rw [toBits_ofBits_single, word]
  apply (@isUpright_of_le .binary32 _ _).number
  rw [UInt32.toNat_toBitVec, word]
  exact most.trans (by decide)

theorem narrow_turn {x : Float} (nonneg : 0 ≤ x) (below : x < fullTurn) :
    0 ≤ narrow x ∧ narrow x ≤ 2 * halfTurn ∧ (narrow x < 2 * halfTurn ↔ x ≤ turnMidpoint) := by
  obtain rfl | upright := eq_neg_zero_or_isUpright nonneg
  · decide +kernel
  have turn : @IsUpright .binary64 fullTurn.toBits.toBitVec := isUpright_of_le (by decide +kernel)
  have middle : @IsUpright .binary64 turnMidpoint.toBits.toBitVec :=
    isUpright_of_le (by decide +kernel)
  have zero : @IsUpright .binary32 (0 : Float32).toBits.toBitVec := isUpright_of_le (by decide +kernel)
  have turn' : @IsUpright .binary32 (2 * halfTurn).toBits.toBitVec :=
    isUpright_of_le (by decide +kernel)
  have bits : x.toBits.toNat < 0x401921fb54442d18 := (double_lt_iff_toBits upright turn).mp below
  have read := toNat_toBits_narrow upright.number bits
  obtain ⟨most, short⟩ := narrowedBits_turn bits
  have upright' : @IsUpright .binary32 (narrow x).toBits.toBitVec := by
    apply isUpright_of_le
    rw [UInt32.toNat_toBitVec, read]
    exact most.trans (by decide)
  rw [single_le_iff_toBits zero upright', single_le_iff_toBits upright' turn',
    single_lt_iff_toBits upright' turn', double_le_iff_toBits upright middle, read]
  exact ⟨Nat.zero_le _, most, short⟩

end Turn

end FrameSync
