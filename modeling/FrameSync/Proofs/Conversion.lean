import FrameSync.Numeric.Conversion
import FrameSync.Proofs.Rounding

/-!
Single precision inside double precision. Widening a single moves its fields, and narrowing moves
them back, so what was stored in double precision is read again unchanged.
-/

namespace FrameSync

open Float.Model (Format)
open Float.Model.UnpackedFloat

theorem roundedQuotient_mul (m : ℕ) {d : ℕ} (positive : 0 < d) : roundedQuotient (m * d) d = m := by
  unfold roundedQuotient
  simp [positive]

theorem lead_bounds {fraction : ℕ} (zero : fraction ≠ 0) (small : fraction < 0x800000) :
    fraction.log2 < 23 ∧ 2 ^ 52 ≤ fraction * 2 ^ (52 - fraction.log2) ∧
      fraction * 2 ^ (52 - fraction.log2) < 2 ^ 53 := by
  have log : fraction.log2 < 23 := (Nat.log2_lt zero).mpr small
  have bounds := mul_two_pow_bounds (Nat.pos_of_ne_zero zero) (52 - fraction.log2)
  rw [Nat.add_sub_cancel' (by omega)] at bounds
  exact ⟨log, bounds⟩

theorem widenedBits_le {exponent fraction : ℕ} (short : exponent < 256)
    (small : fraction < 0x800000) (number : exponent = 255 → fraction = 0) :
    widenedBits exponent fraction ≤ 2047 * 2 ^ 52 := by
  unfold widenedBits
  simp only [Nat.shiftLeft_eq]
  split_ifs with top normal zero
  · rw [number top]
    omega
  · omega
  · omega
  · obtain ⟨log, -, high⟩ := lead_bounds zero small
    omega

theorem narrowedBits_widenedBits {exponent fraction : ℕ} (short : exponent < 256)
    (small : fraction < 0x800000) (number : exponent = 255 → fraction = 0) :
    narrowedBits (widenedBits exponent fraction / 0x10000000000000)
      (widenedBits exponent fraction % 0x10000000000000) = exponent * 0x800000 + fraction := by
  unfold widenedBits
  split_ifs with top normal zero
  · obtain rfl := number top
    subst top
    decide +kernel
  · simp only [narrowedBits, Nat.shiftLeft_eq]
    have field : ((exponent + 896) * 2 ^ 52 + fraction * 2 ^ 29) / 0x10000000000000 =
        exponent + 896 := by omega
    have rest : ((exponent + 896) * 2 ^ 52 + fraction * 2 ^ 29) % 0x10000000000000 + 1 * 2 ^ 52 =
        (fraction + 2 ^ 23) * 2 ^ 29 := by omega
    rw [field, rest, if_neg (by omega), Nat.one_mul, roundedQuotient_mul _ (by decide)]
    omega
  · subst zero
    obtain rfl : exponent = 0 := by omega
    decide +kernel
  · obtain rfl : exponent = 0 := by omega
    obtain ⟨log, low, high⟩ := lead_bounds zero small
    simp only [narrowedBits, Nat.shiftLeft_eq]
    generalize places : 52 - fraction.log2 = d at *
    have field : ((fraction.log2 + 873) * 2 ^ 52 + fraction * 2 ^ d) / 0x10000000000000 =
        fraction.log2 + 874 := by omega
    have rest : ((fraction.log2 + 873) * 2 ^ 52 + fraction * 2 ^ d) % 0x10000000000000 +
        1 * 2 ^ 52 = fraction * 2 ^ d := by omega
    rw [field, rest, if_pos (by omega), show 926 - (fraction.log2 + 874) = d by omega, Nat.one_mul,
      roundedQuotient_mul _ (Nat.two_pow_pos d)]
    omega

section Bits

variable {spec : Format} (b : BitVec spec.numBits)

theorem toNat_unpackMantissa :
    (unpackMantissa b).toNat = b.toNat % 2 ^ spec.mantissaBitsWithoutImplicit := by
  have := spec.hm
  rw [unpackMantissa, BitVec.toNat_cast, BitVec.extractLsb_toNat, Nat.shiftRight_zero]
  congr 2
  omega

theorem toNat_unpackExponent :
    (unpackExponent b).toNat =
      b.toNat / 2 ^ spec.mantissaBitsWithoutImplicit % 2 ^ spec.exponentBits := by
  have := spec.he
  rw [unpackExponent, BitVec.toNat_cast, BitVec.extractLsb_toNat, Nat.shiftRight_eq_div_pow]
  congr 2
  omega

theorem isNaN_unpack :
    (unpack spec b).isNaN = true ↔ unpackExponent b = -1#_ ∧ unpackMantissa b ≠ 0#_ := by
  unfold unpack
  dsimp only
  by_cases top : unpackExponent b = -1#_
  · rw [if_pos top]
    split_ifs with none <;> simp [isNaN, top, none]
  · rw [if_neg top]
    split_ifs <;> simp only [isNaN, top, false_and, Bool.false_eq_true]

theorem isNaN_unpack_iff : (unpack spec b).isNaN = true ↔
    b.toNat / 2 ^ spec.mantissaBitsWithoutImplicit % 2 ^ spec.exponentBits =
      2 ^ spec.exponentBits - 1 ∧ b.toNat % 2 ^ spec.mantissaBitsWithoutImplicit ≠ 0 := by
  rw [isNaN_unpack, ← toNat_unpackMantissa, ← toNat_unpackExponent, ← toNat_minus_one,
    BitVec.toNat_inj, Ne, Ne, ← BitVec.toNat_inj, ← BitVec.toNat_inj, BitVec.toNat_ofNat,
    Nat.zero_mod]

theorem pack_unpack_of_number (wide : 2 ≤ spec.exponentBits)
    (number : (unpack spec b).isNaN = false) : pack spec (unpack spec b) = b := by
  have valid : spec.Valid b := by
    refine ⟨fun top rest => ?_⟩
    cases number.symm.trans ((isNaN_unpack b).mpr ⟨top, rest⟩)
  exact pack_unpack_of_valid valid wide

end Bits

section Words

variable {x : Float32}

theorem toBits_ofBits {b : UInt64} (number : (unpack .binary64 b.toBitVec).isNaN = false) :
    (Float.ofBits b).toBits = b := by
  have packed : pack .binary64 (unpack .binary64 b.toBitVec) = b.toBitVec :=
    @pack_unpack_of_number .binary64 b.toBitVec (by decide) number
  exact congrArg UInt64.ofBitVec packed

theorem toBits_ofBits_single {b : UInt32} (number : (unpack .binary32 b.toBitVec).isNaN = false) :
    (Float32.ofBits b).toBits = b := by
  have packed : pack .binary32 (unpack .binary32 b.toBitVec) = b.toBitVec :=
    @pack_unpack_of_number .binary32 b.toBitVec (by decide) number
  exact congrArg UInt32.ofBitVec packed

theorem fields_of_isNaN (number : x.isNaN = false) :
    x.toBits.toNat % 2 ^ 31 / 0x800000 < 256 ∧ x.toBits.toNat % 2 ^ 31 % 0x800000 < 0x800000 ∧
      (x.toBits.toNat % 2 ^ 31 / 0x800000 = 255 → x.toBits.toNat % 2 ^ 31 % 0x800000 = 0) := by
  have nan := @isNaN_unpack_iff .binary32 x.toBits.toBitVec
  have number : (unpack .binary32 x.toBits.toBitVec).isNaN = false := number
  rw [number, UInt32.toNat_toBitVec] at nan
  simp only [Bool.false_eq_true, false_iff, not_and, not_not] at nan
  omega

theorem toNat_size (x : Float32) : (x.toBits &&& 0x7fffffff).toNat = x.toBits.toNat % 2 ^ 31 := by
  rw [UInt32.toNat_and, ← Nat.and_two_pow_sub_one_eq_mod]
  rfl

theorem toNat_size_double (x : Float) :
    (x.toBits &&& 0x7fffffffffffffff).toNat = x.toBits.toNat % 2 ^ 63 := by
  rw [UInt64.toNat_and, ← Nat.and_two_pow_sub_one_eq_mod]
  rfl

theorem toNat_widen_word (x : Float32) {bits : ℕ} (small : bits < 2 ^ 63) :
    (x.toBits.toUInt64 >>> 31 <<< 63 ||| bits.toUInt64).toNat =
      x.toBits.toNat / 2 ^ 31 * 2 ^ 63 + bits := by
  have word := x.toBits.toNat_lt
  have sign : (x.toBits.toUInt64 >>> 31 <<< 63).toNat = (x.toBits.toNat / 2 ^ 31) <<< 63 := by
    rw [UInt64.toNat_shiftLeft, UInt64.toNat_shiftRight, UInt32.toNat_toUInt64]
    change x.toBits.toNat >>> 31 <<< 63 % 2 ^ 64 = _
    rw [Nat.shiftRight_eq_div_pow, Nat.shiftLeft_eq]
    omega
  have stored : bits.toUInt64.toNat = bits := Nat.mod_eq_of_lt (by omega)
  rw [UInt64.toNat_or, sign, stored, ← Nat.shiftLeft_add_eq_or_of_lt small, Nat.shiftLeft_eq]

theorem toNat_toBits_widen (number : x.isNaN = false) :
    (widen x).isNaN = false ∧ (widen x).toBits.toNat =
      x.toBits.toNat / 2 ^ 31 * 2 ^ 63 +
        widenedBits (x.toBits.toNat % 2 ^ 31 / 0x800000) (x.toBits.toNat % 2 ^ 31 % 0x800000) := by
  obtain ⟨short, small, infinite⟩ := fields_of_isNaN number
  have below := widenedBits_le short small infinite
  unfold widen
  dsimp only
  rw [toNat_size]
  generalize widenedBits (x.toBits.toNat % 2 ^ 31 / 0x800000) (x.toBits.toNat % 2 ^ 31 % 0x800000) =
    bits at *
  have word := toNat_widen_word x (show bits < 2 ^ 63 by omega)
  generalize x.toBits.toUInt64 >>> 31 <<< 63 ||| bits.toUInt64 = b at *
  have number' : (unpack .binary64 b.toBitVec).isNaN = false := by
    rw [← Bool.not_eq_true, @isNaN_unpack_iff .binary64 b.toBitVec, UInt64.toNat_toBitVec, word]
    simp only [not_and, not_not]
    omega
  have stored := toBits_ofBits number'
  refine ⟨?_, by rw [stored, word]⟩
  change (unpack .binary64 (Float.ofBits b).toBits.toBitVec).isNaN = false
  rw [stored, number']

theorem toNat_narrow_word (b : UInt64) {bits : ℕ} (small : bits < 2 ^ 31) :
    ((b >>> 63 <<< 31).toUInt32 ||| bits.toUInt32).toNat = b.toNat / 2 ^ 63 * 2 ^ 31 + bits := by
  have word := b.toNat_lt
  have sign : (b >>> 63 <<< 31).toUInt32.toNat = (b.toNat / 2 ^ 63) <<< 31 := by
    rw [UInt64.toNat_toUInt32, UInt64.toNat_shiftLeft, UInt64.toNat_shiftRight]
    change b.toNat >>> 63 <<< 31 % 2 ^ 64 % 2 ^ 32 = _
    rw [Nat.shiftRight_eq_div_pow, Nat.shiftLeft_eq]
    omega
  have stored : bits.toUInt32.toNat = bits := Nat.mod_eq_of_lt (by omega)
  rw [UInt32.toNat_or, sign, stored, ← Nat.shiftLeft_add_eq_or_of_lt small, Nat.shiftLeft_eq]

theorem pack_unpack_single (x : Float32) : Float32.ofModel (.pack x.toModel.unpack) = x := by
  have packed : pack .binary32 x.toModel.unpack = x.toModel.toBits.toBitVec :=
    pack_unpack_of_valid x.toModel.valid
  have same : Float32.Model.pack x.toModel.unpack = x.toModel :=
    (Float32.Model.mk.injEq ..).mpr (congrArg UInt32.ofBitVec packed)
  rw [same]

theorem ofBits_toBits (x : Float32) : Float32.ofBits x.toBits = x := pack_unpack_single x

theorem pack_unpack_double (x : Float) : Float.ofModel (.pack x.toModel.unpack) = x := by
  have packed : pack .binary64 x.toModel.unpack = x.toModel.toBits.toBitVec :=
    pack_unpack_of_valid x.toModel.valid
  have same : Float.Model.pack x.toModel.unpack = x.toModel :=
    (Float.Model.mk.injEq ..).mpr (congrArg UInt64.ofBitVec packed)
  rw [same]

theorem narrow_widen (x : Float32) : narrow (widen x) = x := by
  cases number : x.isNaN with
  | true =>
    obtain rfl : x = Float32.nan := by simpa using number
    decide +kernel
  | false =>
    obtain ⟨short, small, infinite⟩ := fields_of_isNaN number
    obtain ⟨number', bits⟩ := toNat_toBits_widen number
    have below := widenedBits_le short small infinite
    have back := narrowedBits_widenedBits short small infinite
    unfold narrow
    rw [number', if_neg (by decide)]
    dsimp only
    rw [toNat_size_double, bits, Nat.mul_comm, Nat.mul_add_mod, Nat.mod_eq_of_lt (by omega),
      back]
    refine Eq.trans (congrArg Float32.ofBits ?_) (ofBits_toBits x)
    apply UInt32.toNat_inj.mp
    rw [toNat_narrow_word _ (by omega), bits]
    omega

end Words

end FrameSync
