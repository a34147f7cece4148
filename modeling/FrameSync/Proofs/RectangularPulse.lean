import FrameSync.Proofs.Conversion
import FrameSync.Proofs.Superposition
import FrameSync.Proofs.WholeNumbers

/-!
The rectangular pulse. It is one for exactly as many taps as there are samples to a symbol, for odd
and even numbers alike, so copies that begin a symbol apart cover every sample once: what is sent in
this shape are the symbols themselves, each held until the next.
-/

namespace FrameSync

open Float.Model (UnpackedFloat)
open Float.Model.UnpackedFloat

section Weights

variable {x y : Float32}

theorem unpack_one : (1 : Float32).toModel.unpack = .finite .positive 0x800000 (-23) (by decide) :=
  rfl

theorem unpack_zero : (0 : Float32).toModel.unpack = .zero .positive := rfl

theorem mul_one_single (x : Float32) : x * 1 = x := by
  refine Eq.trans ?_ (pack_unpack_single x)
  change Float32.ofModel (.pack (UnpackedFloat.mul .binary32 x.toModel.unpack
    (1 : Float32).toModel.unpack)) = _
  rw [unpack_one]
  congr 2
  cases unpacked : x.toModel.unpack with
  | notANumber => rfl
  | infinity s => cases s <;> rfl
  | zero s => cases s <;> rfl
  | finite s m e positive =>
    have sign : s * .positive = s := by cases s <;> rfl
    have once : UnpackedFloat.mul .binary32 (.finite s m e positive)
        (.finite .positive 0x800000 (-23) (by decide)) =
          roundWithAccuracy .binary32 (s * .positive) (m * 0x800000) (e + -23) .exact := rfl
    -- One is stored with 23 places behind the point, which the product has too many.
    have exact := roundWithAccuracy_exact s (canonical_of_unpack unpacked) positive 23
    rw [once, sign]
    norm_num at exact
    exact exact

def IsZero (x : Float32) : Prop := ∃ s, x.toModel.unpack = .zero s

theorem isZero_mul_zero (finite : x.isFinite = true) : IsZero (x * 0) := by
  change x.toModel.unpack.isFinite = true at finite
  unfold IsZero
  rw [unpack_mul, unpack_zero]
  cases unpacked : x.toModel.unpack with
  | notANumber => simp [unpacked, isFinite] at finite
  | infinity s => simp [unpacked, isFinite] at finite
  | zero s => exact ⟨_, unpack_packedZero⟩
  | finite s m e positive => exact ⟨_, unpack_packedZero⟩

theorem zero_add_of_isZero (isZero : IsZero x) : 0 + x = 0 := by
  obtain ⟨s, unpacked⟩ := isZero
  change Float32.ofModel (.pack (UnpackedFloat.add .binary32 (0 : Float32).toModel.unpack _)) = _
  rw [unpacked, unpack_zero]
  cases s <;> rfl

theorem zero_add_of_not_isZero (nonzero : ¬IsZero x) : 0 + x = x := by
  refine Eq.trans ?_ (pack_unpack_single x)
  change Float32.ofModel (.pack (UnpackedFloat.add .binary32 (0 : Float32).toModel.unpack _)) = _
  rw [unpack_zero]
  congr 2
  cases unpacked : x.toModel.unpack with
  | zero s => exact absurd ⟨s, unpacked⟩ nonzero
  | _ => rfl

theorem add_of_isZero (nonzero : ¬IsZero x) (isZero : IsZero y) : x + y = x := by
  obtain ⟨s, unpacked'⟩ := isZero
  refine Eq.trans ?_ (pack_unpack_single x)
  change Float32.ofModel (.pack (UnpackedFloat.add .binary32 _ y.toModel.unpack)) = _
  rw [unpacked']
  congr 2
  cases unpacked : x.toModel.unpack with
  | zero s => exact absurd ⟨s, unpacked⟩ nonzero
  | _ => rfl

theorem zero_add_add (isZero : IsZero y) (x : Float32) : 0 + x + y = 0 + x := by
  by_cases zero : IsZero x
  · rw [zero_add_of_isZero zero, zero_add_of_isZero isZero]
  · rw [zero_add_of_not_isZero zero, add_of_isZero zero isZero]

end Weights

namespace Pulse

variable {k m : ℕ}

/-- The place of a tap, told in whole numbers: half a symbol is not one when `k` is odd, so both
sides are doubled. -/
theorem rectangular_eq (rate : 0 < k) (length : 0 < m) (small : 2 * k * m < 0x1000000) {n : ℕ}
    (inside : n < 2 * k * m + 1) :
    rectangular k m n = if 2 * (k * m) ≤ 2 * n + k ∧ 2 * n < 2 * (k * m) + k then 1 else 0 := by
  have wide : k ≤ k * m := Nat.le_mul_of_pos_right k length
  rw [Nat.mul_assoc] at small inside
  have distance : IsExact (ofCount n - ofCount (k * m)) (n - (k * m : ℕ)) :=
    isExact_sub (by omega) (by omega)
  obtain ⟨half, halfBelow⟩ := isExact_half rate (show k ≤ 0x1000000 by omega)
  unfold rectangular
  generalize k * m = centre at *
  have left : -((k : ℚ) / 2) ≤ n - (centre : ℕ) ↔ 2 * centre ≤ 2 * n + k := by
    rw [← @Nat.cast_le ℚ]
    push_cast
    constructor <;> intro <;> linarith
  have right : (n - (centre : ℕ) : ℚ) < k / 2 ↔ 2 * n < 2 * centre + k := by
    rw [← @Nat.cast_lt ℚ]
    push_cast
    constructor <;> intro <;> linarith
  simp only [Bool.and_eq_true, decide_eq_true_eq, halfBelow.le_iff distance, distance.lt_iff half,
    left, right]

end Pulse

/-- A pulse that is one for one symbol, around tap `k * m`, and zero everywhere else. -/
structure OneSymbolWide (k m : ℕ) (pulse : Array Float32) : Prop where
  size : pulse.size = 2 * k * m + 1
  /-- The taps that are one are among the pulse's own, and as many as a symbol has samples. -/
  inside : k / 2 ≤ k * m ∧ k * m + (k + 1) / 2 ≤ pulse.size ∧
    k * m - k / 2 + k = k * m + (k + 1) / 2
  one (n : ℕ) : pulse[n]? = some 1 ↔ k * m - k / 2 ≤ n ∧ n < k * m + (k + 1) / 2
  zero (n : ℕ) (within : n < pulse.size)
    (outside : ¬(k * m - k / 2 ≤ n ∧ n < k * m + (k + 1) / 2)) : pulse[n]? = some 0

/-- Symbols one after the other from sample `first` on, each for `k` samples. Every symbol is added
to a silence, which makes its zeros positive and changes nothing else. -/
def hold (symbols : List Sample) (k first t : ℕ) : Sample :=
  if first ≤ t then (symbols[(t - first) / k]?).elim 0 (0 + ·) else 0

/-- Pulses that begin a symbol apart leave no gap and do not overlap. -/
structure Tiles (k m : ℕ) (pulse : Array Float32) : Prop where
  /-- Of all these pulses one and only one is one at any time. -/
  once (t : ℤ) : ∃! i : ℤ, 0 ≤ t - i * k ∧ pulse[(t - i * k).toNat]? = some 1
  /-- So symbols come one by one. They have to be finite: zero times infinity is not a number, and
  would spoil what other symbols leave. -/
  held (symbols : List Sample)
    (finite : ∀ x ∈ symbols, x.re.isFinite = true ∧ x.im.isFinite = true) (len t : ℕ)
    (within : t < len) :
    (modulate symbols pulse.toList k len)[t]? = some (hold symbols k (k * m - k / 2) t)

namespace Sample

theorem scale_one (x : Sample) : x.scale 1 = x := by
  rw [scale, mul_one_single, mul_one_single]

theorem zero_add_add_scale {x : Sample} (finite : x.re.isFinite = true ∧ x.im.isFinite = true)
    (y : Sample) : 0 + y + x.scale 0 = 0 + y := by
  change (⟨0 + y.re + x.re * 0, 0 + y.im + x.im * 0⟩ : Sample) = ⟨0 + y.re, 0 + y.im⟩
  rw [zero_add_add (isZero_mul_zero finite.1), zero_add_add (isZero_mul_zero finite.2)]

theorem zero_add_zero : (0 + 0 : Sample) = 0 := by decide +kernel

end Sample

section Hold

variable {symbols : List Sample} {k first t : ℕ}

theorem hold_eq_zero_add (symbols : List Sample) (k first t : ℕ) :
    ∃ y, hold symbols k first t = 0 + y := by
  unfold hold
  split
  · cases symbols[(t - first) / k]? with
    | none => exact ⟨0, Sample.zero_add_zero.symm⟩
    | some y => exact ⟨y, rfl⟩
  · exact ⟨0, Sample.zero_add_zero.symm⟩

theorem hold_append_singleton (rate : 0 < k) (symbols : List Sample) (x : Sample) (first t : ℕ) :
    hold (symbols ++ [x]) k first t =
      if first + symbols.length * k ≤ t ∧ t < first + symbols.length * k + k then 0 + x
      else hold symbols k first t := by
  have turn : first ≤ t → ((t - first) / k = symbols.length ↔
      first + symbols.length * k ≤ t ∧ t < first + symbols.length * k + k) := by
    intro begun
    rw [Nat.div_eq_iff rate]
    omega
  unfold hold
  by_cases begun : first ≤ t
  · rw [if_pos begun, if_pos begun]
    split
    next due => rw [(turn begun).mpr due, List.getElem?_concat_length, Option.elim_some]
    next other =>
      have other := mt (turn begun).mp other
      rcases Nat.lt_or_gt_of_ne other with earlier | later
      · rw [List.getElem?_append_left earlier]
      · rw [List.getElem?_eq_none (by simp; omega), List.getElem?_eq_none later.le]
  · rw [if_neg begun, if_neg begun, if_neg (by omega)]

theorem hold_eq_zero (rate : 0 < k) (ended : first + symbols.length * k ≤ t) :
    hold symbols k first t = 0 := by
  have past : symbols.length ≤ (t - first) / k := (Nat.le_div_iff_mul_le rate).mpr (by omega)
  rw [hold, List.getElem?_eq_none past, Option.elim_none, ite_self]

end Hold

namespace OneSymbolWide

variable {k m : ℕ} {pulse : Array Float32}

theorem tap (wide : OneSymbolWide k m pulse) {n : ℕ} (within : n < pulse.size) :
    pulse.toList.getD n 0 = if k * m - k / 2 ≤ n ∧ n < k * m + (k + 1) / 2 then 1 else 0 := by
  rw [List.getD_eq_getElem?_getD, Array.getElem?_toList]
  split
  next inside => rw [(wide.one n).mpr inside, Option.getD_some]
  next outside => rw [wide.zero n within outside, Option.getD_some]

theorem superposition_eq (wide : OneSymbolWide k m pulse) (rate : 0 < k) (symbols : List Sample)
    (finite : ∀ x ∈ symbols, x.re.isFinite = true ∧ x.im.isFinite = true) (t : ℕ) :
    superposition symbols pulse.toList k t = hold symbols k (k * m - k / 2) t := by
  have fits := wide.inside
  have size : pulse.toList.length = pulse.size := Array.length_toList
  induction symbols using List.reverseRecOn with
  | nil => simp [superposition, covering, Sample.sum, hold]
  | append_singleton symbols x ih =>
    have ih := ih fun y member => finite y (List.mem_append_left _ member)
    have finite : x.re.isFinite = true ∧ x.im.isFinite = true := finite x (by simp)
    have weight : t - symbols.length * k < pulse.size → _ := wide.tap
    rw [superposition_concat, ih, size, hold_append_singleton rate]
    generalize k * m - k / 2 = first at *
    -- In its turn the last symbol comes to a sum of zero; else its tap is zero, or there is none.
    by_cases due : first + symbols.length * k ≤ t ∧ t < first + symbols.length * k + k
    · rw [if_pos (by omega), if_pos due, weight (by omega), if_pos (by omega),
        hold_eq_zero rate due.1, Sample.scale_one]
    · obtain ⟨y, before⟩ := hold_eq_zero_add symbols k first t
      rw [if_neg due, before]
      split
      next reached => rw [weight reached.2, if_neg (by omega), Sample.zero_add_add_scale finite]
      · rfl

theorem once (wide : OneSymbolWide k m pulse) (rate : 0 < k) (t : ℤ) :
    ∃! i : ℤ, 0 ≤ t - i * k ∧ pulse[(t - i * k).toNat]? = some 1 := by
  have fits := wide.inside
  simp only [wide.one]
  generalize k * m - k / 2 = first at *
  -- The number of the pulse is a quotient rounded down, before the first pulse as behind it.
  have turn (i : ℤ) : (0 ≤ t - i * k ∧ first ≤ (t - i * k).toNat ∧
      (t - i * k).toNat < k * m + (k + 1) / 2) ↔ (t - first) / k = i := by
    rw [← fits.2.2, Int.ediv_eq_iff_of_pos (by omega)]
    omega
  simp only [turn]
  exact ⟨_, rfl, fun i here => here.symm⟩

theorem tiles (wide : OneSymbolWide k m pulse) (rate : 0 < k) : Tiles k m pulse where
  once := wide.once rate
  held symbols finite len t within := by
    rw [getElem?_modulate, if_pos within, wide.superposition_eq rate symbols finite]

end OneSymbolWide

namespace Pulse

variable {k m : ℕ}

theorem oneSymbolWide_taps (rate : 0 < k) (length : 0 < m) (small : 2 * k * m < 0x1000000)
    (beta : Float32) : OneSymbolWide k m (taps .rectangular k m beta) := by
  have wide : k ≤ k * m := Nat.le_mul_of_pos_right k length
  have size : (taps .rectangular k m beta).size = 2 * k * m + 1 := size_taps
  have twice : 2 * k * m = 2 * (k * m) := Nat.mul_assoc 2 k m
  have window (n : ℕ) : (2 * (k * m) ≤ 2 * n + k ∧ 2 * n < 2 * (k * m) + k) ↔
      (k * m - k / 2 ≤ n ∧ n < k * m + (k + 1) / 2) := by omega
  have value {n : ℕ} (inside : n < 2 * k * m + 1) : (taps .rectangular k m beta)[n]? =
      some (if k * m - k / 2 ≤ n ∧ n < k * m + (k + 1) / 2 then 1 else 0) := by
    simp only [getElem?_taps, if_pos inside, tap, rectangular_eq rate length small inside, window]
  refine ⟨size, by omega, fun n => ?_, fun n within outside => ?_⟩
  · by_cases inside : n < 2 * k * m + 1
    · have distinct : (0 : Float32) ≠ 1 := by decide +kernel
      rw [value inside]
      split <;> simp_all
    · rw [getElem?_taps, if_neg inside]
      simp only [reduceCtorEq, false_iff]
      omega
  · rw [value (size ▸ within), if_neg outside]

end Pulse

/-- The pulse of this shape is as long as a symbol, whatever the rate and the length. -/
theorem rectangular_tiles {k m : ℕ} {beta : Float32} (rate : 1 ≤ k) (length : 1 ≤ m)
    (small : 2 * k * m < 0x1000000) (band : isBandwidth beta = true) :
    ∃ pulse, Pulse.design .rectangular k m beta = .ok pulse ∧ OneSymbolWide k m pulse ∧
      Tiles k m pulse :=
  have wide := Pulse.oneSymbolWide_taps rate length small beta
  ⟨_, Pulse.design_eq_ok.mpr ⟨rate, length, band, rfl⟩, wide, wide.tiles rate⟩

theorem rectangular_tiles_three :
    (1 ≤ 3 ∧ 1 ≤ 2 ∧ 2 * 3 * 2 < 0x1000000 ∧ isBandwidth 0.5 = true) ∧
      ∃ pulse, Pulse.design .rectangular 3 2 0.5 = .ok pulse ∧ OneSymbolWide 3 2 pulse ∧
        Tiles 3 2 pulse :=
  have band : isBandwidth 0.5 = true := by decide +kernel
  ⟨⟨by decide, by decide, by decide, band⟩,
    rectangular_tiles (by decide) (by decide) (by decide) band⟩

end FrameSync
