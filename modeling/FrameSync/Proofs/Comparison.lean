import Mathlib

/-!
How numbers compare, in single and in double precision. Apart from what is not a number, which compares
with nothing, they stand in one line, where both zeros share a place.
-/

namespace FrameSync

open Float.Model (Format UnpackedFloat)
open Float.Model.UnpackedFloat

/-- The place of a number among all: by its kind, then by exponent and mantissa. -/
def place : UnpackedFloat → ℤ ×ₗ ℤ ×ₗ ℤ
  | .infinity .negative => toLex (-2, toLex (0, 0))
  | .finite .negative m e _ => toLex (-1, toLex (-e, -m))
  | .notANumber | .zero _ => toLex (0, toLex (0, 0))
  | .finite .positive m e _ => toLex (1, toLex (e, m))
  | .infinity .positive => toLex (2, toLex (0, 0))

theorem then_eq_lt {e₁ e₂ : ℤ} {m₁ m₂ : ℕ} :
    (compare e₁ e₂).then (compare m₁ m₂) = .lt ↔ e₁ < e₂ ∨ e₁ = e₂ ∧ m₁ < m₂ := by
  rw [Ordering.then_eq_lt, compare_lt_iff_lt, compare_eq_iff_eq, compare_lt_iff_lt]

theorem then_eq_gt {e₁ e₂ : ℤ} {m₁ m₂ : ℕ} :
    (compare e₁ e₂).then (compare m₁ m₂) = .gt ↔ e₂ < e₁ ∨ e₁ = e₂ ∧ m₂ < m₁ := by
  rw [Ordering.then_eq_gt, compare_gt_iff_gt, compare_eq_iff_eq, compare_gt_iff_gt]

theorem isLE_then {e₁ e₂ : ℤ} {m₁ m₂ : ℕ} :
    ((compare e₁ e₂).then (compare m₁ m₂)).isLE = true ↔ e₁ < e₂ ∨ e₁ = e₂ ∧ m₁ ≤ m₂ := by
  rw [Ordering.isLE_iff_ne_gt, then_eq_gt]
  omega

theorem isGE_then {e₁ e₂ : ℤ} {m₁ m₂ : ℕ} :
    ((compare e₁ e₂).then (compare m₁ m₂)).isGE = true ↔ e₂ < e₁ ∨ e₁ = e₂ ∧ m₂ ≤ m₁ := by
  rw [Ordering.isGE_iff_ne_lt, then_eq_lt]
  omega

theorem lt_iff_place {a b : UnpackedFloat} :
    a.lt b = true ↔ a.isNaN = false ∧ b.isNaN = false ∧ place a < place b := by
  rcases a with (_ | _) | _ | _ | ⟨_ | _, m₁, e₁, _⟩ <;>
    rcases b with (_ | _) | _ | _ | ⟨_ | _, m₂, e₂, _⟩ <;>
    simp [UnpackedFloat.lt, UnpackedFloat.compare, isNaN, place, Prod.Lex.lt_iff, then_eq_lt,
      then_eq_gt]
  all_goals decide

theorem le_iff_place {a b : UnpackedFloat} :
    a.le b = true ↔ a.isNaN = false ∧ b.isNaN = false ∧ place a ≤ place b := by
  rcases a with (_ | _) | _ | _ | ⟨_ | _, m₁, e₁, _⟩ <;>
    rcases b with (_ | _) | _ | _ | ⟨_ | _, m₂, e₂, _⟩ <;>
    simp [UnpackedFloat.le, UnpackedFloat.compare, isNaN, place, Prod.Lex.le_iff, isLE_then,
      isGE_then]
  all_goals decide

def withSign (s : Sign) : UnpackedFloat → UnpackedFloat
  | .infinity _ => .infinity s
  | .notANumber => .notANumber
  | .zero _ => .zero s
  | .finite _ m e positive => .finite s m e positive

theorem isNaN_withSign (s : Sign) (a : UnpackedFloat) : isNaN (withSign s a) = isNaN a := by
  cases a <;> rfl

theorem exists_neg_eq_withSign (a : UnpackedFloat) : ∃ s, a.neg = withSign s a := by
  cases a with
  | infinity s => exact ⟨-s, rfl⟩
  | notANumber => exact ⟨.positive, rfl⟩
  | zero s => exact ⟨-s, rfl⟩
  | finite s m e positive => exact ⟨-s, rfl⟩

theorem unpack_eq_withSign {spec : Format} {b b' : BitVec spec.numBits}
    (exponent : unpackExponent b' = unpackExponent b)
    (mantissa : unpackMantissa b' = unpackMantissa b) :
    unpack spec b' = withSign (.ofBitVec (unpackSign b')) (unpack spec b) := by
  unfold unpack
  simp only [exponent, mantissa]
  split_ifs <;> rfl

theorem unpackExponent_pack_withSign {spec : Format} (s : Sign) (a : UnpackedFloat) :
    unpackExponent (pack spec (withSign s a)) = unpackExponent (pack spec a) := by
  cases a with
  | finite s' m e positive =>
    simp only [withSign, pack]
    split_ifs <;> simp [packedInfinity]
  | _ => simp [withSign, pack, packedInfinity, packedZero]

theorem unpackMantissa_pack_withSign {spec : Format} (s : Sign) (a : UnpackedFloat) :
    unpackMantissa (pack spec (withSign s a)) = unpackMantissa (pack spec a) := by
  cases a with
  | finite s' m e positive =>
    simp only [withSign, pack]
    split_ifs <;> simp [packedInfinity]
  | _ => simp [withSign, pack, packedInfinity, packedZero]

section

variable {x y : Float32}

theorem unpack_neg (x : Float32) :
    ∃ s, (-x).toModel.unpack = withSign s x.toModel.unpack := by
  obtain ⟨s, negated⟩ := exists_neg_eq_withSign x.toModel.unpack
  have packed : pack .binary32 x.toModel.unpack = x.toModel.toBits.toBitVec :=
    pack_unpack_of_valid x.toModel.valid
  have same := unpack_eq_withSign
    (@unpackExponent_pack_withSign .binary32 s x.toModel.unpack)
    (unpackMantissa_pack_withSign s x.toModel.unpack)
  rw [packed, ← negated] at same
  exact ⟨_, same⟩

theorem single_lt_iff :
    x < y ↔
      x.isNaN = false ∧ y.isNaN = false ∧ place x.toModel.unpack < place y.toModel.unpack := by
  change x.lt y = true ↔ _
  rw [Float32.lt, decide_eq_true_iff]
  exact lt_iff_place

theorem single_le_iff :
    x ≤ y ↔
      x.isNaN = false ∧ y.isNaN = false ∧ place x.toModel.unpack ≤ place y.toModel.unpack := by
  change x.le y = true ↔ _
  rw [Float32.le, decide_eq_true_iff]
  exact le_iff_place

theorem single_le_of_not_lt (number : x.isNaN = false) (number' : y.isNaN = false)
    (above : ¬x < y) : y ≤ x := by
  rw [single_lt_iff] at above
  exact single_le_iff.mpr ⟨number', number, le_of_not_gt fun less => above ⟨number, number', less⟩⟩

theorem not_lt_of_single_le (least : x ≤ y) : ¬y < x := fun less =>
  not_lt_of_ge (single_le_iff.mp least).2.2 (single_lt_iff.mp less).2.2

theorem double_lt_iff {x y : Float} :
    x < y ↔
      x.isNaN = false ∧ y.isNaN = false ∧ place x.toModel.unpack < place y.toModel.unpack := by
  change x.lt y = true ↔ _
  rw [Float.lt, decide_eq_true_iff]
  exact lt_iff_place

theorem double_le_iff {x y : Float} :
    x ≤ y ↔
      x.isNaN = false ∧ y.isNaN = false ∧ place x.toModel.unpack ≤ place y.toModel.unpack := by
  change x.le y = true ↔ _
  rw [Float.le, decide_eq_true_iff]
  exact le_iff_place

theorem place_zero : place (0 : Float32).toModel.unpack = toLex (0, toLex (0, 0)) := by
  decide +kernel

theorem place_withSign_le (s : Sign) {a : UnpackedFloat}
    (nonneg : toLex (0, toLex (0, 0)) ≤ place a) :
    place (withSign s a) ≤ place a := by
  rcases a with (_ | _) | _ | _ | ⟨_ | _, m, e, _⟩ <;> cases s <;>
    simp [place, withSign, Prod.Lex.le_iff] at nonneg ⊢

theorem neg_le_self (nonneg : 0 ≤ x) : -x ≤ x := by
  obtain ⟨s, negated⟩ := unpack_neg x
  obtain ⟨-, number, above⟩ := single_le_iff.mp nonneg
  have number' : (-x).toModel.unpack.isNaN = false := by
    rw [negated, isNaN_withSign]
    exact number
  rw [place_zero] at above
  rw [single_le_iff, negated]
  exact ⟨number', number, place_withSign_le s above⟩

end

end FrameSync
