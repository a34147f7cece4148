import FrameSync.Proofs.Convolution
import FrameSync.Proofs.RectangularPulse

/-!
The matched bank beside the pulse it is matched to. The prototype is the same pulse at `n` times the
rate, so tap `j * n` of it stands where tap `j` of the pulse does. Its time is the quotient of other
numbers there, but the same quotient: branch zero is the pulse, and the branches behind it are what
lies between the taps of the pulse.
-/

namespace FrameSync

namespace Pulse

variable {shape : PulseShape} {k m n : ℕ} {beta : Float32}

theorem symbolTime_mul (rate : 0 < k) (positive : 0 < n) {j : ℕ} (small : j * n ≤ 0x1000000)
    (small' : k * n ≤ 0x1000000) : symbolTime (k * n) m (j * n) = symbolTime k m j := by
  rw [symbolTime, ofCount_mul_div_mul positive rate small small', symbolTime]

theorem rectangular_mul (rate : 0 < k) (length : 0 < m) (positive : 0 < n)
    (small : 2 * k * m * n < 0x1000000) {j : ℕ} (inside : j < 2 * k * m + 1) :
    rectangular (k * n) m (j * n) = rectangular k m j := by
  have denser : 2 * (k * n) * m = 2 * k * m * n := by ring
  have fewer : 2 * k * m ≤ 2 * k * m * n := Nat.le_mul_of_pos_right _ positive
  have within : j * n ≤ 2 * k * m * n := Nat.mul_le_mul_right n (by omega)
  have window : 2 * (k * n * m) ≤ 2 * (j * n) + k * n ∧ 2 * (j * n) < 2 * (k * n * m) + k * n ↔
      2 * (k * m) ≤ 2 * j + k ∧ 2 * j < 2 * (k * m) + k := by
    have centre : 2 * (k * n * m) = 2 * (k * m) * n := by ring
    have place : 2 * (j * n) = 2 * j * n := (Nat.mul_assoc 2 j n).symm
    rw [centre, place, ← Nat.add_mul, ← Nat.add_mul, Nat.mul_le_mul_right_iff positive,
      Nat.mul_lt_mul_right positive]
  rw [rectangular_eq (Nat.mul_pos rate positive) length (by omega) (by omega),
    rectangular_eq rate length (by omega) inside]
  exact if_congr window rfl rfl

/-- Every `n`-th tap of a pulse at `n` times the rate is a tap of the pulse. -/
theorem tap_mul (rate : 0 < k) (length : 0 < m) (positive : 0 < n)
    (small : 2 * k * m * n < 0x1000000) {j : ℕ} (inside : j < 2 * k * m + 1) :
    tap shape (k * n) m beta (j * n) = tap shape k m beta j := by
  cases shape with
  | rectangular => exact rectangular_mul rate length positive small inside
  | rootRaisedCosine =>
    have within : j * n ≤ 2 * k * m * n := Nat.mul_le_mul_right n (by omega)
    have wide : k ≤ 2 * k * m := by
      rw [Nat.mul_right_comm]
      exact Nat.le_mul_of_pos_left k (by omega)
    have wide : k * n ≤ 2 * k * m * n := Nat.mul_le_mul_right n wide
    rw [tap, symbolTime_mul rate positive (by omega) (by omega), tap]

theorem reach_taps (positive : 0 < n) : reach (taps shape (k * n) m beta) n = 2 * k * m + 1 := by
  have rounded : 2 * (k * n) * m + 1 + n - 1 = n * (2 * k * m + 1) := by
    rw [Nat.add_right_comm, Nat.add_sub_cancel]
    ring
  rw [reach, Nat.ceilDiv_eq_add_pred_div, size_taps, rounded, Nat.mul_div_cancel_left _ positive]

end Pulse

namespace FilterBank

variable {shape : PulseShape} {k m n : ℕ} {beta : Float32}

theorem matched_eq_ok (positive : 0 < n) (rate : 0 < k) (length : 0 < m)
    (band : isBandwidth beta = true) :
    ∃ b, ofPrototype (Pulse.taps shape (k * n) m beta) n = .ok b ∧
      matched shape n k m beta = .ok b ∧ DealtFrom (Pulse.taps shape (k * n) m beta) n b := by
  have designed : Pulse.design shape (k * n) m beta = .ok (Pulse.taps shape (k * n) m beta) :=
    Pulse.design_eq_ok.mpr ⟨Nat.mul_pos rate positive, length, band, rfl⟩
  obtain ⟨b, made, dealt, -⟩ :=
    @ofPrototype_eq_ok (Pulse.taps shape (k * n) m beta) n (by simp) positive
  refine ⟨b, made, ?_, dealt⟩
  rw [matched, if_neg (Nat.ne_of_gt positive), designed]
  exact made

/-- How a bank and a pulse belong together when both come from one shape, the prototype of the bank
at `n` times the rate. -/
structure MatchedTo (n k m : ℕ) (prototype pulse : Array Float32) (b : FilterBank) : Prop where
  dealt : DealtFrom prototype n b
  span : b.span = 2 * k * m + 1
  /-- The prototype has taps for all branches up to the last position, and there one for branch
  zero. -/
  short (branch position : ℕ) (within : branch < n) (inside : position < b.span) :
    prototype.size ≤ position * n + branch ↔ position = 2 * k * m ∧ 0 < branch
  first : b.branches[0]? = some pulse

theorem DealtFrom.matchedTo {b : FilterBank}
    (dealt : DealtFrom (Pulse.taps shape (k * n) m beta) n b) (positive : 0 < n) (rate : 0 < k)
    (length : 0 < m) (small : 2 * k * m * n < 0x1000000) :
    MatchedTo n k m (Pulse.taps shape (k * n) m beta) (Pulse.taps shape k m beta) b := by
  have span : b.span = 2 * k * m + 1 := dealt.span.trans (Pulse.reach_taps positive)
  have denser : 2 * (k * n) * m = 2 * k * m * n := by ring
  have last {position : ℕ} (inside : position < 2 * k * m + 1) : position * n ≤ 2 * k * m * n :=
    Nat.mul_le_mul_right n (by omega)
  refine ⟨dealt, span, ?_, ?_⟩
  · intro branch position within inside
    rw [Pulse.size_taps, denser]
    constructor
    -- Only the first tap of the last position is there.
    · intro beyond
      by_cases earlier : position + 1 < 2 * k * m + 1
      · have room := last earlier
        rw [Nat.add_mul] at room
        omega
      · obtain rfl : position = 2 * k * m := by omega
        exact ⟨rfl, by omega⟩
    · rintro ⟨rfl, later⟩
      omega
  · obtain ⟨row, found, size, taps⟩ := dealt.exists_row positive
    rw [found, Option.some_inj]
    apply Array.ext_getElem?
    intro j
    rw [Pulse.getElem?_taps]
    split
    next inside =>
      have room := last inside
      rw [taps j (by omega), tapAt, Nat.add_zero, Array.getD_eq_getD_getElem?, Pulse.getElem?_taps,
        if_pos (by omega), Option.getD_some, Pulse.tap_mul rate length positive small inside]
    next outside => exact Array.getElem?_eq_none (by omega)

end FilterBank

/-- The bank can be made with the pulse that it is matched to, and has that pulse as branch zero. -/
theorem bank_matches_pulse (shape : PulseShape) {n k m : ℕ} {beta : Float32} (positive : 1 ≤ n)
    (rate : 1 ≤ k) (length : 1 ≤ m) (band : isBandwidth beta = true)
    (small : 2 * k * m * n < 0x1000000) :
    ∃ prototype pulse b, Pulse.design shape (k * n) m beta = .ok prototype ∧
      Pulse.design shape k m beta = .ok pulse ∧ FilterBank.matched shape n k m beta = .ok b ∧
      FilterBank.MatchedTo n k m prototype pulse b := by
  obtain ⟨b, -, made, dealt⟩ := FilterBank.matched_eq_ok positive rate length band
  have designed : Pulse.design shape (k * n) m beta = .ok (Pulse.taps shape (k * n) m beta) :=
    Pulse.design_eq_ok.mpr ⟨Nat.mul_pos rate positive, length, band, rfl⟩
  have designed' : Pulse.design shape k m beta = .ok (Pulse.taps shape k m beta) :=
    Pulse.design_eq_ok.mpr ⟨rate, length, band, rfl⟩
  exact ⟨_, _, b, designed, designed', made, dealt.matchedTo positive rate length small⟩

theorem bank_matches_pulse_five :
    (1 ≤ 5 ∧ 1 ≤ 3 ∧ 1 ≤ 2 ∧ isBandwidth 0.35 = true ∧ 2 * 3 * 2 * 5 < 0x1000000) ∧
      ∃ prototype pulse b, Pulse.design .rootRaisedCosine (3 * 5) 2 0.35 = .ok prototype ∧
        Pulse.design .rootRaisedCosine 3 2 0.35 = .ok pulse ∧
        FilterBank.matched .rootRaisedCosine 5 3 2 0.35 = .ok b ∧
        FilterBank.MatchedTo 5 3 2 prototype pulse b :=
  have band : isBandwidth 0.35 = true := by decide +kernel
  ⟨⟨by decide, by decide, by decide, band, by decide⟩,
    bank_matches_pulse .rootRaisedCosine (by decide) (by decide) (by decide) band (by decide)⟩

end FrameSync
