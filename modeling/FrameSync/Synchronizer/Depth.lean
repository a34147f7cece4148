import FrameSync.Synchronizer.Execute

/-!
The bound on replays inside one another that `execute` uses is never exceeded, as long as the
detector hands out only samples that it holds.
-/

namespace FrameSync.Synchronizer

variable {C D M F : Type}

theorem detector_consume (s : Synchronizer C D M F) (w : Window) :
    (s.consume w).1.detector = s.detector := by
  unfold consume
  split <;> rfl

variable [DetectorStage D] [BankStage F] [LawfulDetectorStage D]

theorem held_deliver_le (s : Synchronizer C D M F) (y : Sample) :
    DetectorStage.held (s.deliver y).detector ≤ DetectorStage.held s.detector := by
  unfold deliver
  split
  next buffer window _ =>
  cases window with
  | none => exact Nat.le_refl _
  | some w =>
    have kept := detector_consume { s with buffer } w
    dsimp only at kept ⊢
    split
    · next s' h =>
      rw [h] at kept
      exact Nat.le_of_eq (congrArg _ kept)
    · next s' h =>
      rw [h] at kept
      exact kept ▸ LawfulDetectorStage.held_reset s'.detector

variable [MixerStage M]

theorem held_track_le (s : Synchronizer C D M F) (t : Tracking) (x : Sample) :
    DetectorStage.held (s.track t x).detector ≤ DetectorStage.held s.detector := by
  unfold track
  dsimp only
  split
  · exact held_deliver_le _ _
  · exact Nat.le_refl _

/-- A depth of as many replays as there are samples, to come and held, is enough; one less is
enough for the frame that is open already. Samples held afterwards were among them. -/
theorem exists_executeWithin_eq_some (depth : Nat) (s : Synchronizer C D M F) (xs : List Sample)
    (enough : xs.length + DetectorStage.held s.detector ≤ depth + s.isOpen.toNat) :
    ∃ s', executeWithin depth s xs = some s'
      ∧ DetectorStage.held s'.detector ≤ xs.length + DetectorStage.held s.detector := by
  fun_induction executeWithin depth s xs with
  | case1 depth s => exact ⟨s, rfl, by simp⟩
  | case2 depth s x xs t mode ih =>
    have kept := held_track_le s t x
    have isOpen : s.isOpen = true := isOpen_of_tracking mode
    simp only [List.length_cons, isOpen, Bool.toNat_true] at enough ⊢
    obtain ⟨s', h, bound⟩ := ih (by omega)
    exact ⟨s', h, by omega⟩
  | case3 depth s x xs mode detector step ih =>
    have kept := LawfulDetectorStage.held_execute s.detector x
    have isClosed : s.isOpen = false := isOpen_of_searching mode
    simp only [step, Option.elim, List.length_cons, isClosed, Bool.toNat_false] at kept enough ih ⊢
    obtain ⟨s', h, bound⟩ := ih (by omega)
    exact ⟨s', h, by omega⟩
  | case4 s x xs mode detector window step =>
    have isClosed : s.isOpen = false := isOpen_of_searching mode
    simp only [List.length_cons, isClosed, Bool.toNat_false] at enough
    omega
  | case5 s x xs mode detector window step depth s₀ ih₁ ih₂ =>
    have kept := LawfulDetectorStage.held_execute s.detector x
    have isClosed : s.isOpen = false := isOpen_of_searching mode
    simp only [step, Option.elim, List.length_cons, isClosed, Bool.toNat_false] at kept enough ⊢
    obtain ⟨s₁, h₁, bound₁⟩ := ih₁ (by
      change window.toList.length + DetectorStage.held detector ≤ depth + 1
      simp only [Array.length_toList]
      omega)
    change DetectorStage.held s₁.detector ≤ window.toList.length + DetectorStage.held detector
      at bound₁
    simp only [Array.length_toList] at bound₁
    obtain ⟨s₂, h₂, bound₂⟩ := ih₂ s₁ (by dsimp only; omega)
    dsimp only at bound₂
    exact ⟨s₂, by simp [s₀, h₁, h₂], by omega⟩

theorem executeWithin_eq_some_execute (s : Synchronizer C D M F) (xs : List Sample) :
    executeWithin (xs.length + DetectorStage.held s.detector) s xs = some (s.execute xs) := by
  obtain ⟨s', h, _⟩ := exists_executeWithin_eq_some
    (xs.length + DetectorStage.held s.detector) s xs (Nat.le_add_right _ _)
  simp [execute, h]

end FrameSync.Synchronizer
