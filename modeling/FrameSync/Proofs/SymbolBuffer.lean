import FrameSync.SymbolBuffer
import Mathlib.Tactic.SplitIfs

/-!
The symbol buffer as a queue. Its view is the list of pending symbols: a push appends to it, and
full windows come off its front. The cells past the pending symbols play no part.
-/

namespace FrameSync

abbrev symbolsOf (windows : List Window) : List Sample := windows.flatMap Array.toList

namespace SymbolBuffer

def HasRoom (b : SymbolBuffer) : Prop := b.count < b.length

theorem ofLength_eq_ok {l : Nat} {b : SymbolBuffer} (made : ofLength l = .ok b) :
    b.HasRoom ∧ b.length = l ∧ b.count = 0 := by
  unfold ofLength at made
  split at made
  · simp [refuse] at made
  · split at made
    · simp at made
    · cases made
      refine ⟨?_, by simp [length], rfl⟩
      simp only [HasRoom, length, Array.size_replicate]
      omega

theorem length_le_of_ofLength {l : Nat} {b : SymbolBuffer} (made : ofLength l = .ok b) :
    b.length ≤ storageLimit := by
  rw [(ofLength_eq_ok made).2.1]
  unfold ofLength at made
  split_ifs at made
  · cases made
  · omega

theorem ofLength_of_le {l : Nat} (positive : 0 < l) (stored : l ≤ storageLimit) :
    ofLength l = .ok ⟨Array.replicate l 0, 0⟩ := by
  rw [ofLength, if_neg (by omega), if_neg (by omega)]

theorem size_pending {b : SymbolBuffer} (room : b.HasRoom) : b.pending.size = b.count := by
  unfold HasRoom length at room
  simp only [pending, Array.size_extract]
  omega

theorem pending_eq_empty {b : SymbolBuffer} (empty : b.count = 0) : b.pending = #[] := by
  simp [pending, empty]

theorem hasRoom_clear {b : SymbolBuffer} (room : b.HasRoom) : b.clear.HasRoom :=
  Nat.zero_lt_of_lt room

def written (b : SymbolBuffer) (x : Sample) : Array Sample := b.storage.setIfInBounds b.count x

@[simp] theorem size_written (b : SymbolBuffer) (x : Sample) : (b.written x).size = b.length := by
  simp [written, length]

theorem extract_written {b : SymbolBuffer} (room : b.HasRoom) (x : Sample) :
    (b.written x).extract 0 (b.count + 1) = b.pending.push x := by
  unfold HasRoom length at room
  apply Array.ext
  · simp only [written, pending, Array.size_extract, Array.size_setIfInBounds, Array.size_push]
    omega
  · intro i hi _
    simp only [written, Array.size_extract, Array.size_setIfInBounds] at hi
    simp only [written, pending, Array.getElem_extract, Array.getElem_push, Array.size_extract]
    rw [Array.getElem_setIfInBounds (by omega)]
    split <;> split <;> first | rfl | omega

theorem push_cases {b : SymbolBuffer} (room : b.HasRoom) (x : Sample) :
    (b.count + 1 < b.length ∧ b.push x = (⟨b.written x, b.count + 1⟩, none)) ∨
    (b.count + 1 = b.length ∧ b.push x = (⟨b.written x, 0⟩, some (b.written x))) := by
  have size := size_written b x
  unfold HasRoom at room
  unfold written at size
  unfold push written
  dsimp only
  rw [size]
  split
  · next full => exact .inr ⟨full, rfl⟩
  · next short => exact .inl ⟨by omega, rfl⟩

@[simp] theorem length_push {b : SymbolBuffer} (room : b.HasRoom) (x : Sample) :
    (b.push x).1.length = b.length := by
  obtain ⟨-, step⟩ | ⟨-, step⟩ := push_cases room x <;> rw [step] <;> exact size_written b x

theorem hasRoom_push {b : SymbolBuffer} (room : b.HasRoom) (x : Sample) :
    (b.push x).1.HasRoom := by
  have length := length_push room x
  unfold HasRoom at room ⊢
  rw [length]
  obtain ⟨short, step⟩ | ⟨-, step⟩ := push_cases room x <;> rw [step]
  · exact short
  · exact Nat.zero_lt_of_lt room

theorem pending_push {b : SymbolBuffer} (room : b.HasRoom) {x : Sample}
    (notFull : (b.push x).2 = none) : (b.push x).1.pending = b.pending.push x := by
  obtain ⟨-, step⟩ | ⟨-, step⟩ := push_cases room x
  · rw [step]
    exact extract_written room x
  · simp [step] at notFull

theorem push_eq_some {b : SymbolBuffer} (room : b.HasRoom) {x : Sample} {w : Window}
    (full : (b.push x).2 = some w) :
    w = b.pending.push x ∧ w.size = b.length ∧ (b.push x).1.count = 0 := by
  obtain ⟨-, step⟩ | ⟨last, step⟩ := push_cases room x
  · simp [step] at full
  · rw [step] at full ⊢
    cases full
    rw [← extract_written room x, last, ← size_written b x, Array.extract_size]
    exact ⟨rfl, rfl, rfl⟩

/-- No symbol is lost, added or moved by a push: what it hands out and what is pending after it
are what was pending before it and the new symbol. -/
theorem symbolsOf_push {b : SymbolBuffer} (room : b.HasRoom) (x : Sample) :
    symbolsOf (b.push x).2.toList ++ (b.push x).1.pending.toList = b.pending.toList ++ [x] := by
  cases handed : (b.push x).2 with
  | none => simp [pending_push room handed]
  | some w =>
    obtain ⟨rfl, _, empty⟩ := push_eq_some room handed
    simp [pending_eq_empty empty]

theorem flush_rest (storage : Array Sample) {l : Nat} (positive : 0 < l) (start count : Nat) :
    let rest := (flush storage l start count).2
    rest.1 + rest.2 = start + count ∧ rest.2 < l := by
  fun_induction flush storage l start count with
  | case1 start count more windows rest step ih =>
    rw [step] at ih
    dsimp only at ih ⊢
    omega
  | case2 start count fewer =>
    dsimp only
    omega

theorem size_of_mem_flush {storage : Array Sample} {l start count : Nat}
    (fits : start + count ≤ storage.size) {w : Window}
    (member : w ∈ (flush storage l start count).1) : w.size = l := by
  fun_induction flush storage l start count with
  | case1 start count more windows rest step ih =>
    rw [step] at ih
    rw [List.mem_cons] at member
    cases member with
    | inl first =>
      rw [first, Array.size_extract]
      omega
    | inr later => exact ih (by omega) later
  | case2 => simp at member

theorem symbolsOf_flush {storage : Array Sample} {l start count : Nat}
    (fits : start + count ≤ storage.size) :
    let (windows, start', count') := flush storage l start count
    symbolsOf windows ++ (storage.extract start' (start' + count')).toList
      = (storage.extract start (start + count)).toList := by
  fun_induction flush storage l start count with
  | case1 start count more windows rest step ih =>
    rw [step] at ih
    dsimp only at ih ⊢
    rw [symbolsOf, List.flatMap_cons, List.append_assoc]
    rw [symbolsOf] at ih
    rw [ih (by omega), ← Array.toList_append, Array.extract_append_extract]
    congr 2 <;> omega
  | case2 => simp

theorem extract_rightpad {storage : Array Sample} {l count : Nat} (fewer : count < l)
    (fits : count ≤ storage.size) :
    ((storage.take l).rightpad l 0).extract 0 count = storage.extract 0 count := by
  apply Array.ext
  · simp only [Array.size_extract, Array.size_rightpad, Array.take_eq_extract]
    omega
  · intro i hi _
    simp only [Array.size_extract] at hi
    simp only [Array.getElem_extract, Array.rightpad, Array.take_eq_extract]
    rw [Array.getElem_append_left (by simp only [Array.size_extract]; omega),
      Array.getElem_extract]
    simp

theorem resize_eq_ok {b b' : SymbolBuffer} {l : Nat} {windows : List Window}
    (room : b.HasRoom) (done : b.resize l = .ok (b', windows)) :
    b'.HasRoom ∧ b'.length = l ∧ (∀ w ∈ windows, w.size = l)
      ∧ symbolsOf windows ++ b'.pending.toList = b.pending.toList := by
  unfold HasRoom length at room
  unfold resize at done
  split at done
  · simp [refuse] at done
  next nonzero =>
  split at done
  · next fewer =>
    split at done
    · simp at done
    cases done
    have size : ((b.storage.take l).rightpad l 0).size = l := by
      simp only [Array.size_rightpad, Array.take_eq_extract, Array.size_extract]
      omega
    refine ⟨?_, size, by simp, ?_⟩
    · unfold HasRoom length
      rw [size]
      exact fewer
    · simp only [pending, symbolsOf, List.flatMap_nil, List.nil_append]
      rw [extract_rightpad fewer (by omega)]
  · next enough =>
    have fits : 0 + b.count ≤ b.storage.size := by omega
    have rest := flush_rest b.storage (Nat.pos_of_ne_zero nonzero) 0 b.count
    have sizes := @size_of_mem_flush _ l _ _ fits
    have symbols := @symbolsOf_flush _ l _ _ fits
    generalize flush b.storage l 0 b.count = cut at done rest sizes symbols
    obtain ⟨windows', start, count⟩ := cut
    cases done
    dsimp only at rest sizes symbols
    have size : (b.storage.extract start (start + count)).size = count := by
      simp only [Array.size_extract]
      omega
    have length : (b.storage.extract start (start + count)
        ++ b.storage.extract count l).size = l := by
      simp only [Array.size_append, Array.size_extract]
      omega
    refine ⟨?_, length, fun w member => sizes member, ?_⟩
    · unfold HasRoom SymbolBuffer.length
      rw [length]
      exact rest.2
    · simp only [pending]
      have front : (b.storage.extract start (start + count)
          ++ b.storage.extract count l).extract 0 count
          = b.storage.extract start (start + count) := by
        rw [Array.extract_append, Array.extract_eq_self_of_le (Nat.le_of_eq size), size]
        simp
      rw [front, symbols, Nat.zero_add]

theorem length_le_of_resize {b b' : SymbolBuffer} {l : Nat} {windows : List Window}
    (room : b.HasRoom) (stored : b.length ≤ storageLimit)
    (done : b.resize l = .ok (b', windows)) : b'.length ≤ storageLimit := by
  rw [(resize_eq_ok room done).2.1]
  unfold HasRoom at room
  unfold resize at done
  split at done
  · simp [refuse] at done
  split at done
  · split at done
    · simp at done
    · omega
  · omega

/-- A list of symbols can be cut into windows of one length and a shorter rest in one way only. -/
theorem windows_unique {l : Nat} {windows windows' : List Window} {rest rest' : List Sample}
    (sizes : ∀ w ∈ windows, w.size = l) (sizes' : ∀ w ∈ windows', w.size = l)
    (short : rest.length < l) (short' : rest'.length < l)
    (same : symbolsOf windows ++ rest = symbolsOf windows' ++ rest') :
    windows = windows' ∧ rest = rest' := by
  induction windows generalizing windows' with
  | nil =>
    cases windows' with
    | nil => exact ⟨rfl, same⟩
    | cons w windows' =>
      have size := sizes' w List.mem_cons_self
      have lengths := congrArg List.length same
      simp only [symbolsOf, List.flatMap_nil, List.flatMap_cons, List.length_append,
        List.length_nil, Array.length_toList] at lengths
      omega
  | cons w windows ih =>
    rw [List.forall_mem_cons] at sizes
    cases windows' with
    | nil =>
      have lengths := congrArg List.length same
      simp only [symbolsOf, List.flatMap_nil, List.flatMap_cons, List.length_append,
        List.length_nil, Array.length_toList] at lengths
      omega
    | cons w' windows' =>
      rw [List.forall_mem_cons] at sizes'
      simp only [symbolsOf, List.flatMap_cons, List.append_assoc] at same
      have front : w.toList.length = w'.toList.length := by
        rw [Array.length_toList, Array.length_toList, sizes.1, sizes'.1]
      obtain ⟨first, later⟩ := List.append_inj same front
      obtain ⟨rfl, rfl⟩ := ih sizes.2 sizes'.2 later
      rw [Array.toList_inj.mp first]
      exact ⟨rfl, rfl⟩

end SymbolBuffer

end FrameSync
