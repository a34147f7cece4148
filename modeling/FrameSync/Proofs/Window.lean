import FrameSync.Detector

/-!
The detector's ring as a window that slides over the samples. Every cell is there twice, a ring's
length apart, so the window is one piece of the ring wherever it starts.
-/

namespace FrameSync.Detector

/-- The second half of the ring holds what the first half holds. -/
structure Doubled (d : Detector) : Prop where
  size : d.ring.size = 2 * d.windowLength
  next : d.next < d.windowLength
  twice : ∀ j < d.windowLength, d.ring[j + d.windowLength]? = d.ring[j]?

theorem doubled_ofTemplate (t : Template) : (ofTemplate t).Doubled where
  size := Array.size_replicate
  next := Nat.zero_lt_succ _
  twice j within := by
    change j < t.length + 1 at within
    change (Array.replicate (2 * (t.length + 1)) 0)[j + (t.length + 1)]? =
      (Array.replicate (2 * (t.length + 1)) 0)[j]?
    rw [Array.getElem?_replicate, Array.getElem?_replicate, if_pos (by omega), if_pos (by omega)]

theorem doubled_reset {d : Detector} (doubled : d.Doubled) : d.reset.Doubled where
  size := Array.size_replicate.trans doubled.size
  next := Nat.zero_lt_succ _
  twice j within := by
    have size := doubled.size
    change j < d.windowLength at within
    change (Array.replicate d.ring.size 0)[j + d.windowLength]? =
      (Array.replicate d.ring.size 0)[j]?
    rw [Array.getElem?_replicate, Array.getElem?_replicate, if_pos (by omega), if_pos (by omega)]

theorem ring_push {d : Detector} (doubled : d.Doubled) (x : Sample) {j : Nat}
    (within : j < 2 * d.windowLength) :
    (d.push x).ring[j]? =
      if j = d.next ∨ j = d.next + d.windowLength then some x else d.ring[j]? := by
  have size := doubled.size
  have next := doubled.next
  change ((d.ring.setIfInBounds d.next x).setIfInBounds (d.next + d.windowLength) x)[j]? = _
  rw [Array.getElem?_setIfInBounds, Array.getElem?_setIfInBounds, Array.size_setIfInBounds]
  by_cases second : d.next + d.windowLength = j
  · rw [if_pos second, if_pos (by omega), if_pos (.inr second.symm)]
  · rw [if_neg second]
    by_cases first : d.next = j
    · rw [if_pos first, if_pos (by omega), if_pos (.inl first.symm)]
    · rw [if_neg first, if_neg (by omega)]

theorem next_push {d : Detector} (doubled : d.Doubled) (x : Sample) :
    (d.next + 1 < d.windowLength ∧ (d.push x).next = d.next + 1) ∨
    (d.next + 1 = d.windowLength ∧ (d.push x).next = 0) := by
  have next := doubled.next
  change (_ ∧ (d.next + 1) % d.windowLength = _) ∨ (_ ∧ (d.next + 1) % d.windowLength = _)
  by_cases last : d.next + 1 = d.windowLength
  · rw [last, Nat.mod_self]
    exact .inr ⟨rfl, rfl⟩
  · have short : d.next + 1 < d.windowLength := by omega
    exact .inl ⟨short, Nat.mod_eq_of_lt short⟩

theorem doubled_push {d : Detector} (doubled : d.Doubled) (x : Sample) : (d.push x).Doubled where
  size := by
    change ((d.ring.setIfInBounds d.next x).setIfInBounds (d.next + d.windowLength) x).size = _
    rw [Array.size_setIfInBounds, Array.size_setIfInBounds]
    exact doubled.size
  next := Nat.mod_lt _ (Nat.zero_lt_succ _)
  twice j within := by
    change j < d.windowLength at within
    change (d.push x).ring[j + d.windowLength]? = _
    have next := doubled.next
    rw [ring_push doubled x (by omega), ring_push doubled x (by omega), doubled.twice j within]
    by_cases written : j = d.next
    · rw [if_pos (by omega), if_pos (by omega)]
    · rw [if_neg (by omega), if_neg (by omega)]

theorem size_window {d : Detector} (doubled : d.Doubled) : d.window.size = d.windowLength := by
  have size := doubled.size
  have next := doubled.next
  rw [window, Array.size_extract]
  omega

theorem getElem?_window {d : Detector} {j : Nat} (within : j < d.windowLength) :
    d.window.toList[j]? = d.ring[d.next + j]? := by
  rw [Array.getElem?_toList, window, Array.getElem?_extract]
  split
  · rfl
  · exact (Array.getElem?_eq_none (by omega)).symm

theorem window_push {d : Detector} (doubled : d.Doubled) (x : Sample) :
    (d.push x).window.toList = d.window.toList.tail ++ [x] := by
  have next := doubled.next
  have length : d.window.toList.tail.length = d.windowLength - 1 := by
    rw [List.length_tail, Array.length_toList, size_window doubled]
  have length' : (d.push x).window.toList.length = d.windowLength :=
    size_window (doubled_push doubled x)
  apply List.ext_getElem?
  intro j
  by_cases within : j < d.windowLength
  · have moved : (d.push x).window.toList[j]? = (d.push x).ring[(d.push x).next + j]? :=
      getElem?_window within
    rw [moved, ring_push doubled x]
    · by_cases last : j + 1 = d.windowLength
      · rw [List.getElem?_append_right (by omega), length, show j - (d.windowLength - 1) = 0 by omega]
        cases next_push doubled x <;> exact if_pos (by omega)
      · rw [List.getElem?_append_left (by omega), List.getElem?_tail, getElem?_window (by omega)]
        cases next_push doubled x with
        | inl short =>
          rw [if_neg (by omega), short.2, Nat.add_assoc, Nat.add_comm 1]
        | inr wrapped =>
          rw [if_neg (by omega), wrapped.2, Nat.zero_add, ← doubled.twice j within]
          congr 1
          omega
    · cases next_push doubled x <;> omega
  · rw [List.getElem?_eq_none (by omega), List.getElem?_eq_none]
    rw [List.length_append, length, List.length_singleton]
    omega

theorem toList_recent (d : Detector) : d.recent.toList = d.window.toList.tail := by
  rw [recent, window, Array.toList_extract, Array.toList_extract, List.extract_eq_drop_take',
    List.extract_eq_drop_take', ← List.drop_one, List.drop_drop]

end FrameSync.Detector
