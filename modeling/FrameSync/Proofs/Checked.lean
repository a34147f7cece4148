import FrameSync.Proofs.Comparison
import FrameSync.Proofs.Sound

/-!
The stages and the buffer with a check before every access. Storage must have the cell or the piece
that is asked for, pieces of a copy must match, no remainder is by zero, and a clamp needs bounds in
order. Each checked operation does what the unchecked one does, on all states that can be reached.
-/

namespace FrameSync

inductive Trap where
  | cell
  | piece
  /-- A copy between pieces of different sizes. -/
  | mismatch
  | divisor
  /-- The bounds of a clamp are out of order, or one of them is not a number. -/
  | bounds
  | overflow
deriving DecidableEq

/-- What comes after the checks, unless one of them has found something. -/
abbrev Checked (α : Type) := Except Trap α

@[simp] theorem ok_bind {α β : Type} (a : α) (f : α → Checked β) :
    ((.ok a : Checked α) >>= f) = f a := rfl

@[simp] theorem pure_eq_ok {α : Type} (a : α) : (pure a : Checked α) = .ok a := rfl

namespace Checked

section

variable {α : Type} {xs ys : Array α} {i start stop n d : Nat}

def store (xs : Array α) (i : Nat) (x : α) : Checked (Array α) :=
  if i < xs.size then .ok (xs.setIfInBounds i x) else .error .cell

def load (xs : Array α) (i : Nat) : Checked α :=
  match xs[i]? with
  | some x => .ok x
  | none => .error .cell

def slice (xs : Array α) (start stop : Nat) : Checked (Array α) :=
  if start ≤ stop ∧ stop ≤ xs.size then .ok (xs.extract start stop) else .error .piece

def splitAt (xs : List α) (n : Nat) : Checked (List α × List α) :=
  if n ≤ xs.length then .ok (xs.take n, xs.drop n) else .error .piece

def copy (size : Nat) (xs : Array α) : Checked (Array α) :=
  if size = xs.size then .ok xs else .error .mismatch

def modulo (n d : Nat) : Checked Nat :=
  if d = 0 then .error .divisor else .ok (n % d)

def minus (n d : Nat) : Checked Nat :=
  if d ≤ n then .ok (n - d) else .error .overflow

def clamped (x low high : Float32) : Checked Float32 :=
  if low ≤ high then .ok (clamp x low high) else .error .bounds

def int32 (z : Int) : Checked Int :=
  if -0x80000000 ≤ z ∧ z < 0x80000000 then .ok z else .error .overflow

def word32 (n : Nat) : Checked Nat :=
  if n < 0x100000000 then .ok n else .error .overflow

theorem store_eq (within : i < xs.size) (x : α) : store xs i x = .ok (xs.setIfInBounds i x) :=
  if_pos within

theorem load_eq (within : i < xs.size) : load xs i = .ok xs[i] := by
  rw [load, Array.getElem?_eq_getElem within]

theorem slice_eq (order : start ≤ stop) (within : stop ≤ xs.size) :
    slice xs start stop = .ok (xs.extract start stop) :=
  if_pos ⟨order, within⟩

theorem splitAt_eq {xs : List α} (within : n ≤ xs.length) :
    splitAt xs n = .ok (xs.take n, xs.drop n) :=
  if_pos within

theorem copy_eq (same : n = xs.size) : copy n xs = .ok xs :=
  if_pos same

theorem modulo_eq (positive : 0 < d) : modulo n d = .ok (n % d) :=
  if_neg (Nat.ne_of_gt positive)

theorem minus_eq (within : d ≤ n) : minus n d = .ok (n - d) :=
  if_pos within

theorem clamped_eq {low high : Float32} (order : low ≤ high) (x : Float32) :
    clamped x low high = .ok (clamp x low high) :=
  if_pos order

theorem int32_eq {z : Int} (low : -0x80000000 ≤ z) (high : z < 0x80000000) : int32 z = .ok z :=
  if_pos ⟨low, high⟩

theorem word32_eq (within : n < 0x100000000) : word32 n = .ok n :=
  if_pos within

end

end Checked

open Checked

namespace Detector

def checkedPush (d : Detector) (x : Sample) : Checked Detector := do
  let ring ← store d.ring d.next x
  let ring ← store ring (d.next + d.windowLength) x
  let next ← modulo (d.next + 1) d.windowLength
  return { d with
    ring
    next
    filled := if d.filled < d.template.length then d.filled + 1 else d.filled }

theorem checkedPush_eq {d : Detector} (doubled : d.Doubled) (x : Sample) :
    d.checkedPush x = .ok (d.push x) := by
  have size := doubled.size
  have next := doubled.next
  have first : d.next < d.ring.size := by omega
  have second : d.next + d.windowLength < (d.ring.setIfInBounds d.next x).size := by
    rw [Array.size_setIfInBounds]
    omega
  rw [checkedPush, store_eq first, ok_bind, store_eq second, ok_bind,
    modulo_eq (Nat.zero_lt_of_lt next)]
  rfl

def checkedCorrelate (d : Detector) : Checked Correlation := do
  let recent ← slice d.ring (d.next + 1) (d.next + d.windowLength)
  let (x, x') ← splitAt recent.toList d.template.first.length
  let (s, s') ← splitAt d.template.samples d.template.first.length
  let first := Template.dot x s
  let second := Template.dot x' s'
  let received := Template.energyOf recent.toList
  let metric :=
    if 0 < received then
      (first.magnitude + second.magnitude) / (received * d.template.energy).sqrt
    else 0
  return { metric, first, second }

theorem checkedCorrelate_eq {d : Detector} (doubled : d.Doubled) :
    d.checkedCorrelate = .ok (d.template.correlate d.recent.toList) := by
  have size := doubled.size
  have next := doubled.next
  have halves : d.windowLength = d.template.first.length + d.template.second.length + 1 := rfl
  have length : d.template.first.length ≤
      (d.ring.extract (d.next + 1) (d.next + d.windowLength)).toList.length := by
    rw [Array.length_toList, Array.size_extract]
    omega
  have whole : d.template.first.length ≤ d.template.samples.length := by
    rw [Template.samples, List.length_append]
    omega
  rw [checkedCorrelate, slice_eq (by omega) (by omega), ok_bind, splitAt_eq length, ok_bind]
  dsimp only
  rw [splitAt_eq whole, ok_bind, Template.samples, List.take_left, List.drop_left]
  rfl

end Detector

namespace Template

def checkedEstimate (t : Template) (peak : Correlation) (left right range : Float32) :
    Checked Estimate := do
  let bend := left - 2 * peak.metric + right
  let timing ←
    if bend < -1e-9 then clamped (0.5 * (left - right) / bend) (-0.5) 0.5 else pure 0
  let frequency ← clamped ((peak.second * peak.first.conj).phase / t.lag) (-range) range
  return {
    metric := peak.metric
    timing
    gain := (peak.first.magnitude + peak.second.magnitude) / t.energy
    frequency
    phase := peak.first.phase - frequency * t.centroid }

theorem checkedEstimate_eq (t : Template) (peak : Correlation) (left right : Float32)
    {range : Float32} (positive : 0 ≤ range) :
    t.checkedEstimate peak left right range = .ok (t.estimate peak left right range) := by
  have half : (-0.5 : Float32) ≤ 0.5 := by decide +kernel
  rw [checkedEstimate, clamped_eq half, clamped_eq (neg_le_self positive), estimate, parabolaTop]
  dsimp only
  split <;> rfl

end Template

namespace Detector

/-- Nothing but a detection needs a check. -/
def checkedTrack (d : Detector) (c : Correlation) : Checked (Detector × Option (Array Sample)) :=
  match d.peak with
  | some peak =>
    if c.metric ≤ peak.correlation.metric then do
      let estimate ← d.template.checkedEstimate peak.correlation peak.left c.metric d.range
      let window ← slice d.ring d.next (d.next + d.windowLength)
      let window ← copy d.windowLength window
      return ({ d with estimate }.rearm, some window)
    else return d.track c
  | none => return d.track c

theorem checkedTrack_eq {d : Detector} (doubled : d.Doubled) (positive : 0 ≤ d.range)
    (c : Correlation) : d.checkedTrack c = .ok (d.track c) := by
  have size := doubled.size
  have next := doubled.next
  unfold checkedTrack
  cases peak : d.peak with
  | none => rfl
  | some p =>
    dsimp only
    split
    · next falls =>
      rw [d.template.checkedEstimate_eq _ _ _ positive, ok_bind,
        slice_eq (Nat.le_add_right _ _) (by omega), ok_bind, ← window,
        copy_eq (size_window doubled).symm, ok_bind, track_falls peak falls, peak]
      rfl
    · rfl

def checkedExecute (d : Detector) (x : Sample) : Checked (Detector × Option (Array Sample)) := do
  let d ← d.checkedPush x
  if d.filled < d.template.length then return (d, none)
  else
    let c ← d.checkedCorrelate
    d.checkedTrack c

theorem checkedExecute_eq {d : Detector} (doubled : d.Doubled) (positive : 0 ≤ d.range)
    (x : Sample) : d.checkedExecute x = .ok (d.execute x) := by
  have doubled' := doubled_push doubled x
  rw [checkedExecute, checkedPush_eq doubled, ok_bind, execute]
  split
  · rfl
  · rw [checkedCorrelate_eq doubled', ok_bind]
    exact checkedTrack_eq doubled' positive _

end Detector

namespace FilterBank

def checkedPush (b : FilterBank) (x : Sample) : Checked FilterBank := do
  let ring ← store b.ring b.next x
  let next ← modulo (b.next + 1) b.span
  return { b with ring, next }

theorem checkedPush_eq {b : FilterBank} (regular : b.Regular) (x : Sample) :
    b.checkedPush x = .ok (b.push x) := by
  have within : b.next < b.ring.size := by
    rw [regular.ring]
    exact regular.next
  rw [checkedPush, store_eq within, ok_bind, modulo_eq (Nat.zero_lt_of_lt regular.next)]
  rfl

def checkedPast (b : FilterBank) (age : Nat) : Checked Sample := do
  let newest ← minus (b.next + b.span) 1
  let place ← minus newest age
  let place ← modulo place b.span
  load b.ring place

theorem checkedPast_eq {b : FilterBank} (regular : b.Regular) {age : Nat} (kept : age < b.span) :
    b.checkedPast age = .ok (b.past age) := by
  have within : (b.next + b.span - 1 - age) % b.span < b.ring.size := by
    rw [regular.ring]
    exact Nat.mod_lt _ (Nat.zero_lt_of_lt kept)
  rw [checkedPast, minus_eq (by omega), ok_bind, minus_eq (by omega), ok_bind,
    modulo_eq (Nat.zero_lt_of_lt kept), ok_bind, load_eq within, past, Array.getD_eq_getD_getElem?,
    Array.getElem?_eq_getElem within]
  rfl

def checkedSum (b : FilterBank) : List Float32 → Nat → Sample → Checked Sample
  | [], _, sum => return sum
  | c :: taps, age, sum => do
    let x ← b.checkedPast age
    b.checkedSum taps (age + 1) (sum + x.scale c)

theorem checkedSum_eq {b : FilterBank} (regular : b.Regular) {taps : List Float32} {age : Nat}
    (kept : age + taps.length ≤ b.span) (sum : Sample) :
    b.checkedSum taps age sum = .ok (b.weightedSum taps age sum) := by
  induction taps generalizing age sum with
  | nil => rfl
  | cons c taps ih =>
    rw [List.length_cons] at kept
    rw [checkedSum, checkedPast_eq regular (by omega), ok_bind, ih (by omega), weightedSum]

def checkedOutput (b : FilterBank) (index : Nat) : Checked Sample := do
  let last ← minus b.branchCount 1
  let taps ← load b.branches (min index last)
  let sum ← b.checkedSum taps.toList 0 0
  return sum.scale b.scale

theorem checkedOutput_eq {b : FilterBank} (regular : b.Regular) (index : Nat) :
    b.checkedOutput index = .ok (b.output index) := by
  have branches := regular.branches
  have within : min index (b.branchCount - 1) < b.branches.size := by
    unfold branchCount at branches ⊢
    omega
  have taps := regular.taps _ (Array.getElem_mem within)
  rw [checkedOutput, minus_eq branches, ok_bind, load_eq within, ok_bind, checkedSum_eq regular,
    ok_bind, output, Array.getD_eq_getD_getElem?, Array.getElem?_eq_getElem within]
  · rfl
  · rw [Array.length_toList, taps, Nat.zero_add]

end FilterBank

namespace SymbolBuffer

def checkedPending (b : SymbolBuffer) : Checked (Array Sample) := slice b.storage 0 b.count

theorem checkedPending_eq {b : SymbolBuffer} (room : b.HasRoom) :
    b.checkedPending = .ok b.pending :=
  slice_eq (Nat.zero_le _) (Nat.le_of_lt room)

def checkedPush (b : SymbolBuffer) (x : Sample) : Checked (SymbolBuffer × Option Window) := do
  let storage ← store b.storage b.count x
  if b.count + 1 = storage.size then return (⟨storage, 0⟩, some storage)
  else return (⟨storage, b.count + 1⟩, none)

theorem checkedPush_eq {b : SymbolBuffer} (room : b.HasRoom) (x : Sample) :
    b.checkedPush x = .ok (b.push x) := by
  rw [checkedPush, store_eq room, ok_bind, push]
  split <;> rfl

example (x : Sample) : checkedPush ⟨#[], 0⟩ x = .error .cell := rfl

def checkedFlush (storage : Array Sample) (l start count : Nat) :
    Checked (List Window × Nat × Nat) :=
  if _h : 0 < l ∧ l ≤ count then do
    let window ← slice storage start (start + l)
    let (windows, rest) ← checkedFlush storage l (start + l) (count - l)
    return (window :: windows, rest)
  else return ([], start, count)
termination_by count
decreasing_by omega

theorem checkedFlush_eq {storage : Array Sample} {l start count : Nat}
    (fits : start + count ≤ storage.size) :
    checkedFlush storage l start count = .ok (flush storage l start count) := by
  fun_induction flush storage l start count with
  | case1 start count more windows rest step ih =>
    rw [checkedFlush, dif_pos more, slice_eq (Nat.le_add_right _ _) (by omega), ok_bind,
      ih (by omega), ok_bind, step]
    rfl
  | case2 start count fewer =>
    rw [checkedFlush, dif_neg fewer]
    rfl

/-- Storage that only grows or shrinks behind the pending symbols needs no check. Otherwise the rest
is copied to the front of the storage. -/
def checkedResize (b : SymbolBuffer) (l : Nat) :
    Checked (Except Fault (SymbolBuffer × List Window)) :=
  if l = 0 ∨ b.count < l then return b.resize l
  else do
    let (windows, start, count) ← checkedFlush b.storage l 0 b.count
    let rest ← slice b.storage start (start + count)
    let _front ← slice b.storage 0 count
    return .ok (⟨rest ++ b.storage.extract count l, count⟩, windows)

theorem checkedResize_eq {b : SymbolBuffer} (room : b.HasRoom) (l : Nat) :
    b.checkedResize l = .ok (b.resize l) := by
  unfold HasRoom length at room
  unfold checkedResize
  split
  · rfl
  next enough =>
  rw [not_or] at enough
  have rest := flush_rest b.storage (Nat.pos_of_ne_zero enough.1) 0 b.count
  rw [checkedFlush_eq (by omega), ok_bind, resize, if_neg enough.1, if_neg enough.2]
  generalize flush b.storage l 0 b.count = cut at rest
  obtain ⟨windows, start, count⟩ := cut
  dsimp only at rest ⊢
  rw [slice_eq (Nat.le_add_right _ _) (by omega), ok_bind, slice_eq (Nat.zero_le _) (by omega)]
  rfl

end SymbolBuffer

end FrameSync
